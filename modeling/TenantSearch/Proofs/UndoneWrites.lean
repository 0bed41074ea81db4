-- What becomes of rows that are reindexed when calls fail in any pattern and a save
-- that fails is undone: each is rewritten in full and counted, or left as it was.
import TenantSearch.Proofs.BucketCounts
import TenantSearch.Proofs.FailingIndexing
import TenantSearch.Proofs.RewrittenRows

namespace TenantSearch

open Service

/-! ## Saves that are undone -/

/-- The document that a step saves, if it saves one. -/
def Step.saves? : Step → Option Fields
  | .call (.database (.commit _ document _)) => some document
  | _ => none

/-- The identifiers under which documents are saved in these moments. -/
def savedIds (moments : List Moment) : List Json :=
  moments.filterMap fun m => m.step.saves?.map (·.look "id")

/-- Frail calls that are no saves. -/
def besidesSaves (frail : Call → Prop) (c : Call) : Prop :=
  frail c ∧ (Step.call c).saves? = none

namespace World

/-- What may become of a step when the frail calls may fail, and a save that fails
leaves nothing behind. The database lists solutions in any order. -/
inductive Undoes (frail : Call → Prop) (w : World) : (s : Step) → s.Reply → World → Prop
  | met {s : Step} {r : s.Reply} {w' : World} (meets : w.Meets (besidesSaves frail) s r w') :
      Undoes frail w s r w'
  | undone {c : Call} (o : Outage) (plans : List OutagePlan) (may : frail c) :
      Undoes frail w (.call c) (.error o) (w.calling c plans)
  | listed {cutoff : Timestamp} {solutions : List String} (plans : List OutagePlan)
      (order : solutions.Perm (w.records.staleSolutions cutoff)) :
      Undoes frail w (.call (.database (.staleSolutions (some cutoff)))) (.ok solutions)
        (w.calling (.database (.staleSolutions (some cutoff))) plans)

/-- Steps that save nothing and leave the records alone. -/
structure Idle (w w' : World) (moments : List Moment) : Prop where
  circumstances : w'.circumstances = w.circumstances
  definitions : w'.definitions = w.definitions
  records : w'.records = w.records
  saves : savedIds moments = []

theorem Idle.refl (w : World) : w.Idle w [] := ⟨rfl, rfl, rfl, rfl⟩

theorem Idle.trans {w w' w'' : World} {first second : List Moment} (h : w.Idle w' first)
    (h' : w'.Idle w'' second) : w.Idle w'' (first ++ second) where
  circumstances := h'.circumstances.trans h.circumstances
  definitions := h'.definitions.trans h.definitions
  records := h'.records.trans h.records
  saves := by
    have hfirst := h.saves
    have hsecond := h'.saves
    unfold savedIds at *
    rw [List.filterMap_append, hfirst, hsecond]
    rfl

section

variable {frail : Call → Prop} {w w' : World}

theorem Undoes.frame {s : Step} {r : s.Reply} (h : w.Undoes frail s r w') :
    w'.circumstances = w.circumstances ∧ w'.definitions = w.definitions := by
  cases h with
  | met meets => exact ⟨meets.circumstances, meets.definitions⟩
  | undone => exact ⟨rfl, rfl⟩
  | listed => exact ⟨rfl, rfl⟩

theorem Undoes.idle {s : Step} {r : s.Reply} (h : w.Undoes frail s r w')
    (unsaved : s.saves? = none) : w.Idle w' [⟨s, w, w'⟩] := by
  refine ⟨h.frame.1, h.frame.2, ?_, ?_⟩
  · cases h with
    | met meets =>
      refine meets.records fun found document stamp hs => ?_
      rw [hs] at unsaved
      cases unsaved
    | undone => rfl
    | listed => rfl
  · unfold savedIds
    rw [List.filterMap_cons, unsaved]
    rfl

theorem Undoes.of_plans {s : Step} (h : w.Plans (besidesSaves frail)) :
    w.Undoes frail s (w.answer s).1 (w.answer s).2 := .met (h.meets s)

/-- A step that is no call is answered by the world. -/
theorem Undoes.own_answer {s : Step} (own : ∀ c, s ≠ .call c) {r : s.Reply}
    (h : w.Undoes frail s r w') : r = (w.answer s).1 := by
  cases h with
  | met meets =>
    cases meets with
    | call => exact absurd rfl (own _)
    | own => rfl
  | undone => exact absurd rfl (own _)
  | listed => exact absurd rfl (own _)

/-- A lookup of definitions gives those of the entity, or fails. -/
theorem Undoes.definitions_answer {solutionId entityName entityType : Json}
    {r : (Step.call (.database (.definitions solutionId entityName entityType))).Reply}
    (h : w.Undoes frail (.call (.database (.definitions solutionId entityName entityType))) r w') :
    r = EntityDefinition.rowsFor w.definitions solutionId entityName entityType ∨
      (∃ o, r = .error o) ∧ frail (.database (.definitions solutionId entityName entityType)) := by
  cases h with
  | undone o _ may => exact Or.inr ⟨⟨o, rfl⟩, may⟩
  | met meets =>
    cases meets with
    | own own => exact absurd rfl (own _)
    | call answers =>
      cases answers with
      | answered => exact Or.inl rfl
      | failed o _ may => exact Or.inr ⟨⟨o, rfl⟩, may.1⟩
      | lost o _ may => exact Or.inr ⟨⟨o, rfl⟩, may.1⟩

/-- A page query that cannot fail is answered from the records. -/
theorem Undoes.page_answer {query : StalePage} (firm : ¬ frail (.database (.page query)))
    {r : (Step.call (.database (.page query))).Reply}
    (h : w.Undoes frail (.call (.database (.page query))) r w') : r = w.records.page query := by
  cases h with
  | undone _ _ may => exact absurd may firm
  | met meets =>
    cases meets with
    | own own => exact absurd rfl (own _)
    | call answers =>
      cases answers with
      | answered => rfl
      | failed _ _ may => exact absurd may.1 firm
      | lost _ _ may => exact absurd may.1 firm

/-- A listing that cannot fail gives the solutions with stale rows, in any order. -/
theorem Undoes.listing_answer {cutoff : Timestamp}
    (firm : ¬ frail (.database (.staleSolutions (some cutoff))))
    {r : (Step.call (.database (.staleSolutions (some cutoff)))).Reply}
    (h : w.Undoes frail (.call (.database (.staleSolutions (some cutoff)))) r w') :
    ∃ solutions, r = .ok solutions ∧ solutions.Perm (w.records.staleSolutions cutoff) := by
  cases h with
  | undone _ _ may => exact absurd may firm
  | listed _ order => exact ⟨_, rfl, order⟩
  | met meets =>
    cases meets with
    | own own => exact absurd rfl (own _)
    | call answers =>
      cases answers with
      | answered => exact ⟨_, rfl, .refl _⟩
      | failed _ _ may => exact absurd may.1 firm
      | lost _ _ may => exact absurd may.1 firm

/-- A lookup of a row finds it, or fails. -/
theorem Undoes.lookUp_answer {id : Json} {r : (Step.call (.database (.lookUp id))).Reply}
    (h : w.Undoes frail (.call (.database (.lookUp id))) r w') :
    r = w.records.rowOf id ∨ (∃ o, r = .error o) ∧ frail (.database (.lookUp id)) := by
  cases h with
  | undone o _ may => exact Or.inr ⟨⟨o, rfl⟩, may⟩
  | met meets =>
    cases meets with
    | own own => exact absurd rfl (own _)
    | call answers =>
      cases answers with
      | answered => exact Or.inl rfl
      | failed o _ may => exact Or.inr ⟨⟨o, rfl⟩, may.1⟩
      | lost o _ may => exact Or.inr ⟨⟨o, rfl⟩, may.1⟩

/-- A commit takes effect and is answered, or it fails and leaves the records alone. -/
theorem Undoes.commit_answer {found : Option Record} {document saved : Fields}
    {stamp : Option Timestamp} {table : RecordTable}
    (hcommit : w.records.commit found document stamp = .ok (saved, table))
    {r : (Step.call (.database (.commit found document stamp))).Reply}
    (h : w.Undoes frail (.call (.database (.commit found document stamp))) r w') :
    r = .ok saved ∧ w'.records = table ∨
      (∃ o, r = .error o) ∧ w'.records = w.records ∧
        frail (.database (.commit found document stamp)) := by
  cases h with
  | undone o _ may => exact Or.inr ⟨⟨o, rfl⟩, rfl, may⟩
  | met meets =>
    cases meets with
    | own own => exact absurd rfl (own _)
    | call answers =>
      cases answers with
      | answered plans =>
        have heffect : (w.calling (.database (.commit found document stamp)) plans).effect
            (.database (.commit found document stamp)) =
              (w.calling (.database (.commit found document stamp)) plans).answerDatabase
                (.commit found document stamp) := rfl
        have hrecords : (w.calling (.database (.commit found document stamp)) plans).records =
            w.records := rfl
        rw [heffect, World.answerDatabase_commit, hrecords, hcommit]
        exact Or.inl ⟨rfl, rfl⟩
      | failed _ _ may => cases may.2
      | lost _ _ may => cases may.2

end

end World

/-- A program that saves nothing leaves the records alone. -/
theorem Prog.Through.idle {α : Type} {frail : Call → Prop} {p : Prog α} {w w' : World}
    {moments : List Moment} {a : α} (h : p.Through (World.Undoes frail) w moments a w')
    (unsaved : ∀ m ∈ moments, m.step.saves? = none) : w.Idle w' moments := by
  induction h with
  | done a w => exact .refl w
  | step meets _ ih =>
    have hfirst := meets.idle (unsaved _ List.mem_cons_self)
    exact hfirst.trans (ih fun m hm => unsaved m (List.mem_cons_of_mem _ hm))

/-! ## Rows that are rewritten -/

/-- No call that a row needs to be rewritten can fail: neither the lookup of its schema
nor its own, nor a commit under its identifier. -/
structure Record.Unhindered (frail : Call → Prop) (r : Record) : Prop where
  schema : ¬ frail (.database
    (.definitions (.str r.solutionId) (.str r.entityName) (.ofText? r.entityType)))
  lookUp : ¬ frail (.database (.lookUp (.str r.id)))
  commit : ∀ found document stamp, document.look "id" = .str r.id →
    ¬ frail (.database (.commit found document stamp))

/-- A row that reindexing is for: it is not reserved, its schema can be read and its
texts merged. -/
structure Record.IsDue (definitions : List EntityDefinition) (now : Timestamp) (r : Record) :
    Prop where
  unreserved : r.entityName ∉ reservedEntities
  readable : (r.rewritten? definitions now).isSome = true

namespace World

/-- Some of these rows were rewritten, and no others. -/
structure Rewrote (frail : Call → Prop) (w w' : World) (moments : List Moment)
    (rows done : List Record) : Prop where
  circumstances : w'.circumstances = w.circumstances
  definitions : w'.definitions = w.definitions
  records : w'.records =
    w.records.map (Record.amid w.definitions w.circumstances.now (done.map (·.id)))
  sublist : done.Sublist rows
  due : ∀ r ∈ done, r.IsDue w.definitions w.circumstances.now
  /-- A row that is due and unhindered is rewritten. -/
  all : ∀ r ∈ rows, r.IsDue w.definitions w.circumstances.now → r.Unhindered frail → r ∈ done
  /-- Where no commit can fail, each is saved once. -/
  saves : (∀ found document stamp, ¬ frail (.database (.commit found document stamp))) →
    savedIds moments = done.map fun r => .str r.id

variable {frail : Call → Prop} {w w₁ w₂ : World} {first second : List Moment}
  {rows more done done' : List Record}

theorem map_amid_nil {definitions : List EntityDefinition} {now : Timestamp}
    (table : RecordTable) : table.map (Record.amid definitions now []) = table := by
  have hsame : Record.amid definitions now [] = id :=
    funext fun r => Record.amid_of_not_mem List.not_mem_nil
  rw [hsame, List.map_id]

/-- Nothing was rewritten. -/
theorem Idle.rewrote (h : w.Idle w₁ first)
    (hrows : ∀ r ∈ rows, r.IsDue w.definitions w.circumstances.now → ¬ r.Unhindered frail) :
    w.Rewrote frail w₁ first rows [] where
  circumstances := h.circumstances
  definitions := h.definitions
  records := by rw [List.map_nil, map_amid_nil, h.records]
  sublist := List.nil_sublist rows
  due r hr := absurd hr List.not_mem_nil
  all r hr hdue hfree := absurd hfree (hrows r hr hdue)
  saves _ := h.saves

/-- A row whose schema cannot be read, or whose texts cannot be merged, is not due. -/
theorem Idle.rewrote_of_none {r : Record} (h : w.Idle w₁ first)
    (hnone : r.rewritten? w.definitions w.circumstances.now = none) :
    w.Rewrote frail w₁ first [r] [] := by
  refine h.rewrote fun v hv hdue => ?_
  have hreadable := hdue.readable
  rw [List.mem_singleton.mp hv, hnone] at hreadable
  cases hreadable

theorem Idle.rewrote_none (h : w.Idle w₁ first) : w.Rewrote frail w₁ first [] [] :=
  h.rewrote fun _ hr => absurd hr List.not_mem_nil

theorem Rewrote.trans (h : w.Rewrote frail w₁ first rows done)
    (h' : w₁.Rewrote frail w₂ second more done')
    (apart : ∀ r ∈ done, ∀ r' ∈ done', r'.id ≠ r.id) :
    w.Rewrote frail w₂ (first ++ second) (rows ++ more) (done ++ done') where
  circumstances := h'.circumstances.trans h.circumstances
  definitions := h'.definitions.trans h.definitions
  records := by
    rw [h'.records, h.records, h.circumstances, h.definitions, List.map_map, List.map_append]
    refine List.map_congr_left fun r _ => Record.amid_amid r fun id hid hdone => ?_
    obtain ⟨r', hr', rfl⟩ := List.mem_map.mp hid
    obtain ⟨v, hv, hsame⟩ := List.mem_map.mp hdone
    exact apart v hv r' hr' hsame.symm
  sublist := h.sublist.append h'.sublist
  due r hr := by
    rcases List.mem_append.mp hr with hr | hr
    · exact h.due r hr
    · rw [← h.circumstances, ← h.definitions]
      exact h'.due r hr
  all r hr hdue hfree := by
    rcases List.mem_append.mp hr with hr | hr
    · exact List.mem_append_left _ (h.all r hr hdue hfree)
    · rw [← h.circumstances, ← h.definitions] at hdue
      exact List.mem_append_right _ (h'.all r hr hdue hfree)
  saves hfirm := by
    have hfirst := h.saves hfirm
    have hsecond := h'.saves hfirm
    unfold savedIds at *
    rw [List.filterMap_append, hfirst, hsecond, List.map_append]

/-- Idle steps may come before, -/
theorem Idle.thenRewrote (h : w.Idle w₁ first) (h' : w₁.Rewrote frail w₂ second rows done) :
    w.Rewrote frail w₂ (first ++ second) rows done :=
  h.rewrote_none.trans h' fun _ hr => absurd hr List.not_mem_nil

/-- and after. -/
theorem Rewrote.thenIdle (h : w.Rewrote frail w₁ first rows done) (h' : w₁.Idle w₂ second) :
    w.Rewrote frail w₂ (first ++ second) rows done := by
  have htrans := h.trans h'.rewrote_none fun _ _ _ hr => absurd hr List.not_mem_nil
  rwa [List.append_nil, List.append_nil] at htrans

end World

/-! ## A record that is reindexed -/

section

variable {frail : Call → Prop} {w : World}

theorem upsert_endsIn (version : Fields) (w : World) :
    (Indexing.upsert version).EndsIn (World.Undoes frail) w fun _ moments w' =>
      w.Idle w' moments := by
  intro r moments w' hruns
  have hupsert : (Indexing.upsert version).Within (placing version) :=
    upsert_within (placing_frees version) fun _ _ _ h => h
  refine hruns.idle fun m hm => ?_
  unfold Within Keeps at hupsert
  have hmade := hupsert.made_through hruns m hm
  rcases hstep : m.step with c | _
  · cases c with
    | database c =>
      cases c with
      | commit found document stamp => exact (hmade _ hstep).elim
      | _ => rfl
    | _ => rfl
  all_goals rfl

/-- Indexing a saved document leaves the records alone, however it ends. -/
theorem follow_endsIn (version : Fields) (w : World) :
    (Indexing.follow version).EndsIn (World.Undoes frail) w fun r moments w' =>
      r = .ok () ∧ w.Idle w' moments := by
  refine (endsIn_bind _ _ _ _ _).mpr ((endsIn_attempt _ _ _ _).mpr ?_)
  refine (upsert_endsIn version w).mono fun r moments w' hidle => ?_
  refine (endsIn_pure _ _ _ _).mpr ⟨rfl, ?_⟩
  rw [List.append_nil]
  exact hidle

theorem lookUpSchema_endsIn (solutionId entityName entityType : Json) (w : World) :
    (lookUpSchema solutionId entityName entityType).EndsIn (World.Undoes frail) w
      fun r moments w' => w.Idle w' moments ∧
        (r = schemaFor w.definitions solutionId entityName entityType ∨
          (∃ f, r = .error f) ∧
            frail (.database (.definitions solutionId entityName entityType))) := by
  unfold lookUpSchema
  refine (endsIn_bind _ _ _ _ _).mpr ((endsIn_call _ _ _ _ _).mpr fun r w' h => ?_)
  have hidle := h.idle rfl
  unfold schemaFor
  rcases h.definitions_answer with rfl | ⟨⟨o, rfl⟩, may⟩
  · rcases EntityDefinition.rowsFor w.definitions solutionId entityName entityType with o | rows
    · exact ⟨hidle, Or.inl rfl⟩
    · refine (endsIn_orBroken _ _ _ _).mpr ⟨?_, Or.inl rfl⟩
      rw [List.append_nil]
      exact hidle
  · exact ⟨hidle, Or.inr ⟨⟨_, rfl⟩, may⟩⟩

variable {r : Record}

/-- How a turn of a row ends: the row is rewritten, or it is left as it was. -/
def Turned {α : Type} (frail : Call → Prop) (w : World) (r : Record) (outcome : Except Failure α)
    (moments : List Moment) (w' : World) : Prop :=
  (∃ f, outcome = .error f) ∧ w.Rewrote frail w' moments [r] [] ∨
    (∃ a, outcome = .ok a) ∧ w.Rewrote frail w' moments [r] [r]

theorem Turned.after {α : Type} {w₁ w' : World} {first second : List Moment}
    {outcome : Except Failure α} (h : w.Idle w₁ first)
    (h' : Turned frail w₁ r outcome second w') : Turned frail w r outcome (first ++ second) w' :=
  h'.imp (fun ⟨hfails, hrewrote⟩ => ⟨hfails, h.thenRewrote hrewrote⟩)
    fun ⟨hworks, hrewrote⟩ => ⟨hworks, h.thenRewrote hrewrote⟩

section

variable (htable : w.records.Sound) (hr : r ∈ w.records)
  (hnow : w.circumstances.now.micros < Timestamp.limit)
  (hunreserved : r.entityName ∉ reservedEntities) {schema : EntitySchema}
  (hschema : schemaFor w.definitions (.str r.solutionId) (.str r.entityName)
    (.ofText? r.entityType) = .ok schema) {refreshed : Fields}
  (hrefreshed : Reindex.refreshed schema.merged w.circumstances.now r.document = .ok refreshed)

include htable hr hunreserved hschema hrefreshed

/-- Once the row was looked up, a refreshed document is saved over it, or it is left as it was. -/
theorem commit_endsIn :
    (do let saved ← Store.call (.commit (some r) refreshed (some w.circumstances.now))
          (.recordWrite (refreshed.look "id")) (refreshed.look "entityName")
        Indexing.follow saved
        pure saved : Service Fields).EndsIn (World.Undoes frail) w (Turned frail w r) := by
  have hid : refreshed.look "id" = .str r.id := (isNamedBy_refreshed hrefreshed).id
  have hsave := htable.save_refreshed_row hr hrefreshed (some w.circumstances.now)
  rw [RecordTable.save_of_rowOf (hid ▸ htable.rowOf hr)] at hsave
  have hrow : r.rewritten? w.definitions w.circumstances.now = some _ :=
    Record.rewritten?_eq_some.mpr ⟨schema, refreshed, hschema, hrefreshed, rfl⟩
  have hdue : r.IsDue w.definitions w.circumstances.now := ⟨hunreserved, hrow ▸ rfl⟩
  refine (endsIn_bind _ _ _ _ _).mpr ((endsIn_call _ _ _ _ _).mpr fun answer w₁ h => ?_)
  obtain ⟨hcircumstances, hdefinitions⟩ := h.frame
  have hsaves : savedIds
      [⟨.call (.database (.commit (some r) refreshed (some w.circumstances.now))), w, w₁⟩] =
        [r].map fun r => .str r.id := congrArg (fun id => [id]) hid
  rcases h.commit_answer hsave with ⟨rfl, hrecords⟩ | ⟨⟨o, rfl⟩, hrecords, may⟩
  · have hfirst : w.Rewrote frail w₁
        [⟨.call (.database (.commit (some r) refreshed (some w.circumstances.now))), w, w₁⟩]
          [r] [r] :=
      { circumstances := hcircumstances
        definitions := hdefinitions
        records := hrecords.trans (htable.put_rewritten hr hrow)
        sublist := .refl _
        due := fun v hv => List.mem_singleton.mp hv ▸ hdue
        all := fun v hv _ _ => hv
        saves := fun _ => hsaves }
    refine (endsIn_bind _ _ _ _ _).mpr ((follow_endsIn _ _).mono ?_)
    rintro _ second w₂ ⟨rfl, hidle⟩
    refine (endsIn_pure _ _ _ _).mpr (Or.inr ⟨⟨_, rfl⟩, ?_⟩)
    rw [List.append_nil]
    exact hfirst.thenIdle hidle
  · refine Or.inl ⟨⟨_, rfl⟩, ?_⟩
    exact
      { circumstances := hcircumstances
        definitions := hdefinitions
        records := by rw [List.map_nil, World.map_amid_nil, hrecords]
        sublist := List.nil_sublist _
        due := fun v hv => absurd hv List.not_mem_nil
        all := fun v hv _ hfree => by
          obtain rfl := List.mem_singleton.mp hv
          exact absurd may (hfree.commit _ _ _ hid)
        saves := fun hfirm => absurd may (hfirm _ _ _) }

include hnow

/-- A refreshed document is saved over its row, or the row is left as it was. -/
theorem write_endsIn :
    (Store.write refreshed).EndsIn (World.Undoes frail) w (Turned frail w r) := by
  have hstamp := isStamped_refreshed hrefreshed (htable.rows r hr) hnow
  have hid : refreshed.look "id" = .str r.id := (isNamedBy_refreshed hrefreshed).id
  unfold Store.write
  refine (endsIn_bind _ _ _ _ _).mpr ((endsIn_orFail _ _ _ _).mpr ?_)
  rw [stampOf_eq_ok_iff.mpr hstamp]
  refine (endsIn_bind _ _ _ _ _).mpr ((endsIn_call _ _ _ _ _).mpr fun answer w₁ h => ?_)
  have hidle := h.idle rfl
  rcases h.lookUp_answer with rfl | ⟨⟨o, rfl⟩, may⟩
  · have hrecords := hidle.records
    have hcircumstances := hidle.circumstances
    have hdefinitions := hidle.definitions
    rw [hid, htable.rowOf hr, ← hcircumstances, ← hid]
    refine (commit_endsIn (hrecords ▸ htable) (hrecords ▸ hr) hunreserved
      (hdefinitions ▸ hschema) (hcircumstances ▸ hrefreshed)).mono ?_
    intro outcome second w' hturned
    rw [List.nil_append]
    exact Turned.after hidle hturned
  · refine Or.inl ⟨⟨_, rfl⟩, hidle.rewrote fun v hv _ hfree => ?_⟩
    obtain rfl := List.mem_singleton.mp hv
    exact hfree.lookUp (hid ▸ may)

end

theorem record_endsIn (htable : w.records.Sound) (hr : r ∈ w.records)
    (hnow : w.circumstances.now.micros < Timestamp.limit)
    (hunreserved : r.entityName ∉ reservedEntities) :
    (Reindex.record r.document).EndsIn (World.Undoes frail) w (Turned frail w r) := by
  unfold Reindex.record
  rw [r.isNamedBy_document.solutionId, r.isNamedBy_document.entityName,
    r.isNamedBy_document.entityType]
  refine (endsIn_bind _ _ _ _ _).mpr ((lookUpSchema_endsIn _ _ _ w).mono ?_)
  rintro found first w₁ ⟨hidle, rfl | ⟨⟨f, rfl⟩, may⟩⟩
  · rcases hschema : schemaFor w.definitions (.str r.solutionId) (.str r.entityName)
      (.ofText? r.entityType) with f | schema
    · refine Or.inl ⟨⟨f, rfl⟩, hidle.rewrote_of_none ?_⟩
      unfold Record.rewritten?
      rw [hschema]
    · have own (c : Call) : Step.look ≠ .call c := nofun
      refine (endsIn_bind _ _ _ _ _).mpr ((endsIn_ask _ _ _ _).mpr fun here w₂ hlook => ?_)
      obtain rfl : here = w.circumstances := (hlook.own_answer own).trans hidle.circumstances
      have hquiet := hidle.trans (hlook.idle rfl)
      refine (endsIn_bind _ _ _ _ _).mpr ((endsIn_orBroken _ _ _ _).mpr ?_)
      rcases hrefreshed : Reindex.refreshed schema.merged w.circumstances.now r.document with
        b | refreshed
      · refine Or.inl ⟨⟨_, rfl⟩, hquiet.rewrote_of_none ?_⟩
        unfold Record.rewritten?
        rw [hschema]
        dsimp only
        rw [hrefreshed]
      · have hrecords := hquiet.records
        have hcircumstances := hquiet.circumstances
        have hdefinitions := hquiet.definitions
        refine (write_endsIn (hrecords ▸ htable) (hrecords ▸ hr) (hcircumstances ▸ hnow) hunreserved
          (hdefinitions ▸ hschema) (hcircumstances ▸ hrefreshed)).mono ?_
        intro outcome second w' hturned
        rw [List.nil_append, ← List.append_assoc]
        exact Turned.after hquiet hturned
  · refine Or.inl ⟨⟨f, rfl⟩, hidle.rewrote fun v hv _ hfree => ?_⟩
    obtain rfl := List.mem_singleton.mp hv
    exact hfree.schema may

/-! ## All rows of a scan -/

theorem visit_endsIn (htable : w.records.Sound) (hr : r ∈ w.records)
    (hnow : w.circumstances.now.micros < Timestamp.limit) (counts : BucketCounts) :
    (Reindex.visit counts r.document).EndsIn (World.Undoes frail) w fun outcome moments w' =>
      ∃ done, w.Rewrote frail w' moments [r] done ∧ outcome = .ok (counts.tallied done) := by
  unfold Reindex.visit
  rw [r.isNamedBy_document.isReserved]
  split
  · next hreserved =>
    rw [List.contains_iff_mem] at hreserved
    refine (endsIn_pure _ _ _ _).mpr ⟨[], (World.Idle.refl w).rewrote fun v hv hdue => ?_, rfl⟩
    rw [List.mem_singleton.mp hv] at hdue
    exact absurd hreserved hdue.unreserved
  · next hunreserved =>
    rw [List.contains_iff_mem] at hunreserved
    refine (endsIn_bind _ _ _ _ _).mpr ((endsIn_attempt _ _ _ _).mpr ?_)
    refine (record_endsIn htable hr hnow hunreserved).mono ?_
    rintro outcome moments w' (⟨⟨f, rfl⟩, hrewrote⟩ | ⟨⟨saved, rfl⟩, hrewrote⟩)
    · refine (endsIn_pure _ _ _ _).mpr ⟨[], ?_, rfl⟩
      rwa [List.append_nil]
    · refine (endsIn_pure _ _ _ _).mpr ⟨[r], ?_, rfl⟩
      rwa [List.append_nil]

/-- Rows apart from those that were rewritten are the rows that were there before. -/
theorem World.Rewrote.mem_iff {w' : World} {moments : List Moment} {rows done : List Record}
    (h : w.Rewrote frail w' moments rows done) {v : Record} (apart : ∀ r ∈ rows, v.id ≠ r.id) :
    v ∈ w'.records ↔ v ∈ w.records := by
  rw [h.records]
  refine RecordTable.mem_map_amid_of_not_mem fun hid => ?_
  obtain ⟨r, hr, hsame⟩ := List.mem_map.mp hid
  exact apart r (h.sublist.subset hr) hsame.symm

theorem World.Rewrote.sound {w' : World} {moments : List Moment} {rows done : List Record}
    (h : w.Rewrote frail w' moments rows done) (htable : w.records.Sound) : w'.records.Sound :=
  h.records ▸ htable.map_amid

theorem visitAll_endsIn {rows : List Record} (hrows : rows.Pairwise (·.id < ·.id)) {w : World}
    (htable : w.records.Sound) (hmem : ∀ r ∈ rows, r ∈ w.records)
    (hnow : w.circumstances.now.micros < Timestamp.limit) (counts : BucketCounts) :
    (Reindex.visitAll counts (rows.map (·.document))).EndsIn (World.Undoes frail) w
      fun outcome moments w' =>
        ∃ done, w.Rewrote frail w' moments rows done ∧ outcome = .ok (counts.tallied done) := by
  induction rows generalizing w counts with
  | nil => exact (endsIn_pure _ _ _ _).mpr ⟨[], (World.Idle.refl w).rewrote_none, rfl⟩
  | cons r rest ih =>
    obtain ⟨hfirst, hrest⟩ := List.pairwise_cons.mp hrows
    have hapart : ∀ v ∈ rest, v.id ≠ r.id := by
      intro v hv hsame
      have hlater := hfirst v hv
      rw [hsame] at hlater
      exact String.lt_irrefl _ hlater
    rw [List.map_cons]
    unfold Reindex.visitAll
    refine (endsIn_bind _ _ _ _ _).mpr
      ((visit_endsIn htable (hmem r List.mem_cons_self) hnow counts).mono ?_)
    rintro _ first w₁ ⟨done, hrewrote, rfl⟩
    have hlater : ∀ v ∈ rest, v ∈ w₁.records := by
      intro v hv
      apply (hrewrote.mem_iff fun u hu => ?_).mpr (hmem v (List.mem_cons_of_mem _ hv))
      rw [List.mem_singleton.mp hu]
      exact hapart v hv
    refine (ih hrest (hrewrote.sound htable) hlater (hrewrote.circumstances ▸ hnow) _).mono ?_
    rintro _ second w₂ ⟨more, hmore, rfl⟩
    refine ⟨done ++ more, hrewrote.trans hmore fun v hv u hu => ?_, ?_⟩
    · rw [List.mem_singleton.mp (hrewrote.sublist.subset hv)]
      exact hapart u (hmore.sublist.subset hu)
    · unfold BucketCounts.tallied
      rw [List.foldl_append]

end

end TenantSearch
