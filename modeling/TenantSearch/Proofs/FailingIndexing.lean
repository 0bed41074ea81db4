-- Writing a document while the search engine fails in any pattern. The store
-- alone decides what is saved; whether the saved version then gets into its
-- indices is told by the moments of the write.
import TenantSearch.Proofs.CalmIndexing
import TenantSearch.Proofs.FailingCalls
import TenantSearch.Proofs.WrittenCopies

namespace TenantSearch

open Service

/-- Every call may fail but those to the database. -/
def besidesStore : Call → Prop
  | .database _ => False
  | _ => True

/-! ## Copies of a version -/

/-- An index holds what search is given of a version, under its identifier. -/
def World.HoldsCopy (w : World) (version : Fields) (index : String) : Prop :=
  ∃ key, (version.look "id").key? = some key ∧
    w.engine.copy? index key = some (Projection.strip version)

/-- A moment in which an index is given a version and takes it. -/
structure Moment.Places (m : Moment) (version : Fields) (index : String) : Prop where
  put : ∃ id, m.step = .call (.engine (.put index id (Projection.strip version)))
  taken : m.after.HoldsCopy version index

/-- The copy of a version gets into an index in these moments, or it is there all
along. -/
def Reaches (version : Fields) (index : String) (w : World) (moments : List Moment) : Prop :=
  (∃ m ∈ moments, m.Places version index) ∨
    w.HoldsCopy version index ∧ ∀ m ∈ moments, m.after.HoldsCopy version index

variable {frail : Call → Prop} {w w' : World} {version : Fields} {index : String}

theorem World.HoldsCopy.of_engine (h : w.HoldsCopy version index) (same : w'.engine = w.engine) :
    w'.HoldsCopy version index := by
  obtain ⟨key, hkey, hcopy⟩ := h
  exact ⟨key, hkey, same ▸ hcopy⟩

theorem World.Goes.reaches {moments : List Moment} (h : World.Goes frail w moments w')
    (hcopy : w'.HoldsCopy version index) : Reaches version index w moments := by
  obtain ⟨key, hkey, hcopy⟩ := hcopy
  rcases h.copy hcopy with ⟨m, hm, hput, htaken⟩ | ⟨hheld, hall⟩
  · exact Or.inl ⟨m, hm, hput, key, hkey, htaken⟩
  · exact Or.inr ⟨⟨key, hkey, hheld⟩, fun m hm => ⟨key, hkey, hall m hm⟩⟩

/-! ## Indexing a version -/

/-- A put of a version takes away no copy of it. -/
theorem World.EngineChange.keepsCopy {e e' : SearchEngine} {other : String}
    (h : World.EngineChange e (.engine (.put other (version.look "id") (Projection.strip version))) e')
    {key : Json.Key} (hheld : e.copy? index key = some (Projection.strip version)) :
    e'.copy? index key = some (Projection.strip version) := by
  cases h with
  | same => exact hheld
  | put put =>
    rw [SearchEngine.copy?_put put]
    split
    · rfl
    · exact hheld

/-- A version that is put into an index gets there if the put is answered. -/
theorem putDocument_ends (hid : (Projection.strip version).get? "id" = some (version.look "id"))
    (index : String) (w : World) :
    (Engine.putDocument index (Projection.strip version)).Ends frail w fun r moments w' =>
      ∃ m : Moment, moments = [m] ∧ m.after = w' ∧
        (∀ i, w.HoldsCopy version i → w'.HoldsCopy version i) ∧
          (r = .ok () → m.Places version index) := by
  unfold Engine.putDocument
  rw [hid]
  refine (ends_call _ _ _ _ _).mpr fun r w' answers => ⟨_, rfl, rfl, ?_, fun hr => ⟨⟨_, rfl⟩, ?_⟩⟩
  · rintro i ⟨key, hkey, hheld⟩
    exact ⟨key, hkey, answers.engine.keepsCopy hheld⟩
  · rcases r with o | v
    · cases hr
    · obtain ⟨plans, heffect⟩ := answers.effect_of_ok
      simp only [World.effect, World.answerEngine] at heffect
      split at heffect
      · next engine hput =>
        cases heffect
        obtain ⟨key, hkey, -⟩ := Option.map_eq_some_iff.mp hput
        refine ⟨key, hkey, ?_⟩
        rw [SearchEngine.copy?_put hput, if_pos ⟨rfl, hkey⟩]
      · cases heffect

/-- A version that is put into several indices gets into each of them if all puts
are answered, and stays where it got. -/
theorem putEach_ends (hid : (Projection.strip version).get? "id" = some (version.look "id"))
    (targets : List IndexTarget) (w : World) :
    (Indexing.putEach (Projection.strip version) targets).Ends frail w fun r moments w' =>
      (∀ i, w.HoldsCopy version i → w'.HoldsCopy version i) ∧
        (∀ m ∈ moments, ∀ i, m.Places version i → w'.HoldsCopy version i) ∧
          ((∃ names, r = .ok names) → ∀ t ∈ targets, ∃ m ∈ moments, m.Places version t.name) := by
  induction targets generalizing w with
  | nil =>
    refine (ends_pure _ _ _ _).mpr ⟨fun _ h => h, ?_, ?_⟩
    · exact fun m hm => absurd hm List.not_mem_nil
    · exact fun _ t ht => absurd ht List.not_mem_nil
  | cons target rest ih =>
    unfold Indexing.putEach
    refine (ends_bind _ _ _ _ _).mpr ((putDocument_ends hid target.name w).mono ?_)
    rintro r _ w₁ ⟨m, rfl, hafter, hkept, hplaces⟩
    rcases r with f | _
    · refine ⟨hkept, fun m' hm' i hplaced => ?_, ?_⟩
      · obtain rfl := List.mem_singleton.mp hm'
        exact hafter ▸ hplaced.taken
      · rintro ⟨names, ⟨⟩⟩
    · refine (ends_bind _ _ _ _ _).mpr ((ih w₁).mono ?_)
      rintro r second w' ⟨hkept', hplaced', hall⟩
      have hstays (m' : Moment) (hm' : m' ∈ [m] ++ second) (i : String)
          (hplaced : m'.Places version i) : w'.HoldsCopy version i := by
        rcases List.mem_cons.mp hm' with rfl | hm'
        · exact hkept' i (hafter ▸ hplaced.taken)
        · exact hplaced' m' hm' i hplaced
      rcases r with f | names
      · refine ⟨fun i h => hkept' i (hkept i h), hstays, ?_⟩
        rintro ⟨names, ⟨⟩⟩
      · refine (ends_pure _ _ _ _).mpr ?_
        rw [List.append_nil]
        refine ⟨fun i h => hkept' i (hkept i h), hstays, fun _ t ht => ?_⟩
        rcases List.mem_cons.mp ht with rfl | ht
        · exact ⟨m, List.mem_cons_self, hplaces rfl⟩
        · obtain ⟨m', hm', hplaced⟩ := hall ⟨names, rfl⟩ t ht
          exact ⟨m', List.mem_cons_of_mem _ hm', hplaced⟩

/-- Making sure of indices puts nothing into them. -/
theorem ensure_places_nothing (version : Fields) (solutionId entityName entityType : Json)
    (force : Bool) (w : World) :
    (Index.ensure solutionId entityName entityType force).Ends frail w fun _ moments _ =>
      ∀ m ∈ moments, ∀ i, ¬ m.Places version i := by
  have hfree : (Contract.only fun c => c.putIndex? = none).Frees := by
    refine ⟨fun c hc => ?_, fun _ _ => rfl⟩
    cases c with
    | engine c =>
      cases c with
      | put index id document => cases hc
      | _ => rfl
    | _ => rfl
  refine (Keeps.ends frail (ensure_within hfree solutionId entityName entityType force) w).mono ?_
  rintro _ moments _ hmade m hm i ⟨⟨id, hput⟩, -⟩
  cases hmade m hm _ hput

/-- What holds when a version was indexed with this outcome: it still is where it
got in these moments, and it got into all of its indices if that worked out. -/
structure Indexed (version : Fields) (outcome : Except Failure (List String))
    (moments : List Moment) (w : World) : Prop where
  stays : ∀ m ∈ moments, ∀ i, m.Places version i → w.HoldsCopy version i
  everywhere : Reindex.isReserved version = false → (∃ names, outcome = .ok names) →
    ∀ i ∈ ownIndices version, ∃ m ∈ moments, m.Places version i

/-- A failure has to say nothing of the indices. -/
theorem Indexed.of_failure (f : Failure) {moments : List Moment}
    (h : ∀ m ∈ moments, ∀ i, ¬ m.Places version i) (w : World) :
    Indexed version (.error f) moments w :=
  ⟨fun m hm i hplaced => absurd hplaced (h m hm i), fun _ ⟨_, h⟩ => nomatch h⟩

theorem placing_ends (hid : (Projection.strip version).get? "id" = some (version.look "id"))
    (w : World) :
    (do
      let _ ← Index.ensure (version.look "solutionId") (version.look "entityName")
        (version.look "entityType").orNull false
      let name ← Service.orFail (Index.entityNameOf (version.look "entityName"))
      Indexing.putEach (Projection.strip version)
        (IndexTarget.writeTargets name (version.look "entityType").orNull) :
        Service (List String)).Ends frail w (Indexed version) := by
  refine (ends_bind _ _ _ _ _).mpr ((ensure_places_nothing version _ _ _ _ w).mono ?_)
  rintro r first w₁ hfirst
  rcases r with f | _
  · exact .of_failure f hfirst w₁
  refine (ends_bind _ _ _ _ _).mpr ((ends_orFail _ _ _ _).mpr ?_)
  rcases hname : Index.entityNameOf (version.look "entityName") with f | name
  · rw [List.append_nil]
    exact .of_failure f hfirst w₁
  · have hown : (IndexTarget.writeTargets name (version.look "entityType").orNull).map (·.name) =
        ownIndices version := by
      unfold ownIndices
      rw [writeTargets_orNull, entityNameOf_eq_ok hname]
    refine (putEach_ends hid _ w₁).mono ?_
    rintro r second w' ⟨-, hstays, hall⟩
    refine ⟨fun m hm i hplaced => ?_, fun _ hok i hi => ?_⟩
    · rcases List.mem_append.mp hm with hm | hm
      · exact absurd hplaced (hfirst m hm i)
      · exact hstays m hm i hplaced
    · rw [← hown] at hi
      obtain ⟨t, ht, rfl⟩ := List.mem_map.mp hi
      obtain ⟨m, hm, hplaced⟩ := hall hok t ht
      exact ⟨m, List.mem_append_right _ hm, hplaced⟩

theorem upsert_ends (htexts : Projection.hasTexts version = true) (w : World) :
    (Indexing.upsert version).Ends frail w (Indexed version) := by
  have hnothing (m : Moment) (hm : m ∈ []) (i : String) : ¬ m.Places version i :=
    absurd hm List.not_mem_nil
  unfold Indexing.upsert
  refine (ends_bind _ _ _ _ _).mpr ((ends_orFail _ _ _ _).mpr ?_)
  rcases hsubject : Indexing.subject version with f | s
  · exact .of_failure f hnothing w
  obtain ⟨hname, -⟩ := subject_eq_ok hsubject
  refine (ends_bind _ _ _ _ _).mpr ((ends_orBroken _ _ _ _).mpr ?_)
  rw [hname]
  rcases hreserved : Indexing.isReserved (version.look "entityName") with b | _ | _
  · exact .of_failure _ hnothing w
  · have hid : (Projection.strip version).get? "id" = some (version.look "id") := by
      rw [(isProjection_of_hasTexts htexts).get? (by decide)]
      exact Fields.get?_of_given (given_of_subject hsubject)
    unfold Indexing.completed
    dsimp only [Except.mapError]
    rw [if_neg Bool.false_ne_true, if_pos htexts]
    exact (ends_bind _ _ _ _ _).mpr ((ends_pure _ _ _ _).mpr (placing_ends hid w))
  · refine (ends_pure _ _ _ _).mpr ⟨fun m hm => absurd hm List.not_mem_nil, fun hunreserved => ?_⟩
    rw [isReserved_eq_ok hreserved] at hunreserved
    cases hunreserved

/-! ## Writing a document -/

namespace Store

/-- What the store makes of a document that is written: the version that is saved
and the table with it. -/
def written (table : RecordTable) (document : Fields) : Except Failure (Fields × RecordTable) := do
  let stamp ← stampOf document
  (table.save document stamp).mapError (writeFailure document)

/-- After a version is saved it is indexed, with this outcome; until then the
engine is left alone. -/
inductive Follows (w : World) (version : Fields) (outcome : Except Failure (List String)) :
    List Moment → World → Prop
  | intro {saving indexing : List Moment} {saved w' : World}
      (apart : ∀ m ∈ saving, m.after.engine = w.engine ∧ ∀ c, m.step ≠ .call (.engine c))
      (same : saved.engine = w.engine)
      (runs : (Indexing.upsert version).run.Runs besidesStore saved indexing outcome w') :
      Follows w version outcome (saving ++ indexing) w'

/-- A document was written, or it was not, as the store has it: whatever becomes of
the indexing. -/
def Writes (made : Except Failure (Fields × RecordTable)) (w : World) (r : Except Failure Fields)
    (moments : List Moment) (w' : World) : Prop :=
  match made with
  | .error f => r = .error f ∧ w'.records = w.records
  | .ok (version, table) => r = .ok version ∧ w'.records = table ∧
      ∃ outcome, Follows w version outcome moments w'

/-- A moment that leaves the table and the engine alone may come before. -/
theorem Writes.cons {made : Except Failure (Fields × RecordTable)} {w w₁ w' : World}
    {r : Except Failure Fields} {moments : List Moment} {s : Step}
    (h : Writes made w₁ r moments w') (hstep : ∀ c, s ≠ .call (.engine c))
    (hengine : w₁.engine = w.engine) (hrecords : w₁.records = w.records) :
    Writes made w r (⟨s, w, w₁⟩ :: moments) w' := by
  rcases made with f | ⟨version, table⟩
  · exact ⟨h.1, h.2.trans hrecords⟩
  · obtain ⟨hr, htable, outcome, hfollows⟩ := h
    refine ⟨hr, htable, outcome, ?_⟩
    cases hfollows with
    | @intro saving indexing saved _ apart same runs =>
      have hcons : Follows w version outcome ((⟨s, w, w₁⟩ :: saving) ++ indexing) w' := by
        refine .intro (fun m hm => ?_) (same.trans hengine) runs
        rcases List.mem_cons.mp hm with rfl | hm
        · exact ⟨hengine, hstep⟩
        · exact ⟨(apart m hm).1.trans hengine, (apart m hm).2⟩
      exact hcons

/-- Indexing leaves the table alone. -/
theorem records_upsert {version : Fields} {w w' : World} {moments : List Moment}
    {outcome : Except Failure (List String)}
    (h : (Indexing.upsert version).run.Runs frail w moments outcome w') : w'.records = w.records := by
  have hupsert : (Indexing.upsert version).Within (placing version) :=
    upsert_within (placing_frees version) fun _ _ _ h => h
  refine h.goes.records fun m hm found document stamp hstep => ?_
  exact hupsert.ends frail w outcome moments w' h m hm _ hstep

/-- How indexing a saved document ends is nobody's concern. -/
theorem follow_ends (version : Fields) (w : World)
    (post : Except Failure Unit → List Moment → World → Prop) :
    (Indexing.follow version).Ends frail w post ↔
      (Indexing.upsert version).Ends frail w fun _ moments w' => post (.ok ()) moments w' := by
  unfold Indexing.follow
  rw [ends_bind, ends_attempt]
  refine forall_congr' fun r => forall_congr' fun moments => forall_congr' fun w' =>
    imp_congr_right fun _ => ?_
  dsimp only
  rw [ends_pure, List.append_nil]

/-- What is left of a write once the row of its document was looked up. -/
theorem commit_ends (found : Option Record) (document : Fields) (stamp : Option Timestamp)
    (w : World) :
    (do let saved ← Store.call (.commit found document stamp)
          (.recordWrite (document.look "id")) (document.look "entityName")
        Indexing.follow saved
        pure saved : Service Fields).Ends besidesStore w
      (Writes ((w.records.commit found document stamp).mapError (writeFailure document)) w) := by
  refine (ends_bind _ _ _ _ _).mpr ((ends_call_firm id _ _ _).mpr fun plans => ?_)
  have heffect : (w.calling (.database (.commit found document stamp)) plans).effect
      (.database (.commit found document stamp)) =
        (w.calling (.database (.commit found document stamp)) plans).answerDatabase
          (.commit found document stamp) := rfl
  have hrecords : (w.calling (.database (.commit found document stamp)) plans).records =
      w.records := rfl
  rw [heffect, World.answerDatabase_commit, hrecords]
  rcases w.records.commit found document stamp with o | ⟨version, table⟩
  · exact ⟨rfl, rfl⟩
  · refine (ends_bind _ _ _ _ _).mpr ((follow_ends _ _ _).mpr fun outcome moments w' hruns => ?_)
    refine (ends_pure _ _ _ _).mpr ⟨rfl, records_upsert hruns, outcome, ?_⟩
    rw [List.append_nil]
    refine .intro (fun m hm => ?_) ?_ hruns
    · obtain rfl := List.mem_singleton.mp hm
      exact ⟨rfl, fun c h => by cases h⟩
    · rfl

theorem write_ends (document : Fields) (w : World) :
    (write document).Ends besidesStore w (Writes (written w.records document) w) := by
  unfold write written
  refine (ends_bind _ _ _ _ _).mpr ((ends_orFail _ _ _ _).mpr ?_)
  rcases stampOf document with f | stamp
  · exact ⟨rfl, rfl⟩
  refine (ends_bind _ _ _ _ _).mpr ((ends_call_firm id _ _ _).mpr fun plans => ?_)
  have hfound : ((w.calling (.database (.lookUp (document.look "id"))) plans).effect
      (.database (.lookUp (document.look "id")))).1 = w.records.rowOf (document.look "id") := rfl
  rw [hfound, ok_bind]
  rcases hrow : w.records.rowOf (document.look "id") with o | found
  · unfold RecordTable.save
    rw [hrow]
    exact ⟨rfl, rfl⟩
  · rw [RecordTable.save_of_rowOf hrow]
    refine (commit_ends found document stamp _).mono fun r moments w' h => ?_
    exact h.cons (fun c h => by cases h) rfl rfl

end Store

/-- A version that was saved and indexed is held by an index just when it got there
or was there all along, and by all of its own if the indexing worked out. -/
theorem Store.Follows.spec {outcome : Except Failure (List String)} {moments : List Moment}
    (h : Store.Follows w version outcome moments w') (htexts : Projection.hasTexts version = true) :
    (∀ index, w'.HoldsCopy version index ↔ Reaches version index w moments) ∧
      (Reindex.isReserved version = false → (∃ names, outcome = .ok names) →
        ∀ index ∈ ownIndices version, w'.HoldsCopy version index) := by
  cases h with
  | @intro saving indexing saved _ apart same runs =>
    have hindexed := upsert_ends htexts saved _ _ _ runs
    refine ⟨fun index => ⟨fun hcopy => ?_, ?_⟩, fun hunreserved hok index hown => ?_⟩
    · rcases runs.goes.reaches hcopy with ⟨m, hm, hplaced⟩ | ⟨hheld, hall⟩
      · exact Or.inl ⟨m, List.mem_append_right _ hm, hplaced⟩
      · have hbefore : w.HoldsCopy version index := hheld.of_engine same.symm
        refine Or.inr ⟨hbefore, fun m hm => ?_⟩
        rcases List.mem_append.mp hm with hm | hm
        · exact hbefore.of_engine (apart m hm).1
        · exact hall m hm
    · rintro (⟨m, hm, hplaced⟩ | ⟨hheld, hall⟩)
      · rcases List.mem_append.mp hm with hm | hm
        · obtain ⟨id, hput⟩ := hplaced.put
          exact absurd hput ((apart m hm).2 _)
        · exact hindexed.stays m hm index hplaced
      · exact runs.goes.lasts (·.HoldsCopy version index)
          (fun _ _ _ _ hm _ _ => hall _ (List.mem_append_right _ hm)) (hheld.of_engine same)
    · obtain ⟨m, hm, hplaced⟩ := hindexed.everywhere hunreserved hok index hown
      exact hindexed.stays m hm index hplaced

end TenantSearch
