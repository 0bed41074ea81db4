-- A reindexing run while others write documents. Whoever writes a record last wins, and
-- the run writes a record as it read it with its page. So an edit that comes between the
-- page and the record is undone, and every other edit stays.
import TenantSearch.Proofs.StoredDocuments
import TenantSearch.Proofs.UndividedCommits

namespace TenantSearch

/-! ## A record that is written as it was read -/

namespace Record

theorem get?_document_id (r : Record) : r.document.get? "id" = some (.str r.id) := by
  unfold document
  rw [get?_assemble _ _ _ (by decide)]
  simp [columns, valueUnder_cons]

/-- Two rows whose documents are alike but for what reindexing writes. -/
def Agrees (r v : Record) : Prop :=
  ∀ name ∉ refreshedFields, Json.AlikeUnder name r.document v.document

theorem Agrees.refl (r : Record) : r.Agrees r := fun _ _ => rfl

theorem Agrees.trans {r v u : Record} (h : r.Agrees v) (h' : v.Agrees u) : r.Agrees u :=
  fun name hname => Eq.trans (h name hname) (h' name hname)

theorem Agrees.id {r v : Record} (h : r.Agrees v) : r.id = v.id := by
  have hsame := h "id" (by decide)
  unfold Json.AlikeUnder at hsame
  rw [get?_document_id, get?_document_id] at hsame
  exact Json.str.inj (Json.alike_str_iff.mp (Option.some.inj hsame))

/-- A document that says what a row says, but for what reindexing writes. -/
def IsRestatedBy (r : Record) (document : Fields) : Prop :=
  ∀ name ∉ refreshedFields, document.get? name = r.document.get? name

theorem isRestatedBy_refreshed {r : Record} {merged : MergedText} {now : Timestamp}
    {refreshed : Fields} (h : Reindex.refreshed merged now r.document = .ok refreshed) :
    r.IsRestatedBy refreshed := by
  intro name hname
  obtain ⟨display, content, -, -, rfl⟩ := refreshed_eq_ok_iff.mp h
  simp only [refreshedFields, searchTextFields, List.mem_cons, List.not_mem_nil, or_false,
    not_or] at hname
  obtain ⟨hstamp, hmodifier, hdisplay, hcontent⟩ := hname
  rw [get?_stamped _ _ _ _ hmodifier, if_neg hstamp, if_neg hcontent, if_neg hdisplay]

/-- The row with the body of a document and a stamp. -/
def restated (r : Record) (document : Fields) (stamp : Option Timestamp) : Record :=
  { r with body := bodyOf document, reindexedOn := stamp }

namespace IsRestatedBy

variable {r : Record} {document : Fields} (h : r.IsRestatedBy document)

include h

theorem look {name : String} (hname : name ∉ refreshedFields) :
    document.look name = r.document.look name := Fields.look_eq_of_get? (h name hname)

theorem look_id : document.look "id" = .str r.id :=
  (h.look (by decide)).trans r.isNamedBy_document.id

/-- The columns of a sound row are stored again as they are. -/
theorem isRowOf (hr : r.Sound) (stamp : Option Timestamp) :
    IsRowOf (.str r.id) document stamp (r.restated document stamp) := by
  have hunchanged : ∀ name ∈ promotedFields, name ∉ refreshedFields := by decide
  exact RecordTable.isRowOf_of_columns hr (fun name hname => h.look (hunchanged name hname)) stamp

theorem agrees_restated (stamp : Option Timestamp) : (r.restated document stamp).Agrees r := by
  intro name hname
  refine .of_get? ?_
  by_cases hpromoted : name ∈ promotedFields
  · exact get?_document_of_promoted r _ _ hpromoted
  · have hstamp : name ≠ reindexedField := by
      rintro rfl
      exact hname List.mem_cons_self
    exact (get?_document_of_body r document stamp hstamp hpromoted).trans (h name hname)

theorem savedDocument (stamp : Option Timestamp) :
    r.IsRestatedBy (Record.savedDocument document stamp) := by
  intro name hname
  have hstamp : name ≠ reindexedField := by
    rintro rfl
    exact hname List.mem_cons_self
  by_cases hpromoted : name ∈ promotedFields
  · obtain ⟨value, hcolumn⟩ := r.exists_column hpromoted
    have hvalue : r.document.get? name = some value := by
      unfold Record.document
      rw [get?_assemble _ _ _ hstamp, hcolumn, Option.some_or]
    have hlook : document.look name = value := by
      unfold Fields.look
      rw [h name hname, hvalue]
      rfl
    unfold Record.savedDocument
    rw [get?_assemble _ _ _ hstamp, ← List.map_reverse, valueUnder_map_pair,
      if_pos (List.mem_reverse.mpr hpromoted), hvalue, hlook]
    rfl
  · exact (get?_savedDocument document stamp hstamp hpromoted).trans (h name hname)

/-- It is answered with what restates the row as well, if a row was found by its identifier. -/
theorem commit {table table' : RecordTable} {found : Option Record} {saved : Fields}
    {stamp : Option Timestamp} (hfound : ∀ v, found = some v → v.id = r.id)
    (hcommit : table.commit found document stamp = .ok (saved, table')) : r.IsRestatedBy saved := by
  rw [RecordTable.saved_eq_of_commit h.look_id hfound hcommit]
  exact h.savedDocument stamp

end IsRestatedBy

end Record

/-! ## Reading and writing on a course -/

namespace Act

/-- The rows of the page that an act reads. -/
def rows : Act → List Record
  | ⟨_, .call (.database (.page _)), .ok rows, _, _⟩ => rows
  | _ => []

/-- An act leaves a row: it commits a document as it would be saved in one go, and this is
the row of the document. -/
def Leaves (a : Act) (row : Record) : Prop :=
  ∃ found document stamp saved, a.step = .call (.database (.commit found document stamp)) ∧
    a.before.records.save document stamp = .ok (saved, a.after.records) ∧
      IsRowOf (saved.look "id") document stamp row

/-- One of the others writes the record with this identifier; the first of the programs
is the run itself. -/
def Edits (id : String) (a : Act) : Prop := a.actor ≠ 0 ∧ ∃ row, a.Leaves row ∧ row.id = id

/-- The run writes the record with this identifier. -/
def WritesBack (id : String) (a : Act) : Prop := a.actor = 0 ∧ ∃ row, a.Leaves row ∧ row.id = id

/-- The run reads a row with a page, as it stands in the table. -/
def Reads (row : Record) (a : Act) : Prop :=
  a.actor = 0 ∧ row ∈ a.rows ∧ row ∈ a.before.records

end Act

/-- The table keeps a row that agrees with the one that is left. -/
theorem Act.Leaves.put {a : Act} {row : Record} (h : a.Leaves row) :
    ∃ kept, a.after.records = a.before.records.put kept ∧ kept.Agrees row := by
  obtain ⟨found, document, stamp, saved, -, hsave, hrow⟩ := h
  obtain ⟨kept, hkept, htable⟩ := RecordTable.exists_row_of_save hsave
  obtain rfl := hrow.unique hkept.columns
  have hbody : Record.bodyOf kept.body = kept.body := by
    rw [hkept.body, RecordTable.bodyOf_keptBody]
  have halike : (Json.obj kept.body).Alike (.obj (Record.bodyOf document)) :=
    hkept.body ▸ a.before.records.alike_keptBody document
  exact ⟨kept, htable, fun name _ => Record.alikeUnder_assemble hbody
    (Record.bodyOf_bodyOf document) kept.columns_promoted halike kept.reindexedOn name⟩

/-- A row under the identifier of one that is left agrees with it. -/
theorem Act.Leaves.agrees_of_id {a : Act} {row r : Record} (h : a.Leaves row)
    (hsound : a.before.records.Sound) (hr : r ∈ a.after.records) (hid : row.id = r.id) :
    r.Agrees row := by
  obtain ⟨kept, htable, hagrees⟩ := h.put
  rw [htable] at hr
  rcases (RecordTable.mem_put_iff hsound.ordered kept r).mp hr with rfl | ⟨-, hother⟩
  · exact hagrees
  · exact absurd (hid.symm.trans hagrees.id.symm) hother

/-- What the others wrote last in these acts, or what there was at the start. -/
inductive LeftByOthers (table : RecordTable) : List Act → Record → Prop
  | start {v : Record} (mem : v ∈ table) : LeftByOthers table [] v
  | edit {acts : List Act} {a : Act} {v : Record} (other : a.actor ≠ 0) (leaves : a.Leaves v) :
      LeftByOthers table (acts ++ [a]) v

/-- A row was read by the run in the first acts and is written back in the later ones:
it stands as it was read, whatever the others wrote in between. -/
structure IsReverted (first later : List Act) (r seen : Record) : Prop where
  read : ∃ a ∈ first, a.Reads seen
  written : ∃ a ∈ later, a.WritesBack r.id
  agrees : r.Agrees seen

/-- A row stands after some acts: as the others left it last, or reverted. -/
structure Stands (table : RecordTable) (first later : List Act) (r v : Record) : Prop where
  left : LeftByOthers table first v
  id : v.id = r.id
  last : ∀ a ∈ later, ¬ a.Edits r.id
  agrees : r.Agrees v ∨ ∃ seen, IsReverted first later r seen

section

variable {table : RecordTable} {first later acts : List Act} {r v : Record} {b : Act}

theorem Stands.extend (h : Stands table first later r v) (hb : ¬ b.Edits r.id) :
    Stands table first (later ++ [b]) r v where
  left := h.left
  id := h.id
  last a ha := by
    rcases List.mem_append.mp ha with ha | ha
    · exact h.last a ha
    · exact List.mem_singleton.mp ha ▸ hb
  agrees := by
    refine h.agrees.imp_right ?_
    rintro ⟨seen, hread, ⟨a, ha, hwritten⟩, hagrees⟩
    exact ⟨seen, hread, ⟨a, List.mem_append_left _ ha, hwritten⟩, hagrees⟩

/-- A row that the run writes back stands as it stood when it was read, or as the run
read it if the others wrote it in between. -/
theorem Stands.back {between : List Act} {seen : Record} {read : Act}
    (h : Stands table first later seen v) (reads : read.Reads seen) (hback : b.WritesBack r.id)
    (hagrees : r.Agrees seen) : ∃ first' later' v',
      first ++ later ++ read :: between ++ [b] = first' ++ later' ∧
        Stands table first' later' r v' := by
  have hid := hagrees.id
  have hquiet : ¬ b.Edits r.id := fun hb => hb.1 hback.1
  by_cases hedited : ∃ a ∈ between, a.Edits r.id
  · obtain ⟨a, ha, hedits⟩ := hedited
    obtain ⟨a, before, after, rfl, ⟨hother, row, hleaves, hrow⟩, hafter⟩ := exists_latest ha hedits
    refine ⟨first ++ later ++ read :: before ++ [a], after ++ [b], row, by simp,
      .edit hother hleaves, hrow, fun c hc => ?_,
      Or.inr ⟨seen, ⟨read, by simp, reads⟩, ⟨b, by simp, hback⟩, hagrees⟩⟩
    rcases List.mem_append.mp hc with hc | hc
    · exact hafter c hc
    · exact List.mem_singleton.mp hc ▸ hquiet
  · refine ⟨first, later ++ read :: between ++ [b], v, by simp, h.left, h.id.trans hid.symm,
      fun c hc => ?_, ?_⟩
    · simp only [List.append_assoc, List.cons_append, List.mem_append, List.mem_cons,
        List.not_mem_nil, or_false] at hc
      rcases hc with hc | rfl | hc | rfl
      · exact hid ▸ h.last c hc
      · exact fun hb => hb.1 reads.1
      · exact fun hb => hedited ⟨c, hc, hb⟩
      · exact hquiet
    · rcases h.agrees with hsame | ⟨earlier, hread, -, hsame⟩
      · exact Or.inl (hagrees.trans hsame)
      · exact Or.inr ⟨earlier, hread, ⟨b, by simp, hback⟩, hagrees.trans hsame⟩

end

/-! ## A run among writes -/

/-- A run reads rows with its pages, and commits nothing but what restates them. -/
def writingBack (seen : Record → Prop) : Contract where
  allows
    | .database (.commit _ document _) => ∃ r, seen r ∧ r.IsRestatedBy document
    | _ => True
  promises
    | .database (.page _), rows => ∀ r ∈ (show List Record from rows), seen r
    | .database (.lookUp id), found => ∀ record, id = .str record →
      ∀ v, (show Option Record from found) = some v → v.id = record
    | .database (.commit found document _), saved =>
      (∃ r, seen r ∧ r.IsRestatedBy document) →
      (∀ record, document.look "id" = .str record → ∀ v, found = some v → v.id = record) →
        ∃ r, seen r ∧ r.IsRestatedBy (show Fields from saved)
    | _, _ => True

theorem writingBack_admits (seen : Record → Prop) :
    (writingBack seen).Admits fun document => ∃ r, seen r ∧ r.IsRestatedBy document where
  free := by
    refine ⟨fun c hc => ?_, fun _ _ => trivial⟩
    cases c with
    | engine c => trivial
    | queue c => trivial
    | database c => cases c <;> trivial
  put _ _ _ _ _ _ := trivial
  save _ _ _ h _ _ := h
  saved _ _ _ _ h hfound hpromised := hpromised h hfound
  page _ _ h r hr _ _ _ hrefreshed := ⟨r, h r hr, Record.isRestatedBy_refreshed hrefreshed⟩

section

variable {frail : Call → Prop} {w w' : World}

theorem World.MeetsAmid.page {query : StalePage} {rows : List Record}
    (h : w.MeetsAmid frail (.call (.database (.page query))) (Except.ok rows) w') :
    w.records.page query = .ok rows := by
  obtain ⟨plans, heffect⟩ := h.answers.effect_of_ok
  exact congrArg Prod.fst heffect

variable {calls : List IndexingCall} {u : Crew} {acts : List Act}

namespace Crew

/-- What the run has read on a course. -/
def Seen (acts : List Act) (r : Record) : Prop := r.Sound ∧ ∃ a ∈ acts, a.Reads r

theorem Course.honors (h : (begin (calls.map (·.program)) w).Course (World.MeetsAmid frail) acts u)
    (hw : w.records.Sound) : ∀ a ∈ acts, a.actor = 0 → a.Honors (writingBack (Seen acts)) := by
  intro a ha hactor
  have hmeets := h.meets a ha
  have hsound := (h.sound hw).2 a ha
  obtain ⟨actor, s, r, before, after⟩ := a
  cases s with
  | call c =>
    rintro v rfl
    cases c with
    | database c =>
      cases c with
      | page query =>
        intro row hrow
        have hpage := hmeets.page
        have hmem := RecordTable.mem_of_mem_page hpage hrow
        exact ⟨hsound.rows row hmem, _, ha, hactor, hrow, hmem⟩
      | lookUp id =>
        rintro record rfl _ rfl
        exact RecordTable.id_of_rowOf hmeets.lookUp
      | commit found document stamp =>
        rintro ⟨row, hseen, hrestated⟩ hfound
        exact ⟨row, hseen, hrestated.commit (hfound _ hrestated.look_id) hmeets.commit⟩
      | _ => trivial
    | _ => trivial
  | _ => trivial

variable {solutionId entityName pageSize : Json} {cutoff : Option Timestamp}
  {others : List IndexingCall}

/-- A run and the calls of others, none of which has begun. -/
def amid (solutionId entityName pageSize : Json) (cutoff : Option Timestamp)
    (others : List IndexingCall) (w : World) : Crew :=
  begin ((IndexingCall.reindex solutionId entityName pageSize cutoff :: others).map (·.program)) w

/-- Whatever the run commits restates a row that it has read. -/
theorem Course.restated
    (h : (amid solutionId entityName pageSize cutoff others w).Course (World.MeetsAmid frail)
      acts u)
    (hw : w.records.Sound) {found : Option Record} {document : Fields} {stamp : Option Timestamp}
    {next : Step.Reply (.call (.database (.commit found document stamp))) → Prog Unit}
    (turn : u.programs[0]? =
      some (.step (.call (.database (.commit found document stamp))) next)) :
    ∃ r, Seen acts r ∧ r.IsRestatedBy document := by
  have hrun (c : IndexingCall)
      (hc : (IndexingCall.reindex solutionId entityName pageSize cutoff :: others)[0]? = some c) :
      c.program.Keeps (writingBack (Seen acts)) fun _ => True := by
    obtain rfl : IndexingCall.reindex solutionId entityName pageSize cutoff = c :=
      Option.some.inj hc
    exact IndexingCall.keeps (writingBack_admits _) _ nofun
  exact (h.keeps_call hrun (h.honors hw) _ turn).1

/-- A row that the run writes back is one that it has read, but for what reindexing
writes. -/
theorem Course.agrees_of_back
    (h : (amid solutionId entityName pageSize cutoff others w).Course (World.MeetsAmid frail)
      acts u)
    (hw : w.records.Sound) {s : Step} {next : s.Reply → Prog Unit} {r : s.Reply} {row : Record}
    (turn : u.programs[0]? = some (.step s next))
    (hleaves : Act.Leaves ⟨0, s, r, u.world, w'⟩ row) :
    ∃ a ∈ acts, ∃ seen, a.Reads seen ∧ row.Agrees seen := by
  obtain ⟨found, document, stamp, saved, rfl, hsave, hrow⟩ := hleaves
  obtain ⟨seen, ⟨hsound, a, ha, hread⟩, hrestated⟩ := h.restated hw turn
  rw [RecordTable.look_id_of_save hrestated.look_id hsave] at hrow
  refine ⟨a, ha, seen, hread, ?_⟩
  rw [hrow.unique (hrestated.isRowOf hsound stamp)]
  exact hrestated.agrees_restated stamp

/-- Where nobody comes in between, an act leaves the table as it is, or a row in it. -/
theorem Course.leaves (h : (begin (calls.map (·.program)) w).Course (World.MeetsAmid frail) acts u)
    {number : Nat} {s : Step} {next : s.Reply → Prog Unit} {r : s.Reply}
    (turn : u.programs[number]? = some (.step s next)) (meets : u.world.MeetsAmid frail s r w')
    (undivided : Undivided (acts ++ [⟨number, s, r, u.world, w'⟩])) :
    w'.records = u.world.records ∨ ∃ row, Act.Leaves ⟨number, s, r, u.world, w'⟩ row := by
  refine meets.committing.imp_right ?_
  rintro ⟨found, document, stamp, saved, rfl, hcommit⟩
  rw [← RecordTable.save_of_rowOf (h.rowOf_of_commit turn (undivided.snoc.2 rfl))] at hcommit
  obtain ⟨kept, hkept, -⟩ := RecordTable.exists_row_of_save hcommit
  exact ⟨_, found, document, stamp, saved, rfl, hcommit, hkept.columns⟩

theorem Course.leaves_of_mem
    (h : (begin (calls.map (·.program)) w).Course (World.MeetsAmid frail) acts u)
    (undivided : Undivided acts) :
    ∀ a ∈ acts, a.after.records = a.before.records ∨ ∃ row, a.Leaves row := by
  induction h with
  | still => exact fun a ha => absurd ha List.not_mem_nil
  | next course turn _ meets ih =>
    intro a ha
    rcases List.mem_append.mp ha with ha | ha
    · exact ih undivided.snoc.1 a ha
    · obtain rfl := List.mem_singleton.mp ha
      exact course.leaves turn meets undivided

/-- Every row stands as the others left it last, or reverted; and so did every row when the
run read it. -/
theorem Course.stands
    (h : (amid solutionId entityName pageSize cutoff others w).Course (World.MeetsAmid frail)
      acts u)
    (undivided : Undivided acts) (hw : w.records.Sound) :
    (∀ r ∈ u.world.records, ∃ first later v,
      acts = first ++ later ∧ Stands w.records first later r v) ∧
    ∀ a ∈ acts, ∀ seen, a.Reads seen → ∃ first later v after,
      acts = first ++ later ++ a :: after ∧ Stands w.records first later seen v := by
  induction h with
  | still =>
    refine ⟨fun r hr => ⟨[], [], r, rfl, .start hr, rfl, ?_, Or.inl (.refl r)⟩, ?_⟩
    · exact fun a ha => absurd ha List.not_mem_nil
    · exact fun a ha => absurd ha List.not_mem_nil
  | @next acts u number s next r held w' course turn locks meets ih =>
    obtain ⟨hrows, hreads⟩ := ih undivided.snoc.1
    have hsound := (course.sound hw).1
    refine ⟨fun row hrow => ?_, fun a ha seen hseen => ?_⟩
    · by_cases hedits : Act.Edits row.id ⟨number, s, r, u.world, w'⟩
      · obtain ⟨hother, left, hleaves, hid⟩ := hedits
        refine ⟨_, [], left, (List.append_nil _).symm, .edit hother hleaves, hid, ?_,
          Or.inl (hleaves.agrees_of_id hsound hrow hid)⟩
        exact fun a ha => absurd ha List.not_mem_nil
      by_cases hleft : ∃ left, Act.Leaves ⟨number, s, r, u.world, w'⟩ left ∧ left.id = row.id
      · obtain ⟨left, hleaves, hid⟩ := hleft
        have hrun : number = 0 := by
          by_contra hother
          exact hedits ⟨hother, left, hleaves, hid⟩
        subst hrun
        have hkept := hleaves.agrees_of_id hsound hrow hid
        obtain ⟨a, ha, seen, hread, hagrees⟩ := course.agrees_of_back hw turn hleaves
        obtain ⟨first, later, v, after, hacts, hstands⟩ := hreads a ha seen hread
        rw [hacts]
        exact hstands.back hread ⟨rfl, left, hleaves, hid⟩ (hkept.trans hagrees)
      · have hold : row ∈ u.world.records := by
          rcases course.leaves turn meets undivided with hsame | ⟨left, hleaves⟩
          · exact hsame ▸ hrow
          · obtain ⟨kept, htable, hagrees⟩ := hleaves.put
            have hput : row ∈ u.world.records.put kept := htable ▸ hrow
            rcases RecordTable.mem_put hput with rfl | hold
            · exact absurd ⟨left, hleaves, hagrees.id.symm⟩ hleft
            · exact hold
        obtain ⟨first, later, v, rfl, hstands⟩ := hrows row hold
        exact ⟨first, _, v, List.append_assoc _ _ _, hstands.extend hedits⟩
    · rcases List.mem_append.mp ha with ha | ha
      · obtain ⟨first, later, v, after, rfl, hstands⟩ := hreads a ha seen hseen
        exact ⟨first, later, v, _, List.append_assoc _ _ _, hstands⟩
      · obtain rfl := List.mem_singleton.mp ha
        obtain ⟨first, later, v, rfl, hstands⟩ := hrows seen hseen.2.2
        exact ⟨first, later, v, [], rfl, hstands⟩

end Crew

end

/-- An event that was never pushed to search. -/
def eventInRome : Record where
  id := "e-1"
  entityName := "Event"
  solutionId := "sol-1"
  body := [("city", .str "Rome")]

/-- The event after it was moved. -/
def eventInOslo : Fields :=
  [("id", .str "e-1"), ("entityName", .str "Event"), ("solutionId", .str "sol-1"),
    ("city", .str "Oslo"), ("searchDisplay", .str ""), ("searchContent", .str "")]

def romanWorld : World := { World.empty morning with records := [eventInRome] }

/-- A run over the solution of the event, and somebody who moves the event. -/
def runAmidMove : Crew :=
  .amid (.str "sol-1") .null (.int 100) (some ⟨5⟩) [.write eventInOslo] romanWorld

/-- The run reads its page and the schema of the event; then the event is moved and
indexed; then the run goes on. -/
def moveInBetween : List Nat :=
  List.replicate 4 0 ++ List.replicate 16 1 ++ List.replicate 6 0

/-- Where the events of a table are. -/
def cities (table : RecordTable) : List (String × Option String) :=
  table.map fun r => (r.id, (r.document.look "city").text?)

/-- All is done in one go each and the event is in Rome again, although the sixth act moved it
to Oslo and nobody but the run has committed anything since. -/
def undoesMove (acts : List Act) (u : Crew) : Bool :=
  u.isDone && decide (Undivided acts) && cities u.world.records == [("e-1", some "Rome")] &&
    (acts[5]?.any fun a => a.actor == 1 && cities a.before.records == [("e-1", some "Rome")] &&
      cities a.after.records == [("e-1", some "Oslo")]) &&
    (acts.drop 6).all fun a => a.actor == 0 || !a.isCommit

theorem undoesMove_moveInBetween :
    ((runAmidMove.playAll moveInBetween).map fun played => undoesMove played.1 played.2) =
      some true := by
  decide +kernel

theorem exists_of_cities {table : RecordTable} {id city : String}
    (h : cities table = [(id, some city)]) :
    ∃ r, table = [r] ∧ r.id = id ∧ r.document.look "city" = .str city := by
  obtain ⟨r, rfl, hr⟩ := List.map_eq_singleton_iff.mp h
  have hcity : (r.document.look "city").text? = some city := congrArg Prod.snd hr
  refine ⟨r, rfl, congrArg Prod.fst hr, ?_⟩
  rcases hlook : r.document.look "city" with _ | _ | _ | _ | s | _ | _
  all_goals rw [hlook] at hcity
  all_goals cases hcity
  rfl

/-- An act that moves an event leaves it where it is then. -/
theorem Act.leaves_of_cities {a : Act} {id before after : String}
    (h : a.after.records = a.before.records ∨ ∃ row, a.Leaves row)
    (hbefore : cities a.before.records = [(id, some before)])
    (hafter : cities a.after.records = [(id, some after)]) (hmoved : before ≠ after) :
    ∃ v, a.Leaves v ∧ v.id = id ∧ (Json.str after).Alike (v.document.look "city") := by
  rcases h with hsame | ⟨v, hleaves⟩
  · rw [hsame, hbefore] at hafter
    simp only [List.cons.injEq, Prod.mk.injEq, Option.some.injEq] at hafter
    exact absurd hafter.1.2 hmoved
  · obtain ⟨kept, htable, hagrees⟩ := hleaves.put
    obtain ⟨r, hr, hid, hcity⟩ := exists_of_cities hafter
    have hmem : kept ∈ a.after.records := htable ▸ RecordTable.mem_put_self kept _
    rw [hr] at hmem
    obtain rfl := List.mem_singleton.mp hmem
    exact ⟨v, hleaves, hagrees.id.symm.trans hid, hcity ▸ (hagrees "city" (by decide)).look⟩

end TenantSearch
