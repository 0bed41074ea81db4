-- The record table: what a row takes from its document, where a saved row
-- stands, and which rows a page or a lookup gives.
import TenantSearch.Document.Table
import TenantSearch.Proofs.AlikeValues
import TenantSearch.Proofs.ColumnTexts
import TenantSearch.Proofs.DocumentFields

namespace TenantSearch

theorem bind_eq_ok {ε α β : Type} {x : Except ε α} {f : α → Except ε β} {b : β} :
    (x >>= f) = .ok b ↔ ∃ a, x = .ok a ∧ f a = .ok b := by
  constructor
  · intro h
    cases x with
    | error e => cases h
    | ok a => exact ⟨a, rfl, h⟩
  · rintro ⟨a, rfl, h⟩
    exact h

theorem mapError_eq_ok {ε ε' α : Type} {x : Except ε α} {f : ε → ε'} {a : α} :
    x.mapError f = .ok a ↔ x = .ok a := by
  cases x with
  | error e => exact ⟨fun h => (by cases h), fun h => (by cases h)⟩
  | ok b => exact ⟨fun h => congrArg Except.ok (Except.ok.inj h), fun h => (by cases h; rfl)⟩

theorem isOk_iff {ε α : Type} {x : Except ε α} : x.isOk = true ↔ ∃ a, x = .ok a := by
  rcases x with e | a
  · simp [Except.isOk, Except.toBool]
  · simp [Except.isOk, Except.toBool]

theorem isOk_eq_false_iff {ε α : Type} {x : Except ε α} :
    x.isOk = false ↔ ∃ e, x = .error e := by
  rcases x with e | a
  · simp [Except.isOk, Except.toBool]
  · simp [Except.isOk, Except.toBool]

theorem not_exists_ok {ε α : Type} {e : ε} : ¬ ∃ a : α, Except.error e = .ok a := by
  rintro ⟨a, h⟩
  cases h

theorem toOption_eq_some {ε α : Type} {x : Except ε α} {a : α} :
    x.toOption = some a ↔ x = .ok a := by
  rcases x with e | b
  · simp [Except.toOption]
  · simp [Except.toOption]

@[simp]
theorem ok_bind {ε α β : Type} (a : α) (f : α → Except ε β) : (Except.ok a >>= f) = f a := rfl

/-! ## A row and its document -/

/-- A row that a document gives under an identifier, with its stamp read. -/
structure IsRowOf (id : Json) (document : Fields) (stamp : Option Timestamp) (r : Record) :
    Prop where
  id : Record.columnText id = .ok (some r.id)
  entityName : Record.columnText (document.look "entityName") = .ok (some r.entityName)
  entityType : Record.columnText (document.look "entityType") = .ok r.entityType
  solutionId : Record.columnText (document.look "solutionId") = .ok (some r.solutionId)
  organizationId : Record.columnText (document.look "organizationId") = .ok r.organizationId
  ownedBy : Record.columnText (document.look "ownedBy") = .ok r.ownedBy
  body : r.body = Record.bodyOf document
  reindexedOn : r.reindexedOn = stamp

theorem needed_eq_ok {text : Option String} {s : String} :
    Record.needed text = .ok s ↔ text = some s := by
  cases text with
  | none => simp [Record.needed]
  | some t => simp [Record.needed]

theorem ofDocument_eq_ok_iff {id : Json} {document : Fields} {stamp : Option Timestamp}
    {r : Record} : Record.ofDocument id document stamp = .ok r ↔ IsRowOf id document stamp r := by
  unfold Record.ofDocument
  simp only [bind_eq_ok, needed_eq_ok]
  constructor
  · rintro ⟨_, hid, _, hname, _, htype, _, hsolution, _, horganization, _, howner, _, rfl, _, rfl,
      _, rfl, hrow⟩
    cases hrow
    exact ⟨hid, hname, htype, hsolution, horganization, howner, rfl, rfl⟩
  · rintro ⟨hid, hname, htype, hsolution, horganization, howner, hbody, hstamp⟩
    refine ⟨_, hid, _, hname, _, htype, _, hsolution, _, horganization, _, howner, _, rfl, _, rfl,
      _, rfl, ?_⟩
    cases r
    cases hbody
    cases hstamp
    rfl

/-! ## Documents put together -/

theorem valueUnder_stampField {stamp : Option Timestamp} {name : String}
    (h : name ≠ reindexedField) : valueUnder (Record.stampField stamp).reverse name = none := by
  cases stamp with
  | none => rfl
  | some t => simp [Record.stampField, valueUnder, Ne.symm h]

/-- Everything but the stamp is from the columns or from the body. -/
theorem get?_assemble (body columns : Fields) (stamp : Option Timestamp) {name : String}
    (h : name ≠ reindexedField) :
    (Record.assemble body columns stamp).get? name =
      (valueUnder columns.reverse name).or (body.get? name) := by
  unfold Record.assemble
  rw [Fields.get?_setAll, Fields.get?_setAll, valueUnder_stampField h, Option.none_or]

theorem valueUnder_map_pair (value : String → Json) (names : List String) (name : String) :
    valueUnder (names.map fun n => (n, value n)) name =
      if name ∈ names then some (value name) else none := by
  induction names with
  | nil => rfl
  | cons n rest ih =>
    rw [List.map_cons, valueUnder_cons, ih]
    by_cases h : n = name
    · simp [h]
    · simp [h, Ne.symm h]

/-- A saved document has the fields without columns as they were. -/
theorem get?_savedDocument (document : Fields) (stamp : Option Timestamp) {name : String}
    (h : name ≠ reindexedField) (hname : name ∉ promotedFields) :
    (Record.savedDocument document stamp).get? name = document.get? name := by
  unfold Record.savedDocument
  rw [get?_assemble _ _ _ h, ← List.map_reverse, valueUnder_map_pair]
  unfold Record.bodyOf
  rw [Fields.get?_without, if_neg (mt List.mem_reverse.mp hname), Option.none_or,
    if_neg (by rw [List.mem_cons, not_or]; exact ⟨h, hname⟩)]

/-- A saved document has all fields of the document but for the stamp. -/
theorem look_savedDocument (document : Fields) (stamp : Option Timestamp) {name : String}
    (h : name ≠ reindexedField) :
    (Record.savedDocument document stamp).look name = document.look name := by
  by_cases hname : name ∈ promotedFields
  · unfold Record.savedDocument Fields.look
    rw [get?_assemble _ _ _ h, ← List.map_reverse, valueUnder_map_pair,
      if_pos (List.mem_reverse.mpr hname)]
    rfl
  · exact Fields.look_eq_of_get? (get?_savedDocument document stamp h hname)

/-- A document of a row has the columns of the row. -/
theorem look_document_column (r : Record) {name : String} {value : Json}
    (h : (name, value) ∈ r.columns) : r.document.look name = value := by
  have hcolumns : ∀ c ∈ r.columns, c.1 ≠ reindexedField ∧
      valueUnder r.columns.reverse c.1 = some c.2 := by
    simp [Record.columns, valueUnder_cons, reindexedField]
  obtain ⟨hname, hvalue⟩ := hcolumns (name, value) h
  unfold Record.document Fields.look
  rw [get?_assemble _ _ _ hname, hvalue]
  rfl

/-! ## A row that is written over -/

/-- A column that is alike to the one that was looked up is the one that the document gives. -/
theorem column_of_alike {v : Json} {found stored : Option String}
    (halike : v.Alike (.ofText? found)) (hstored : Record.columnText v = .ok stored) :
    found = stored := by
  rw [Json.alike_ofText?_iff.mp halike] at hstored
  exact (columnText_ofText?_eq hstored).symm

/-- What a document leaves of the columns and the stamp as they were looked up is the same in the
row by now. -/
structure Record.IsUntouched (row found : Record) (document : Fields) (stamp : Option Timestamp) :
    Prop where
  entityName : (document.look "entityName").Alike (.str found.entityName) →
    row.entityName = found.entityName
  entityType : (document.look "entityType").Alike (.ofText? found.entityType) →
    row.entityType = found.entityType
  solutionId : (document.look "solutionId").Alike (.str found.solutionId) →
    row.solutionId = found.solutionId
  organizationId : (document.look "organizationId").Alike (.ofText? found.organizationId) →
    row.organizationId = found.organizationId
  ownedBy : (document.look "ownedBy").Alike (.ofText? found.ownedBy) → row.ownedBy = found.ownedBy
  reindexedOn : stamp = found.reindexedOn → row.reindexedOn = found.reindexedOn

theorem Record.isUntouched_self (r : Record) (document : Fields) (stamp : Option Timestamp) :
    r.IsUntouched r document stamp :=
  ⟨fun _ => rfl, fun _ => rfl, fun _ => rfl, fun _ => rfl, fun _ => rfl, fun _ => rfl⟩

/-- A row where nobody touched what a document leaves becomes that of the document, but keeps its
body if the document's is alike to the one that was looked up. -/
theorem IsRowOf.revised_eq {row found new : Record} {document : Fields} {stamp : Option Timestamp}
    (h : IsRowOf (.str row.id) document stamp new) (huntouched : row.IsUntouched found document stamp) :
    row.revised found new document = { new with
      body := if (Json.obj new.body).Alike (.obj found.body) then row.body else new.body } := by
  have hcolumn {v : Json} {looked now stored : Option String}
      (hstored : Record.columnText v = .ok stored) (hsame : v.Alike (.ofText? looked) → now = looked) :
      (if v.Alike (.ofText? looked) then now else stored) = stored := by
    split
    · next halike => exact (hsame halike).trans (column_of_alike halike hstored)
    · rfl
  have htext {v : Json} {looked now stored : String}
      (hstored : Record.columnText v = .ok (some stored)) (hsame : v.Alike (.str looked) → now = looked) :
      (if v.Alike (.str looked) then now else stored) = stored := by
    split
    · next halike =>
      have hlooked : some looked = some stored := column_of_alike halike hstored
      exact (hsame halike).trans (Option.some.inj hlooked)
    · rfl
  unfold Record.revised
  rw [htext h.entityName huntouched.entityName, hcolumn h.entityType huntouched.entityType,
    htext h.solutionId huntouched.solutionId, hcolumn h.organizationId huntouched.organizationId,
    hcolumn h.ownedBy huntouched.ownedBy, columnText_str h.id]
  congr 1
  split
  · next hstamp => exact (huntouched.reindexedOn (h.reindexedOn.symm.trans hstamp)).trans hstamp.symm
  · rfl

theorem IsRowOf.revised_self {r new : Record} {document : Fields} {stamp : Option Timestamp}
    (h : IsRowOf (.str r.id) document stamp new) : r.revised r new document = { new with
      body := if (Json.obj new.body).Alike (.obj r.body) then r.body else new.body } :=
  h.revised_eq (r.isUntouched_self document stamp)

/-- A row takes a document as a whole: what it leaves of the row is as the document has it. -/
structure Record.TakesWhole (row found : Record) (document : Fields) (stamp : Option Timestamp) :
    Prop extends row.IsUntouched found document stamp where
  body : (Json.obj (Record.bodyOf document)).Alike (.obj found.body) →
    row.body = Record.bodyOf document

theorem IsRowOf.revised_whole {row found new : Record} {document : Fields}
    {stamp : Option Timestamp} (h : IsRowOf (.str row.id) document stamp new)
    (hwhole : row.TakesWhole found document stamp) : row.revised found new document = new := by
  rw [h.revised_eq hwhole.toIsUntouched]
  split
  · next halike =>
    rw [h.body] at halike
    rw [hwhole.body halike, ← h.body]
  · rfl

/-! ## Saving -/

namespace RecordTable

theorem mem_of_find?_eq_some {table : RecordTable} {id : String} {r : Record}
    (h : table.find? id = some r) : r ∈ table ∧ r.id = id :=
  ⟨List.mem_of_find?_eq_some h, by simpa using List.find?_some h⟩

/-- The row that is found for a document is the one of its identifier. -/
theorem find?_of_rowOf {table : RecordTable} {id : Json} {r : Record}
    (h : table.rowOf id = .ok (some r)) : table.find? r.id = some r := by
  unfold rowOf at h
  dsimp only at h
  obtain ⟨sought, -, h⟩ := bind_eq_ok.mp h
  split at h
  · cases h
  · obtain ⟨text, -, h⟩ := bind_eq_ok.mp h
    split at h
    · cases h
    · obtain ⟨key, -, hfound⟩ := Option.bind_eq_some_iff.mp (Except.ok.inj h)
      rwa [(mem_of_find?_eq_some hfound).2]

theorem mem_of_rowOf {table : RecordTable} {id : Json} {r : Record}
    (h : table.rowOf id = .ok (some r)) : r ∈ table :=
  (mem_of_find?_eq_some (find?_of_rowOf h)).1

/-- A document that is looked up and committed with nobody coming in between. -/
def save (table : RecordTable) (document : Fields) (stamp : Option Timestamp) :
    Except Outage (Fields × RecordTable) := do
  table.commit (← table.rowOf (document.look "id")) document stamp

theorem save_of_rowOf {table : RecordTable} {document : Fields} {found : Option Record}
    (h : table.rowOf (document.look "id") = .ok found) (stamp : Option Timestamp) :
    table.save document stamp = table.commit found document stamp := by
  unfold save
  rw [h, ok_bind]

/-- The body that a table keeps of a document: the one that is there, if both are alike. -/
def keptBody (table : RecordTable) (document : Fields) : Fields :=
  match table.rowOf (document.look "id") with
  | .ok (some r) =>
    if (Json.obj (Record.bodyOf document)).Alike (.obj r.body) then r.body
    else Record.bodyOf document
  | _ => Record.bodyOf document

theorem alike_keptBody (table : RecordTable) (document : Fields) :
    (Json.obj (table.keptBody document)).Alike (.obj (Record.bodyOf document)) := by
  unfold keptBody
  split
  · split
    · next halike => exact halike.symm
    · exact .refl _
  · exact .refl _

/-- A table discerns a document if it keeps the body that the document has. -/
def Discerns (table : RecordTable) (document : Fields) : Prop :=
  table.keptBody document = Record.bodyOf document

/-- What a commit that works out does. It puts a row with each column of the document or as it
stood, and the document comes back with the identifier of the row that was found for it. -/
theorem commit_eq_ok {table table' : RecordTable} {found : Option Record} {document saved : Fields}
    {stamp : Option Timestamp} (h : table.commit found document stamp = .ok (saved, table')) :
    (∃ new, found = none ∧ IsRowOf (document.look "id") document stamp new ∧
      table.find? new.id = none ∧ table' = table.put new ∧
      saved = Record.savedDocument document stamp) ∨
    ∃ r new row, found = some r ∧ IsRowOf (.str r.id) document stamp new ∧
      table.find? r.id = some row ∧ table' = table.put (row.revised r new document) ∧
      saved = (Record.savedDocument document stamp).set "id" (.str r.id) := by
  unfold commit at h
  cases found with
  | some r =>
    obtain ⟨new, hnew, h⟩ := bind_eq_ok.mp h
    rcases hrow : table.find? r.id with _ | row
    · rw [hrow] at h
      cases h
    · rw [hrow] at h
      cases h
      exact Or.inr ⟨r, new, row, rfl, ofDocument_eq_ok_iff.mp hnew, hrow, rfl, rfl⟩
  | none =>
    obtain ⟨new, hnew, h⟩ := bind_eq_ok.mp h
    rcases hfound : table.find? new.id with _ | row
    · rw [hfound] at h
      cases h
      exact Or.inl ⟨new, rfl, ofDocument_eq_ok_iff.mp hnew, hfound, rfl, rfl⟩
    · rw [hfound] at h
      cases h

/-- A row that a table keeps of a document: the row that the document gives, but for the body. -/
structure IsKept (table : RecordTable) (id : Json) (document : Fields) (stamp : Option Timestamp)
    (row : Record) : Prop where
  columns : IsRowOf id document stamp { row with body := Record.bodyOf document }
  body : row.body = table.keptBody document

theorem isKept_of_isRowOf {table : RecordTable} {id : Json} {document : Fields}
    {stamp : Option Timestamp} {new : Record} (h : IsRowOf id document stamp new) :
    table.IsKept id document stamp { new with body := table.keptBody document } where
  columns := by
    have hsame : { new with body := Record.bodyOf document } = new := by rw [← h.body]
    exact hsame.symm ▸ h
  body := rfl

/-- What a save that works out does: the row of the document takes its place
in the table, and the document comes back with the identifier of the row that
it was written over, if there was one. -/
theorem save_eq_ok {table table' : RecordTable} {document saved : Fields}
    {stamp : Option Timestamp} (h : table.save document stamp = .ok (saved, table')) :
    ∃ id row, table.IsKept id document stamp row ∧ table' = table.put row ∧
      ((id = document.look "id" ∧ saved = Record.savedDocument document stamp) ∨
        ∃ r ∈ table, id = .str r.id ∧
          saved = (Record.savedDocument document stamp).set "id" (.str r.id)) := by
  unfold save at h
  obtain ⟨found, hfound, h⟩ := bind_eq_ok.mp h
  rcases commit_eq_ok h with ⟨new, rfl, hnew, -, rfl, rfl⟩ | ⟨r, new, row, rfl, hnew, hrow, rfl, rfl⟩
  · have hbody : table.keptBody document = new.body := by
      unfold keptBody
      rw [hfound, hnew.body]
    have hkept : table.IsKept _ _ _ _ := isKept_of_isRowOf hnew
    rw [hbody] at hkept
    exact ⟨_, new, hkept, rfl, Or.inl ⟨rfl, rfl⟩⟩
  · obtain rfl : r = row := Option.some.inj ((find?_of_rowOf hfound).symm.trans hrow)
    have hbody : table.keptBody document =
        if (Json.obj new.body).Alike (.obj r.body) then r.body else new.body := by
      unfold keptBody
      rw [hfound, hnew.body]
    refine ⟨_, _, isKept_of_isRowOf hnew, ?_, Or.inr ⟨r, mem_of_rowOf hfound, rfl, rfl⟩⟩
    rw [hnew.revised_self, hbody]

theorem mem_put {row r : Record} {table : RecordTable} (h : r ∈ put row table) :
    r = row ∨ r ∈ table := by
  induction table with
  | nil => exact Or.inl (List.mem_singleton.mp h)
  | cons r' rest ih =>
    unfold put at h
    split at h
    · exact List.mem_cons.mp h
    · split at h
      · rcases List.mem_cons.mp h with rfl | h
        · exact Or.inl rfl
        · exact Or.inr (List.mem_cons_of_mem _ h)
      · rcases List.mem_cons.mp h with rfl | h
        · exact Or.inr List.mem_cons_self
        · exact (ih h).imp_right (List.mem_cons_of_mem _)

theorem mem_put_self (row : Record) (table : RecordTable) : row ∈ put row table := by
  induction table with
  | nil => exact List.mem_singleton_self _
  | cons r rest ih =>
    unfold put
    split
    · exact List.mem_cons_self
    · split
      · exact List.mem_cons_self
      · exact List.mem_cons_of_mem _ ih

theorem mem_of_mem_limited {limit : Option Int} {rows : List Record} {r : Record}
    (h : r ∈ limited limit rows) : r ∈ rows := by
  unfold limited at h
  split at h
  · split at h
    · exact h
    · exact List.mem_of_mem_take h
  · exact h

theorem limited_natCast (n : Nat) (rows : List Record) : limited (some n) rows = rows.take n := by
  unfold limited
  dsimp only
  rw [if_neg (by omega), Int.toNat_natCast]

/-- The entity name that a page is for, if it is for one. -/
def soughtEntity (v : Json) : Except Outage (Option (Option String)) :=
  if v.given then some <$> Record.columnText v else .ok none

theorem soughtEntity_eq_ok {v : Json} {entityName : Option (Option String)}
    (h : soughtEntity v = .ok entityName) :
    (∃ name, v.given = true ∧ Record.columnText v = .ok name ∧ entityName = some name) ∨
      v.given = false ∧ entityName = none := by
  unfold soughtEntity at h
  split at h
  · next hgiven =>
    rcases hname : Record.columnText v with o | name
    · rw [hname] at h
      cases h
    · rw [hname] at h
      cases h
      exact Or.inl ⟨name, hgiven, rfl, rfl⟩
  · next hgiven =>
    cases h
    exact Or.inr ⟨Bool.eq_false_iff.mpr hgiven, rfl⟩

theorem soughtEntity_bind {α : Type} (v : Json) (f : Option (Option String) → Except Outage α) :
    (soughtEntity v >>= f) =
      if v.given then some <$> Record.columnText v >>= f else pure none >>= f := by
  unfold soughtEntity
  split
  · rfl
  · rfl

theorem mem_matching {table : RecordTable} {solutionId : Option String}
    {entityName : Option (Option String)} {cutoff : Timestamp} {r : Record} :
    r ∈ table.matching solutionId entityName cutoff ↔ r ∈ table ∧ some r.solutionId = solutionId ∧
      r.isStale cutoff = true ∧ ∀ name, entityName = some name → some r.entityName = name := by
  unfold matching
  rw [List.mem_filter, Bool.and_eq_true, Bool.and_eq_true, beq_iff_eq, and_assoc]
  cases entityName with
  | none => simp
  | some name => simp

/-- A page works out if the database can take the solution, the entity and the
limit. It has the first of the matching rows after its identifier. -/
theorem page_eq_ok_iff {table : RecordTable} {p : StalePage} {rows : List Record} :
    table.page p = .ok rows ↔ ∃ solutionId entityName,
      Record.columnText p.solutionId = .ok solutionId ∧
      soughtEntity p.entityName = .ok entityName ∧
      (∀ n, p.limit = some n → ∃ text, Record.columnText (.int n) = .ok text) ∧
      rows = limited p.limit
        ((table.matching solutionId entityName p.cutoff).filter (p.after < ·.id)) := by
  unfold page
  dsimp only
  simp only [← soughtEntity_bind, bind_eq_ok, ← exists_and_left]
  refine exists_congr fun solutionId => exists_congr fun entityName =>
    and_congr_right fun _ => and_congr_right fun _ => ?_
  rcases p.limit with _ | n
  · constructor
    · intro h
      exact ⟨nofun, (Except.ok.inj h).symm⟩
    · rintro ⟨-, rfl⟩
      rfl
  · rw [bind_eq_ok]
    constructor
    · rintro ⟨text, htext, hrows⟩
      refine ⟨fun m hm => ⟨text, ?_⟩, (Except.ok.inj hrows).symm⟩
      rw [← Option.some.inj hm, htext]
    · rintro ⟨htexts, rfl⟩
      obtain ⟨text, htext⟩ := htexts n rfl
      exact ⟨text, htext, rfl⟩

/-- A page has rows of the table. -/
theorem mem_of_mem_page {table : RecordTable} {p : StalePage} {rows : List Record}
    (h : table.page p = .ok rows) {r : Record} (hr : r ∈ rows) : r ∈ table := by
  obtain ⟨solutionId, entityName, -, -, -, rfl⟩ := page_eq_ok_iff.mp h
  exact (mem_matching.mp (List.mem_filter.mp (mem_of_mem_limited hr)).1).1

end RecordTable

end TenantSearch
