-- What every row of the record table is like: its columns can be stored again
-- as they are, what a document must say of itself is there, and the rows stand
-- in the order of their identifiers.
import TenantSearch.Document.Store
import TenantSearch.Proofs.ColumnTexts
import TenantSearch.Proofs.RecordTable

namespace TenantSearch

/-! ## Single rows -/

/-- A row as saved documents leave it. -/
structure Record.Sound (r : Record) : Prop where
  id : Record.columnText (.str r.id) = .ok (some r.id)
  entityName : Record.columnText (.str r.entityName) = .ok (some r.entityName)
  entityType : Record.columnText (.ofText? r.entityType) = .ok r.entityType
  solutionId : Record.columnText (.str r.solutionId) = .ok (some r.solutionId)
  organizationId : Record.columnText (.ofText? r.organizationId) = .ok r.organizationId
  ownedBy : Record.columnText (.ofText? r.ownedBy) = .ok r.ownedBy
  hasId : r.id ≠ ""
  hasEntity : r.entityName ≠ ""
  hasSolution : r.solutionId ≠ ""

theorem Record.sound_iff {r : Record} : r.Sound ↔
    ((columnText (.str r.id)).toOption = some (some r.id) ∧
      (columnText (.str r.entityName)).toOption = some (some r.entityName) ∧
      (columnText (.ofText? r.entityType)).toOption = some r.entityType) ∧
    ((columnText (.str r.solutionId)).toOption = some (some r.solutionId) ∧
      (columnText (.ofText? r.organizationId)).toOption = some r.organizationId ∧
      (columnText (.ofText? r.ownedBy)).toOption = some r.ownedBy) ∧
    r.id ≠ "" ∧ r.entityName ≠ "" ∧ r.solutionId ≠ "" := by
  simp only [toOption_eq_some]
  constructor
  · intro h
    exact ⟨⟨h.id, h.entityName, h.entityType⟩, ⟨h.solutionId, h.organizationId, h.ownedBy⟩, h.hasId,
      h.hasEntity, h.hasSolution⟩
  · rintro ⟨⟨hid, hentity, htype⟩, ⟨hsolution, horganization, howner⟩, hgiven⟩
    exact ⟨hid, hentity, htype, hsolution, horganization, howner, hgiven.1, hgiven.2.1, hgiven.2.2⟩

instance (r : Record) : Decidable r.Sound := decidable_of_iff _ Record.sound_iff.symm

/-- What a column holds can be stored again as it is. -/
theorem columnText_ofText? {v : Json} {text : Option String} (h : Record.columnText v = .ok text) :
    Record.columnText (.ofText? text) = .ok text := by
  cases text with
  | none => rfl
  | some s => exact columnText_of_stored h

theorem IsRowOf.sound {id : Json} {document : Fields} {stamp : Option Timestamp} {r : Record}
    (h : IsRowOf id document stamp r) (hid : id.given = true)
    (hentity : (document.look "entityName").given = true)
    (hsolution : (document.look "solutionId").given = true) : r.Sound where
  id := columnText_of_stored h.id
  entityName := columnText_of_stored h.entityName
  entityType := columnText_ofText? h.entityType
  solutionId := columnText_of_stored h.solutionId
  organizationId := columnText_ofText? h.organizationId
  ownedBy := columnText_ofText? h.ownedBy
  hasId := stored_ne_empty hid h.id
  hasEntity := stored_ne_empty hentity h.entityName
  hasSolution := stored_ne_empty hsolution h.solutionId

/-- A row with some columns of another sound row is sound. -/
theorem Record.Sound.revised {row new : Record} (h : row.Sound) (hnew : new.Sound) (found : Record)
    (document : Fields) : (row.revised found new document).Sound := by
  have htext (p : Prop) [Decidable p] (a b : String)
      (ha : Record.columnText (.str a) = .ok (some a) ∧ a ≠ "")
      (hb : Record.columnText (.str b) = .ok (some b) ∧ b ≠ "") :
      Record.columnText (.str (if p then a else b)) = .ok (some (if p then a else b)) ∧
        (if p then a else b) ≠ "" := by
    split
    · exact ha
    · exact hb
  have hcolumn (p : Prop) [Decidable p] (a b : Option String)
      (ha : Record.columnText (.ofText? a) = .ok a) (hb : Record.columnText (.ofText? b) = .ok b) :
      Record.columnText (.ofText? (if p then a else b)) = .ok (if p then a else b) := by
    split
    · exact ha
    · exact hb
  have hentity := htext ((document.look "entityName").Alike (.str found.entityName)) _ _
    ⟨h.entityName, h.hasEntity⟩ ⟨hnew.entityName, hnew.hasEntity⟩
  have hsolution := htext ((document.look "solutionId").Alike (.str found.solutionId)) _ _
    ⟨h.solutionId, h.hasSolution⟩ ⟨hnew.solutionId, hnew.hasSolution⟩
  exact ⟨h.id, hentity.1, hcolumn _ _ _ h.entityType hnew.entityType, hsolution.1,
    hcolumn _ _ _ h.organizationId hnew.organizationId, hcolumn _ _ _ h.ownedBy hnew.ownedBy, h.hasId,
    hentity.2, hsolution.2⟩

theorem given_str {s : String} (h : s ≠ "") : (Json.str s).given = true := by
  unfold Json.given
  simpa using h

/-! ## What is checked before a save -/

/-- A document that may be saved names itself, its entity and its solution, and
the time of its last push is one. -/
structure IsStamped (document : Fields) (stamp : Option Timestamp) : Prop where
  id : (document.look "id").given = true
  entityName : (document.look "entityName").given = true
  solutionId : (document.look "solutionId").given = true
  stamp : Timestamp.ofValue (document.look reindexedField) = .ok stamp

theorem stampOf_eq_ok_iff {document : Fields} {stamp : Option Timestamp} :
    Store.stampOf document = .ok stamp ↔ IsStamped document stamp := by
  unfold Store.stampOf
  constructor
  · intro h
    split at h
    · cases h
    · next hid =>
      split at h
      · cases h
      · next hentity =>
        split at h
        · cases h
        · next hsolution =>
          simp only [Bool.not_eq_true', Bool.not_eq_false] at hid hentity hsolution
          exact ⟨hid, hentity, hsolution, h⟩
  · intro h
    simp [h.id, h.entityName, h.solutionId, h.stamp]

/-! ## The table -/

namespace RecordTable

/-- A table as saves leave it: sound rows in the order of their identifiers. -/
structure Sound (table : RecordTable) : Prop where
  ordered : table.Pairwise (·.id < ·.id)
  rows : ∀ r ∈ table, r.Sound

theorem sound_iff {table : RecordTable} :
    table.Sound ↔ table.Pairwise (·.id < ·.id) ∧ ∀ r ∈ table, r.Sound :=
  ⟨fun h => ⟨h.ordered, h.rows⟩, fun h => ⟨h.1, h.2⟩⟩

instance (table : RecordTable) : Decidable table.Sound := decidable_of_iff _ sound_iff.symm

theorem Sound.empty : Sound [] := ⟨.nil, fun _ h => absurd h List.not_mem_nil⟩

/-- In an ordered table a row that is put replaces the one with its identifier
and no other. -/
theorem mem_put_iff {table : RecordTable} (h : table.Pairwise (·.id < ·.id)) (row r : Record) :
    r ∈ table.put row ↔ r = row ∨ r ∈ table ∧ r.id ≠ row.id := by
  induction table with
  | nil => simp [put]
  | cons head rest ih =>
    obtain ⟨hhead, hrest⟩ := List.pairwise_cons.mp h
    unfold put
    split
    · next hlt =>
      have hlater : ∀ r ∈ head :: rest, r.id ≠ row.id := by
        intro r hr heq
        rcases List.mem_cons.mp hr with rfl | hr
        · exact String.lt_irrefl _ (heq ▸ hlt)
        · exact String.lt_asymm (heq ▸ hhead r hr) hlt
      rw [List.mem_cons]
      exact or_congr_right ⟨fun hr => ⟨hr, hlater r hr⟩, And.left⟩
    · split
      · next heq =>
        have hlater : ∀ r ∈ rest, r.id ≠ row.id := by
          intro r hr hsame
          have hlt := hhead r hr
          rw [hsame, beq_iff_eq.mp heq] at hlt
          exact String.lt_irrefl _ hlt
        rw [List.mem_cons, List.mem_cons]
        constructor
        · rintro (rfl | hr)
          · exact Or.inl rfl
          · exact Or.inr ⟨Or.inr hr, hlater r hr⟩
        · rintro (rfl | ⟨rfl | hr, hne⟩)
          · exact Or.inl rfl
          · exact absurd (beq_iff_eq.mp heq).symm hne
          · exact Or.inr hr
      · next hne =>
        rw [List.mem_cons, List.mem_cons, ih hrest]
        constructor
        · rintro (rfl | rfl | ⟨hr, hne⟩)
          · exact Or.inr ⟨Or.inl rfl, fun heq => hne (beq_iff_eq.mpr heq.symm)⟩
          · exact Or.inl rfl
          · exact Or.inr ⟨Or.inr hr, hne⟩
        · rintro (rfl | ⟨rfl | hr, hne⟩)
          · exact Or.inr (Or.inl rfl)
          · exact Or.inl rfl
          · exact Or.inr (Or.inr ⟨hr, hne⟩)

theorem ordered_put {table : RecordTable} (h : table.Pairwise (·.id < ·.id)) (row : Record) :
    (table.put row).Pairwise (·.id < ·.id) := by
  induction table with
  | nil => exact List.pairwise_singleton _ _
  | cons head rest ih =>
    obtain ⟨hhead, hrest⟩ := List.pairwise_cons.mp h
    unfold put
    split
    · next hlt =>
      refine List.pairwise_cons.mpr ⟨fun r hr => ?_, h⟩
      rcases List.mem_cons.mp hr with rfl | hr
      · exact hlt
      · exact String.lt_trans hlt (hhead r hr)
    · split
      · next heq =>
        refine List.pairwise_cons.mpr ⟨fun r hr => ?_, hrest⟩
        rw [beq_iff_eq.mp heq]
        exact hhead r hr
      · next hnlt hne =>
        refine List.pairwise_cons.mpr ⟨fun r hr => ?_, ih hrest⟩
        rcases mem_put hr with rfl | hr
        · rw [beq_iff_eq] at hne
          exact Std.lt_of_le_of_ne (String.not_lt.mp hnlt) (Ne.symm hne)
        · exact hhead r hr

theorem Sound.put {table : RecordTable} (h : table.Sound) {row : Record} (hrow : row.Sound) :
    Sound (table.put row) := by
  refine ⟨ordered_put h.ordered row, fun r hr => ?_⟩
  rcases mem_put hr with rfl | hr
  · exact hrow
  · exact h.rows r hr

/-- A commit keeps a table sound, whatever became of the row since it was looked up. -/
theorem Sound.commit {table table' : RecordTable} (h : table.Sound) {found : Option Record}
    {document saved : Fields} {stamp : Option Timestamp} (hstamp : IsStamped document stamp)
    (hcommit : table.commit found document stamp = .ok (saved, table')) : table'.Sound := by
  rcases commit_eq_ok hcommit with ⟨new, -, hnew, -, rfl, -⟩ | ⟨r, new, row, -, hnew, hrow, rfl, -⟩
  · exact h.put (hnew.sound hstamp.id hstamp.entityName hstamp.solutionId)
  · obtain ⟨hmem, hid⟩ := mem_of_find?_eq_some hrow
    have hsound := h.rows row hmem
    have hgiven : (Json.str r.id).given = true := hid ▸ given_str hsound.hasId
    exact h.put (hsound.revised (hnew.sound hgiven hstamp.entityName hstamp.solutionId) r document)

/-- A save keeps a table sound. -/
theorem Sound.save {table table' : RecordTable} (h : table.Sound) {document saved : Fields}
    {stamp : Option Timestamp} (hstamp : IsStamped document stamp)
    (hsave : table.save document stamp = .ok (saved, table')) : table'.Sound := by
  obtain ⟨found, -, hcommit⟩ := bind_eq_ok.mp hsave
  exact h.commit hstamp hcommit

/-- In an ordered table an identifier stands for one row. -/
theorem filter_id {table : RecordTable} (h : table.Pairwise (·.id < ·.id)) {record : Record}
    (hrecord : record ∈ table) : table.filter (·.id == record.id) = [record] := by
  induction table with
  | nil => cases hrecord
  | cons head rest ih =>
    obtain ⟨hhead, hrest⟩ := List.pairwise_cons.mp h
    rcases List.mem_cons.mp hrecord with rfl | hrecord
    · have hnone : rest.filter (·.id == record.id) = [] := by
        rw [List.filter_eq_nil_iff]
        intro r hr heq
        have hlt := hhead r hr
        rw [beq_iff_eq.mp heq] at hlt
        exact String.lt_irrefl _ hlt
      rw [List.filter_cons_of_pos (by simp), hnone]
    · have hne : ¬ (head.id == record.id) = true := by
        intro heq
        have hlt := hhead record hrecord
        rw [beq_iff_eq.mp heq] at hlt
        exact String.lt_irrefl _ hlt
      rw [List.filter_cons, if_neg hne]
      exact ih hrest hrecord

theorem Sound.eq_of_id {table : RecordTable} (h : table.Sound) {r r' : Record} (hr : r ∈ table)
    (hr' : r' ∈ table) (hid : r'.id = r.id) : r' = r := by
  have hmem : r' ∈ table.filter (·.id == r.id) := List.mem_filter.mpr ⟨hr', beq_iff_eq.mpr hid⟩
  rw [filter_id h.ordered hr] at hmem
  exact List.mem_singleton.mp hmem

end RecordTable

end TenantSearch
