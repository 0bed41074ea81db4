-- What a saved document is and what its row gives back. A row as saves leave it is saved over
-- itself unchanged when it is written as it reads.
import TenantSearch.Proofs.ReadMoments
import TenantSearch.Proofs.RewrittenRows

namespace TenantSearch

/-! ## The row of a saved document -/

/-- The identifier of a saved document is that of its row. -/
theorem RecordTable.exists_row_of_save {table table' : RecordTable} {document saved : Fields}
    {stamp : Option Timestamp} (h : table.save document stamp = .ok (saved, table')) :
    ∃ row, table.IsKept (saved.look "id") document stamp row ∧ table' = table.put row := by
  obtain ⟨id, row, hrow, htable, hcases⟩ := save_eq_ok h
  have hid : saved.look "id" = id := by
    rcases hcases with ⟨rfl, rfl⟩ | ⟨r, -, rfl, rfl⟩
    · exact look_savedDocument document stamp (by decide)
    · rw [Fields.look_set, if_pos rfl]
  exact ⟨row, hid ▸ hrow, htable⟩

theorem IsRowOf.unique {id : Json} {document : Fields} {stamp : Option Timestamp}
    {r row : Record} (h : IsRowOf id document stamp r) (h' : IsRowOf id document stamp row) :
    r = row :=
  Except.ok.inj ((ofDocument_eq_ok_iff.mpr h).symm.trans (ofDocument_eq_ok_iff.mpr h'))

/-- The row that a document is written over has its identifier. -/
theorem RecordTable.id_of_rowOf {table : RecordTable} {record : String} {r : Record}
    (h : table.rowOf (.str record) = .ok (some r)) : r.id = record := by
  have hrowOf : table.rowOf (.str record) =
      (·.bind table.find?) <$> Record.columnText (.str record) := by
    have hsought : RecordTable.soughtId (.str record) = .ok (.str record) := rfl
    unfold RecordTable.rowOf
    rw [hsought, ok_bind]
    rcases Record.columnText (.str record) with o | text
    · rfl
    · simp [RecordTable.canBeNew]
  have htext : Record.columnText (.str record) =
      if hasSurrogate record then .error (.broken .unwritableText) else .ok (some record) := rfl
  rw [hrowOf, htext] at h
  split at h
  · cases h
  · exact (RecordTable.mem_of_find?_eq_some (Except.ok.inj h)).2

/-- A document whose columns are texts or null, as they are read back. -/
def HasTextColumns (document : Fields) : Prop :=
  ∀ name ∈ promotedFields, ∃ text, document.look name = .ofText? text

/-- A saved document has its identifier in one place. -/
theorem Record.savedDocument_set_id (document : Fields) (stamp : Option Timestamp) {id : Json}
    (hid : document.look "id" = id) :
    (savedDocument document stamp).set "id" id = savedDocument document stamp := by
  subst hid
  have hcolumns : (((bodyOf document).set "id" (document.look "id")).setAll
      (promotedFields.tail.map fun name => (name, document.look name))).Holds "id"
        (document.look "id") := by
    refine (Fields.holds_set _ _ _).setAll fun f hf hname => ?_
    obtain ⟨name, hmem, rfl⟩ := List.mem_map.mp hf
    obtain rfl : name = "id" := hname
    exact absurd hmem (by decide)
  refine Fields.Holds.set_eq (hcolumns.setAll fun f hf hname => ?_)
  cases stamp with
  | none => exact absurd hf List.not_mem_nil
  | some t =>
    obtain rfl := List.mem_singleton.mp hf
    have hstamp : reindexedField = "id" := hname
    exact absurd hstamp (by decide)

/-- What a commit answers over the row of the identifier or a new one, when that is a text. -/
theorem RecordTable.saved_eq_of_commit {table table' : RecordTable} {found : Option Record}
    {document saved : Fields} {stamp : Option Timestamp} {record : String}
    (hid : document.look "id" = .str record) (hfound : ∀ r, found = some r → r.id = record)
    (h : table.commit found document stamp = .ok (saved, table')) :
    saved = Record.savedDocument document stamp := by
  rcases commit_eq_ok h with ⟨_, -, -, -, -, rfl⟩ | ⟨r, _, _, rfl, -, -, -, rfl⟩
  · rfl
  · exact Record.savedDocument_set_id document stamp (by rw [hid, hfound r rfl])

theorem RecordTable.saved_eq_of_save {table table' : RecordTable} {document saved : Fields}
    {stamp : Option Timestamp} {record : String} (hid : document.look "id" = .str record)
    (h : table.save document stamp = .ok (saved, table')) :
    saved = Record.savedDocument document stamp := by
  unfold RecordTable.save at h
  obtain ⟨found, hfound, h⟩ := bind_eq_ok.mp h
  rw [hid] at hfound
  refine saved_eq_of_commit hid (fun r hr => ?_) h
  exact id_of_rowOf (hr ▸ hfound)

/-- A saved document has the identifier of the document. -/
theorem RecordTable.look_id_of_save {table table' : RecordTable} {document saved : Fields}
    {stamp : Option Timestamp} {record : String} (hid : document.look "id" = .str record)
    (h : table.save document stamp = .ok (saved, table')) : saved.look "id" = .str record := by
  rw [saved_eq_of_save hid h, look_savedDocument document stamp (by decide), hid]

/-- Where the columns of a document are texts, they are those of its row. -/
theorem IsRowOf.columns_eq {document : Fields} {stamp : Option Timestamp} {r : Record}
    (h : IsRowOf (document.look "id") document stamp r)
    (htexts : HasTextColumns (Record.savedDocument document stamp)) :
    promotedFields.map (fun name => (name, document.look name)) = r.columns := by
  have hcolumn {name : String} (hname : name ∈ promotedFields) {stored : Option String}
      (hstored : Record.columnText (document.look name) = .ok stored) :
      document.look name = .ofText? stored := by
    obtain ⟨text, htext⟩ := htexts name hname
    have hstamp : name ≠ reindexedField := by
      rintro rfl
      exact absurd hname (by decide)
    rw [look_savedDocument document stamp hstamp] at htext
    rw [htext] at hstored ⊢
    rcases text with _ | s
    · cases hstored
      rfl
    · rcases stored with _ | t
      · unfold Json.ofText? Record.columnText at hstored
        dsimp only at hstored
        split at hstored
        · cases hstored
        · cases hstored
      · exact congrArg (fun s => Json.ofText? (some s)) (columnText_str hstored).symm
  unfold promotedFields Record.columns
  simp only [List.map_cons, List.map_nil]
  rw [hcolumn (by decide) h.id, hcolumn (by decide) h.entityName, hcolumn (by decide) h.entityType,
    hcolumn (by decide) h.solutionId, hcolumn (by decide) h.organizationId,
    hcolumn (by decide) h.ownedBy]
  rfl

/-- The row of a document with text columns reads as the document was saved. -/
theorem IsRowOf.document_eq {document : Fields} {stamp : Option Timestamp} {r : Record}
    (h : IsRowOf (document.look "id") document stamp r)
    (htexts : HasTextColumns (Record.savedDocument document stamp)) :
    r.document = Record.savedDocument document stamp := by
  unfold Record.document Record.savedDocument
  rw [h.columns_eq htexts, h.body, h.reindexedOn]

/-- A document as the table keeps it: as the save answers with it, but for the body. -/
def RecordTable.keptDocument (table : RecordTable) (document : Fields)
    (stamp : Option Timestamp) : Fields :=
  Record.assemble (table.keptBody document)
    (promotedFields.map fun name => (name, document.look name)) stamp

/-- Where the columns are texts, the row that is saved reads as the table keeps the document. -/
theorem RecordTable.document_of_save {table table' : RecordTable} {document saved : Fields}
    {stamp : Option Timestamp} {record : String} (hid : document.look "id" = .str record)
    (h : table.save document stamp = .ok (saved, table')) :
    ∃ r ∈ table', r.id = record ∧
      (HasTextColumns saved → r.document = table.keptDocument document stamp) := by
  obtain rfl := RecordTable.saved_eq_of_save hid h
  obtain ⟨r, hkept, rfl⟩ := RecordTable.exists_row_of_save h
  rw [look_savedDocument document stamp (by decide)] at hkept
  have hrow := hkept.columns
  have hrecord : r.id = record := columnText_str (hid ▸ hrow.id)
  refine ⟨r, RecordTable.mem_put_self r table, hrecord, fun htexts => ?_⟩
  have hcolumns : promotedFields.map (fun name => (name, document.look name)) = r.columns :=
    hrow.columns_eq htexts
  have hstamp : r.reindexedOn = stamp := hrow.reindexedOn
  unfold Record.document RecordTable.keptDocument
  rw [hcolumns, hkept.body, hstamp]

/-- A row that takes a document as a whole reads as that was saved, where the columns are texts. -/
theorem RecordTable.document_of_commit {table table' : RecordTable} {found : Option Record}
    {document saved : Fields} {stamp : Option Timestamp} {record : String}
    (hid : document.look "id" = .str record) (hfound : ∀ v, found = some v → v.id = record)
    (h : table.commit found document stamp = .ok (saved, table')) :
    ∃ r ∈ table', r.id = record ∧
      ((∀ v, found = some v → ∀ row, table.find? v.id = some row → row.TakesWhole v document stamp) →
        HasTextColumns saved → r.document = saved) := by
  obtain rfl := saved_eq_of_commit hid hfound h
  rcases commit_eq_ok h with ⟨new, rfl, hnew, -, rfl, -⟩ | ⟨v, new, row, rfl, hnew, hrow, rfl, -⟩
  · exact ⟨new, mem_put_self new table, columnText_str (hid ▸ hnew.id),
      fun _ htexts => hnew.document_eq htexts⟩
  · have hsame : row.id = v.id := (mem_of_find?_eq_some hrow).2
    rw [← hsame] at hnew
    have hrecord : row.id = record := hsame.trans (hfound v rfl)
    refine ⟨_, mem_put_self _ table, hrecord, fun hwhole htexts => ?_⟩
    rw [hnew.revised_whole (hwhole v rfl row hrow)]
    rw [hrecord, ← hid] at hnew
    exact hnew.document_eq htexts

/-! ## Rows that are written as they read -/

/-- A row as saves leave it: no field of its body is one that a column or the stamp stands for, and
its stamp is a moment of the calendar. -/
structure Record.Tidy (r : Record) : Prop where
  body : Record.bodyOf r.body = r.body
  stamp : ∀ t, r.reindexedOn = some t → t.micros < Timestamp.limit

theorem IsRowOf.tidy {id : Json} {document : Fields} {stamp : Option Timestamp} {r : Record}
    (h : IsRowOf id document stamp r) (hstamp : IsStamped document stamp) : r.Tidy where
  body := by
    rw [h.body]
    exact Record.bodyOf_bodyOf document
  stamp t ht := by
    rw [h.reindexedOn] at ht
    exact Timestamp.ofValue_lt (ht ▸ hstamp.stamp)

/-- A commit keeps the rows tidy. -/
theorem RecordTable.tidy_of_commit {table table' : RecordTable} (h : ∀ r ∈ table, r.Tidy)
    {found : Option Record} {document saved : Fields} {stamp : Option Timestamp}
    (hstamp : IsStamped document stamp)
    (hcommit : table.commit found document stamp = .ok (saved, table')) : ∀ r ∈ table', r.Tidy := by
  intro r hr
  rcases commit_eq_ok hcommit with
    ⟨new, -, hnew, -, rfl, -⟩ | ⟨found, new, row, -, hnew, hrow, rfl, -⟩
  · rcases mem_put hr with rfl | hr
    · exact hnew.tidy hstamp
    · exact h r hr
  · rcases mem_put hr with rfl | hr
    · have hold := h row (mem_of_find?_eq_some hrow).1
      have hnew := hnew.tidy hstamp
      unfold Record.revised
      constructor
      · dsimp only
        split
        · exact hold.body
        · exact hnew.body
      · dsimp only
        split
        · exact hold.stamp
        · exact hnew.stamp
    · exact h r hr

namespace Record

/-- What is put together has the stamp that it was given and no other. -/
theorem get?_assemble_stamp {body columns : Fields} (hbody : bodyOf body = body)
    (hcolumns : ∀ c ∈ columns, c.1 ∈ promotedFields) (stamp : Option Timestamp) :
    (assemble body columns stamp).get? reindexedField = stamp.map fun t => .str t.isoUtc := by
  have hout : body.get? reindexedField = none := by
    rw [← hbody]
    exact (Fields.get?_without _ _ _).trans (if_pos List.mem_cons_self)
  have hcolumn : valueUnder columns.reverse reindexedField = none := by
    unfold valueUnder
    rw [Option.map_eq_none_iff, List.find?_eq_none]
    intro c hc hname
    have hpromoted := hcolumns c (List.mem_reverse.mp hc)
    rw [beq_iff_eq.mp hname] at hpromoted
    exact absurd hpromoted (by decide)
  unfold assemble
  rw [Fields.get?_setAll, Fields.get?_setAll, hcolumn, hout]
  cases stamp with
  | none => rfl
  | some t => rfl

theorem get?_savedDocument_stamp (document : Fields) (stamp : Option Timestamp) :
    (savedDocument document stamp).get? reindexedField = stamp.map fun t => .str t.isoUtc := by
  refine get?_assemble_stamp (bodyOf_bodyOf document) (fun c hc => ?_) stamp
  obtain ⟨name, hname, rfl⟩ := List.mem_map.mp hc
  exact hname

/-- The row that is read out of a document of a row. -/
theorem looked_columns (r : Record) :
    promotedFields.map (fun name => (name, r.document.look name)) = r.columns := by
  rw [← r.map_columns, List.map_map]
  refine (List.map_congr_left fun c hc => ?_).trans (List.map_id _)
  exact Prod.ext rfl (look_document_column r hc)

/-- Bodies that are alike give documents with alike values under every name. -/
theorem alikeUnder_assemble {body body' columns : Fields} (hbody : bodyOf body = body)
    (hbody' : bodyOf body' = body') (hcolumns : ∀ c ∈ columns, c.1 ∈ promotedFields)
    (halike : (Json.obj body).Alike (.obj body')) (stamp : Option Timestamp) (name : String) :
    Json.AlikeUnder name (assemble body columns stamp) (assemble body' columns stamp) := by
  by_cases hname : name = reindexedField
  · subst hname
    refine .of_get? ?_
    rw [get?_assemble_stamp hbody hcolumns, get?_assemble_stamp hbody' hcolumns]
  · have hunder := halike.under name
    unfold Json.AlikeUnder at *
    rw [get?_assemble _ _ _ hname, get?_assemble _ _ _ hname]
    cases valueUnder columns.reverse name with
    | some v => rfl
    | none => exact hunder

variable {r : Record}

theorem Tidy.bodyOf_document (h : r.Tidy) : bodyOf r.document = r.body :=
  (bodyOf_assemble r.columns_promoted _ _).trans h.body

/-- A tidy row is saved as it is read. -/
theorem Tidy.savedDocument_document (h : r.Tidy) :
    savedDocument r.document r.reindexedOn = r.document := by
  unfold savedDocument
  rw [r.looked_columns, h.bodyOf_document]
  rfl

/-- It is saved as the row that it is. -/
theorem Tidy.isRowOf_document (h : r.Tidy) (hsound : r.Sound) :
    IsRowOf (.str r.id) r.document r.reindexedOn r := by
  have hrow := RecordTable.isRowOf_of_columns hsound (fun _ _ => rfl) r.reindexedOn
  rwa [h.bodyOf_document] at hrow

theorem Tidy.isStamped_document (h : r.Tidy) (hsound : r.Sound) :
    IsStamped r.document r.reindexedOn where
  id := r.isNamedBy_document.id ▸ given_str hsound.hasId
  entityName := r.isNamedBy_document.entityName ▸ given_str hsound.hasEntity
  solutionId := r.isNamedBy_document.solutionId ▸ given_str hsound.hasSolution
  stamp := by
    unfold Fields.look document
    rw [get?_assemble_stamp h.body r.columns_promoted]
    cases hstamp : r.reindexedOn with
    | none => rfl
    | some t => exact Timestamp.ofValue_of_ofText (Timestamp.ofText_isoUtc (h.stamp t hstamp))

end Record

/-! ## What a table keeps of a document -/

namespace RecordTable

variable (table : RecordTable) (document : Fields) (stamp : Option Timestamp)

theorem bodyOf_keptBody : Record.bodyOf (table.keptBody document) = table.keptBody document :=
  Record.bodyOf_eq_of_alike (table.alike_keptBody document).symm

theorem alikeUnder_keptDocument (name : String) :
    Json.AlikeUnder name (table.keptDocument document stamp)
      (Record.savedDocument document stamp) := by
  refine Record.alikeUnder_assemble (table.bodyOf_keptBody document)
    (Record.bodyOf_bodyOf document) (fun c hc => ?_) (table.alike_keptBody document) stamp name
  obtain ⟨name, hname, rfl⟩ := List.mem_map.mp hc
  exact hname

/-- A document is kept as it was saved just where the table discerns it. -/
theorem keptDocument_eq_iff : table.keptDocument document stamp =
    Record.savedDocument document stamp ↔ table.Discerns document := by
  have hbody (body : Fields) : Record.bodyOf (Record.assemble body
      (promotedFields.map fun name => (name, document.look name)) stamp) = Record.bodyOf body := by
    refine Record.bodyOf_assemble (fun c hc => ?_) body stamp
    obtain ⟨name, hname, rfl⟩ := List.mem_map.mp hc
    exact hname
  unfold keptDocument Record.savedDocument Discerns
  constructor
  · intro h
    have hbodies := congrArg Record.bodyOf h
    rwa [hbody, hbody, bodyOf_keptBody, Record.bodyOf_bodyOf] at hbodies
  · intro h
    rw [h]

end RecordTable

/-- A row is put over itself. -/
theorem RecordTable.Sound.put_self {table : RecordTable} (h : table.Sound) {r : Record}
    (hr : r ∈ table) : table.put r = table := by
  rw [RecordTable.put_eq_map h.ordered hr rfl]
  refine (List.map_congr_left fun v hv => ?_).trans (List.map_id table)
  split
  · next hid => exact (h.eq_of_id hr hv hid).symm
  · rfl

/-- A tidy row of the table that is written as it is read leaves the table what it is. -/
theorem RecordTable.Sound.save_document {table : RecordTable} (h : table.Sound) {r : Record}
    (hr : r ∈ table) (htidy : r.Tidy) :
    table.save r.document r.reindexedOn = .ok (r.document, table) := by
  have hid := r.isNamedBy_document.id
  have hsame := Record.savedDocument_set_id r.document r.reindexedOn hid
  have hover := h.save_over hr hid (htidy.isRowOf_document (h.rows r hr))
    fun _ => htidy.bodyOf_document.symm
  rwa [hsame, htidy.savedDocument_document, h.put_self hr] at hover

end TenantSearch
