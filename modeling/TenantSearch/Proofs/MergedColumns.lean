-- What is merged of a version and of the row that it leaves. A column keeps a text, and few
-- values read otherwise once they are stored as one; a version without them is merged into the
-- same texts as its row.
import TenantSearch.Proofs.PlainTexts
import TenantSearch.Proofs.StoredDocuments

namespace TenantSearch

/-! ## The plain text of a number -/

/-- A number is its own plain text. -/
theorem PlainText.ofText_of_isNumberText {s : String} (h : IsNumberText s.toList) :
    ofText s = .ok s :=
  ofText_eq_self (isCollapsed_of_no_blank h.not_isBlank)
    (not_hasTag_of_not_mem (h.not_mem (by decide))) (h.not_mem (by decide))

/-! ## Values that read as their columns -/

/-- A value that search reads as its column: a column keeps a truth value as a number, and a
number perhaps in another spelling. -/
def ReadsAsColumn : Json → Prop
  | .bool _ => False
  | .float d => d.columnText? = some d.text
  | _ => True

instance : DecidablePred ReadsAsColumn
  | .bool _ => instDecidableFalse
  | .float d => inferInstanceAs (Decidable (d.columnText? = some d.text))
  | .null | .int _ | .str _ | .arr _ | .obj _ => instDecidableTrue

theorem ReadsAsColumn.ofValue {v : Json} (h : ReadsAsColumn v) {text : Option String}
    (htext : Record.columnText v = .ok text) :
    PlainText.ofValue (.ofText? text) = PlainText.ofValue v := by
  cases v with
  | null =>
    cases htext
    rfl
  | bool b => exact h.elim
  | int n =>
    dsimp only [Record.columnText] at htext
    split at htext
    · cases htext
      exact PlainText.ofText_of_isNumberText (isNumberText_int n)
    · cases htext
  | float d =>
    have hsame : d.columnText? = some d.text := h
    obtain rfl : text = some d.text := Except.ok.inj (htext.symm.trans (congrArg Except.ok hsame))
    exact PlainText.ofText_of_isNumberText (isNumberText_columnText? hsame)
  | str s =>
    dsimp only [Record.columnText] at htext
    split at htext
    · cases htext
    · cases htext
      rfl
  | arr items => cases htext
  | obj fields => cases htext

/-- A subtype that is one by its column just when it is one: no zero and no false, which are none,
while their texts are. -/
def IsSubtype (v : Json) : Prop := v.given = true ∨ v = .null ∨ v = .str ""

theorem IsSubtype.columnText_orNull {v : Json} (h : IsSubtype v) {text : Option String}
    (htext : Record.columnText v = .ok text) :
    Record.columnText (Json.ofText? text).orNull = Record.columnText v.orNull := by
  rcases h with hgiven | rfl | rfl
  · have hv : v.orNull = v := if_pos hgiven
    rw [hv, htext]
    cases text with
    | none => rfl
    | some s =>
      have hs : (Json.ofText? (some s)).orNull = .str s :=
        if_pos (given_str (stored_ne_empty hgiven htext))
      rw [hs]
      exact columnText_of_stored htext
  · cases htext
    rfl
  · cases htext
    rfl

/-! ## A version and its row -/

/-- A table keeps a field of a document without a column as the document has it. -/
def RecordTable.KeepsAsIs (table : RecordTable) (document : Fields) (name : String) : Prop :=
  (table.keptBody document).get? name = (Record.bodyOf document).get? name

/-- The row of a version that was saved: its columns hold the texts of the version's values, and
of the other fields these are those of the version, the stamp apart. -/
structure Record.IsRowFor (r : Record) (version : Fields) (kept : String → Prop) : Prop where
  columns : ∀ name ∈ promotedFields, ∃ text,
    Record.columnText (version.look name) = .ok text ∧ r.document.look name = .ofText? text
  others : ∀ name ∉ reindexedField :: promotedFields, kept name →
    r.document.get? name = version.get? name

/-- A save leaves the row of what it answers with. -/
theorem RecordTable.isRowFor_of_save {table table' : RecordTable} {document saved : Fields}
    {stamp : Option Timestamp} (h : table.save document stamp = .ok (saved, table')) :
    ∃ row, table' = table.put row ∧ row.IsRowFor saved (table.KeepsAsIs document) := by
  obtain ⟨row, hkept, htable⟩ := exists_row_of_save h
  have hrow := hkept.columns
  have hanswered {name : String} (hid : name ≠ "id") :
      saved.get? name = (Record.savedDocument document stamp).get? name := by
    obtain ⟨_, _, -, -, ⟨-, rfl⟩ | ⟨r, -, -, rfl⟩⟩ := save_eq_ok h
    · rfl
    · rw [Fields.get?_set, if_neg hid]
  have hlook {name : String} (hid : name ≠ "id") (hstamp : name ≠ reindexedField) :
      saved.look name = document.look name :=
    (Fields.look_eq_of_get? (hanswered hid)).trans (look_savedDocument document stamp hstamp)
  refine ⟨row, htable, fun name hname => ?_, fun name hname hasIs => ?_⟩
  · simp only [promotedFields, List.mem_cons, List.not_mem_nil, or_false] at hname
    rcases hname with rfl | rfl | rfl | rfl | rfl | rfl
    · exact ⟨some row.id, hrow.id, row.isNamedBy_document.id⟩
    · rw [hlook (by decide) (by decide)]
      exact ⟨some row.entityName, hrow.entityName, row.isNamedBy_document.entityName⟩
    · rw [hlook (by decide) (by decide)]
      exact ⟨row.entityType, hrow.entityType, row.isNamedBy_document.entityType⟩
    · rw [hlook (by decide) (by decide)]
      exact ⟨some row.solutionId, hrow.solutionId, row.isNamedBy_document.solutionId⟩
    · rw [hlook (by decide) (by decide)]
      exact ⟨row.organizationId, hrow.organizationId,
        look_document_column row (by simp [Record.columns])⟩
    · rw [hlook (by decide) (by decide)]
      exact ⟨row.ownedBy, hrow.ownedBy, look_document_column row (by simp [Record.columns])⟩
  · obtain ⟨hstamp, hpromoted⟩ := not_or.mp (mt List.mem_cons.mpr hname)
    have hid : name ≠ "id" := by
      rintro rfl
      exact hpromoted (by decide)
    rw [hanswered hid, get?_savedDocument document stamp hstamp hpromoted,
      row.get?_document_of_not_promoted hstamp hpromoted, hkept.body]
    exact hasIs.trans (Record.get?_bodyOf document hstamp hpromoted)

theorem EntityDefinition.rowsFor_congr {definitions : List EntityDefinition}
    {solutionId entityName entityType solutionId' entityName' entityType' : Json}
    (hsolution : Record.columnText solutionId' = Record.columnText solutionId)
    (hentity : Record.columnText entityName' = Record.columnText entityName)
    (htype : Record.columnText entityType'.orNull = Record.columnText entityType.orNull) :
    rowsFor definitions solutionId' entityName' entityType' =
      rowsFor definitions solutionId entityName entityType := by
  unfold rowsFor
  rw [hsolution, hentity, htype]

/-- Where the columns that are asked by can be read, so can the definitions. -/
theorem EntityDefinition.exists_rowsFor (definitions : List EntityDefinition)
    {solutionId entityName entityType : Json} {solution entity subtype : Option String}
    (hsolution : Record.columnText solutionId = .ok solution)
    (hentity : Record.columnText entityName = .ok entity)
    (htype : Record.columnText entityType.orNull = .ok subtype) :
    ∃ rows, rowsFor definitions solutionId entityName entityType = .ok rows := by
  unfold rowsFor
  rw [hsolution, hentity, htype]
  exact ⟨_, rfl⟩

theorem Json.orNull_orNull (v : Json) : v.orNull.orNull = v.orNull := by
  unfold orNull
  by_cases h : v.given = true
  · rw [if_pos h, if_pos h]
  · rw [if_neg h]
    rfl

namespace Record.IsRowFor

variable {r : Record} {version : Fields} {kept : String → Prop}

/-- The row has the schema of the version. -/
theorem schemaFor_eq (h : r.IsRowFor version kept) (hsubtype : IsSubtype (version.look "entityType"))
    (definitions : List EntityDefinition) :
    schemaFor definitions (r.document.look "solutionId") (r.document.look "entityName")
        (r.document.look "entityType") =
      schemaFor definitions (version.look "solutionId") (version.look "entityName")
        (version.look "entityType").orNull := by
  obtain ⟨solution, hsolution, hrowSolution⟩ := h.columns "solutionId" (by decide)
  obtain ⟨entity, hentity, hrowEntity⟩ := h.columns "entityName" (by decide)
  obtain ⟨subtype, htype, hrowType⟩ := h.columns "entityType" (by decide)
  obtain ⟨asked, hasked⟩ : ∃ asked,
      Record.columnText (version.look "entityType").orNull = .ok asked := by
    unfold Json.orNull
    split
    · exact ⟨subtype, htype⟩
    · exact ⟨none, rfl⟩
  obtain ⟨rows, hrows⟩ := EntityDefinition.exists_rowsFor definitions hsolution hentity
    ((congrArg Record.columnText (Json.orNull_orNull _)).trans hasked)
  have hsame : EntityDefinition.rowsFor definitions (.ofText? solution) (.ofText? entity)
      (.ofText? subtype) = .ok rows := by
    refine (EntityDefinition.rowsFor_congr ?_ ?_ ?_).trans hrows
    · rw [hsolution, columnText_ofText? hsolution]
    · rw [hentity, columnText_ofText? hentity]
    · rw [Json.orNull_orNull, hsubtype.columnText_orNull htype]
  unfold schemaFor
  rw [hrowSolution, hrowEntity, hrowType, hsame, hrows]
  rfl

end Record.IsRowFor

/-! ## Merged texts -/

/-- What is merged depends on the plain texts of the named fields alone. -/
theorem PlainText.merge_congr {document document' : Fields} {names : List Json}
    (h : ∀ name, Json.str name ∈ names →
      ofValue (document'.look name) = ofValue (document.look name)) :
    merge document' names = merge document names := by
  have hfield : ∀ name ∈ names, ofField document' name = ofField document name := by
    intro name hname
    cases name with
    | str name => exact h name hname
    | _ => rfl
  have hall : names.mapM (ofField document') = names.mapM (ofField document) := by
    clear h
    induction names with
    | nil => rfl
    | cons name rest ih =>
      rw [List.mapM_cons, List.mapM_cons, hfield name List.mem_cons_self,
        ih fun other hother => hfield other (List.mem_cons_of_mem _ hother)]
  unfold merge
  rw [hall]

namespace MergedText

/-- The texts are merged from none of these fields. -/
def IsApartFrom (m : MergedText) (names : List String) : Prop :=
  ∀ name ∈ names, Json.str name ∉ m.display ++ m.content

/-- A version that reads as its row where the texts are merged from. -/
def ReadsAlike (m : MergedText) (version : Fields) : Prop :=
  ∀ name ∈ promotedFields, Json.str name ∈ m.display ++ m.content → ReadsAsColumn (version.look name)

variable {m : MergedText} {document document' : Fields}

theorem texts_congr (h : ∀ name, Json.str name ∈ m.display ++ m.content →
      PlainText.ofValue (document'.look name) = PlainText.ofValue (document.look name)) :
    m.displayText document' = m.displayText document ∧
      m.contentText document' = m.contentText document :=
  ⟨PlainText.merge_congr fun name hname => h name (List.mem_append_left _ hname),
    PlainText.merge_congr fun name hname => h name (List.mem_append_right _ hname)⟩

/-- Documents that differ only in fields that are not merged have the same texts. -/
theorem IsApartFrom.texts_eq {names : List String} (h : m.IsApartFrom names)
    (hsame : ∀ name ∉ names, document'.get? name = document.get? name) :
    m.displayText document' = m.displayText document ∧
      m.contentText document' = m.contentText document := by
  refine texts_congr fun name hname => ?_
  rw [Fields.look_eq_of_get? (hsame name fun hmem => h name hmem hname)]

/-- The row has the texts of the version. -/
theorem ReadsAlike.texts_eq {version : Fields} {kept : String → Prop} {r : Record}
    (h : m.ReadsAlike version) (hrow : r.IsRowFor version kept)
    (hkept : ∀ name, Json.str name ∈ m.display ++ m.content → kept name)
    (hstamp : m.IsApartFrom [reindexedField]) :
    m.displayText r.document = m.displayText version ∧
      m.contentText r.document = m.contentText version := by
  refine texts_congr fun name hname => ?_
  by_cases hpromoted : name ∈ promotedFields
  · obtain ⟨text, htext, hlook⟩ := hrow.columns name hpromoted
    rw [hlook]
    exact (h name hpromoted hname).ofValue htext
  · have hother : name ∉ reindexedField :: promotedFields := by
      rw [List.mem_cons, not_or]
      refine ⟨?_, hpromoted⟩
      rintro rfl
      exact hstamp _ (List.mem_singleton_self _) hname
    rw [Fields.look_eq_of_get? (hrow.others name hother (hkept name hname))]

end MergedText

end TenantSearch
