-- What reindexing makes of a single row, field by field, and of a table some
-- rows of which are reindexed.
import TenantSearch.Proofs.ReindexedRows

namespace TenantSearch

namespace Record

/-! ## A row and what is made of it -/

/-- The row that reindexing makes of a row, if its schema can be read and its texts
merged. -/
def rewritten? (definitions : List EntityDefinition) (now : Timestamp) (r : Record) :
    Option Record :=
  match schemaFor definitions (.str r.solutionId) (.str r.entityName) (.ofText? r.entityType) with
  | .error _ => none
  | .ok schema =>
    match Reindex.refreshed schema.merged now r.document with
    | .error _ => none
    | .ok refreshed => some { r with body := bodyOf refreshed, reindexedOn := some now }

/-- A row that is another one written anew in full: with the texts that its own schema
merges, a modifier, a fresh stamp, and nothing else changed. -/
structure IsRewriting (definitions : List EntityDefinition) (now : Timestamp) (r row : Record) :
    Prop where
  columns : row.columns = r.columns
  texts : ∃ schema display content,
    schemaFor definitions (.str r.solutionId) (.str r.entityName) (.ofText? r.entityType) =
      .ok schema ∧
    schema.merged.displayText r.document = .ok display ∧
    schema.merged.contentText r.document = .ok content ∧
    row.document.get? "searchDisplay" = some (.str display) ∧
    row.document.get? "searchContent" = some (.str content)
  /-- The owner stands in for a modifier that is not given. -/
  modifier : row.document.get? "modifiedBy" =
    if (r.document.look "modifiedBy").given then r.document.get? "modifiedBy"
    else some (r.document.look "ownedBy")
  stamp : row.reindexedOn = some now
  stampField : row.document.get? reindexedField = some (.str now.isoUtc)
  others : ∀ name ∉ refreshedFields, row.document.get? name = r.document.get? name

theorem rewritten?_eq_some {definitions : List EntityDefinition} {now : Timestamp}
    {r row : Record} : r.rewritten? definitions now = some row ↔ ∃ schema refreshed,
      schemaFor definitions (.str r.solutionId) (.str r.entityName) (.ofText? r.entityType) =
        .ok schema ∧
      Reindex.refreshed schema.merged now r.document = .ok refreshed ∧
      row = { r with body := bodyOf refreshed, reindexedOn := some now } := by
  unfold rewritten?
  rcases schemaFor definitions (.str r.solutionId) (.str r.entityName) (.ofText? r.entityType) with
    f | schema
  · simp
  · dsimp only
    rcases hrefreshed : Reindex.refreshed schema.merged now r.document with b | refreshed
    · simp [hrefreshed]
    · simp [hrefreshed, eq_comm]

theorem id_of_rewritten? {definitions : List EntityDefinition} {now : Timestamp} {r row : Record}
    (h : r.rewritten? definitions now = some row) : row.id = r.id := by
  obtain ⟨_, _, -, -, rfl⟩ := rewritten?_eq_some.mp h
  rfl

/-- Rewriting keeps the columns, so a sound row stays sound. -/
theorem Sound.rewritten {definitions : List EntityDefinition} {now : Timestamp} {r row : Record}
    (hr : r.Sound) (h : r.rewritten? definitions now = some row) : row.Sound := by
  obtain ⟨_, _, -, -, rfl⟩ := rewritten?_eq_some.mp h
  exact ⟨hr.id, hr.entityName, hr.entityType, hr.solutionId, hr.organizationId, hr.ownedBy, hr.hasId,
    hr.hasEntity, hr.hasSolution⟩

theorem exists_column (r : Record) {name : String} (h : name ∈ promotedFields) :
    ∃ value, valueUnder r.columns.reverse name = some value := by
  simp only [promotedFields, List.mem_cons, List.not_mem_nil, or_false] at h
  rcases h with rfl | rfl | rfl | rfl | rfl | rfl
  all_goals simp [columns, valueUnder_cons]

/-- A column of the row is a field of its document, and the body does not hide it. -/
theorem get?_document_of_promoted (r : Record) (body : Fields) (stamp : Option Timestamp)
    {name : String} (h : name ∈ promotedFields) :
    ({ r with body, reindexedOn := stamp } : Record).document.get? name = r.document.get? name := by
  have hname : name ≠ reindexedField := by
    rintro rfl
    revert h
    decide
  obtain ⟨value, hvalue⟩ := r.exists_column h
  have hcolumns : ({ r with body, reindexedOn := stamp } : Record).columns = r.columns := rfl
  unfold document
  rw [get?_assemble _ _ _ hname, get?_assemble _ _ _ hname, hcolumns, hvalue]
  rfl

/-- Every other field of its document but the stamp is from the body. -/
theorem get?_document_of_not_promoted (r : Record) {name : String} (hname : name ≠ reindexedField)
    (h : name ∉ promotedFields) : r.document.get? name = r.body.get? name := by
  have hcolumns : valueUnder r.columns.reverse name = none := by
    simp only [promotedFields, List.mem_cons, List.not_mem_nil, or_false, not_or] at h
    obtain ⟨hid, hentity, htype, hsolution, horganization, howner⟩ := h
    simp [columns, valueUnder, Ne.symm hid, Ne.symm hentity, Ne.symm htype,
      Ne.symm hsolution, Ne.symm horganization, Ne.symm howner]
  unfold Record.document
  rw [get?_assemble _ _ _ hname, hcolumns, Option.none_or]

theorem get?_bodyOf (document : Fields) {name : String} (hname : name ≠ reindexedField)
    (h : name ∉ promotedFields) : (bodyOf document).get? name = document.get? name := by
  have hout : name ∉ reindexedField :: promotedFields := by
    rw [List.mem_cons, not_or]
    exact ⟨hname, h⟩
  exact (Fields.get?_without _ _ _).trans (if_neg hout)

theorem get?_document_of_body (r : Record) (document : Fields) (stamp : Option Timestamp)
    {name : String} (hname : name ≠ reindexedField) (h : name ∉ promotedFields) :
    ({ r with body := bodyOf document, reindexedOn := stamp } : Record).document.get? name =
      document.get? name :=
  (get?_document_of_not_promoted _ hname h).trans (get?_bodyOf document hname h)

/-- What a stamped document has for a modifier. -/
theorem get?_stamped_modifier (display content : String) (now : Timestamp) (document : Fields) :
    (Reindex.stamped display content now document).get? "modifiedBy" =
      if (document.look "modifiedBy").given then document.get? "modifiedBy"
      else some (document.look "ownedBy") := by
  have hkept (name : String) (hdisplay : name ≠ "searchDisplay")
      (hcontent : name ≠ "searchContent") : ((document.set "searchDisplay" (.str display)).set "searchContent"
        (.str content)).get? name = document.get? name := by
    rw [Fields.get?_set, if_neg hcontent, Fields.get?_set, if_neg hdisplay]
  have hmodifier := hkept "modifiedBy" (by decide) (by decide)
  have howner := hkept "ownedBy" (by decide) (by decide)
  unfold Reindex.stamped
  dsimp only
  rw [Fields.get?_set, if_neg (by decide), Fields.look_eq_of_get? hmodifier,
    Fields.look_eq_of_get? howner]
  split
  · exact hmodifier
  · rw [Fields.get?_set, if_pos rfl]

theorem isRewriting_of_rewritten? {definitions : List EntityDefinition} {now : Timestamp}
    {r row : Record} (h : r.rewritten? definitions now = some row) :
    r.IsRewriting definitions now row := by
  obtain ⟨schema, refreshed, hschema, hrefreshed, rfl⟩ := rewritten?_eq_some.mp h
  obtain ⟨display, content, hdisplay, hcontent, rfl⟩ := refreshed_eq_ok_iff.mp hrefreshed
  have hbody {name : String} (hname : name ≠ reindexedField) (hpromoted : name ∉ promotedFields) :=
    get?_document_of_body r (Reindex.stamped display content now r.document) (some now) hname
      hpromoted
  constructor
  · rfl
  · refine ⟨schema, display, content, hschema, hdisplay, hcontent, ?_, ?_⟩
    · rw [hbody (by decide) (by decide), get?_stamped _ _ _ _ (by decide)]
      rfl
    · rw [hbody (by decide) (by decide), get?_stamped _ _ _ _ (by decide)]
      rfl
  · rw [hbody (by decide) (by decide), get?_stamped_modifier]
  · rfl
  · unfold Record.document assemble
    rw [Fields.get?_setAll]
    rfl
  · intro name hname
    by_cases hpromoted : name ∈ promotedFields
    · exact get?_document_of_promoted r _ _ hpromoted
    · simp only [refreshedFields, searchTextFields, List.mem_cons, List.not_mem_nil, or_false,
        not_or] at hname
      obtain ⟨hstamp, hmodifier, hdisplay, hcontent⟩ := hname
      rw [hbody hstamp hpromoted, get?_stamped _ _ _ _ hmodifier, if_neg hstamp, if_neg hcontent,
        if_neg hdisplay]

end Record

/-! ## A table some rows of which are rewritten -/

/-- What becomes of a row when the rows with these identifiers are rewritten. -/
def Record.amid (definitions : List EntityDefinition) (now : Timestamp) (ids : List String)
    (r : Record) : Record :=
  if r.id ∈ ids then (r.rewritten? definitions now).getD r else r

section

variable {definitions : List EntityDefinition} {now : Timestamp} {ids : List String}

theorem Record.id_amid (r : Record) : (r.amid definitions now ids).id = r.id := by
  unfold Record.amid
  split
  · rcases hrow : r.rewritten? definitions now with _ | row
    · rfl
    · exact id_of_rewritten? hrow
  · rfl

theorem Record.solutionId_amid (r : Record) :
    (r.amid definitions now ids).solutionId = r.solutionId := by
  unfold Record.amid
  split
  · rcases hrow : r.rewritten? definitions now with _ | row
    · rfl
    · obtain ⟨_, _, -, -, rfl⟩ := rewritten?_eq_some.mp hrow
      rfl
  · rfl

theorem Record.Sound.amid {r : Record} (h : r.Sound) : (r.amid definitions now ids).Sound := by
  unfold Record.amid
  split
  · rcases hrow : r.rewritten? definitions now with _ | row
    · exact h
    · exact h.rewritten hrow
  · exact h

theorem Record.amid_of_not_mem {r : Record} (h : r.id ∉ ids) : r.amid definitions now ids = r :=
  if_neg h

/-- A row that can be rewritten, and is among those that are, is rewritten in full. -/
theorem Record.isRewriting_amid {r : Record} (h : r.id ∈ ids)
    (readable : (r.rewritten? definitions now).isSome = true) :
    r.IsRewriting definitions now (r.amid definitions now ids) := by
  obtain ⟨row, hrow⟩ := Option.isSome_iff_exists.mp readable
  unfold Record.amid
  rw [if_pos h, hrow]
  exact isRewriting_of_rewritten? hrow

/-- Only which rows are rewritten matters, not in which order. -/
theorem Record.amid_congr {more : List String} (h : ∀ id, id ∈ ids ↔ id ∈ more) :
    Record.amid definitions now ids = Record.amid definitions now more := by
  funext r
  unfold Record.amid
  simp only [h]

/-- Rows are rewritten in one go or in two, as long as none is rewritten twice. -/
theorem Record.amid_amid {more : List String} (r : Record) (apart : ∀ id ∈ more, id ∉ ids) :
    (r.amid definitions now ids).amid definitions now more = r.amid definitions now (ids ++ more) := by
  by_cases h : r.id ∈ ids
  · have hmore : (r.amid definitions now ids).id ∉ more := by
      rw [id_amid]
      exact fun hmem => apart _ hmem h
    rw [amid_of_not_mem hmore]
    unfold Record.amid
    rw [if_pos h, if_pos (List.mem_append_left _ h)]
  · rw [amid_of_not_mem h]
    unfold Record.amid
    simp [h]

namespace RecordTable

theorem map_id_amid (table : RecordTable) :
    (table.map (Record.amid definitions now ids)).map (·.id) = table.map (·.id) := by
  rw [List.map_map]
  exact List.map_congr_left fun r _ => r.id_amid

theorem Sound.map_amid {table : RecordTable} (h : table.Sound) :
    RecordTable.Sound (table.map (Record.amid definitions now ids)) := by
  constructor
  · rw [List.pairwise_map]
    simp only [Record.id_amid]
    exact h.ordered
  · intro row hrow
    obtain ⟨r, hr, rfl⟩ := List.mem_map.mp hrow
    exact (h.rows r hr).amid

/-- Outside of the rows that are rewritten the table is the same. -/
theorem mem_map_amid_of_not_mem {table : RecordTable} {r : Record} (h : r.id ∉ ids) :
    r ∈ table.map (Record.amid definitions now ids) ↔ r ∈ table := by
  constructor
  · intro hr
    obtain ⟨old, hold, rfl⟩ := List.mem_map.mp hr
    rw [Record.id_amid] at h
    rwa [Record.amid_of_not_mem h]
  · intro hr
    exact List.mem_map.mpr ⟨r, hr, Record.amid_of_not_mem h⟩

/-- A row that is put over one of an ordered table takes its place. -/
theorem put_eq_map {table : RecordTable} (h : table.Pairwise (·.id < ·.id)) {row r : Record}
    (hr : r ∈ table) (hid : row.id = r.id) :
    table.put row = table.map fun v => if v.id = r.id then row else v := by
  induction table with
  | nil => cases hr
  | cons head rest ih =>
    obtain ⟨hhead, hrest⟩ := List.pairwise_cons.mp h
    unfold put
    rw [hid, List.map_cons]
    rcases List.mem_cons.mp hr with rfl | hr
    · have hothers : ∀ v ∈ rest, (if v.id = r.id then row else v) = v := by
        intro v hv
        refine if_neg fun hsame => ?_
        have hlater := hhead v hv
        rw [hsame] at hlater
        exact String.lt_irrefl _ hlater
      rw [if_neg (String.lt_irrefl _), if_pos (beq_self_eq_true _), if_pos rfl,
        List.map_congr_left hothers, List.map_id']
    · have hlater := hhead r hr
      have hother : ¬ head.id = r.id := by
        intro hsame
        rw [hsame] at hlater
        exact String.lt_irrefl _ hlater
      have hbeq : ¬ (r.id == head.id) = true := fun heq => hother (beq_iff_eq.mp heq).symm
      rw [if_neg (String.lt_asymm hlater), if_neg hbeq, if_neg hother, ih hrest hr]

/-- A table in which one row is rewritten. -/
theorem Sound.put_rewritten {table : RecordTable} (h : table.Sound) {r row : Record}
    (hr : r ∈ table) (hrow : r.rewritten? definitions now = some row) :
    table.put row = table.map (Record.amid definitions now [r.id]) := by
  rw [put_eq_map h.ordered hr (Record.id_of_rewritten? hrow)]
  refine List.map_congr_left fun v hv => ?_
  unfold Record.amid
  by_cases hid : v.id = r.id
  · obtain rfl := h.eq_of_id hr hv hid
    rw [if_pos rfl, if_pos (List.mem_singleton_self _), hrow]
    rfl
  · rw [if_neg hid, if_neg (mt List.mem_singleton.mp hid)]

end RecordTable

end

end TenantSearch
