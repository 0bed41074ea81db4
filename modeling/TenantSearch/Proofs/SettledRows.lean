-- Rows that were rewritten. What rewriting sets it finds set the next time, so a row that is
-- rewritten once more has another stamp and is otherwise the same.
import TenantSearch.Proofs.MergedColumns

namespace TenantSearch

/-! ## Rows that were rewritten -/

namespace Record

/-- The row of a stamped document has been stamped. -/
theorem isSettled_document {r : Record} {display content : String} {now : Timestamp}
    {document : Fields} (hbody : r.body = bodyOf (Reindex.stamped display content now document))
    (howner : r.document.look "ownedBy" = document.look "ownedBy") :
    Reindex.IsSettled r.document display content := by
  have hsettled := Reindex.isSettled_stamped display content now document
  have hkept : (Reindex.stamped display content now document).look "ownedBy" =
      document.look "ownedBy" :=
    Fields.look_eq_of_get? (get?_stamped display content now document (by decide))
  refine ⟨holds_document hbody hsettled.display (by decide),
    holds_document hbody hsettled.content (by decide), ?_⟩
  rcases hsettled.modifier with hgiven | hheld
  · refine Or.inl ?_
    have hother : "modifiedBy" ≠ reindexedField := by decide
    have hmodifier := get?_document_of_body r (Reindex.stamped display content now document)
      r.reindexedOn hother (by decide)
    rw [← hbody] at hmodifier
    rw [Fields.look_eq_of_get? hmodifier]
    exact hgiven
  · refine Or.inr (holds_document hbody ?_ (by decide))
    rwa [howner, ← hkept]

variable {definitions : List EntityDefinition} {now now' : Timestamp} {r row : Record}

/-- A row that was rewritten is rewritten again with another stamp and nothing else, as long as no
text is merged from what rewriting sets. -/
theorem rewritten?_again (h : r.rewritten? definitions now = some row)
    (happart : ∀ schema, schemaFor definitions (.str r.solutionId) (.str r.entityName)
      (.ofText? r.entityType) = .ok schema → schema.merged.IsApartFrom refreshedFields) :
    row.rewritten? definitions now' = some { row with reindexedOn := some now' } := by
  have hrewriting := isRewriting_of_rewritten? h
  obtain ⟨schema, refreshed, hschema, hrefreshed, rfl⟩ := rewritten?_eq_some.mp h
  obtain ⟨display, content, hdisplay, hcontent, rfl⟩ := refreshed_eq_ok_iff.mp hrefreshed
  obtain ⟨hsameDisplay, hsameContent⟩ := (happart schema hschema).texts_eq hrewriting.others
  generalize hrow : ({ r with
    body := bodyOf (Reindex.stamped display content now r.document), reindexedOn := some now } :
    Record) = row at hrewriting hsameDisplay hsameContent
  have hbody : row.body = bodyOf (Reindex.stamped display content now r.document) := by rw [← hrow]
  have howner := Fields.look_eq_of_get? (hrewriting.others "ownedBy" (by decide))
  refine rewritten?_eq_some.mpr ⟨schema, row.document.set reindexedField (.str now'.isoUtc),
    hrow ▸ hschema, refreshed_eq_ok_iff.mpr ⟨display, content, hsameDisplay.trans hdisplay,
      hsameContent.trans hcontent, (isSettled_document hbody howner).stamped_eq now'⟩, ?_⟩
  have hkept : bodyOf (row.document.set reindexedField (.str now'.isoUtc)) = row.body := by
    unfold bodyOf
    rw [Fields.without_set List.mem_cons_self]
    refine (bodyOf_assemble row.columns_promoted _ _).trans ?_
    rw [hbody]
    exact bodyOf_bodyOf _
  rw [hkept]

/-- A row with another stamp reads the same but for the stamp. -/
theorem without_document (r : Record) (stamp : Option Timestamp) :
    ({ r with reindexedOn := stamp } : Record).document.without [reindexedField] =
      r.document.without [reindexedField] := by
  have hstamp (stamp : Option Timestamp) : ∀ f ∈ stampField stamp, f.1 ∈ [reindexedField] := by
    intro f hf
    cases stamp with
    | none => exact absurd hf List.not_mem_nil
    | some t => exact List.mem_singleton.mp hf ▸ List.mem_cons_self
  exact (Fields.without_setAll (hstamp _) _).trans (Fields.without_setAll (hstamp _) _).symm

/-- A refreshed document is saved as its row is read afterwards. -/
theorem saved_refreshed_eq {merged : MergedText} {refreshed : Fields}
    (h : Reindex.refreshed merged now r.document = .ok refreshed) (stamp : Option Timestamp) :
    (savedDocument refreshed stamp).set "id" (.str r.id) =
      ({ r with body := bodyOf refreshed, reindexedOn := stamp } : Record).document := by
  have hunchanged : ∀ name ∈ promotedFields, name ∉ refreshedFields := by decide
  have hcolumns : promotedFields.map (fun name => (name, refreshed.look name)) = r.columns := by
    rw [← r.looked_columns]
    exact List.map_congr_left fun name hname => by rw [look_refreshed h (hunchanged name hname)]
  rw [savedDocument_set_id refreshed stamp (isNamedBy_refreshed h).id]
  unfold savedDocument
  rw [hcolumns]
  rfl

end Record

end TenantSearch
