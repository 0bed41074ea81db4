-- What a field of a document is after fields were set, defaulted or left out,
-- and which fields a document keeps on its way to search.
import TenantSearch.Document.Reindex
import TenantSearch.Index.Descriptor
import TenantSearch.Proofs.NamedValues

namespace TenantSearch

namespace Fields

/-! ## Single fields -/

theorem get?_eq_valueUnder (fields : Fields) (name : String) :
    fields.get? name = valueUnder fields name := rfl

theorem look_eq_of_get? {fields fields' : Fields} {name : String}
    (h : fields.get? name = fields'.get? name) : fields.look name = fields'.look name := by
  unfold look
  rw [h]

/-- A field whose value is given is there. -/
theorem get?_of_given {fields : Fields} {name : String} (h : (fields.look name).given = true) :
    fields.get? name = some (fields.look name) := by
  unfold look at h ⊢
  cases hget : fields.get? name with
  | none =>
    rw [hget] at h
    cases h
  | some v => rfl

/-- A field is set like any other named value. -/
theorem set_eq_place (fields : Fields) (name : String) (v : Json) :
    fields.set name v = SearchEngine.place name v fields := by
  unfold set SearchEngine.place has
  rw [get?_eq_valueUnder, valueUnder_isSome, List.append_eq]

theorem get?_set (fields : Fields) (name other : String) (v : Json) :
    (fields.set name v).get? other = if other = name then some v else fields.get? other := by
  rw [set_eq_place]
  exact valueUnder_place name other v fields

theorem look_set (fields : Fields) (name other : String) (v : Json) :
    (fields.set name v).look other = if other = name then v else fields.look other := by
  unfold look
  rw [get?_set]
  split
  · rfl
  · rfl

theorem get?_setDefault (fields : Fields) (name other : String) (v : Json) :
    (fields.setDefault name v).get? other =
      if other = name ∧ fields.has name = false then some v else fields.get? other := by
  unfold setDefault
  by_cases h : fields.has name = true
  · simp [h]
  · simp [h, get?_set]

/-- A field that is there keeps its default away. -/
theorem setDefault_of_has {fields : Fields} {name : String} (h : fields.has name = true) (v : Json) :
    fields.setDefault name v = fields := if_pos h

/-- The field that was set last counts, and the old one where none was set. -/
theorem get?_setAll (fields more : Fields) (name : String) :
    (fields.setAll more).get? name = (valueUnder more.reverse name).or (fields.get? name) := by
  unfold setAll
  induction more generalizing fields with
  | nil => rfl
  | cons field more ih =>
    rw [List.foldl_cons, ih, get?_set, List.reverse_cons, valueUnder_append, valueUnder_cons,
      Option.or_assoc]
    by_cases hname : field.1 = name
    · simp [hname]
    · have hname' : ¬ name = field.1 := fun h => hname h.symm
      simp [hname, hname', valueUnder]

theorem get?_without (fields : Fields) (names : List String) (name : String) :
    (fields.without names).get? name = if name ∈ names then none else fields.get? name := by
  have hfilter := valueUnder_filter (fun n => !names.contains n) fields name
  rw [get?_eq_valueUnder, get?_eq_valueUnder]
  unfold without
  rw [hfilter]
  by_cases hname : name ∈ names
  · simp [hname]
  · simp [hname]

/-- A field that is left out anyway may be set before. -/
theorem without_set {fields : Fields} {names : List String} {name : String} (h : name ∈ names)
    (v : Json) : (fields.set name v).without names = fields.without names := by
  have hout : (!names.contains name) = false := by simpa using h
  unfold set without
  split
  · next hhas =>
    clear hhas
    induction fields with
    | nil => rfl
    | cons field rest ih =>
      rw [List.map_cons, List.filter_cons, List.filter_cons, ih]
      by_cases hname : field.1 = name
      · rw [if_pos (beq_iff_eq.mpr hname), hname, hout]
        rfl
      · rw [if_neg (mt beq_iff_eq.mp hname)]
  · have hlast : List.filter (fun field => !names.contains field.1) [(name, v)] = [] := by
      rw [List.filter_cons, hout]
      rfl
    rw [List.append_eq, List.filter_append, hlast, List.append_nil]

theorem without_setAll {more : Fields} {names : List String} (h : ∀ f ∈ more, f.1 ∈ names)
    (fields : Fields) : (fields.setAll more).without names = fields.without names := by
  induction more generalizing fields with
  | nil => rfl
  | cons field more ih =>
    have hrest := ih (fun f hf => h f (List.mem_cons_of_mem _ hf)) (fields.set field.1 field.2)
    exact hrest.trans (without_set (h field List.mem_cons_self) _)

theorem without_without (fields : Fields) (names : List String) :
    (fields.without names).without names = fields.without names := by
  unfold without
  rw [List.filter_filter]
  simp

theorem without_comm (fields : Fields) (names names' : List String) :
    (fields.without names).without names' = (fields.without names').without names := by
  unfold without
  rw [List.filter_filter, List.filter_filter]
  simp only [Bool.and_comm]

/-! ## Fields that are held -/

/-- There is a field of this name, and none of this name has another value. -/
structure Holds (fields : Fields) (name : String) (v : Json) : Prop where
  has : fields.has name = true
  only : ∀ f ∈ fields, f.1 = name → f.2 = v

variable {fields : Fields} {name other : String} {v w : Json}

theorem has_set (fields : Fields) (name other : String) (v : Json) :
    (fields.set other v).has name = (name == other || fields.has name) := by
  unfold has
  rw [get?_set]
  by_cases h : name = other
  · simp [h]
  · simp [h]

theorem mem_set {f : String × Json} (h : f ∈ fields.set name v) :
    f = (name, v) ∨ f ∈ fields ∧ f.1 ≠ name := by
  unfold set at h
  split at h
  · obtain ⟨g, hg, hsame⟩ := List.mem_map.mp h
    split at hsame
    · exact Or.inl hsame.symm
    · next hother => exact Or.inr ⟨hsame ▸ hg, fun hname => hother (beq_iff_eq.mpr (hsame ▸ hname))⟩
  · next hnone =>
    rcases List.mem_append.mp h with h | h
    · refine Or.inr ⟨h, fun hname => hnone ?_⟩
      unfold has
      rw [get?_eq_valueUnder, valueUnder_isSome, List.any_eq_true]
      exact ⟨f, h, beq_iff_eq.mpr hname⟩
    · exact Or.inl (List.mem_singleton.mp h)

theorem holds_set (fields : Fields) (name : String) (v : Json) : (fields.set name v).Holds name v where
  has := by
    rw [has_set, beq_self_eq_true, Bool.true_or]
  only f hf hname := by
    rcases mem_set hf with rfl | ⟨-, hother⟩
    · rfl
    · exact absurd hname hother

namespace Holds

theorem set (h : fields.Holds name v) (hsame : other = name → w = v) :
    (fields.set other w).Holds name v where
  has := by
    rw [has_set, h.has, Bool.or_true]
  only f hf hname := by
    rcases mem_set hf with rfl | ⟨hf, -⟩
    · exact hsame hname
    · exact h.only f hf hname

theorem setAll (h : fields.Holds name v) {more : Fields} (hsame : ∀ f ∈ more, f.1 = name → f.2 = v) :
    (fields.setAll more).Holds name v := by
  induction more generalizing fields with
  | nil => exact h
  | cons f rest ih =>
    exact ih (h.set (hsame f List.mem_cons_self)) fun g hg => hsame g (List.mem_cons_of_mem _ hg)

theorem without (h : fields.Holds name v) {names : List String} (hname : name ∉ names) :
    (fields.without names).Holds name v where
  has := by
    unfold Fields.has
    rw [get?_without, if_neg hname]
    exact h.has
  only f hf := h.only f (List.mem_filter.mp hf).1

/-- A field that is held is set to no effect. -/
theorem set_eq (h : fields.Holds name v) : fields.set name v = fields := by
  unfold Fields.set
  rw [if_pos h.has]
  refine (List.map_congr_left fun f hf => ?_).trans (List.map_id _)
  split
  · next hname =>
    have hf' := beq_iff_eq.mp hname
    rw [← h.only f hf hf', ← hf']
    rfl
  · rfl

end Holds

end Fields

/-! ## A document on its way to search -/

/-- The fields that search does without, and the two that it adds where they
are missing. -/
def searchOnlyFields : List String := searchTextFields ++ (storeFields ++ mergedFields)

/-- What the search engine is given of a document: its fields without those
that search has no use for, with merged texts where there were none. -/
def IsProjection (document fields : Fields) : Prop :=
  ∃ display content : String, fields = Projection.strip
    ((document.setDefault "searchDisplay" (.str display)).setDefault "searchContent" (.str content))

/-- All other fields of a document are the same in search. -/
theorem IsProjection.get? {document fields : Fields} (h : IsProjection document fields)
    {name : String} (hname : name ∉ searchOnlyFields) : fields.get? name = document.get? name := by
  obtain ⟨display, content, rfl⟩ := h
  unfold searchOnlyFields searchTextFields at hname
  rw [List.mem_append, List.mem_cons, List.mem_singleton] at hname
  rw [not_or, not_or] at hname
  obtain ⟨⟨hdisplay, hcontent⟩, hstripped⟩ := hname
  unfold Projection.strip
  rw [Fields.get?_without, if_neg hstripped, Fields.get?_setDefault, if_neg (fun h => hcontent h.1),
    Fields.get?_setDefault, if_neg (fun h => hdisplay h.1)]

theorem IsProjection.look {document fields : Fields} (h : IsProjection document fields)
    {name : String} (hname : name ∉ searchOnlyFields) : fields.look name = document.look name :=
  Fields.look_eq_of_get? (h.get? hname)

/-- A document with both texts goes to search as it is, stripped. -/
theorem isProjection_of_hasTexts {document : Fields} (h : Projection.hasTexts document = true) :
    IsProjection document (Projection.strip document) := by
  unfold Projection.hasTexts at h
  rw [Bool.and_eq_true] at h
  refine ⟨"", "", ?_⟩
  rw [Fields.setDefault_of_has h.1, Fields.setDefault_of_has h.2]

theorem isProjection_of_withTexts {merged : MergedText} {document fields : Fields}
    (h : Projection.withTexts merged document = .ok fields) :
    IsProjection document (Projection.strip fields) := by
  unfold Projection.withTexts at h
  rcases hd : merged.displayText document with _ | display
  · rw [hd] at h
    cases h
  rcases hc : merged.contentText document with _ | content
  · rw [hd, hc] at h
    cases h
  rw [hd, hc] at h
  cases h
  exact ⟨display, content, rfl⟩

/-! ## A document that is reindexed -/

/-- The fields that reindexing writes. -/
def refreshedFields : List String := reindexedField :: "modifiedBy" :: searchTextFields

theorem refreshed_eq_ok_iff {merged : MergedText} {now : Timestamp} {document refreshed : Fields} :
    Reindex.refreshed merged now document = .ok refreshed ↔ ∃ display content,
      merged.displayText document = .ok display ∧ merged.contentText document = .ok content ∧
        Reindex.stamped display content now document = refreshed := by
  unfold Reindex.refreshed
  rcases merged.displayText document with b | display
  · constructor
    · intro h
      cases h
    · rintro ⟨_, _, h, -, -⟩
      cases h
  · rcases merged.contentText document with b | content
    · constructor
      · intro h
        cases h
      · rintro ⟨_, _, -, h, -⟩
        cases h
    · constructor
      · intro h
        cases h
        exact ⟨display, content, rfl, rfl, rfl⟩
      · rintro ⟨_, _, hdisplay, hcontent, rfl⟩
        cases hdisplay
        cases hcontent
        rfl

/-- Reindexing writes the stamp and the texts, and keeps everything else but
the modifier. -/
theorem get?_stamped (display content : String) (now : Timestamp) (document : Fields)
    {name : String} (h : name ≠ "modifiedBy") :
    (Reindex.stamped display content now document).get? name =
      if name = reindexedField then some (.str now.isoUtc)
      else if name = "searchContent" then some (.str content)
      else if name = "searchDisplay" then some (.str display)
      else document.get? name := by
  unfold Reindex.stamped
  dsimp only
  rw [Fields.get?_set]
  congr 1
  split
  · rw [Fields.get?_set, Fields.get?_set]
  · rw [Fields.get?_set, if_neg h, Fields.get?_set, Fields.get?_set]

theorem look_refreshed {merged : MergedText} {now : Timestamp} {document refreshed : Fields}
    (h : Reindex.refreshed merged now document = .ok refreshed) {name : String}
    (hname : name ∉ refreshedFields) : refreshed.look name = document.look name := by
  unfold refreshedFields searchTextFields at hname
  simp only [List.mem_cons, List.not_mem_nil, or_false, not_or] at hname
  obtain ⟨hstamp, hmodifier, hdisplay, hcontent⟩ := hname
  obtain ⟨display, content, -, -, rfl⟩ := refreshed_eq_ok_iff.mp h
  refine Fields.look_eq_of_get? ?_
  rw [get?_stamped _ _ _ _ hmodifier, if_neg hstamp, if_neg hcontent, if_neg hdisplay]

end TenantSearch
