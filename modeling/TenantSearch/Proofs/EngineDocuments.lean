-- The search engine as a map: which copy an index holds under an identifier,
-- and which mapping it has, after each change.
import TenantSearch.Proofs.NamedValues

namespace TenantSearch

namespace SearchEngine

/-! ## Copies -/

/-- The copy that is stored under an identifier. -/
def copyIn (documents : List StoredDocument) (key : Json.Key) : Option Fields :=
  (documents.find? (isUnder key)).map (·.fields)

/-- The copy that an index holds under an identifier. -/
def copy? (e : SearchEngine) (index : String) (key : Json.Key) : Option Fields :=
  copyIn (e.stored index) key

theorem isUnder_iff {key : Json.Key} {d : StoredDocument} :
    isUnder key d = true ↔ d.id.key? = some key := by
  unfold isUnder
  rw [beq_iff_eq]

theorem copyIn_cons (d : StoredDocument) (documents : List StoredDocument) (key : Json.Key) :
    copyIn (d :: documents) key =
      if d.id.key? = some key then some d.fields else copyIn documents key := by
  unfold copyIn
  rw [List.find?_cons]
  by_cases h : d.id.key? = some key
  · rw [isUnder_iff.mpr h, if_pos h]
    rfl
  · rw [Bool.eq_false_iff.mpr (mt isUnder_iff.mp h), if_neg h]

theorem copyIn_append (documents more : List StoredDocument) (key : Json.Key) :
    copyIn (documents ++ more) key = (copyIn documents key).or (copyIn more key) := by
  induction documents with
  | nil => rw [List.nil_append]; rfl
  | cons d documents ih =>
    rw [List.cons_append, copyIn_cons, copyIn_cons, ih]
    split
    · rfl
    · rfl

theorem copyIn_isSome (documents : List StoredDocument) (key : Json.Key) :
    (copyIn documents key).isSome = documents.any (isUnder key) := by
  unfold copyIn
  rw [Bool.eq_iff_iff]
  simp

theorem copyIn_replaced (documents : List StoredDocument) (key other : Json.Key) (fields : Fields) :
    copyIn (documents.map fun d => if isUnder key d then { d with fields } else d) other =
      if other = key ∧ (copyIn documents key).isSome then some fields
      else copyIn documents other := by
  induction documents with
  | nil => simp [copyIn]
  | cons d documents ih =>
    rw [List.map_cons, copyIn_cons, copyIn_cons, copyIn_cons, ih]
    by_cases hd : d.id.key? = some key
    · rw [if_pos (isUnder_iff.mpr hd)]
      dsimp only
      rw [hd]
      by_cases hother : other = key
      · subst hother
        simp
      · simp [hother, Ne.symm hother]
    · rw [if_neg (mt isUnder_iff.mp hd)]
      by_cases hother : other = key
      · subst hother
        simp [hd]
      · simp [hd, hother]

theorem copyIn_store (key : Json.Key) (id : Json) (fields : Fields)
    (documents : List StoredDocument) (hid : id.key? = some key) (other : Json.Key) :
    copyIn (store key id fields documents) other =
      if other = key then some fields else copyIn documents other := by
  unfold store
  rw [← copyIn_isSome]
  by_cases hthere : (copyIn documents key).isSome = true
  · rw [if_pos hthere, copyIn_replaced]
    simp [hthere]
  · have hnone : copyIn documents key = none := by simpa using hthere
    rw [if_neg hthere, copyIn_append, copyIn_cons]
    dsimp only
    rw [hid]
    by_cases hother : other = key
    · subst hother
      simp [hnone]
    · simp [hother, Ne.symm hother, copyIn]

theorem copyIn_filter (documents : List StoredDocument) (key other : Json.Key) :
    copyIn (documents.filter (!isUnder key ·)) other =
      if other = key then none else copyIn documents other := by
  induction documents with
  | nil => simp [copyIn]
  | cons d documents ih =>
    rw [List.filter_cons, copyIn_cons]
    by_cases hd : d.id.key? = some key
    · rw [if_neg (by rw [isUnder_iff.mpr hd]; simp), ih, hd]
      by_cases hother : other = key
      · simp [hother]
      · simp [hother, Ne.symm hother]
    · rw [if_pos (by rw [Bool.eq_false_iff.mpr (mt isUnder_iff.mp hd)]; rfl), copyIn_cons, ih]
      by_cases hother : other = key
      · subst hother
        simp [hd]
      · simp [hother]

theorem holds_eq (e : SearchEngine) (index : String) (key : Json.Key) :
    e.holds index key = (e.copy? index key).isSome := (copyIn_isSome _ _).symm

/-! ## Changes of the engine -/

theorem stored_eq (e : SearchEngine) (index : String) :
    e.stored index = (valueUnder e.documents index).getD [] := rfl

theorem mapping?_eq (e : SearchEngine) (index : String) :
    e.mapping? index = valueUnder e.mappings index := rfl

/-- What is put is there, and every other copy stays as it was. -/
theorem copy?_put {e e' : SearchEngine} {index : String} {id : Json} {fields : Fields}
    (h : e.put? index id fields = some e') (other : String) (key : Json.Key) :
    e'.copy? other key =
      if other = index ∧ id.key? = some key then some fields else e.copy? other key := by
  unfold put? at h
  obtain ⟨own, hown, rfl⟩ := Option.map_eq_some_iff.mp h
  unfold copy?
  rw [stored_eq, valueUnder_place, hown]
  by_cases hother : other = index
  · subst hother
    rw [if_pos rfl, Option.getD_some, copyIn_store _ _ _ _ hown]
    by_cases hkey : key = own
    · simp [hkey]
    · simp [hkey, Ne.symm hkey]
  · rw [if_neg hother, if_neg (fun h => hother h.1), ← stored_eq]

/-- What is removed is gone, and every other copy stays. -/
theorem copy?_remove (e : SearchEngine) (index : String) (key : Json.Key) (other : String)
    (otherKey : Json.Key) :
    (e.remove index key).copy? other otherKey =
      if other = index ∧ otherKey = key then none else e.copy? other otherKey := by
  unfold copy? remove
  rw [stored_eq, valueUnder_place]
  by_cases hother : other = index
  · subst hother
    rw [if_pos rfl, Option.getD_some, copyIn_filter]
    by_cases hkey : otherKey = key
    · simp [hkey]
    · simp [hkey]
  · rw [if_neg hother, if_neg (fun h => hother h.1), ← stored_eq]

theorem copy?_drop (e : SearchEngine) (index other : String) (key : Json.Key) :
    (e.drop index).copy? other key = if other = index then none else e.copy? other key := by
  unfold copy? drop
  rw [stored_eq]
  dsimp only
  have hfilter := valueUnder_filter (· != index) e.documents other
  rw [hfilter]
  by_cases hother : other = index
  · simp [hother, copyIn]
  · simp [hother, stored_eq]

@[simp]
theorem copy?_setMapping (e : SearchEngine) (index : String) (mapping : Json) (other : String)
    (key : Json.Key) : (e.setMapping index mapping).copy? other key = e.copy? other key := rfl

@[simp]
theorem copy?_dropMapping (e : SearchEngine) (index other : String) (key : Json.Key) :
    (e.dropMapping index).copy? other key = e.copy? other key := rfl

/-! ## Mappings -/

theorem mapping?_setMapping (e : SearchEngine) (index : String) (mapping : Json) (other : String) :
    (e.setMapping index mapping).mapping? other =
      if other = index then some mapping else e.mapping? other :=
  valueUnder_place index other mapping e.mappings

theorem mapping?_drop (e : SearchEngine) (index other : String) :
    (e.drop index).mapping? other = if other = index then none else e.mapping? other := by
  have hfilter := valueUnder_filter (· != index) e.mappings other
  refine hfilter.trans ?_
  by_cases hother : other = index
  · simp [hother]
  · simp [hother, mapping?_eq]

theorem mapping?_put {e e' : SearchEngine} {index : String} {id : Json} {fields : Fields}
    (h : e.put? index id fields = some e') (other : String) :
    e'.mapping? other = e.mapping? other := by
  unfold put? at h
  obtain ⟨key, -, rfl⟩ := Option.map_eq_some_iff.mp h
  rfl

@[simp]
theorem mapping?_remove (e : SearchEngine) (index : String) (key : Json.Key) (other : String) :
    (e.remove index key).mapping? other = e.mapping? other := rfl

end SearchEngine

end TenantSearch
