-- Values that are alike: equal but for the kinds of their numbers and the order of
-- their fields. A text or null is alike to itself alone, and alike objects have alike
-- values under every name.
import TenantSearch.Proofs.NamedValues

namespace TenantSearch

namespace Json

/-! ## What fields are compared by -/

namespace Likeness

/-- The values under a name, in their order. -/
def values (name : String) : Likeness → List Likeness
  | .field other v rest => if other = name then v :: values name rest else values name rest
  | _ => []

theorem values_withField (name other : String) (v fields : Likeness) :
    (withField name v fields).values other =
      if name = other then v :: fields.values other else fields.values other := by
  induction fields with
  | field first value rest _ ih =>
    unfold withField
    split
    · next hlt =>
      have hne : first ≠ name := fun h => String.lt_irrefl _ (h ▸ hlt)
      unfold values
      rw [ih]
      by_cases hfirst : first = other
      · have hother : ¬ name = other := fun h => hne (hfirst.trans h.symm)
        rw [if_pos hfirst, if_pos hfirst, if_neg hother, if_neg hother]
      · rw [if_neg hfirst, if_neg hfirst]
    · rfl
  | _ => rfl

theorem withField_eq_field (name : String) (v fields : Likeness) :
    ∃ first value rest, withField name v fields = .field first value rest := by
  cases fields with
  | field first value rest =>
    unfold withField
    split
    · exact ⟨_, _, _, rfl⟩
    · exact ⟨_, _, _, rfl⟩
  | _ => exact ⟨_, _, _, rfl⟩

end Likeness

theorem values_likenessOfFields (fields : Fields) (name : String) :
    (likenessOfFields fields).values name =
      (List.filter (·.1 == name) fields).map (·.2.likeness) := by
  induction fields with
  | nil => rfl
  | cons field rest ih =>
    obtain ⟨other, v⟩ := field
    unfold likenessOfFields
    rw [Likeness.values_withField, ih]
    by_cases h : other = name
    · simp [h]
    · simp [h]

/-! ## Alike values -/

theorem Alike.refl (v : Json) : v.Alike v := rfl

theorem Alike.symm {v w : Json} (h : v.Alike w) : w.Alike v := Eq.symm h

theorem Alike.trans {v w u : Json} (h : v.Alike w) (h' : w.Alike u) : v.Alike u := Eq.trans h h'

/-- Only a scalar is compared by a key. -/
theorem key?_of_likeness {v : Json} {key : Key} (h : v.likeness = .scalar (some key)) :
    v.key? = some key := by
  cases v with
  | arr items =>
    cases items with
    | nil => cases h
    | cons item rest => cases h
  | obj fields =>
    cases fields with
    | nil => cases h
    | cons field rest =>
      obtain ⟨_, _, _, hfields⟩ :=
        Likeness.withField_eq_field field.1 field.2.likeness (likenessOfFields rest)
      have hobj : Json.likeness (.obj (field :: rest)) = _ := hfields
      rw [hobj] at h
      cases h
  | _ => exact Likeness.scalar.inj h

theorem alike_str_iff {v : Json} {s : String} : v.Alike (.str s) ↔ v = .str s := by
  constructor
  · intro h
    have hkey := key?_of_likeness h
    cases v with
    | str t =>
      cases hkey
      rfl
    | float d =>
      unfold key? at hkey
      dsimp only at hkey
      split at hkey
      · cases hkey
      · cases hkey
    | _ => cases hkey
  · rintro rfl
    exact .refl _

theorem alike_null_iff {v : Json} : v.Alike .null ↔ v = .null := by
  constructor
  · intro h
    have hkey := key?_of_likeness h
    cases v with
    | null => rfl
    | float d =>
      unfold key? at hkey
      dsimp only at hkey
      split at hkey
      · cases hkey
      · cases hkey
    | _ => cases hkey
  · rintro rfl
    exact .refl _

theorem alike_ofText?_iff {v : Json} {text : Option String} :
    v.Alike (.ofText? text) ↔ v = .ofText? text := by
  cases text with
  | none => exact alike_null_iff
  | some s => exact alike_str_iff

/-! ## Alike objects -/

variable {fields fields' : Fields}

/-- Both have no field of the name, or alike ones. -/
def AlikeUnder (name : String) (fields fields' : Fields) : Prop :=
  (fields.get? name).map likeness = (fields'.get? name).map likeness

theorem AlikeUnder.of_get? {name : String} (h : fields.get? name = fields'.get? name) :
    AlikeUnder name fields fields' := congrArg (Option.map likeness) h

theorem AlikeUnder.look {name : String} (h : AlikeUnder name fields fields') :
    (fields.look name).Alike (fields'.look name) := by
  unfold AlikeUnder at h
  unfold Fields.look
  rcases hvalue : fields.get? name with _ | v
  · rw [hvalue] at h
    rw [Option.map_eq_none_iff.mp h.symm]
    exact .refl _
  · rw [hvalue] at h
    obtain ⟨v', hvalue', halike⟩ := Option.map_eq_some_iff.mp h.symm
    rw [hvalue']
    exact halike.symm

theorem Alike.values (h : Alike (.obj fields) (.obj fields')) (name : String) :
    (List.filter (·.1 == name) fields).map (·.2.likeness) =
      (List.filter (·.1 == name) fields').map (·.2.likeness) := by
  have hfields : likenessOfFields fields = likenessOfFields fields' := h
  rw [← values_likenessOfFields, hfields, values_likenessOfFields]

theorem Alike.under (h : Alike (.obj fields) (.obj fields')) (name : String) :
    AlikeUnder name fields fields' := by
  have hget (fields : Fields) : (fields.get? name).map likeness =
      ((List.filter (·.1 == name) fields).map (·.2.likeness)).head? := by
    rw [List.head?_map, List.head?_filter]
    exact Option.map_map _ _ _
  unfold AlikeUnder
  rw [hget, hget, h.values]

/-- Every field has one of its name that is alike. -/
theorem Alike.exists_mem (h : Alike (.obj fields) (.obj fields')) {field : String × Json}
    (hfield : field ∈ fields) : ∃ other ∈ fields', other.1 = field.1 ∧ field.2.Alike other.2 := by
  have hmem : field.2.likeness ∈
      (List.filter (·.1 == field.1) fields).map (·.2.likeness) :=
    List.mem_map.mpr ⟨field, List.mem_filter.mpr ⟨hfield, beq_self_eq_true _⟩, rfl⟩
  rw [h.values] at hmem
  obtain ⟨other, hother, halike⟩ := List.mem_map.mp hmem
  obtain ⟨hother, hname⟩ := List.mem_filter.mp hother
  exact ⟨other, hother, beq_iff_eq.mp hname, halike.symm⟩

end Json

end TenantSearch
