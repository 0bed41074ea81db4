-- Which indices are compatible: those whose identifiers are keywords. Every
-- index that is created is, for the core fields stand on top of an entity's
-- own.
import TenantSearch.Index.Upkeep
import TenantSearch.Proofs.DocumentFields
import TenantSearch.Proofs.RecordTable

namespace TenantSearch

/-- Whether a live index is compatible, given its mapping. -/
def isSound : Option Json → Bool
  | some mapping =>
    match Engine.fieldTypes mapping with
    | .ok types => Index.isCompatible types
    | .error _ => false
  | none => false

/-! ## Descriptors -/

theorem all_eq_accepted {α : Type} {checks : List (Checked α)} {values : List α}
    (h : Checked.all checks = .accepted values) : ∀ x ∈ checks, ∃ v, x = .accepted v := by
  induction checks generalizing values with
  | nil => exact fun _ hx => absurd hx List.not_mem_nil
  | cons x rest ih =>
    unfold Checked.all at h
    cases x with
    | rejected errors =>
      cases hrest : Checked.all rest with
      | accepted others => rw [hrest] at h; cases h
      | rejected more => rw [hrest] at h; cases h
    | accepted v =>
      cases hrest : Checked.all rest with
      | rejected more => rw [hrest] at h; cases h
      | accepted others =>
        intro y hy
        rcases List.mem_cons.mp hy with rfl | hy
        · exact ⟨v, rfl⟩
        · exact ih hrest y hy

/-- A descriptor is accepted as it is or rejected. -/
theorem checked_cases (d : IndexDescriptor) : d.checked.orInvalid = .ok d ∨
    ∃ errors, d.checked.orInvalid = .error (.invalid errors) := by
  have hseq (x : Checked (List Unit)) : ((fun _ => d) <$> x).orInvalid = .ok d ∨
      ∃ errors, ((fun _ => d) <$> x).orInvalid = .error (.invalid errors) := by
    cases x with
    | accepted _ => exact Or.inl rfl
    | rejected errors => exact Or.inr ⟨errors, rfl⟩
  exact hseq _

/-- An accepted descriptor is the one that was checked, and each of its fields
has an object for its mapping. -/
theorem checked_eq_ok {d d' : IndexDescriptor} (h : d.checked.orInvalid = .ok d') :
    d' = d ∧ ∀ p ∈ d.properties, ∃ spec, p.2 = .obj spec := by
  unfold IndexDescriptor.checked at h
  generalize hchecks : Checked.all _ = checks at h
  cases checks with
  | rejected errors => cases h
  | accepted units =>
    cases h
    refine ⟨rfl, fun p hp => ?_⟩
    obtain ⟨_, haccepted⟩ := all_eq_accepted hchecks _ (List.mem_map_of_mem hp)
    split at haccepted
    · next spec hspec => exact ⟨spec, hspec⟩
    · cases haccepted

/-! ## Field types -/

/-- The types of fields that all have an object for their mapping. -/
theorem mapM_fieldType {properties : Fields}
    (h : ∀ p ∈ properties, ∃ spec, p.2 = .obj spec) :
    ∃ types, (properties.mapM fun p => (p.1, ·) <$> p.2.field "type" (.str "object") :
        Except Breakage (List (String × Json))) = .ok types ∧
      ∀ name, types.find? (·.1 == name) = (Fields.get? properties name).map fun spec =>
        (name, (Fields.get? (spec.fields?.getD []) "type").getD (.str "object")) := by
  induction properties with
  | nil => exact ⟨[], rfl, fun _ => rfl⟩
  | cons p rest ih =>
    obtain ⟨types, htypes, hfind⟩ := ih fun q hq => h q (List.mem_cons_of_mem _ hq)
    obtain ⟨spec, hspec⟩ := h p List.mem_cons_self
    refine ⟨(p.1, (Fields.get? spec "type").getD (.str "object")) :: types, ?_, fun name => ?_⟩
    · rw [List.mapM_cons, htypes, hspec]
      rfl
    · rw [List.find?_cons, hfind]
      unfold Fields.get?
      rw [List.find?_cons]
      cases hname : p.1 == name with
      | true =>
        rw [beq_iff_eq.mp hname]
        dsimp only [Option.map_some]
        rw [hspec]
        rfl
      | false => rfl

theorem fieldTypes_mappings (d : IndexDescriptor) : Engine.fieldTypes d.mappings =
    d.properties.mapM fun p => (p.1, ·) <$> p.2.field "type" (.str "object") := rfl

/-- The core fields stand on top of an entity's own. -/
theorem id_of_build (index : String) (extra : Fields) :
    Fields.get? (IndexDescriptor.build index extra).properties "id" =
      some (.obj [("type", .str "keyword")]) := by
  have hcore : valueUnder coreFields.reverse "id" = some (.obj [("type", .str "keyword")]) := by
    simp [coreFields, coreFieldTypes, searchTextFields, valueUnder_cons]
  unfold IndexDescriptor.build
  dsimp only
  rw [Fields.get?_setAll, hcore, Option.some_or]

/-- An index that is created is compatible. -/
theorem isSound_of_checked {index : String} {extra : Fields} {d : IndexDescriptor}
    (h : (IndexDescriptor.build index extra).checked.orInvalid = .ok d) :
    isSound (some d.mappings) = true := by
  obtain ⟨hd, hobjects⟩ := checked_eq_ok h
  have hid := id_of_build index extra
  rw [← hd] at hobjects hid
  obtain ⟨types, htypes, hfind⟩ := mapM_fieldType hobjects
  unfold isSound
  dsimp only
  rw [fieldTypes_mappings, htypes]
  dsimp only
  unfold Index.isCompatible
  rw [hfind, hid]
  rfl

end TenantSearch
