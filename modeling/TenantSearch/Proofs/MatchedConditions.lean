-- Which documents a condition finds. Equality and inequality know that null stands for an absent
-- field; membership hands null on in the list of its terms, and no field holds a null. So
-- inequality finds all that equality leaves, but a list with null in it misses the documents
-- without the field.
import Mathlib.Data.Set.Basic
import TenantSearch.Query.Clause

namespace TenantSearch

/-! ## The pure model -/

/-- How the engine compares documents with what a clause names. When two values are the same is
up to the mapping of the field, save that null is the same as no other value. -/
structure Comparison where
  same : Json → Json → Prop
  null_of_same : ∀ {v}, same .null v → v = .null
  within : String → Bound → Json → Fields → Prop
  fits : String → String → Fields → Prop
  reads : String → String → Fields → Prop

/-- The values of a condition on membership; a value that is no list counts as a list of one. -/
def Json.listed : Json → List Json
  | .arr values => values
  | v => [v]

namespace Comparison

/-- A field holds a value: it is the same, or it is a list with the same in it. -/
def Holds (c : Comparison) (held v : Json) : Prop :=
  c.same held v ∨ ∃ items, held = .arr items ∧ ∃ item ∈ items, c.same item v

/-- What equality asks of a field: nothing may stand there for null, and any other value must be
held. -/
def Equals (c : Comparison) (held v : Json) : Prop :=
  (v = .null ∧ held = .null) ∨ (v ≠ .null ∧ c.Holds held v)

mutual
/-- A document satisfies a clause. -/
def Satisfies (c : Comparison) (d : Fields) : Clause → Prop
  | .term field v => c.Holds (d.look field) v
  | .terms field values => ∃ v ∈ values, v ≠ .null ∧ c.Holds (d.look field) v
  | .has field => d.look field ≠ .null
  | .range field bound v => c.within field bound v d
  | .wildcard field pattern => c.fits field pattern d
  | .textMatch field text => c.reads field text d
  | .noneOf clauses => ¬ c.SatisfiesSome d clauses
  | .anyOf clauses => c.SatisfiesSome d clauses
  | .atLeastOneOf clauses => c.SatisfiesSome d clauses

def SatisfiesSome (c : Comparison) (d : Fields) : List Clause → Prop
  | [] => False
  | clause :: rest => c.Satisfies d clause ∨ c.SatisfiesSome d rest
end

/-- The documents that a condition finds. -/
def found (c : Comparison) (name : String) (op : Operator) (v : Json) : Set Fields :=
  {d | c.Satisfies d (.ofCondition ⟨some name, op, v⟩)}

/-- Values are the same when they are identical; all else holds of every document. -/
def exact : Comparison where
  same := Eq
  null_of_same h := h.symm
  within _ _ _ _ := True
  fits _ _ _ := True
  reads _ _ _ := True

variable {c : Comparison} {d : Fields} {name field : String} {op : Operator} {v : Json}

/-! ## Nothing is held where nothing stands -/

theorem eq_null_of_holds (h : c.Holds .null v) : v = .null := by
  rcases h with hsame | ⟨items, hitems, -⟩
  · exact c.null_of_same hsame
  · cases hitems

theorem equals_null {held : Json} : c.Equals held .null ↔ held = .null := by
  simp [Equals]

theorem equals_of_ne_null {held : Json} (h : v ≠ .null) : c.Equals held v ↔ c.Holds held v := by
  simp [Equals, h]

/-! ## What the clauses ask -/

theorem satisfies_noneOf {clause : Clause} :
    c.Satisfies d (.noneOf [clause]) ↔ ¬ c.Satisfies d clause := by
  simp [Satisfies, SatisfiesSome]

theorem satisfies_equalTo : c.Satisfies d (.equalTo field v) ↔ c.Equals (d.look field) v := by
  by_cases hv : v = .null
  · subst hv
    rw [equals_null, Clause.equalTo, satisfies_noneOf, Satisfies, not_not]
  · have hterm : Clause.equalTo field v = .term field v := by
      unfold Clause.equalTo
      split
      · exact absurd rfl hv
      · rfl
    rw [equals_of_ne_null hv, hterm, Satisfies]

/-- Inequality asks for the contrary of equality, of null as of any other value. -/
theorem satisfies_unequalTo :
    c.Satisfies d (.unequalTo field v) ↔ ¬ c.Satisfies d (.equalTo field v) := by
  unfold Clause.unequalTo Clause.equalTo
  split
  · rw [satisfies_noneOf, not_not]
  · exact satisfies_noneOf

theorem memberOf_eq : Clause.memberOf field v = .terms field v.listed := by
  cases v <;> rfl

theorem satisfies_memberOf : c.Satisfies d (.memberOf field v) ↔
    ∃ x ∈ v.listed, x ≠ .null ∧ c.Equals (d.look field) x := by
  rw [memberOf_eq, Satisfies]
  refine exists_congr fun x => and_congr_right fun _ => and_congr_right fun hx => ?_
  exact (equals_of_ne_null hx).symm

/-! ## What the conditions find -/

theorem mem_found_equality (h : op ∈ [Operator.equals, .doubleEquals]) :
    d ∈ c.found name op v ↔ c.Equals (d.look (trim name)) v := by
  simp only [List.mem_cons, List.not_mem_nil, or_false] at h
  rcases h with rfl | rfl
  · exact satisfies_equalTo
  · exact satisfies_equalTo

theorem mem_found_inequality (h : op ∈ [Operator.notEquals, .unequal]) :
    d ∈ c.found name op v ↔ ¬ c.Equals (d.look (trim name)) v := by
  rw [← satisfies_equalTo, ← satisfies_unequalTo]
  simp only [List.mem_cons, List.not_mem_nil, or_false] at h
  rcases h with rfl | rfl
  · exact Iff.rfl
  · exact Iff.rfl

theorem mem_found_membership : d ∈ c.found name .isIn v ↔
    ∃ x ∈ v.listed, x ≠ .null ∧ c.Equals (d.look (trim name)) x :=
  satisfies_memberOf

end Comparison

/-- However the engine compares values, inequality finds the documents that equality does not,
null included, and membership finds those that equality finds for some value of the list other
than null. So membership goes by equality for every document that has the field, and for one that
does not as long as null is not in the list. -/
theorem inequality_finds_the_rest_and_membership_misses_null (c : Comparison) (name : String)
    (v : Json) :
    (∀ op ∈ [Operator.notEquals, .unequal], ∀ op' ∈ [Operator.equals, .doubleEquals],
      c.found name op v = (c.found name op' v)ᶜ) ∧
    ∀ op ∈ [Operator.equals, .doubleEquals],
      c.found name .isIn v = {d | ∃ x ∈ v.listed, x ≠ .null ∧ d ∈ c.found name op x} ∧
      ∀ d : Fields, (d ∈ c.found name .isIn v ↔ ∃ x ∈ v.listed, d ∈ c.found name op x) ↔
        (.null ∈ v.listed → d.look (trim name) ≠ .null) := by
  refine ⟨fun op hop op' hop' => ?_, fun op hop => ⟨?_, fun d => ⟨fun hiff hnull habsent => ?_,
    fun h => ⟨fun hfound => ?_, fun hsome => ?_⟩⟩⟩⟩
  · ext d
    rw [Set.mem_compl_iff, Comparison.mem_found_inequality hop, Comparison.mem_found_equality hop']
  · ext d
    simp only [Comparison.mem_found_membership, Set.mem_ofPred_eq,
      Comparison.mem_found_equality hop]
  · have hequal : d ∈ c.found name op .null :=
      (Comparison.mem_found_equality hop).mpr (Comparison.equals_null.mpr habsent)
    obtain ⟨x, -, hx, hheld⟩ := Comparison.mem_found_membership.mp (hiff.mpr ⟨_, hnull, hequal⟩)
    rw [habsent, Comparison.equals_of_ne_null hx] at hheld
    exact hx (Comparison.eq_null_of_holds hheld)
  · obtain ⟨x, hx, -, hheld⟩ := Comparison.mem_found_membership.mp hfound
    exact ⟨x, hx, (Comparison.mem_found_equality hop).mpr hheld⟩
  · obtain ⟨x, hx, hequal⟩ := hsome
    rw [Comparison.mem_found_equality hop] at hequal
    refine Comparison.mem_found_membership.mpr ⟨x, hx, ?_, hequal⟩
    rintro rfl
    exact h hx (Comparison.equals_null.mp hequal)

/-- A document without a city has a city equal to null, but none that is in a list of null. -/
theorem no_city_is_equal_to_null_but_in_no_list :
    [("title", .str "Jazz")] ∈ Comparison.exact.found "city" .equals .null ∧
      [("title", .str "Jazz")] ∉ Comparison.exact.found "city" .isIn (.arr [.null]) ∧
      [("title", .str "Jazz")] ∉ Comparison.exact.found "city" .isIn .null := by
  have habsent : Fields.look [("title", .str "Jazz")] (trim "city") = .null := rfl
  refine ⟨?_, fun h => ?_, fun h => ?_⟩
  · exact (Comparison.mem_found_equality (by simp)).mpr (Comparison.equals_null.mpr habsent)
  · obtain ⟨x, hx, hne, -⟩ := Comparison.mem_found_membership.mp h
    exact hne (List.mem_singleton.mp hx)
  · obtain ⟨x, hx, hne, -⟩ := Comparison.mem_found_membership.mp h
    exact hne (List.mem_singleton.mp hx)

end TenantSearch
