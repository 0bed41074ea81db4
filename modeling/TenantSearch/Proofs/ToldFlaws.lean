-- What comes of checking a query request. A rejection always tells a flaw, and
-- the check itself breaks for two fields only: for an order that has no items,
-- and for a size that cannot be brought under the largest page.
import TenantSearch.Query.Request

namespace TenantSearch

/-! ## The pure model -/

/-- A value that an order cannot be read from: it has no items. -/
def HasNoItems : Json → Prop
  | .bool _ | .int _ | .float _ => True
  | _ => False

/-- A number that cannot be brought under a largest page: it has no whole part,
or the largest page is no number. -/
def HasNoSize (largest : Json) : Json → Prop
  | .int _ => largest.number? = none
  | .float d => d.isNaN = false ∧ (d.isFinite = false ∨ largest.number? = none)
  | _ => False

/-- The fields of a request that cannot be checked. -/
def CannotBeChecked (largest : Json) (fields : Fields) : Prop :=
  (∃ given, QueryRequest.orderByField.find? fields = some given ∧ HasNoItems given.2) ∨
    ∃ given, QueryRequest.pageSizeField.find? fields = some given ∧ HasNoSize largest given.2

namespace Checked

variable {α β : Type}

/-- A rejection tells what is wrong. -/
def Tells : Checked α → Prop
  | .accepted _ => True
  | .rejected errors => errors ≠ []

/-! ## Combined checks -/

@[simp]
theorem tells_pure (value : α) : (pure value : Checked α).Tells := trivial

@[simp]
theorem tells_flaw (path : List PathStep) (given : Json) (f : Flaw) :
    (flaw path given f : Checked α).Tells := List.cons_ne_nil _ _

theorem Tells.seq {f : Checked (α → β)} {x : Checked α} (hf : f.Tells) (hx : x.Tells) :
    (f <*> x).Tells := by
  change (f.seq x).Tells
  rcases f with f | es
  · rcases x with x | es
    · trivial
    · exact hx
  · rcases x with x | es'
    · exact hf
    · intro hnil
      exact hf (List.append_eq_nil_iff.mp hnil).1

theorem Tells.map {x : Checked α} (hx : x.Tells) (f : α → β) : (f <$> x).Tells :=
  Tells.seq (tells_pure f) hx

theorem Tells.andThen {x : Checked α} {f : α → Checked β} (hx : x.Tells) (hf : ∀ a, (f a).Tells) :
    (x.andThen f).Tells := by
  rcases x with a | es
  · exact hf a
  · exact hx

theorem tells_all {checks : List (Checked α)} (h : ∀ x ∈ checks, x.Tells) :
    (all checks).Tells := by
  induction checks with
  | nil => trivial
  | cons x rest ih =>
    have hrest : (all rest).Tells := ih fun y hy => h y (List.mem_cons_of_mem _ hy)
    exact Tells.seq ((h x List.mem_cons_self).map _) hrest

end Checked

open Checked

/-- A missing field is told of as one that does not fit. -/
theorem FieldName.tells_check {α : Type} {name : FieldName} {under : List PathStep}
    {fields : Fields} {absent : Option α} {check : List PathStep → Json → Checked α}
    (h : ∀ path v, (check path v).Tells) : (name.check under fields absent check).Tells := by
  unfold FieldName.check
  split
  · exact h _ _
  · split
    · trivial
    · exact tells_flaw _ _ _

/-! ## Checks of single values -/

namespace Check

theorem tells_text (path : List PathStep) (v : Json) : (text path v).Tells := by
  unfold text
  split
  · trivial
  · exact tells_flaw _ _ _

theorem tells_writable (path : List PathStep) (s : String) : (writable path s).Tells := by
  unfold writable
  split
  · exact tells_flaw _ _ _
  · trivial

theorem tells_someText (path : List PathStep) (v : Json) : (someText path v).Tells := by
  refine ((tells_text path v).andThen (tells_writable path)).andThen fun s => ?_
  split
  · exact tells_flaw _ _ _
  · trivial

theorem tells_optionalText (path : List PathStep) (v : Json) : (optionalText path v).Tells := by
  unfold optionalText
  split
  · trivial
  · exact (tells_text path _).map _

theorem tells_listOf {α : Type} {item : List PathStep → Json → Checked α}
    (h : ∀ path v, (item path v).Tells) (path : List PathStep) (v : Json) :
    (listOf item path v).Tells := by
  unfold listOf
  split
  · refine tells_all fun x hx => ?_
    obtain ⟨p, -, rfl⟩ := List.mem_map.mp hx
    exact h _ _
  · exact tells_flaw _ _ _

theorem tells_whole (path : List PathStep) (v : Json) : (whole path v).Tells := by
  unfold whole
  split
  · trivial
  · trivial
  · split
    · exact tells_flaw _ _ _
    · split
      · exact tells_flaw _ _ _
      · split
        · trivial
        · exact tells_flaw _ _ _
  · refine (tells_writable path _).andThen fun s => ?_
    split
    · trivial
    · exact tells_flaw _ _ _
    · exact tells_flaw _ _ _
  · exact tells_flaw _ _ _

end Check

theorem Operator.tells_check (path : List PathStep) (v : Json) : (Operator.check path v).Tells := by
  unfold Operator.check
  split
  · split
    · trivial
    · exact tells_flaw _ _ _
  · exact tells_flaw _ _ _

theorem Condition.tells_check (path : List PathStep) (v : Json) :
    (Condition.check path v).Tells := by
  unfold Condition.check
  split
  · refine Tells.andThen (((Tells.map ?_ _).seq ?_).seq (tells_pure _)) fun c => ?_
    · exact FieldName.tells_check Check.tells_optionalText
    · exact FieldName.tells_check Operator.tells_check
    · split
      · trivial
      · exact tells_flaw _ _ _
  · exact tells_flaw _ _ _

theorem OrderBy.tells_check (path : List PathStep) (v : Json) : (OrderBy.check path v).Tells := by
  unfold OrderBy.check
  split
  · exact ((FieldName.tells_check Check.tells_someText).map _).seq (tells_pure _)
  · exact tells_flaw _ _ _

/-! ## Checks of a request -/

namespace QueryRequest

theorem tells_checkEntityName (path : List PathStep) (v : Json) :
    (checkEntityName path v).Tells := by
  refine (Check.tells_someText path v).andThen fun s => ?_
  split
  · exact tells_flaw _ _ _
  · trivial

theorem tells_checkOptional (path : List PathStep) (v : Json) : (checkOptional path v).Tells := by
  unfold checkOptional
  split
  · trivial
  · exact Check.tells_optionalText path _

theorem tells_checkList {α : Type} {item : List PathStep → Json → Checked α}
    (h : ∀ path v, (item path v).Tells) (path : List PathStep) (v : Json) :
    (checkList item path v).Tells := by
  unfold checkList
  split
  · trivial
  · exact Check.tells_listOf h path _

theorem tells_checkId (g : GuidSupply) (given : Option (String × Json)) :
    (checkId g given).1.Tells := by
  unfold checkId
  split
  · trivial
  · exact Check.tells_optionalText _ _

theorem tells_checkIds (g : GuidSupply) (given : Option (String × Json)) :
    (checkIds g given).1.Tells := by
  unfold checkIds
  split
  · trivial
  · trivial
  · trivial
  · exact (Check.tells_listOf Check.tells_text _ _).map _

theorem tells_checkTag (name : FieldName) (absent : String) (configured : Json) (fields : Fields) :
    (checkTag name absent configured fields).Tells :=
  FieldName.tells_check fun path v => Check.tells_text path (tagOf configured v)

end QueryRequest

/-! ## Checks that may break -/

/-- A check that breaks just under this condition and tells what is wrong
otherwise. -/
def BreaksIff {α : Type} (x : Except Breakage (Checked α)) (condition : Prop) : Prop :=
  match x with
  | .ok checked => checked.Tells ∧ ¬ condition
  | .error _ => condition

namespace QueryRequest

theorem clampedSize_cases (largest : Json) (n : Int) :
    (largest.number? = none ∧ ∃ b, clampedSize largest n = .error b) ∨
      (largest.number? ≠ none ∧ ∃ size, clampedSize largest n = .ok size) := by
  unfold clampedSize atMost
  rcases largest.number? with _ | most
  · exact Or.inl ⟨rfl, _, rfl⟩
  · exact Or.inr ⟨Option.some_ne_none most, _, rfl⟩

/-- A whole number breaks where the largest page is none. -/
theorem clampedSize_breaksIff (largest : Json) (n : Int) (path : List PathStep) :
    BreaksIff ((clampedSize largest n).map (Check.whole path)) (largest.number? = none) := by
  rcases clampedSize_cases largest n with ⟨hlargest, b, hclamped⟩ | ⟨hlargest, size, hclamped⟩
  · rw [hclamped]
    exact hlargest
  · rw [hclamped]
    exact ⟨Check.tells_whole path size, hlargest⟩

theorem pageSizeOf_breaksIff (path : List PathStep) (settings : Settings) (v : Json) :
    BreaksIff (pageSizeOf path settings v) (HasNoSize settings.largestPage v) := by
  have hdefault : (Check.whole path settings.defaultPage).Tells := Check.tells_whole path _
  cases v with
  | int n => exact clampedSize_breaksIff _ n path
  | float d =>
    have hsize : pageSizeOf path settings (.float d) =
        if d.isNaN then .ok (.flaw path (.float d) (.refused "cannot convert float NaN to integer"))
        else if !d.isFinite then .error .outOfRange
        else (clampedSize settings.largestPage d.truncate).map (Check.whole path) := rfl
    have hcondition : HasNoSize settings.largestPage (.float d) ↔
        d.isNaN = false ∧ (d.isFinite = false ∨ settings.largestPage.number? = none) := Iff.rfl
    rw [hsize, hcondition]
    cases d.isNaN with
    | true => exact ⟨tells_flaw _ _ _, fun h => by cases h.1⟩
    | false =>
      cases d.isFinite with
      | false => exact ⟨rfl, Or.inl rfl⟩
      | true =>
        have hclamped := clampedSize_breaksIff settings.largestPage d.truncate path
        simpa using hclamped
  | null => exact ⟨hdefault, not_false⟩
  | bool b => exact ⟨hdefault, not_false⟩
  | str s => exact ⟨hdefault, not_false⟩
  | arr items => exact ⟨hdefault, not_false⟩
  | obj fields => exact ⟨hdefault, not_false⟩

theorem checkPageSize_breaksIff (defaults : Settings.FormDefaults) (settings : Settings)
    (fields : Fields) :
    BreaksIff (checkPageSize defaults settings fields) (∃ given,
      pageSizeField.find? fields = some given ∧ HasNoSize settings.largestPage given.2) := by
  unfold checkPageSize
  rcases pageSizeField.find? fields with _ | ⟨spelling, v⟩
  · exact ⟨trivial, by simp⟩
  · simpa using pageSizeOf_breaksIff [.field spelling] settings v

theorem expand_breaksIff (v : Json) (path : List PathStep) :
    BreaksIff ((OrderBy.expand v).map fun items => Check.listOf OrderBy.check path (.arr items))
      (HasNoItems v) := by
  have htells (items : List Json) : (Check.listOf OrderBy.check path (.arr items)).Tells :=
    Check.tells_listOf OrderBy.tells_check path _
  cases v with
  | null => exact ⟨htells _, not_false⟩
  | bool b => exact trivial
  | int n => exact trivial
  | float d => exact trivial
  | str s => exact ⟨htells _, not_false⟩
  | arr items => exact ⟨htells _, not_false⟩
  | obj fields => exact ⟨htells _, not_false⟩

theorem checkOrderBy_breaksIff (fields : Fields) :
    BreaksIff (checkOrderBy fields) (∃ given,
      orderByField.find? fields = some given ∧ HasNoItems given.2) := by
  unfold checkOrderBy
  rcases orderByField.find? fields with _ | ⟨spelling, v⟩
  · exact ⟨trivial, by simp⟩
  · simpa using expand_breaksIff v [.field spelling]

/-- Checking a request breaks exactly when one of the two fields cannot be
checked; whatever else it rejects, it tells why. -/
theorem check_breaksIff (defaults : Settings.FormDefaults) (settings : Settings) (fields : Fields)
    (g : GuidSupply) :
    BreaksIff (check defaults settings (.obj fields) g).1
      (CannotBeChecked settings.largestPage fields) := by
  have hsize := checkPageSize_breaksIff defaults settings fields
  have horder := checkOrderBy_breaksIff fields
  unfold check CannotBeChecked
  dsimp only
  generalize checkPageSize defaults settings fields = size at *
  generalize checkOrderBy fields = order at *
  rcases size with b | pageSize
  · exact Or.inr hsize
  rcases order with b | orderBy
  · exact Or.inl horder
  refine ⟨?_, not_or.mpr ⟨horder.2, hsize.2⟩⟩
  exact Tells.map (FieldName.tells_check tells_checkEntityName) _
    |>.seq (FieldName.tells_check tells_checkOptional)
    |>.seq (FieldName.tells_check (tells_checkList Check.tells_text))
    |>.seq (tells_checkId _ _)
    |>.seq (tells_checkIds _ _)
    |>.seq (tells_pure _)
    |>.seq (FieldName.tells_check tells_checkOptional)
    |>.seq (FieldName.tells_check (tells_checkList Condition.tells_check))
    |>.seq (FieldName.tells_check (tells_checkList Check.tells_text))
    |>.seq (tells_pure _)
    |>.seq (FieldName.tells_check Check.tells_whole)
    |>.seq hsize.1
    |>.seq horder.1
    |>.seq (FieldName.tells_check tells_checkOptional)
    |>.seq (tells_checkTag _ _ _ _)
    |>.seq (tells_checkTag _ _ _ _)

end QueryRequest

end TenantSearch
