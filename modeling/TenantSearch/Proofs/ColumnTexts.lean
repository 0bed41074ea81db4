-- The text that a column stores for a value: the text itself, or one that
-- writes a number and so consists of the marks of numbers.
import TenantSearch.Document.Record
import TenantSearch.Text.Blank

namespace TenantSearch

/-! ## The marks of numbers -/

/-- A character that the text of a number can have. -/
def isNumberMark (c : Char) : Bool :=
  c.isDigit || ['-', '+', '.', 'e', 'I', 'n', 'f'].contains c

/-- A text that has the marks of numbers only. -/
def IsNumberText (cs : List Char) : Prop := ∀ c ∈ cs, isNumberMark c = true

instance (cs : List Char) : Decidable (IsNumberText cs) :=
  decidable_of_iff (cs.all isNumberMark = true) List.all_eq_true

theorem IsNumberText.append {cs more : List Char} (h : IsNumberText cs) (hmore : IsNumberText more) :
    IsNumberText (cs ++ more) := by
  intro c hc
  rcases List.mem_append.mp hc with hc | hc
  · exact h c hc
  · exact hmore c hc

theorem isNumberText_toDigits (n : Nat) : IsNumberText (Nat.toDigits 10 n) := by
  intro c hc
  unfold isNumberMark
  rw [Nat.isDigit_of_mem_toDigits (by decide) (by decide) hc, Bool.true_or]

theorem isNumberText_zeros (n : Nat) : IsNumberText (List.replicate n '0') := by
  intro c hc
  rw [List.eq_of_mem_replicate hc]
  rfl

theorem IsNumberText.take {cs : List Char} (h : IsNumberText cs) (n : Nat) :
    IsNumberText (cs.take n) := fun c hc => h c (List.mem_of_mem_take hc)

theorem IsNumberText.drop {cs : List Char} (h : IsNumberText cs) (n : Nat) :
    IsNumberText (cs.drop n) := fun c hc => h c (List.mem_of_mem_drop hc)

/-- The marks of numbers lie between the signs and the small letters. -/
theorem isNumberMark_between {c : Char} (h : isNumberMark c = true) :
    43 ≤ c.toNat ∧ c.toNat ≤ 110 := by
  have hmarks : (['-', '+', '.', 'e', 'I', 'n', 'f'].all fun c =>
      decide (43 ≤ c.toNat ∧ c.toNat ≤ 110)) = true := by decide
  unfold isNumberMark at h
  rw [Bool.or_eq_true, List.contains_iff_mem] at h
  rcases h with hdigit | hmark
  · simp only [Char.isDigit, Bool.and_eq_true, decide_eq_true_iff, UInt32.le_iff_toNat_le] at hdigit
    have hfirst : 48 ≤ c.toNat := hdigit.1
    have hlast : c.toNat ≤ 57 := hdigit.2
    omega
  · exact of_decide_eq_true (List.all_eq_true.mp hmarks c hmark)

theorem IsNumberText.not_isBlank {cs : List Char} (h : IsNumberText cs) :
    ∀ c ∈ cs, isBlank c = false := by
  intro c hc
  obtain ⟨hleast, hmost⟩ := isNumberMark_between (h c hc)
  simp only [isBlank, isSpace, Bool.or_eq_false_iff, Bool.and_eq_false_iff, beq_eq_false_iff_ne,
    decide_eq_false_iff_not]
  omega

/-- There is no mark of a number that a reader of tags or references looks for. -/
theorem IsNumberText.not_mem {cs : List Char} (h : IsNumberText cs) {c : Char}
    (hc : isNumberMark c = false) : c ∉ cs := by
  intro hmem
  rw [h c hmem] at hc
  cases hc

/-! ## The texts of numbers -/

theorem isNumberText_int (n : Int) : IsNumberText (toString n).toList := by
  rw [Int.toString_eq_repr, Int.repr_eq_if]
  split
  · rw [Nat.toList_repr]
    exact isNumberText_toDigits _
  · rw [String.toList_append, Nat.toList_repr]
    exact IsNumberText.append (by decide +kernel) (isNumberText_toDigits _)

theorem isNumberText_exponentText (style : DoubleStyle) (exponent : Int) :
    IsNumberText (exponentText style exponent).toList := by
  unfold exponentText
  rw [String.toList_append, String.toList_ofList]
  refine IsNumberText.append ?_ ((isNumberText_zeros _).append (isNumberText_toDigits _))
  split
  · decide +kernel
  · decide +kernel

theorem isNumberText_decimal (style : DoubleStyle) (d : Decimal) :
    IsNumberText (d.text style).toList := by
  have hdigits := isNumberText_toDigits d.digits
  unfold Decimal.text
  dsimp only
  split
  · split
    · simp only [String.toList_append, String.toList_ofList]
      exact (hdigits.append (isNumberText_zeros _)).append (by decide +kernel)
    · split
      · simp only [String.toList_append, String.toList_ofList]
        exact ((hdigits.take _).append (by decide +kernel)).append (hdigits.drop _)
      · simp only [String.toList_append, String.toList_ofList]
        exact IsNumberText.append (by decide +kernel) ((isNumberText_zeros _).append hdigits)
  · simp only [String.toList_append, String.toList_ofList]
    refine (((hdigits.take 1).append ?_).append (by decide +kernel)).append
      (isNumberText_exponentText _ _)
    split
    · split
      · decide +kernel
      · decide +kernel
    · simp only [String.toList_append, String.toList_ofList]
      exact IsNumberText.append (by decide +kernel) (hdigits.drop 1)

theorem isNumberText_columnText? {d : Double} {s : String} (h : d.columnText? = some s) :
    IsNumberText s.toList := by
  have hsign : IsNumberText (if d.negative then "-" else "").toList := by
    split
    · decide +kernel
    · decide +kernel
  unfold Double.columnText? at h
  dsimp only at h
  split at h
  · cases h
  · split at h
    · cases h
      rw [String.toList_append]
      exact hsign.append (by decide +kernel)
    · split at h
      · cases h
        decide +kernel
      · cases h
        rw [String.toList_append]
        exact hsign.append (isNumberText_decimal _ _)

/-- A column stores a text as it is; the text of anything else writes a
number. -/
theorem columnText_eq_ok {v : Json} {s : String} (h : Record.columnText v = .ok (some s)) :
    v = .str s ∨ IsNumberText s.toList := by
  cases v with
  | null => cases h
  | bool b =>
    cases h
    right
    split
    · decide +kernel
    · decide +kernel
  | int n =>
    dsimp only [Record.columnText] at h
    split at h
    · cases h
      exact Or.inr (isNumberText_int n)
    · cases h
  | float d =>
    right
    refine isNumberText_columnText? (d := d) ?_
    injection h
  | str t =>
    dsimp only [Record.columnText] at h
    split at h
    · cases h
    · cases h
      exact Or.inl rfl
  | arr items => cases h
  | obj fields => cases h

/-- A column keeps a text as it is. -/
theorem columnText_str {s t : String} (h : Record.columnText (.str s) = .ok (some t)) : t = s := by
  dsimp only [Record.columnText] at h
  split at h
  · cases h
  · cases h
    rfl

/-- A column that holds a text or null keeps it. -/
theorem columnText_ofText?_eq {text stored : Option String}
    (h : Record.columnText (.ofText? text) = .ok stored) : stored = text := by
  cases text with
  | none =>
    cases h
    rfl
  | some s =>
    unfold Json.ofText? Record.columnText at h
    dsimp only at h
    split at h
    · cases h
    · cases h
      rfl

/-! ## Texts that can be stored -/

theorem hasSurrogate_of_isNumberText {s : String} (h : IsNumberText s.toList) :
    hasSurrogate s = false := by
  unfold hasSurrogate
  rw [List.any_eq_false]
  intro c hc
  obtain ⟨-, hmost⟩ := isNumberMark_between (h c hc)
  unfold surrogate?
  rw [if_neg (by omega)]
  simp

/-- What a column stores can be stored again as it is. -/
theorem columnText_of_stored {v : Json} {s : String} (h : Record.columnText v = .ok (some s)) :
    Record.columnText (.str s) = .ok (some s) := by
  rcases columnText_eq_ok h with rfl | hnumber
  · exact h
  · dsimp only [Record.columnText]
    rw [hasSurrogate_of_isNumberText hnumber]
    rfl

/-- Whichever way a number is written, it has a point or a mark of its exponent. -/
theorem decimalText_ne_empty (style : DoubleStyle) (d : Decimal) : d.text style ≠ "" := by
  unfold Decimal.text
  dsimp only
  split
  · split
    · simp
    · split
      · simp
      · simp
  · simp

theorem columnText?_ne_empty {d : Double} {s : String} (h : d.columnText? = some s) : s ≠ "" := by
  unfold Double.columnText? at h
  dsimp only at h
  split at h
  · cases h
  · split at h
    · cases h
      simp
    · split at h
      · cases h
        decide
      · cases h
        simp [decimalText_ne_empty]

/-- What is given is not stored as the empty text. -/
theorem stored_ne_empty {v : Json} {s : String} (hgiven : v.given = true)
    (h : Record.columnText v = .ok (some s)) : s ≠ "" := by
  cases v with
  | null => cases h
  | bool b =>
    cases h
    split
    · decide
    · decide
  | int n =>
    dsimp only [Record.columnText] at h
    split at h
    · cases h
      rw [Int.toString_eq_repr, Int.repr_eq_if]
      split
      · exact Nat.repr_ne_empty
      · simp
    · cases h
  | float d =>
    injection h with hfloat
    exact columnText?_ne_empty hfloat
  | str t =>
    dsimp only [Record.columnText] at h
    split at h
    · cases h
    · cases h
      rintro rfl
      cases hgiven
  | arr items => cases h
  | obj fields => cases h

end TenantSearch
