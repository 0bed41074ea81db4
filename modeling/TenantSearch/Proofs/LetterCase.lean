-- The laws of the lower case: what it gives is made of small characters, and
-- a text of small characters is its own lower case.
import TenantSearch.Text.Case

namespace TenantSearch

open CaseTable

/-! ## Where the runs land -/

namespace CaseTable

/-- Where a run moves a code point. -/
def Run.image (r : Run) (code : Nat) : Nat := ((code : Int) + r.shift).toNat

/-- No code point that `r` moves lands on one that `q` moves: the two
stretches lie apart, or one keeps to the odd places of the other. -/
def Run.clears (r q : Run) : Bool :=
  (r.image r.last).blt q.first || q.last.blt (r.image r.first) ||
    (q.step == 2 && (r.step == 2 || r.first == r.last) && (r.image r.first + q.first) % 2 == 1)

/-- A run lands on letters: past the ASCII capitals, outside the
surrogates, and on neither of the capitals with rules of their own. -/
def Run.landsOnLetters (r : Run) : Bool :=
  Nat.ble 97 (r.image r.first) &&
    ((r.image r.last).blt 0xD800 ||
      Nat.ble 0xE000 (r.image r.first) && (r.image r.last).blt 0x110000) &&
    ((r.image r.last).blt 0x130 || Nat.blt 0x130 (r.image r.first)) &&
    ((r.image r.last).blt 0x3A3 || Nat.blt 0x3A3 (r.image r.first))

theorem lowerRuns_settle :
    (lowerRuns.all fun r => r.landsOnLetters && lowerRuns.all fun q => r.clears q) = true := by
  decide +kernel

theorem Run.covers_iff (r : Run) (code : Nat) :
    r.covers code = true ↔ r.first ≤ code ∧ code ≤ r.last ∧ (code - r.first) % r.step = 0 := by
  simp [Run.covers, and_assoc]

theorem Run.not_covers_image {r q : Run} {code : Nat} (hr : r.covers code = true)
    (hl : 97 ≤ r.image r.first) (h : r.clears q = true) : q.covers (r.image code) = false := by
  rw [Run.covers_iff] at hr
  obtain ⟨h1, h2, h3⟩ := hr
  rw [Bool.eq_false_iff, ne_eq, Run.covers_iff]
  rintro ⟨q1, q2, q3⟩
  simp only [Run.clears, Bool.or_eq_true, Bool.and_eq_true, Nat.blt_eq, beq_iff_eq] at h
  unfold Run.image at *
  rcases h with (h | h) | ⟨⟨hq, h⟩, hodd⟩
  · omega
  · omega
  · rw [hq] at q3
    rcases h with h | h
    · rw [h] at h3
      omega
    · omega

/-- What a run has moved lies still: it is a letter that no run moves. -/
theorem moved_settles {code m : Nat} (h : moved? lowerRuns code = some m) :
    moved? lowerRuns m = none ∧ 97 ≤ m ∧ m.isValidChar ∧ m ≠ 0x130 ∧ m ≠ 0x3A3 := by
  unfold moved? at h
  obtain ⟨r, hfind, hm⟩ := Option.map_eq_some_iff.mp h
  have hcov : r.covers code = true := by simpa using List.find?_some hfind
  have hall := List.all_eq_true.mp lowerRuns_settle r (List.mem_of_find?_eq_some hfind)
  rw [Bool.and_eq_true, List.all_eq_true] at hall
  obtain ⟨hland, hclear⟩ := hall
  obtain ⟨h1, h2, _⟩ := (Run.covers_iff r code).mp hcov
  simp only [Run.landsOnLetters, Bool.and_eq_true, Bool.or_eq_true, Nat.blt_eq,
    Nat.ble_eq] at hland
  obtain ⟨⟨⟨hlow, hvalid⟩, hi⟩, hs⟩ := hland
  have him : r.image code = m := hm
  have hfirst : r.image r.first ≤ m := by unfold Run.image at *; omega
  have hlast : m ≤ r.image r.last := by unfold Run.image at *; omega
  refine ⟨?_, by omega, ?_, by omega, by omega⟩
  · unfold moved?
    rw [Option.map_eq_none_iff, List.find?_eq_none]
    intro q hq
    rw [← him, Run.not_covers_image hcov hlow (hclear q hq)]
    simp
  · unfold Nat.isValidChar
    omega

end CaseTable

/-! ## Small characters -/

/-- A character that the lower case leaves as it is, wherever it stands. -/
structure IsSmall (c : Char) : Prop where
  own : lowerChar c = [c]
  no_sigma : c.toNat ≠ 0x3A3

theorem ascii_capital_iff (c : Char) : ('A' ≤ c ∧ c ≤ 'Z') ↔ (65 ≤ c.toNat ∧ c.toNat ≤ 90) := by
  rw [Char.le_def, Char.le_def, UInt32.le_iff_toNat_le, UInt32.le_iff_toNat_le]
  rfl

theorem toNat_ofNat_of_valid {n : Nat} (h : n.isValidChar) : (Char.ofNat n).toNat = n := by
  rw [Char.ofNat, dif_pos h]
  rfl

/-- What no table moves and no rule of its own concerns is small. -/
theorem IsSmall.of_code {c : Char} (hs : c.toNat ≠ 0x3A3) (hi : c.toNat ≠ 0x130)
    (ha : ¬ (65 ≤ c.toNat ∧ c.toNat ≤ 90))
    (hm : 128 ≤ c.toNat → moved? lowerRuns c.toNat = none) : IsSmall c := by
  refine ⟨?_, hs⟩
  unfold lowerChar
  split
  · rw [if_neg (fun h => ha ((ascii_capital_iff c).mp h))]
  · rename_i hge
    have hnone : lowerCode c.toNat = c.toNat := by
      rw [lowerCode, hm (by omega), Option.getD_none]
    simp only [hnone, Char.ofNat_toNat]

/-- What the lower case of a character is made of: the character itself
where no rule moves it, and small letters elsewhere. -/
theorem lowerChar_cases {c x : Char} (h : x ∈ lowerChar c) :
    (x = c ∧ (c.toNat ≠ 0x3A3 → IsSmall c)) ∨ (97 ≤ x.toNat ∧ IsSmall x) := by
  unfold lowerChar at h
  split at h
  · rename_i hlt
    rw [List.mem_singleton] at h
    subst h
    split
    · rename_i hcap
      have hcap' := (ascii_capital_iff c).mp hcap
      have hv : (c.toNat + 32).isValidChar := by unfold Nat.isValidChar; omega
      refine Or.inr ⟨by rw [toNat_ofNat_of_valid hv]; omega, ?_⟩
      apply IsSmall.of_code <;> rw [toNat_ofNat_of_valid hv] <;> omega
    · rename_i hcap
      rw [ascii_capital_iff] at hcap
      exact Or.inl ⟨rfl, fun hc => IsSmall.of_code hc (by omega) hcap (by omega)⟩
  · split at h
    · simp only [List.mem_cons, List.not_mem_nil, or_false] at h
      right
      rcases h with rfl | rfl
      · exact ⟨by decide, IsSmall.of_code (by decide) (by decide) (by decide) (by decide)⟩
      · exact ⟨by decide, IsSmall.of_code (by decide) (by decide) (by decide) (by decide)⟩
    · rename_i hlt hi
      rw [List.mem_singleton] at h
      subst h
      unfold lowerCode
      rcases hm : moved? lowerRuns c.toNat with _ | m
      · rw [Option.getD_none, Char.ofNat_toNat]
        exact Or.inl ⟨rfl, fun hc => IsSmall.of_code hc hi (by omega) (fun _ => hm)⟩
      · obtain ⟨hnone, hlow, hv, hi', hs'⟩ := moved_settles hm
        rw [Option.getD_some]
        refine Or.inr ⟨by rw [toNat_ofNat_of_valid hv]; exact hlow, ?_⟩
        apply IsSmall.of_code <;> rw [toNat_ofNat_of_valid hv]
        · exact hs'
        · exact hi'
        · omega
        · exact fun _ => hnone

theorem mem_lowerChar_small {c x : Char} (hc : c.toNat ≠ 0x3A3) (h : x ∈ lowerChar c) :
    IsSmall x := by
  rcases lowerChar_cases h with ⟨rfl, hsmall⟩ | ⟨_, hsmall⟩
  · exact hsmall hc
  · exact hsmall

/-- The lower case of a character is the character itself or made of letters. -/
theorem mem_lowerChar {c x : Char} (h : x ∈ lowerChar c) : x = c ∨ 97 ≤ x.toNat := by
  rcases lowerChar_cases h with ⟨hself, _⟩ | ⟨hletter, _⟩
  · exact Or.inl hself
  · exact Or.inr hletter

theorem lowerChar_ne_nil (c : Char) : lowerChar c ≠ [] := by
  unfold lowerChar
  split
  · simp
  · split <;> simp

/-! ## The lower case of a text -/

/-- The lower case of one character between its neighbours. -/
def lowerBetween (before : List Char) (c : Char) (after : List Char) : List Char :=
  if c.toNat = 0x3A3 then [Char.ofNat (if isFinalSigma before after then 0x3C2 else 0x3C3)]
  else lowerChar c

/-- The lower case of a text, as characters. -/
def lowerChars (cs : List Char) : List Char := lowerFrom [] [] cs

@[simp]
theorem toList_lower (s : String) : (lower s).toList = lowerChars s.toList := by
  unfold lower lowerChars
  rw [String.toList_ofList]

theorem lower_ofList (cs : List Char) : lower (String.ofList cs) = String.ofList (lowerChars cs) := by
  unfold lower lowerChars
  rw [String.toList_ofList]

theorem lowerFrom_done (before done cs : List Char) :
    lowerFrom before done cs = done.reverse ++ lowerFrom before [] cs := by
  induction cs generalizing before done with
  | nil => simp [lowerFrom]
  | cons c after ih =>
    simp only [lowerFrom]
    rw [ih, ih (c :: before) (_ ++ [])]
    simp

theorem lowerFrom_cons (before : List Char) (c : Char) (after : List Char) :
    lowerFrom before [] (c :: after) =
      lowerBetween before c after ++ lowerFrom (c :: before) [] after := by
  rw [lowerFrom, lowerFrom_done]
  simp [lowerBetween]

theorem mem_lowerBetween_small {before after : List Char} {c x : Char}
    (h : x ∈ lowerBetween before c after) : IsSmall x := by
  unfold lowerBetween at h
  split at h
  · rw [List.mem_singleton] at h
    subst h
    split <;> exact IsSmall.of_code (by decide) (by decide) (by decide) (by decide)
  · rename_i hc
    exact mem_lowerChar_small hc h

theorem mem_lowerFrom_small {before cs : List Char} {x : Char}
    (h : x ∈ lowerFrom before [] cs) : IsSmall x := by
  induction cs generalizing before with
  | nil => simp [lowerFrom] at h
  | cons c after ih =>
    rw [lowerFrom_cons, List.mem_append] at h
    rcases h with h | h
    · exact mem_lowerBetween_small h
    · exact ih h

/-- The lower case of a text holds small characters only. -/
theorem mem_lowerChars_small {cs : List Char} {x : Char} (h : x ∈ lowerChars cs) : IsSmall x :=
  mem_lowerFrom_small h

theorem lowerBetween_of_small {c : Char} (before after : List Char) (h : IsSmall c) :
    lowerBetween before c after = [c] := by
  unfold lowerBetween
  rw [if_neg h.no_sigma, h.own]

theorem lowerFrom_of_small (before cs : List Char) (h : ∀ c ∈ cs, IsSmall c) :
    lowerFrom before [] cs = cs := by
  induction cs generalizing before with
  | nil => rfl
  | cons c after ih =>
    rw [lowerFrom_cons, lowerBetween_of_small _ _ (h c List.mem_cons_self),
      ih _ (fun x hx => h x (List.mem_cons_of_mem c hx))]
    rfl

theorem lowerChars_of_small {cs : List Char} (h : ∀ c ∈ cs, IsSmall c) : lowerChars cs = cs :=
  lowerFrom_of_small [] cs h

theorem lowerChars_lowerChars (cs : List Char) : lowerChars (lowerChars cs) = lowerChars cs :=
  lowerChars_of_small fun _ h => mem_lowerChars_small h

/-- The lower case of a lower case is itself. -/
@[simp]
theorem lower_lower (s : String) : lower (lower s) = lower s := by
  rw [← String.toList_inj, toList_lower, toList_lower, lowerChars_lowerChars]

theorem lowerBetween_ne_nil (before : List Char) (c : Char) (after : List Char) :
    lowerBetween before c after ≠ [] := by
  unfold lowerBetween
  split
  · simp
  · exact lowerChar_ne_nil c

@[simp]
theorem lowerChars_eq_nil {cs : List Char} : lowerChars cs = [] ↔ cs = [] := by
  unfold lowerChars
  cases cs with
  | nil => simp [lowerFrom]
  | cons c after =>
    rw [lowerFrom_cons]
    simp [lowerBetween_ne_nil]

end TenantSearch
