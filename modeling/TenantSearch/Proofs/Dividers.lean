-- The laws of dividers: a divider ends every word, so the parts of a text on
-- both sides of it have their lower cases alone, and taking a text apart at
-- dividers can be done before or after the lower case.
import Mathlib.Data.List.TakeWhile
import TenantSearch.Proofs.LetterCase

namespace TenantSearch

/-! ## Dividers -/

/-- A character that is no letter and that no sigma looks across. -/
structure IsDivider (d : Char) : Prop where
  small : IsSmall d
  low : d.toNat < 97
  apart : isCased d = false ∧ isIgnorable d = false

theorem isDivider_underscore : IsDivider '_' :=
  ⟨IsSmall.of_code (by decide) (by decide) (by decide) (by decide), by decide, by decide +kernel⟩

theorem isDivider_comma : IsDivider ',' :=
  ⟨IsSmall.of_code (by decide) (by decide) (by decide) (by decide), by decide, by decide +kernel⟩

theorem isDivider_star : IsDivider '*' :=
  ⟨IsSmall.of_code (by decide) (by decide) (by decide) (by decide), by decide, by decide +kernel⟩

theorem IsDivider.mem_lowerBetween {d c : Char} {before after : List Char} (hd : IsDivider d) :
    d ∈ lowerBetween before c after ↔ d = c := by
  constructor
  · intro h
    unfold lowerBetween at h
    split at h
    · rw [List.mem_singleton] at h
      have hlow := hd.low
      rw [h] at hlow
      split at hlow <;> exact absurd hlow (by decide)
    · rcases mem_lowerChar h with h | h
      · exact h
      · exact absurd hd.low (by omega)
  · intro h
    subst h
    rw [lowerBetween_of_small _ _ hd.small]
    exact List.mem_singleton_self d

theorem IsDivider.mem_lowerChars {d : Char} {cs : List Char} (hd : IsDivider d) :
    d ∈ lowerChars cs ↔ d ∈ cs := by
  have h : ∀ before, d ∈ lowerFrom before [] cs ↔ d ∈ cs := by
    induction cs with
    | nil => simp [lowerFrom]
    | cons c after ih =>
      intro before
      rw [lowerFrom_cons, List.mem_append, hd.mem_lowerBetween, ih, List.mem_cons]
  exact h []

theorem meetsCased_cons (c : Char) (cs : List Char) :
    meetsCased (c :: cs) = if isIgnorable c then meetsCased cs else isCased c := by
  unfold meetsCased
  rw [List.dropWhile_cons]
  by_cases h : isIgnorable c = true
  · rw [if_pos h, if_pos h]
  · rw [if_neg h, if_neg h]

theorem IsDivider.meetsCased_cons {d : Char} (hd : IsDivider d) (cs : List Char) :
    meetsCased (d :: cs) = false := by
  rw [TenantSearch.meetsCased_cons, hd.apart.1, hd.apart.2]
  rfl

theorem IsDivider.meetsCased_append {d : Char} (hd : IsDivider d) (a b : List Char) :
    meetsCased (a ++ d :: b) = meetsCased a := by
  induction a with
  | nil => rw [List.nil_append, hd.meetsCased_cons]; rfl
  | cons c a ih =>
    rw [List.cons_append, TenantSearch.meetsCased_cons, TenantSearch.meetsCased_cons, ih]

/-- Of what precedes, only the nearest letter counts. -/
theorem lowerFrom_congr {b b' : List Char} (cs : List Char) (h : meetsCased b = meetsCased b') :
    lowerFrom b [] cs = lowerFrom b' [] cs := by
  induction cs generalizing b b' with
  | nil => rfl
  | cons c after ih =>
    have hnext : meetsCased (c :: b) = meetsCased (c :: b') := by
      rw [meetsCased_cons, meetsCased_cons, h]
    rw [lowerFrom_cons, lowerFrom_cons, ih hnext]
    unfold lowerBetween isFinalSigma
    rw [h]

theorem IsDivider.lowerFrom_append {d : Char} (hd : IsDivider d) (before a b : List Char) :
    lowerFrom before [] (a ++ d :: b) = lowerFrom before [] a ++ d :: lowerChars b := by
  induction a generalizing before with
  | nil =>
    have hb : meetsCased (d :: before) = meetsCased [] := hd.meetsCased_cons before
    rw [List.nil_append, lowerFrom_cons, lowerBetween_of_small _ _ hd.small, lowerFrom_congr b hb]
    rfl
  | cons c a ih =>
    rw [List.cons_append, lowerFrom_cons, lowerFrom_cons, ih, List.append_assoc]
    unfold lowerBetween isFinalSigma
    rw [hd.meetsCased_append]

/-- The parts on both sides of a divider have their lower cases alone. -/
theorem IsDivider.lowerChars_append {d : Char} (hd : IsDivider d) (a b : List Char) :
    lowerChars (a ++ d :: b) = lowerChars a ++ d :: lowerChars b := hd.lowerFrom_append [] a b

theorem IsDivider.lowerChars_cons {d : Char} (hd : IsDivider d) (b : List Char) :
    lowerChars (d :: b) = d :: lowerChars b := hd.lowerChars_append [] b

/-! ## Taking a text apart at a divider -/

/-- A text is free of a character, or it goes on after the first of them. -/
theorem eq_or_append_of_char (d : Char) (cs : List Char) :
    d ∉ cs ∨ ∃ a b, cs = a ++ d :: b ∧ d ∉ a := by
  by_cases h : d ∈ cs
  · obtain ⟨a, b, hcs, ha⟩ := List.eq_append_cons_of_mem h
    exact Or.inr ⟨a, b, hcs, ha⟩
  · exact Or.inl h

theorem takeWhile_ne_of_not_mem {d : Char} {cs : List Char} (h : d ∉ cs) :
    cs.takeWhile (· != d) = cs := by
  rw [List.takeWhile_eq_self_iff]
  intro c hc
  simpa using fun hcd : c = d => h (hcd ▸ hc)

theorem takeWhile_ne_append {d : Char} {a : List Char} (b : List Char) (h : d ∉ a) :
    (a ++ d :: b).takeWhile (· != d) = a := by
  rw [List.takeWhile_append_of_pos]
  · simp
  · intro c hc
    simpa using fun hcd : c = d => h (hcd ▸ hc)

theorem dropWhile_ne_of_not_mem {d : Char} {cs : List Char} (h : d ∉ cs) :
    cs.dropWhile (· != d) = [] := by
  rw [List.dropWhile_eq_nil_iff]
  intro c hc
  simpa using fun hcd : c = d => h (hcd ▸ hc)

theorem dropWhile_ne_append {d : Char} {a : List Char} (b : List Char) (h : d ∉ a) :
    (a ++ d :: b).dropWhile (· != d) = d :: b := by
  rw [List.dropWhile_append_of_pos]
  · simp
  · intro c hc
    simpa using fun hcd : c = d => h (hcd ▸ hc)

theorem splitOnP_eq_self {d : Char} {cs : List Char} (h : d ∉ cs) :
    cs.splitOnP (· == d) = [cs] := by
  apply List.splitOnP_eq_singleton
  intro c hc
  simpa using fun hcd : c = d => h (hcd ▸ hc)

theorem splitOnP_append {d : Char} {a b : List Char} (h : d ∉ a) :
    (a ++ d :: b).splitOnP (· == d) = a :: b.splitOnP (· == d) := by
  apply List.splitOnP_append_cons_of_forall_mem
  · intro c hc
    simpa using fun hcd : c = d => h (hcd ▸ hc)
  · simp

theorem IsDivider.takeWhile_lowerChars {d : Char} (hd : IsDivider d) (cs : List Char) :
    (lowerChars cs).takeWhile (· != d) = lowerChars (cs.takeWhile (· != d)) := by
  rcases eq_or_append_of_char d cs with h | ⟨a, b, rfl, ha⟩
  · rw [takeWhile_ne_of_not_mem h, takeWhile_ne_of_not_mem (mt hd.mem_lowerChars.mp h)]
  · rw [hd.lowerChars_append, takeWhile_ne_append b ha,
      takeWhile_ne_append _ (mt hd.mem_lowerChars.mp ha)]

theorem IsDivider.dropWhile_lowerChars {d : Char} (hd : IsDivider d) (cs : List Char) :
    (lowerChars cs).dropWhile (· != d) = lowerChars (cs.dropWhile (· != d)) := by
  rcases eq_or_append_of_char d cs with h | ⟨a, b, rfl, ha⟩
  · rw [dropWhile_ne_of_not_mem h, dropWhile_ne_of_not_mem (mt hd.mem_lowerChars.mp h)]
    rfl
  · rw [hd.lowerChars_append, dropWhile_ne_append b ha,
      dropWhile_ne_append _ (mt hd.mem_lowerChars.mp ha), hd.lowerChars_cons]

theorem IsDivider.splitOnP_lowerChars {d : Char} (hd : IsDivider d) (cs : List Char) :
    (lowerChars cs).splitOnP (· == d) = (cs.splitOnP (· == d)).map lowerChars := by
  rcases eq_or_append_of_char d cs with h | ⟨a, b, rfl, ha⟩
  · rw [splitOnP_eq_self h, splitOnP_eq_self (mt hd.mem_lowerChars.mp h)]
    rfl
  · rw [hd.lowerChars_append, splitOnP_append ha, splitOnP_append (mt hd.mem_lowerChars.mp ha),
      IsDivider.splitOnP_lowerChars hd b]
    rfl
termination_by cs.length

end TenantSearch
