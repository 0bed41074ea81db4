-- What trimming leaves: a text with no blank at either end, which trimming
-- again does not change, and nothing at all just when the text was blank.
import Mathlib.Data.List.DropRight
import TenantSearch.Text.Blank
import TenantSearch.Text.Surrogate

namespace TenantSearch

variable {p : Char → Bool} {cs : List Char}

theorem trimEnds_eq (p : Char → Bool) (cs : List Char) :
    trimEnds p cs = (cs.dropWhile p).rdropWhile p := rfl

theorem trimEnds_sublist (p : Char → Bool) (cs : List Char) : (trimEnds p cs).Sublist cs := by
  rw [trimEnds_eq]
  exact (List.rdropWhile_prefix p _).sublist.trans (List.dropWhile_sublist p)

theorem trimEnds_eq_nil_iff : trimEnds p cs = [] ↔ ∀ c ∈ cs, p c = true := by
  rw [trimEnds_eq, List.rdropWhile_eq_nil_iff]
  constructor
  · intro h
    by_contra hsome
    have hne : cs.dropWhile p ≠ [] := fun hnil => hsome (List.dropWhile_eq_nil_iff.mp hnil)
    have hhead := List.head_dropWhile_not p hne
    rw [h _ (List.head_mem hne)] at hhead
    cases hhead
  · intro h c hc
    exact h c (List.dropWhile_sublist p |>.subset hc)

/-- What is trimmed starts with no blank, so nothing more goes from its start. -/
theorem dropWhile_trimEnds (p : Char → Bool) (cs : List Char) :
    (trimEnds p cs).dropWhile p = trimEnds p cs := by
  have hfix : (cs.dropWhile p).dropWhile p = cs.dropWhile p :=
    List.dropWhile_idempotent p cs
  have hprefix : trimEnds p cs <+: cs.dropWhile p := List.rdropWhile_prefix p _
  generalize cs.dropWhile p = ds at hfix hprefix
  cases htrim : trimEnds p cs with
  | nil => rfl
  | cons c rest =>
    rw [htrim] at hprefix
    obtain ⟨more, rfl⟩ := hprefix
    by_cases hc : p c = true
    · have hlength := congrArg List.length hfix
      rw [List.cons_append, List.dropWhile_cons_of_pos hc] at hlength
      have hle := (List.dropWhile_sublist p (l := rest ++ more)).length_le
      rw [List.length_cons] at hlength
      omega
    · rw [List.dropWhile_cons_of_neg hc]

theorem trimEnds_trimEnds (p : Char → Bool) (cs : List Char) :
    trimEnds p (trimEnds p cs) = trimEnds p cs := by
  rw [trimEnds_eq p (trimEnds p cs), dropWhile_trimEnds, trimEnds_eq p cs,
    List.rdropWhile_idempotent]

@[simp]
theorem trim_trim (s : String) : trim (trim s) = trim s := by
  unfold trim
  rw [String.toList_ofList, trimEnds_trimEnds]

theorem trim_eq_empty_iff {s : String} : trim s = "" ↔ isBlankText s = true := by
  unfold trim isBlankText
  rw [String.ofList_eq_empty_iff, trimEnds_eq_nil_iff, List.all_eq_true]

/-- A text that is not blank is not blank when it is trimmed. -/
theorem isBlankText_trim {s : String} (h : isBlankText s = false) :
    isBlankText (trim s) = false := by
  rw [← Bool.not_eq_true, ← trim_eq_empty_iff, trim_trim, trim_eq_empty_iff, h]
  exact Bool.false_ne_true

theorem ne_empty_of_not_blank {s : String} (h : isBlankText s = false) : s ≠ "" := by
  rintro rfl
  cases h

theorem hasSurrogate_trim {s : String} (h : hasSurrogate s = false) :
    hasSurrogate (trim s) = false := by
  unfold hasSurrogate trim at *
  rw [String.toList_ofList]
  rw [List.any_eq_false] at h ⊢
  intro c hc
  exact h c ((trimEnds_sublist isBlank s.toList).subset hc)

end TenantSearch
