-- How the search engine reads the pattern of a wildcard: a star stands for any
-- run of characters, a question mark for any one, and a backslash takes the
-- meaning from the character after it. The pattern of a condition on a part of
-- a text matches exactly the texts with that part inside.
import Mathlib.Data.List.Forall2
import Mathlib.Data.List.Infix
import TenantSearch.Query.Clause

namespace TenantSearch

/-! ## The pure model -/

/-- What one place of a pattern stands for. -/
inductive PatternPart where
  | run
  | one
  | literal (c : Char)
deriving DecidableEq, Repr

/-- What a character stands for that no backslash precedes. -/
def PatternPart.bare (c : Char) : PatternPart :=
  if c = '*' then .run else if c = '?' then .one else .literal c

/-- The parts of a pattern, as the engine reads them. A backslash with nothing
after it stands for itself. -/
def patternParts : List Char → List PatternPart
  | [] => []
  | [c] => [.bare c]
  | c :: d :: rest =>
    if c = '\\' then .literal d :: patternParts rest else .bare c :: patternParts (d :: rest)

/-- Whether a text is made of such parts, with a comparison of characters. -/
def partsMatch (same : Char → Char → Bool) : List PatternPart → List Char → Bool
  | [], text => text.isEmpty
  | .run :: parts, text => text.tails.any (partsMatch same parts)
  | .one :: parts, text =>
    match text with
    | [] => false
    | _ :: rest => partsMatch same parts rest
  | .literal c :: parts, text =>
    match text with
    | [] => false
    | d :: rest => same c d && partsMatch same parts rest

/-- A pattern matches a text, with a comparison of characters. -/
def PatternMatches (same : Char → Char → Bool) (pattern text : String) : Prop :=
  partsMatch same (patternParts pattern.toList) text.toList = true

instance (same : Char → Char → Bool) (pattern text : String) :
    Decidable (PatternMatches same pattern text) :=
  inferInstanceAs (Decidable (partsMatch same (patternParts pattern.toList) text.toList = true))

/-- Some run of the text is the part, character by character. -/
def HasInside (same : Char → Char → Bool) (part text : List Char) : Prop :=
  ∃ before inner after,
    text = before ++ (inner ++ after) ∧ List.Forall₂ (fun c d => same c d = true) part inner

/-! ## The parts of a pattern -/

theorem patternParts_escaped (c : Char) (rest : List Char) :
    patternParts ('\\' :: c :: rest) = .literal c :: patternParts rest := by
  rw [patternParts, if_pos rfl]

theorem patternParts_bare {c : Char} (hc : c ≠ '\\') (rest : List Char) :
    patternParts (c :: rest) = .bare c :: patternParts rest := by
  cases rest with
  | nil => rfl
  | cons d rest => rw [patternParts, if_neg hc]

theorem bare_of_unmarked {c : Char} (hc : Clause.isPatternMark c = false) :
    PatternPart.bare c = .literal c := by
  simp only [Clause.isPatternMark, Bool.or_eq_false_iff, beq_eq_false_iff_ne] at hc
  rw [PatternPart.bare, if_neg hc.1.2, if_neg hc.2]

/-- Whatever its characters, a text written as a literal is read back as
itself, and what stands behind it keeps its meaning. -/
theorem patternParts_literal (text rest : List Char) :
    patternParts (Clause.literalPattern text ++ rest) =
      text.map PatternPart.literal ++ patternParts rest := by
  induction text with
  | nil => rfl
  | cons c text ih =>
    rw [Clause.literalPattern, List.flatMap_cons, List.append_assoc, List.map_cons,
      List.cons_append]
    by_cases hc : Clause.isPatternMark c = true
    · rw [if_pos hc]
      exact (patternParts_escaped c _).trans (congrArg _ ih)
    · have hslash : c ≠ '\\' := by
        rintro rfl
        exact hc rfl
      rw [if_neg hc]
      exact (patternParts_bare hslash _).trans
        (congrArg₂ _ (bare_of_unmarked (Bool.eq_false_iff.mpr hc)) ih)

theorem patternParts_containing (text : String) :
    patternParts (Clause.containing text).toList =
      .run :: (text.toList.map PatternPart.literal ++ [.run]) := by
  rw [Clause.containing, String.toList_ofList, List.cons_append,
    patternParts_bare (by decide), patternParts_literal]
  rfl

/-! ## What the parts match -/

variable (same : Char → Char → Bool)

theorem partsMatch_run (parts : List PatternPart) (text : List Char) :
    partsMatch same (.run :: parts) text = true ↔
      ∃ skipped rest, text = skipped ++ rest ∧ partsMatch same parts rest = true := by
  simp only [partsMatch, List.any_eq_true, List.mem_tails]
  constructor
  · rintro ⟨rest, ⟨skipped, hskipped⟩, h⟩
    exact ⟨skipped, rest, hskipped.symm, h⟩
  · rintro ⟨skipped, rest, rfl, h⟩
    exact ⟨rest, ⟨skipped, rfl⟩, h⟩

theorem partsMatch_last_run (text : List Char) : partsMatch same [.run] text = true :=
  (partsMatch_run same [] text).mpr ⟨text, [], (List.append_nil text).symm, rfl⟩

theorem partsMatch_literal (c : Char) (parts : List PatternPart) (text : List Char) :
    partsMatch same (.literal c :: parts) text = true ↔
      ∃ d rest, text = d :: rest ∧ same c d = true ∧ partsMatch same parts rest = true := by
  cases text with
  | nil => simp [partsMatch]
  | cons d rest => simp [partsMatch]

/-- Literals match a text of their length, character by character. -/
theorem partsMatch_literals (part : List Char) (parts : List PatternPart) (text : List Char) :
    partsMatch same (part.map PatternPart.literal ++ parts) text = true ↔
      ∃ inner rest, text = inner ++ rest ∧
        List.Forall₂ (fun c d => same c d = true) part inner ∧
          partsMatch same parts rest = true := by
  induction part generalizing text with
  | nil => simp
  | cons c part ih =>
    rw [List.map_cons, List.cons_append, partsMatch_literal]
    constructor
    · rintro ⟨d, rest, rfl, hcd, hrest⟩
      obtain ⟨inner, after, rfl, hinner, hafter⟩ := (ih rest).mp hrest
      exact ⟨d :: inner, after, rfl, .cons hcd hinner, hafter⟩
    · rintro ⟨inner, after, rfl, hinner, hafter⟩
      cases hinner with
      | cons hcd hinner => exact ⟨_, _, rfl, hcd, (ih _).mpr ⟨_, after, rfl, hinner, hafter⟩⟩

theorem matches_containing_iff (part text : String) :
    PatternMatches same (Clause.containing part) text ↔
      HasInside same part.toList text.toList := by
  unfold PatternMatches HasInside
  rw [patternParts_containing, partsMatch_run]
  constructor
  · rintro ⟨before, rest, htext, hrest⟩
    obtain ⟨inner, after, rfl, hinner, -⟩ := (partsMatch_literals same _ _ _).mp hrest
    exact ⟨before, inner, after, htext, hinner⟩
  · rintro ⟨before, inner, after, htext, hinner⟩
    exact ⟨before, inner ++ after, htext,
      (partsMatch_literals same _ _ _).mpr ⟨inner, after, rfl, hinner, partsMatch_last_run same _⟩⟩

/-- Character by character as they are, a part is inside a text as a run of
it. -/
theorem hasInside_beq_iff (part text : List Char) :
    HasInside (· == ·) part text ↔ part <:+: text := by
  have hrel : (fun c d : Char => (c == d) = true) = Eq := by
    funext c d
    exact propext beq_iff_eq
  unfold HasInside
  rw [hrel, List.forall₂_eq_eq_eq]
  constructor
  · rintro ⟨before, _, after, rfl, rfl⟩
    exact ⟨before, after, List.append_assoc _ _ _⟩
  · rintro ⟨before, after, rfl⟩
    exact ⟨before, part, after, List.append_assoc _ _ _, rfl⟩

/-! ## The law of conditions on a part of a text -/

/-- A question mark and a backslash at the end are looked for as they are. -/
example :
    PatternMatches (· == ·) (Clause.containing "1?\\") "is 1?\\ so" ∧
      ¬ PatternMatches (· == ·) (Clause.containing "1?\\") "is 12\\ so" := by decide +kernel

end TenantSearch
