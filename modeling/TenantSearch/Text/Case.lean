-- Full case mappings. Only the capital sigma looks at its neighbours: at the end of a
-- word it becomes the final small sigma.
import TenantSearch.Text.CaseTable

namespace TenantSearch

open CaseTable

/-- The lower case of a code point outside ASCII, when it is a single other code point. -/
def lowerCode (code : Nat) : Nat := (moved? lowerRuns code).getD code

/-- The lower case of a character, seen without its neighbours. -/
def lowerChar (c : Char) : List Char :=
  if c.toNat < 128 then [if 'A' ≤ c ∧ c ≤ 'Z' then Char.ofNat (c.toNat + 32) else c]
  else if c.toNat = 0x130 then ['i', Char.ofNat 0x307]
  else [Char.ofNat (lowerCode c.toNat)]

/-- A cased letter, for the context of a sigma. -/
def isCased (c : Char) : Bool := inRanges cased c.toNat

/-- A character that the context of a sigma looks through. -/
def isIgnorable (c : Char) : Bool := inRanges ignorable c.toNat

/-- Whether the nearest character that counts is a cased letter. -/
def meetsCased (cs : List Char) : Bool :=
  match cs.dropWhile isIgnorable with
  | [] => false
  | c :: _ => isCased c

/-- A capital sigma after a cased letter and before none. -/
def isFinalSigma (before after : List Char) : Bool := meetsCased before && !meetsCased after

/-- The lower case of `after`, where `before` is what precedes it, nearest first. -/
def lowerFrom (before : List Char) : List Char → List Char → List Char
  | done, [] => done.reverse
  | done, c :: after =>
    let small :=
      if c.toNat = 0x3A3 then [Char.ofNat (if isFinalSigma before after then 0x3C2 else 0x3C3)]
      else lowerChar c
    lowerFrom (c :: before) (small.reverse ++ done) after

/-- The lower case of a text. -/
def lower (s : String) : String := String.ofList (lowerFrom [] [] s.toList)

/-- The upper case of a character. -/
def upperChar (c : Char) : List Char :=
  if c.toNat < 128 then [if 'a' ≤ c ∧ c ≤ 'z' then Char.ofNat (c.toNat - 32) else c]
  else match upperSpecial.find? (·.1 == c.toNat) with
    | some several => several.2.map Char.ofNat
    | none => [Char.ofNat ((moved? upperRuns c.toNat).getD c.toNat)]

/-- The upper case of a text. -/
def upper (s : String) : String := String.ofList (s.toList.flatMap upperChar)

end TenantSearch
