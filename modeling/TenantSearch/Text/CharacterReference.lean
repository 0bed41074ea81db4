-- Replacing `&name;` and `&#number;` by the characters they stand for. A name that is
-- not known is tried by its longest known beginning; what stands for nothing stays as it
-- is. A decimal number of too many digits stands for nothing and spoils the text.
import Std.Data.HashMap
import TenantSearch.Text.Digit
import TenantSearch.Text.ReferenceTable

namespace TenantSearch

namespace CharacterReference

/-- Every reference name with its text; most carry the semicolon that closes them. -/
def table : Std.HashMap String String :=
  let closed := ReferenceTable.names.foldl (fun m p => m.insert (p.1 ++ ";") p.2) {}
  ReferenceTable.legacyNames.foldl (fun m name => m.insert name (closed.getD (name ++ ";") "")) closed

/-- What the numbers 128 to 159 stand for: the characters that a Windows page has there. -/
def windowsPage : List Nat := [
  0x20AC, 0x81, 0x201A, 0x192, 0x201E, 0x2026, 0x2020, 0x2021, 0x2C6, 0x2030, 0x160, 0x2039, 0x152,
  0x8D, 0x17D, 0x8F, 0x90, 0x2018, 0x2019, 0x201C, 0x201D, 0x2022, 0x2013, 0x2014, 0x2DC, 0x2122,
  0x161, 0x203A, 0x153, 0x9D, 0x17E, 0x178]

/-- A code point that no document may name: a control or a noncharacter. -/
def isForbidden (code : Nat) : Bool :=
  (1 ≤ code && code ≤ 8) || code == 11 || (14 ≤ code && code ≤ 31) || (127 ≤ code && code ≤ 159) ||
    (0xFDD0 ≤ code && code ≤ 0xFDEF) || (0xFFFE ≤ code && code % 0x10000 ≥ 0xFFFE)

/-- The text of a numeric reference. -/
def ofNumber (code : Nat) : List Char :=
  if code = 0 then [Char.ofNat 0xFFFD]
  else if 128 ≤ code ∧ code ≤ 159 then [Char.ofNat (windowsPage.getD (code - 128) 0)]
  else if (0xD800 ≤ code ∧ code ≤ 0xDFFF) ∨ 0x10FFFF < code then [Char.ofNat 0xFFFD]
  else if isForbidden code then []
  else [Char.ofNat code]

/-- The number written by digits in a base; a long one stops growing once it is out of range. -/
def numberOf (base : Nat) (digits : List Nat) : Nat :=
  digits.foldl (fun n d => min (n * base + d) 0x110000) 0

/-- The rest without a closing semicolon. -/
def dropSemicolon : List Char → List Char
  | ';' :: rest => rest
  | rest => rest

/-- The characters that end a reference name. -/
def nameEnds : List Char := ['\t', '\n', '\x0c', ' ', '<', '&', '#', ';']

/-- The text of the number in front, and what follows it and its semicolon. -/
def readNumber (base : Nat) (digit? : Char → Option Nat) (cs : List Char) :
    List Char × List Char :=
  let digits := cs.takeWhile fun c => (digit? c).isSome
  (ofNumber (numberOf base (digits.filterMap digit?)), dropSemicolon (cs.drop digits.length))

/-- A character that a reference name may hold. -/
def isNameChar (c : Char) : Bool := !nameEnds.contains c

/-- The longest known beginning of the name, of two characters at least, and what follows it. -/
def longestKnown (name : List Char) : Option (String × List Char) :=
  (List.range (name.length - 2)).findSome? fun i =>
    let size := name.length - 1 - i
    (table[String.ofList (name.take size)]?).map (·, name.drop size)

/-- The text of a named reference; an unknown one keeps its ampersand. -/
def ofName (name : List Char) : List Char :=
  match table[String.ofList name]? with
  | some text => text.toList
  | none => match longestKnown name with
    | some (text, rest) => text.toList ++ rest
    | none => '&' :: name

/-- The reference that starts after an ampersand: its text and the rest, if there is one. -/
def read (cs : List Char) : Option (List Char × List Char) :=
  match cs with
  | '#' :: mark :: more =>
    if (mark == 'x' || mark == 'X') && (more.head?.bind hexDigit?).isSome then
      some (readNumber 16 hexDigit? more)
    else if (asciiDigit? mark).isSome then some (readNumber 10 asciiDigit? (mark :: more))
    else none
  | _ =>
    let name := (cs.take 32).takeWhile isNameChar
    if name.isEmpty then none
    else
      let rest := cs.drop name.length
      match rest with
      | ';' :: after => some (ofName (name ++ [';']), after)
      | _ => some (ofName name, rest)

/-- The text with its references replaced; `done` holds what is finished, reversed. Each step
takes at least one character, so the length of the text is fuel enough. -/
def replaceFrom : Nat → List Char → List Char → List Char
  | 0, done, _ => done.reverse
  | _ + 1, done, [] => done.reverse
  | fuel + 1, done, c :: rest =>
    if c = '&' then
      match read rest with
      | some (text, after) => replaceFrom fuel (text.reverse ++ done) after
      | none => replaceFrom fuel (c :: done) rest
    else replaceFrom fuel (c :: done) rest

/-- More decimal digits than this no reference has. -/
def mostDigits : Nat := 4300

/-- Whether a decimal reference has too many digits. -/
def hasOversized : List Char → Bool
  | [] => false
  | '&' :: '#' :: rest =>
    mostDigits < (rest.takeWhile fun c => (asciiDigit? c).isSome).length || hasOversized rest
  | _ :: rest => hasOversized rest

end CharacterReference

/-- The text with its character references replaced, unless one of them is too long. -/
def unescape? (s : String) : Option String :=
  if s.contains '&' then
    let cs := s.toList
    if CharacterReference.hasOversized cs then none
    else some (String.ofList (CharacterReference.replaceFrom (cs.length + 1) [] cs))
  else some s

end TenantSearch
