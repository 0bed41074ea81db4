-- A reader of JSON over the characters of a text. Every step takes characters off the
-- front, so the length of the text is fuel enough. Of two fields with one name the first
-- keeps its place and the last gives the value. A text is refused as malformed, or as
-- unfit where a number has too many digits or a value lies too deep; whichever comes
-- first counts.
import TenantSearch.Json.Value
import TenantSearch.Text.Digit

namespace TenantSearch

/-- Why a text is no JSON value. -/
inductive JsonRefusal where
  | malformed
  | unfit
deriving DecidableEq, Repr

namespace JsonReader

def isGap (c : Char) : Bool := c == ' ' || c == '\t' || c == '\n' || c == '\r'

def skipGap (cs : List Char) : List Char := cs.dropWhile isGap

/-- The characters after a given beginning. -/
def after? : List Char → List Char → Option (List Char)
  | [], cs => some cs
  | _ :: _, [] => none
  | w :: word, c :: cs => if w = c then after? word cs else none

/-- The value of four hexadecimal digits. -/
def fourHex : List Char → Option (Nat × List Char)
  | a :: b :: c :: d :: rest => do
    let a ← hexDigit? a
    let b ← hexDigit? b
    let c ← hexDigit? c
    let d ← hexDigit? d
    some (((a * 16 + b) * 16 + c) * 16 + d, rest)
  | _ => none

/-- The character of a `\u` escape; two surrogates in a row are one character. -/
def unicodeEscape (cs : List Char) : Option (Char × List Char) := do
  let (unit, rest) ← fourHex cs
  if isHighSurrogate unit then
    match (after? ['\\', 'u'] rest).bind fourHex with
    | some (low, rest') =>
      if isLowSurrogate low then some (Char.ofNat (joinSurrogates unit low), rest')
      else some (charOfUnit unit, rest)
    | none => some (charOfUnit unit, rest)
  else some (charOfUnit unit, rest)

/-- The character after a backslash. -/
def escape : List Char → Option (Char × List Char)
  | '"' :: rest => some ('"', rest)
  | '\\' :: rest => some ('\\', rest)
  | '/' :: rest => some ('/', rest)
  | 'b' :: rest => some ('\x08', rest)
  | 'f' :: rest => some ('\x0c', rest)
  | 'n' :: rest => some ('\n', rest)
  | 'r' :: rest => some ('\r', rest)
  | 't' :: rest => some ('\t', rest)
  | 'u' :: rest => unicodeEscape rest
  | _ => none

/-- The characters of a string up to its closing quote. -/
def stringBody : Nat → List Char → List Char → Option (String × List Char)
  | 0, _, _ => none
  | fuel + 1, done, cs =>
    match cs with
    | [] => none
    | '"' :: rest => some (String.ofList done.reverse, rest)
    | '\\' :: rest => do
      let (c, rest) ← escape rest
      stringBody fuel (c :: done) rest
    | c :: rest => if c.toNat < 32 then none else stringBody fuel (c :: done) rest

/-- A string after its opening quote. -/
def string (cs : List Char) : Except JsonRefusal (String × List Char) :=
  match stringBody (cs.length + 1) [] cs with
  | some found => .ok found
  | none => .error .malformed

/-- The number written by ASCII digits. -/
def natOf (digits : List Char) : Nat := digits.foldl (fun n c => n * 10 + (c.toNat - 48)) 0

def isDigit (c : Char) : Bool := (asciiDigit? c).isSome

/-- The exponent of a number, if one follows. -/
def exponentPart (cs : List Char) : Option (Int × List Char) :=
  match cs with
  | mark :: rest =>
    if mark == 'e' || mark == 'E' then
      let (negative, rest) := match rest with
        | '-' :: more => (true, more)
        | '+' :: more => (false, more)
        | more => (false, more)
      let digits := rest.takeWhile isDigit
      if digits.isEmpty then none
      else some (if negative then -(natOf digits : Int) else natOf digits, rest.drop digits.length)
    else none
  | [] => none

/-- The digits after a point, if one follows with digits. -/
def fractionPart (cs : List Char) : Option (List Char × List Char) :=
  match cs with
  | '.' :: rest =>
    let digits := rest.takeWhile isDigit
    if digits.isEmpty then none else some (digits, rest.drop digits.length)
  | _ => none

/-- More digits than this no whole number has. -/
def mostDigits : Nat := 4300

/-- A number: a double when it has a fraction or an exponent, a whole number otherwise. -/
def number (cs : List Char) : Except JsonRefusal (Json × List Char) :=
  let (negative, rest) := match cs with
    | '-' :: more => (true, more)
    | more => (false, more)
  let whole := match rest with
    | '0' :: _ => ['0']
    | more => more.takeWhile isDigit
  if whole.isEmpty then .error .malformed
  else
    let rest := rest.drop whole.length
    let fraction := fractionPart rest
    let rest := (fraction.map (·.2)).getD rest
    let exponent := exponentPart rest
    let rest := (exponent.map (·.2)).getD rest
    if fraction.isNone && exponent.isNone then
      if mostDigits < whole.length then .error .unfit
      else .ok (.int (if negative then -(natOf whole : Int) else natOf whole), rest)
    else
      let digits := (fraction.map (·.1)).getD []
      let power := (exponent.map (·.1)).getD 0 - (digits.length : Int)
      .ok (.float (.ofDecimal negative (natOf (whole ++ digits)) power), rest)

/-- The words that stand for a value. -/
def constants : List (List Char × Json) := [
  ("null".toList, .null), ("true".toList, .bool true), ("false".toList, .bool false),
  ("NaN".toList, .float .nan), ("Infinity".toList, .float (.infinity false)),
  ("-Infinity".toList, .float (.infinity true))]

/-- A word or a number. -/
def scalar (cs : List Char) : Except JsonRefusal (Json × List Char) :=
  match constants.findSome? fun w => (after? w.1 cs).map (w.2, ·) with
  | some found => .ok found
  | none => number cs

/-- Lists and objects may stand this deep in each other. -/
def mostDepth : Nat := 900

mutual
/-- A value, its gap skipped, so deep in lists and objects. -/
def value : Nat → Nat → List Char → Except JsonRefusal (Json × List Char)
  | 0, _, _ => .error .malformed
  | fuel + 1, depth, cs =>
    match cs with
    | '"' :: rest => (string rest).map fun r => (.str r.1, r.2)
    | '[' :: rest =>
      if mostDepth ≤ depth then .error .unfit
      else
        match skipGap rest with
        | ']' :: rest => .ok (.arr [], rest)
        | rest => (items fuel (depth + 1) [] rest).map fun r => (.arr r.1, r.2)
    | '\x7b' :: rest =>
      if mostDepth ≤ depth then .error .unfit
      else
        match skipGap rest with
        | '\x7d' :: rest => .ok (.obj [], rest)
        | rest => (fields fuel (depth + 1) [] rest).map fun r => (.obj r.1, r.2)
    | cs => scalar cs

/-- The items of a list up to its closing bracket. -/
def items : Nat → Nat → List Json → List Char → Except JsonRefusal (List Json × List Char)
  | 0, _, _, _ => .error .malformed
  | fuel + 1, depth, done, cs => do
    let (item, rest) ← value fuel depth (skipGap cs)
    match skipGap rest with
    | ',' :: rest => items fuel depth (item :: done) rest
    | ']' :: rest => .ok ((item :: done).reverse, rest)
    | _ => .error .malformed

/-- The fields of an object up to its closing brace. -/
def fields : Nat → Nat → Fields → List Char → Except JsonRefusal (Fields × List Char)
  | 0, _, _, _ => .error .malformed
  | fuel + 1, depth, done, cs =>
    match skipGap cs with
    | '"' :: rest => do
      let (name, rest) ← string rest
      match skipGap rest with
      | ':' :: rest => do
        let (v, rest) ← value fuel depth (skipGap rest)
        match skipGap rest with
        | ',' :: rest => fields fuel depth (done.set name v) rest
        | '\x7d' :: rest => .ok (done.set name v, rest)
        | _ => .error .malformed
      | _ => .error .malformed
    | _ => .error .malformed
end

end JsonReader

/-- The value that a whole text writes. -/
def Json.read (s : String) : Except JsonRefusal Json := do
  let cs := s.toList
  let (v, rest) ← JsonReader.value (cs.length + 1) 0 (JsonReader.skipGap cs)
  if (JsonReader.skipGap rest).isEmpty then .ok v else .error .malformed

end TenantSearch
