-- Two readings of a text as a number. The wide one takes the decimal digits of any
-- script, with single underscores between them. The narrow one, for fields of a form,
-- reads plain ASCII digits; what those do not write is cleaned first, of blanks, a plus,
-- leading noughts, a fraction of noughts and underscores.
import TenantSearch.Number.Double
import TenantSearch.Text.Blank
import TenantSearch.Text.Digit

namespace TenantSearch

namespace Written

/-- The values of digits with single underscores between them, or none for anything else. -/
def digitRun (digit? : Char → Option Nat) : List Char → Option (List Nat)
  | [] => none
  | [c] => (digit? c).map ([·])
  | c :: '_' :: rest =>
    match digit? c, digitRun digit? rest with
    | some d, some ds => some (d :: ds)
    | _, _ => none
  | c :: rest =>
    match digit? c, digitRun digit? rest with
    | some d, some ds => some (d :: ds)
    | _, _ => none

def valueOf (digits : List Nat) : Nat := digits.foldl (fun n d => n * 10 + d) 0

/-- The sign and what follows it. -/
def splitSign : List Char → Bool × List Char
  | '-' :: rest => (true, rest)
  | '+' :: rest => (false, rest)
  | rest => (false, rest)

def signed (negative : Bool) (n : Nat) : Int := if negative then -(n : Int) else n

/-- More digits than this are refused. -/
def mostDigits : Nat := 4300

/-- The number that digits write, unless they are too many. -/
def numberOf? (negative : Bool) (digits : List Nat) : Option Int :=
  if digits.length ≤ mostDigits then some (signed negative (valueOf digits)) else none

end Written

open Written

/-- A whole number in the decimal digits of any script. -/
def wholeNumber? (s : String) : Option Int :=
  let (negative, rest) := splitSign (trimEnds isSpace s.toList)
  (digitRun digitValue? rest).bind (numberOf? negative)

/-! ## Whole numbers in a form -/

/-- What a text is as a whole number. -/
inductive WholeReading where
  | number (n : Int)
  | tooLong
  | unreadable
deriving DecidableEq, Repr

namespace Written

def isAsciiDigit (c : Char) : Bool := (asciiDigit? c).isSome

/-- The digits in front of a text; a nought stands alone. -/
def plainDigits (cs : List Char) : List Char :=
  match cs with
  | '0' :: _ => ['0']
  | cs => cs.takeWhile isAsciiDigit

/-- Plain digits, perhaps after a minus. Their length is looked at before what follows them. -/
def readPlain (cs : List Char) : WholeReading :=
  let (negative, rest) := match cs with
    | '-' :: rest => (true, rest)
    | rest => (false, rest)
  let digits := plainDigits rest
  if digits.isEmpty then .unreadable
  else if mostDigits < digits.length + (if negative then 1 else 0) then .tooLong
  else if digits.length < rest.length then .unreadable
  else .number (signed negative (valueOf (digits.filterMap asciiDigit?)))

/-- A digit that is no nought, or a minus: what a number goes on from. -/
def isStart (c : Char) : Bool := ('1' ≤ c && c ≤ '9') || c == '-'

/-- The rest of a number after leading noughts and underscores, with the last of them where a
fraction or nothing follows. -/
def afterNoughts? (last : Char) : List Char → Option (List Char)
  | [] => some [last]
  | c :: rest =>
    if c == '0' || c == '_' then afterNoughts? c rest
    else if isStart c then some (c :: rest)
    else if c == '.' then some (last :: c :: rest)
    else none

/-- A number without leading noughts. It starts with a digit or a minus. -/
def withoutNoughts? : List Char → Option (List Char)
  | [] => none
  | c :: rest =>
    if c == '0' then afterNoughts? c rest else if isStart c then some (c :: rest) else none

/-- A number without a leading plus; a minus may not follow it. -/
def withoutPlus? : List Char → Option (List Char)
  | '+' :: '-' :: _ => none
  | '+' :: rest => some rest
  | cs => some cs

/-- A number without a fraction of noughts. -/
def withoutFraction (cs : List Char) : List Char :=
  let fraction := (cs.dropWhile (· != '.')).drop 1
  if !fraction.isEmpty && fraction.all (· == '0') then cs.takeWhile (· != '.') else cs

/-- Whether every underscore stands between two other characters; `between` says that one may
stand here. -/
def underscoresFit (between : Bool) : List Char → Bool
  | [] => between
  | c :: rest => if c == '_' then between && underscoresFit false rest else underscoresFit true rest

/-- A text without its underscores, when they fit. -/
def withoutUnderscores? (cs : List Char) : Option (List Char) :=
  if cs.contains '_' && underscoresFit false cs then some (cs.filter (· != '_')) else none

/-- A number cleaned of everything that a form lets stand around its digits. -/
def cleaned? (cs : List Char) : Option (List Char) := do
  let cs ← withoutPlus? (trimEnds isSpace cs)
  let cs := withoutFraction (← withoutNoughts? cs)
  some ((withoutUnderscores? cs).getD cs)

end Written

/-- The whole number that a text writes in a form, as it stands or cleaned. -/
def formNumber (s : String) : WholeReading :=
  match readPlain s.toList with
  | .unreadable => ((cleaned? s.toList).map readPlain).getD .unreadable
  | reading => reading

/-! ## Doubles in a form -/

namespace Written

/-- The values of ASCII digits, of which there may be none. -/
def digitValues? (cs : List Char) : Option (List Nat) := cs.mapM asciiDigit?

/-- The exponent after an `e`; nothing at all counts as zero. -/
def exponent? : List Char → Option Int
  | [] => some 0
  | mark :: rest =>
    let (negative, digits) := splitSign rest
    if (mark == 'e' || mark == 'E') && !digits.isEmpty then
      (digitValues? digits).map fun ds => signed negative (valueOf ds)
    else none

/-- Digits, perhaps a point and more digits, perhaps an exponent. -/
def unsignedDouble? (negative : Bool) (cs : List Char) : Option Double :=
  let isMark := fun c : Char => c == 'e' || c == 'E'
  let body := cs.takeWhile (!isMark ·)
  let whole := body.takeWhile (· != '.')
  let fraction := (body.dropWhile (· != '.')).drop 1
  match digitValues? whole, digitValues? fraction, exponent? (cs.dropWhile (!isMark ·)) with
  | some ws, some fs, some e =>
    if ws.isEmpty && fs.isEmpty then none
    else some (.ofDecimal negative (valueOf (ws ++ fs)) (e - (fs.length : Int)))
  | _, _, _ => none

/-- Digits with a point and an exponent, or the words for an infinity or for no number. -/
def plainDouble? (cs : List Char) : Option Double :=
  let (negative, rest) := splitSign cs
  let word := String.ofList (rest.map Char.toLower)
  if word = "inf" ∨ word = "infinity" then some (.infinity negative)
  else if word = "nan" then some .nan
  else unsignedDouble? negative rest

end Written

/-- The double that a text writes in a form: trimmed, or else without its underscores. -/
def formDouble? (s : String) : Option Double :=
  match plainDouble? (trimEnds isSpace s.toList) with
  | some d => some d
  | none => (withoutUnderscores? s.toList).bind plainDouble?

end TenantSearch
