-- A timestamp is a moment in UTC. It is written in ISO form without a zone; a text with
-- an offset is brought to UTC when it is read.
import TenantSearch.Time.Calendar
import TenantSearch.Text.Digit

namespace TenantSearch

/-- A moment: microseconds from midnight of the first of January of the year 1. -/
structure Timestamp where
  micros : Nat
deriving DecidableEq, Repr, Inhabited

namespace Timestamp

def microsPerDay : Nat := 86400000000

/-- The first moment after the year 9999. -/
def limit : Nat := Calendar.lastDay * microsPerDay

def lt (a b : Timestamp) : Bool := a.micros < b.micros

/-- A number with leading zeros. -/
def padded (width n : Nat) : String :=
  let digits := Nat.toDigits 10 n
  String.ofList (List.replicate (width - digits.length) '0' ++ digits)

/-- The ISO text; microseconds stand only when there are any. -/
def iso (t : Timestamp) : String :=
  let (year, month, day) := Calendar.dateOf (t.micros / microsPerDay + 1)
  let micros := t.micros % microsPerDay
  let seconds := micros / 1000000
  let fraction := micros % 1000000
  padded 4 year ++ "-" ++ padded 2 month ++ "-" ++ padded 2 day ++ "T" ++
    padded 2 (seconds / 3600) ++ ":" ++ padded 2 (seconds / 60 % 60) ++ ":" ++
    padded 2 (seconds % 60) ++ (if fraction = 0 then "" else "." ++ padded 6 fraction)

/-- The ISO text with the mark of UTC. -/
def isoUtc (t : Timestamp) : String := t.iso ++ "Z"

/-- The moment this many microseconds later, unless it leaves the calendar. -/
def shift? (t : Timestamp) (micros : Int) : Option Timestamp :=
  let moved := (t.micros : Int) + micros
  if 0 ≤ moved ∧ moved < limit then some ⟨moved.toNat⟩ else none

/-! ## Reading -/

/-- The value of a run of ASCII digits. -/
def digits? (cs : List Char) : Option Nat :=
  if cs.isEmpty then none
  else cs.foldl (fun n c => n.bind fun n => (asciiDigit? c).map (n * 10 + ·)) (some 0)

/-- The value of the next `width` digits, and the rest. -/
def take? (width : Nat) (cs : List Char) : Option (Nat × List Char) :=
  if cs.length < width then none else (digits? (cs.take width)).map (·, cs.drop width)

/-- The characters after a given one. -/
def expect? (c : Char) : List Char → Option (List Char)
  | [] => none
  | d :: rest => if c = d then some rest else none

/-- A week date after its year: `Www`, perhaps with a day, with or without hyphens. -/
def weekPart? (year : Nat) (hyphens : Bool) (cs : List Char) : Option Nat := do
  let (week, rest) ← take? 2 cs
  if rest.isEmpty then Calendar.weekDate? year week 1
  else do
    let rest ← if hyphens then expect? '-' rest else some rest
    let (day, rest) ← take? 1 rest
    if rest.isEmpty then Calendar.weekDate? year week day else none

/-- The day number of a date in full, hyphenated or compact, by month or by week. -/
def date? (cs : List Char) : Option Nat := do
  let (year, rest) ← take? 4 cs
  let (hyphens, rest) := match rest with
    | '-' :: more => (true, more)
    | more => (false, more)
  match rest with
  | 'W' :: rest => weekPart? year hyphens rest
  | _ => do
    let (month, rest) ← take? 2 rest
    let rest ← if hyphens then expect? '-' rest else some rest
    let (day, rest) ← take? 2 rest
    if rest.isEmpty && Calendar.isDate year month day then some (Calendar.dayNumber year month day)
    else none

/-- A time of day as written, and whether the text ends with it. -/
structure Clock where
  hours : Nat := 0
  minutes : Nat := 0
  seconds : Nat := 0
  micros : Nat := 0
  ends : Bool := true

/-- The length of a clock in microseconds. -/
def Clock.total (c : Clock) : Nat :=
  ((c.hours * 60 + c.minutes) * 60 + c.seconds) * 1000000 + c.micros

def isDigit (c : Char) : Bool := (asciiDigit? c).isSome

/-- The character that ends a text for the reader of a clock, whatever stands behind it. -/
def nul : Char := Char.ofNat 0

/-- The clock with a fraction of a second: six digits count and the others are passed over. -/
def withFraction? (clock : Clock) (cs : List Char) : Option Clock := do
  let kept := cs.take 6
  let micros ← digits? kept
  some { clock with
    micros := micros * Nat.pow 10 (6 - kept.length)
    ends := ((cs.drop 6).dropWhile isDigit).head?.all (· == nul) }

/-- What follows a two-digit part: nothing, the next part, a fraction, or junk. -/
inductive Following where
  | ending (clean : Bool)
  | part (cs : List Char)
  | fraction (cs : List Char)

/-- Parts are parted by colons or by nothing, as the first two are; a point or comma starts the
fraction anywhere. One more ASCII character may stand before a zone, and a NUL also at the end. -/
def following? (colons : Bool) : List Char → Option Following
  | [] => some (.ending true)
  | [c] => if c.toNat < 128 then some (.ending (c == nul)) else none
  | c :: more =>
    if colons && c == ':' then some (.part more)
    else if c == '.' || c == ',' then some (.fraction more)
    else if colons then none
    else some (.part (c :: more))

/-- Hours, minutes, seconds and a fraction, with or without colons; later parts may be left out. -/
def clock? (cs : List Char) : Option Clock := do
  let (hours, rest) ← take? 2 cs
  let colons := rest.head? == some ':'
  match ← following? colons rest with
  | .ending clean => some { hours, ends := clean }
  | .fraction digits => withFraction? { hours } digits
  | .part cs => do
    let (minutes, rest) ← take? 2 cs
    match ← following? colons rest with
    | .ending clean => some { hours, minutes, ends := clean }
    | .fraction digits => withFraction? { hours, minutes } digits
    | .part cs => do
      let (seconds, rest) ← take? 2 cs
      match ← following? colons rest with
      | .ending clean => some { hours, minutes, seconds, ends := clean }
      | .fraction digits | .part digits => withFraction? { hours, minutes, seconds } digits

/-- A time of day that exists. -/
def Clock.isTime (c : Clock) : Bool := c.hours < 24 && c.minutes < 60 && c.seconds < 60

/-- How far a zone is from UTC, less than a day. Less than a second counts as none. -/
def offset? (cs : List Char) : Option Nat := do
  let clock ← clock? cs
  if !clock.ends then none
  else if clock.total < 1000000 then some 0
  else if clock.total < microsPerDay then some clock.total
  else none

/-- A time of day, and how far its zone is ahead of UTC when it names one. -/
def time? (cs : List Char) : Option (Nat × Option Int) := do
  let written := cs.takeWhile fun c => c != '+' && c != '-'
  let clock ← clock? written
  if !clock.isTime then none
  else
    match cs.drop written.length with
    | [] => if clock.ends then some (clock.total, none) else none
    | sign :: zone => do
      let offset ← offset? zone
      some (clock.total, some (if sign == '-' then -(offset : Int) else offset))

/-- How many characters the date part takes. After a hyphenated week a hyphen and one digit are the
day, a hyphen and two are the time. After a compact week the digits that follow are counted: a time
has an even number of them. -/
def dateSize (cs : List Char) : Nat :=
  if cs.length = 7 then 7
  else
    match cs.drop 4 with
    | '-' :: 'W' :: _ =>
      let isTime := ((cs.drop 10).head?.map isDigit).getD false
      if (cs.drop 8).head? == some '-' && !isTime then 10 else 8
    | '-' :: _ => 10
    | 'W' :: _ =>
      let run := ((cs.drop 7).takeWhile isDigit).length + 7
      if run < 9 then run else if run % 2 = 0 then 7 else 8
    | _ => 8

/-- The moment that a text writes, before its offset is applied, and the offset. -/
def readLocal? (s : String) : Option (Timestamp × Option Int) := do
  let cs := s.toList
  if cs.length < 7 then none
  else do
    let size := dateSize cs
    let day ← date? (cs.take size)
    let midnight := (day - 1) * microsPerDay
    match (cs.drop size).drop 1 with
    | [] => if cs.length ≤ size then some (⟨midnight⟩, none) else none
    | clock => do
      let (time, offset) ← time? clock
      some (⟨midnight + time⟩, offset)

end Timestamp

end TenantSearch
