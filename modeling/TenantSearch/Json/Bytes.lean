-- The bytes of a JSON text tell how it is encoded: its first two characters are ASCII,
-- so the zero bytes among the first four show how wide a unit is and which of its bytes
-- goes first. A mark in front of an eight-bit text is passed over. Lone surrogates are
-- let through.
import TenantSearch.Json.Reader

namespace TenantSearch

namespace JsonBytes

/-- How a text is encoded: in units of one byte, two or four, the high byte first or last. -/
inductive Encoding where
  | eight
  | sixteen (highFirst : Bool)
  | thirtyTwo (highFirst : Bool)
deriving DecidableEq, Repr

/-- The encoding that the first bytes show. -/
def detect : List UInt8 → Encoding
  | a :: b :: c :: d :: _ =>
    if a = 0 then (if b = 0 then .thirtyTwo true else .sixteen true)
    else if b = 0 then (if c = 0 ∧ d = 0 then .thirtyTwo false else .sixteen false)
    else .eight
  | [a, b] => if a = 0 then .sixteen true else if b = 0 then .sixteen false else .eight
  | _ => .eight

/-- The sixteen-bit units of bytes, unless one byte is left over. -/
def units? (highFirst : Bool) : List UInt8 → Option (List Nat)
  | [] => some []
  | a :: b :: rest =>
    let unit := if highFirst then a.toNat * 256 + b.toNat else b.toNat * 256 + a.toNat
    (units? highFirst rest).map (unit :: ·)
  | [_] => none

/-- The characters of sixteen-bit units; two surrogates in a row are one character. -/
def ofUnits : List Nat → List Char
  | [] => []
  | high :: low :: rest =>
    if isHighSurrogate high && isLowSurrogate low then
      Char.ofNat (joinSurrogates high low) :: ofUnits rest
    else charOfUnit high :: ofUnits (low :: rest)
  | [unit] => [charOfUnit unit]

/-- The characters of code points, two units each, unless one of them is too large. -/
def ofPairs? (highFirst : Bool) : List Nat → Option (List Char)
  | [] => some []
  | a :: b :: rest =>
    let code := if highFirst then a * 65536 + b else b * 65536 + a
    if code < 0x110000 then (ofPairs? highFirst rest).map (charOfUnit code :: ·) else none
  | [_] => none

/-- The mark that may stand in front of a text. -/
def mark : Char := Char.ofNat 0xFEFF

/-- The text of bytes, unless its encoding does not fit them. -/
def decode? (bytes : ByteArray) : Option String :=
  match detect bytes.toList with
  | .eight =>
    (String.fromUTF8? bytes).map fun s =>
      match s.toList with
      | c :: rest => if c = mark then String.ofList rest else s
      | [] => s
  | .sixteen highFirst => (units? highFirst bytes.toList).map fun us => String.ofList (ofUnits us)
  | .thirtyTwo highFirst =>
    ((units? highFirst bytes.toList).bind (ofPairs? highFirst)).map String.ofList

end JsonBytes

/-- The value that bytes write. Bytes that are no text at all are refused as unfit. -/
def Json.ofBytes (bytes : ByteArray) : Except JsonRefusal Json :=
  match JsonBytes.decode? bytes with
  | some s => Json.read s
  | none => .error .unfit

end TenantSearch
