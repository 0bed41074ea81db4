-- JSON on one line, with sorted field names and ASCII escapes, so that equal values have
-- equal texts.
import TenantSearch.Json.Value

namespace TenantSearch

namespace JsonWriter

/-- A `\u` escape of one sixteen-bit unit. -/
def unitEscape (unit : Nat) : List Char := '\\' :: 'u' :: hexPadded 4 unit

/-- One character of a string. -/
def charText (c : Char) : List Char :=
  if c = '"' then ['\\', '"']
  else if c = '\\' then ['\\', '\\']
  else if c = '\n' then ['\\', 'n']
  else if c = '\r' then ['\\', 'r']
  else if c = '\t' then ['\\', 't']
  else if c = '\x08' then ['\\', 'b']
  else if c = '\x0c' then ['\\', 'f']
  else if 32 ≤ c.toNat ∧ c.toNat < 127 then [c]
  else if let some unit := surrogate? c then unitEscape unit
  else if c.toNat < 0x10000 then unitEscape c.toNat
  else unitEscape (0xD800 + (c.toNat - 0x10000) / 0x400) ++ unitEscape (0xDC00 + c.toNat % 0x400)

def stringText (s : String) : String := String.ofList ('"' :: s.toList.flatMap charText ++ ['"'])

/-- The text of a number that is not whole; the three that no digits write have words. -/
def doubleText (d : Double) : String :=
  if d.isNaN then "NaN"
  else if !d.isFinite then (if d.negative then "-Infinity" else "Infinity")
  else d.text

mutual
def write : Json → String
  | .null => "null"
  | .bool b => if b then "true" else "false"
  | .int n => toString n
  | .float d => doubleText d
  | .str s => stringText s
  | .arr items => "[" ++ ", ".intercalate (writeItems items) ++ "]"
  | .obj fields =>
    let written := (writeFields fields).mergeSort fun a b => !(b.1 < a.1)
    "\x7b" ++ ", ".intercalate (written.map fun f => stringText f.1 ++ ": " ++ f.2) ++ "\x7d"

def writeItems : List Json → List String
  | [] => []
  | item :: rest => write item :: writeItems rest

def writeFields : List (String × Json) → List (String × String)
  | [] => []
  | (name, value) :: rest => (name, write value) :: writeFields rest
end

end JsonWriter

/-- The text of a value on one line. -/
def Json.write (v : Json) : String := JsonWriter.write v

end TenantSearch
