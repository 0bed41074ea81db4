-- Responses of the search engine, rows of the definition table and settings changed at
-- run time are taken as they come. A value of another form than expected is a breakage.
import TenantSearch.Failure

namespace TenantSearch

namespace Json

/-- A field of an object, or the default when it is missing. Only objects have fields. -/
def field (v : Json) (name : String) (absent : Json) : Except Breakage Json :=
  match v with
  | .obj fields => .ok ((Fields.get? fields name).getD absent)
  | _ => .error .notAnObject

/-- The parts of a value: of a list its items, of an object its names, of a text its characters. -/
def parts : Json → Except Breakage (List Json)
  | .arr items => .ok items
  | .obj fields => .ok (fields.map fun f => .str f.1)
  | .str s => .ok (s.toList.map fun c => .str (String.singleton c))
  | _ => .error .wrongOperand

/-- The text that a scalar has as the name of a field. Lists and objects name nothing. -/
def nameText? : Json → Option String
  | .null => some "null"
  | .bool b => some (if b then "true" else "false")
  | .int n => some (toString n)
  | .float d => some d.text
  | .str s => some s
  | _ => none

/-- The name and value that an item with two parts is. -/
def pair (item : Json) : Except Breakage (String × Json) := do
  match ← item.parts with
  | [name, value] =>
    match name.nameText? with
    | some name => .ok (name, value)
    | none => .error .wrongOperand
  | _ => .error .badNumber

/-- The fields of a value: an object's own, or those that pairs set one after the other. -/
def toFields : Json → Except Breakage Fields
  | .obj fields => .ok fields
  | v => do
    let items ← v.parts
    let pairs ← items.mapM pair
    .ok (Fields.setAll [] pairs)

/-- The fields of a value. What is not given has none. -/
def asFields (v : Json) : Except Breakage Fields := if v.given then v.toFields else .ok []

/-- The whole part of a value: of a number, a boolean, or a text that writes a whole number. -/
def wholePart : Json → Except Breakage Int
  | .int n => .ok n
  | .bool b => .ok (if b then 1 else 0)
  | .float d =>
    if d.isNaN then .error .badNumber
    else if !d.isFinite then .error .outOfRange
    else .ok d.truncate
  | .str s =>
    match wholeNumber? s with
    | some n => .ok n
    | none => .error .badNumber
  | _ => .error .wrongOperand

end Json

end TenantSearch
