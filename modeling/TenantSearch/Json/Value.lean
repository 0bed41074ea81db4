-- A document field holds any JSON value. Whole numbers and doubles stay apart, and an
-- object keeps the order of its fields.
import TenantSearch.Number.Dyadic
import TenantSearch.Number.Shortest
import TenantSearch.Text.Quoted

namespace TenantSearch

inductive Json where
  | null
  | bool (value : Bool)
  | int (value : Int)
  | float (value : Double)
  | str (value : String)
  | arr (items : List Json)
  | obj (fields : List (String × Json))
deriving Repr, Inhabited

/-- The fields of an object, in order; a name stands once. -/
abbrev Fields := List (String × Json)

namespace Fields

/-- The value of a field. -/
def get? (fields : Fields) (name : String) : Option Json :=
  (List.find? (fun field => field.1 == name) fields).map (·.2)

/-- The value of a field, null when there is none. -/
def look (fields : Fields) (name : String) : Json := (fields.get? name).getD .null

def has (fields : Fields) (name : String) : Bool := (fields.get? name).isSome

/-- The fields with this one set: in its place when it is there, at the end when it is not. -/
def set (fields : Fields) (name : String) (value : Json) : Fields :=
  if fields.has name then
    List.map (fun field => if field.1 == name then (name, value) else field) fields
  else List.append fields [(name, value)]

/-- The fields with this one set unless it is there. -/
def setDefault (fields : Fields) (name : String) (value : Json) : Fields :=
  if fields.has name then fields else fields.set name value

/-- The fields with all of these set, one after the other. -/
def setAll (fields more : Fields) : Fields :=
  List.foldl (fun fields field => Fields.set fields field.1 field.2) fields more

/-- The fields whose names are not among these. -/
def without (fields : Fields) (names : List String) : Fields :=
  List.filter (fun field => !names.contains field.1) fields

/-- The fields whose names are among these. -/
def only (fields : Fields) (names : List String) : Fields :=
  List.filter (fun field => names.contains field.1) fields

end Fields

namespace Json

/-- What counts as given: null, false, zero and everything empty do not. -/
def given : Json → Bool
  | .null => false
  | .bool b => b
  | .int n => n != 0
  | .float d => !d.isZero
  | .str s => !s.isEmpty
  | .arr items => !items.isEmpty
  | .obj fields => !fields.isEmpty

def isNull : Json → Bool
  | .null => true
  | _ => false

/-- The value itself when it is given, null otherwise. -/
def orNull (v : Json) : Json := if v.given then v else .null

def text? : Json → Option String
  | .str s => some s
  | _ => none

def fields? : Json → Option Fields
  | .obj fields => some fields
  | _ => none

def items? : Json → Option (List Json)
  | .arr items => some items
  | _ => none

def ofText? : Option String → Json
  | some s => .str s
  | none => .null

def texts (names : List String) : Json := .arr (names.map .str)

mutual
/-- The text of a value inside a list or object: strings in quotes. -/
def inner : Json → String
  | .null => "None"
  | .bool b => if b then "True" else "False"
  | .int n => toString n
  | .float d => d.text
  | .str s => quoted s
  | .arr items => "[" ++ ", ".intercalate (innerItems items) ++ "]"
  | .obj fields => "\x7b" ++ ", ".intercalate (innerFields fields) ++ "\x7d"

def innerItems : List Json → List String
  | [] => []
  | item :: rest => item.inner :: innerItems rest

def innerFields : List (String × Json) → List String
  | [] => []
  | (name, value) :: rest => (quoted name ++ ": " ++ value.inner) :: innerFields rest
end

/-- The text of a value: a string as it is, anything else as it stands inside a list. -/
def text : Json → String
  | .str s => s
  | v => v.inner

/-! ## What a text can write -/

mutual
/-- Whether a JSON text can write a value: no number is infinite or none at all, and no text holds a
lone surrogate. -/
def isWritable : Json → Bool
  | .float d => d.isFinite
  | .str s => !hasSurrogate s
  | .arr items => areWritable items
  | .obj fields => haveWritable fields
  | .null => true
  | .bool _ => true
  | .int _ => true

def areWritable : List Json → Bool
  | [] => true
  | item :: rest => item.isWritable && areWritable rest

def haveWritable : List (String × Json) → Bool
  | [] => true
  | (name, value) :: rest => !hasSurrogate name && value.isWritable && haveWritable rest
end

mutual
/-- The value with null in place of every number that is not finite. -/
def finite : Json → Json
  | .float d => if d.isFinite then .float d else .null
  | .arr items => .arr (finiteItems items)
  | .obj fields => .obj (finiteFields fields)
  | .null => .null
  | .bool b => .bool b
  | .int n => .int n
  | .str s => .str s

def finiteItems : List Json → List Json
  | [] => []
  | item :: rest => item.finite :: finiteItems rest

def finiteFields : List (String × Json) → List (String × Json)
  | [] => []
  | (name, value) :: rest => (name, value.finite) :: finiteFields rest
end

/-! ## Equality of scalars -/

/-- What a scalar is looked up by. Numbers are looked up by value, whatever their kind, and
booleans as one and nought. -/
inductive Key where
  | null
  | whole (n : Int)
  | fraction (d : Double)
  | text (s : String)
deriving DecidableEq, Repr

/-- The key of a scalar; lists and objects have none. -/
def key? : Json → Option Key
  | .null => some .null
  | .bool b => some (.whole (if b then 1 else 0))
  | .int n => some (.whole n)
  | .float d => some (if d.isWhole then .whole d.truncate else .fraction d)
  | .str s => some (.text s)
  | .arr _ => none
  | .obj _ => none

/-! ## Values that are alike -/

/-- What a value is compared by: a scalar by its key, a list by its items, an object by its fields
in the order of their names. -/
inductive Likeness where
  | scalar (key : Option Key)
  | noItems
  | item (value rest : Likeness)
  | noFields
  | field (name : String) (value rest : Likeness)
deriving DecidableEq

/-- Fields in the order of their names with one more. -/
def Likeness.withField (name : String) (value : Likeness) : Likeness → Likeness
  | .field other v rest =>
    if other < name then .field other v (withField name value rest)
    else .field name value (.field other v rest)
  | rest => .field name value rest

mutual
def likeness : Json → Likeness
  | .arr items => likenessOfItems items
  | .obj fields => likenessOfFields fields
  | v => .scalar v.key?

def likenessOfItems : List Json → Likeness
  | [] => .noItems
  | item :: rest => .item item.likeness (likenessOfItems rest)

def likenessOfFields : List (String × Json) → Likeness
  | [] => .noFields
  | (name, value) :: rest => Likeness.withField name value.likeness (likenessOfFields rest)
end

/-- Equal but for the kinds of numbers and the order of fields: one, `true` and `1.0` are alike. -/
def Alike (v w : Json) : Prop := v.likeness = w.likeness

instance (v w : Json) : Decidable (v.Alike w) :=
  inferInstanceAs (Decidable (v.likeness = w.likeness))

/-- Whether this is the double that is no number. -/
def isNaN : Json → Bool
  | .float d => d.isNaN
  | _ => false

/-- The value of a number or boolean. -/
def number? : Json → Option Dyadic
  | .bool b => some (.ofInt (if b then 1 else 0))
  | .int n => some (.ofInt n)
  | .float d => some (.ofDouble d)
  | _ => none

end Json

end TenantSearch
