-- A form is an object whose fields are checked one by one. Every field that does not fit
-- is reported, in the order of the fields, each under the path that leads to it and with
-- the value that was given.
import TenantSearch.Json.Value
import TenantSearch.Number.Written

namespace TenantSearch

/-- One step of the path to a value. -/
inductive PathStep where
  | field (name : String)
  | item (index : Nat)
deriving DecidableEq, Repr

/-- What is wrong with a value. -/
inductive Flaw where
  | missing
  | notText
  | unwritableText
  | tooShort
  | notList
  | notObject
  | notForm (form : String)
  | notBody
  | notWhole
  | unreadableWhole
  | oversizedWhole
  | fractional
  | notFinite
  | notBoolean
  | unreadableBoolean
  | unreadableDouble
  | belowLeast (least : Int)
  | aboveMost (most : Int)
  | unknownOperator
  | refused (reason : String)
deriving DecidableEq, Repr

namespace Flaw

/-- The short name of a flaw. -/
def code : Flaw → String
  | .missing => "missing"
  | .notText => "string_type"
  | .unwritableText => "string_unicode"
  | .tooShort => "string_too_short"
  | .notList => "list_type"
  | .notObject => "dict_type"
  | .notForm _ => "model_type"
  | .notBody => "model_attributes_type"
  | .notWhole => "int_type"
  | .unreadableWhole => "int_parsing"
  | .oversizedWhole => "int_parsing_size"
  | .fractional => "int_from_float"
  | .notFinite => "finite_number"
  | .notBoolean => "bool_type"
  | .unreadableBoolean => "bool_parsing"
  | .unreadableDouble => "float_parsing"
  | .belowLeast _ => "greater_than_equal"
  | .aboveMost _ => "less_than_equal"
  | .unknownOperator => "enum"
  | .refused _ => "value_error"

/-- The sentence that a flaw is reported with. -/
def message : Flaw → String
  | .missing => "Field required"
  | .notText => "Input should be a valid string"
  | .unwritableText =>
    "Input should be a valid string, unable to parse raw data as a unicode string"
  | .tooShort => "String should have at least 1 character"
  | .notList => "Input should be a valid list"
  | .notObject => "Input should be a valid dictionary"
  | .notForm form => "Input should be a valid dictionary or instance of " ++ form
  | .notBody => "Input should be a valid dictionary or object to extract fields from"
  | .notWhole => "Input should be a valid integer"
  | .unreadableWhole => "Input should be a valid integer, unable to parse string as an integer"
  | .oversizedWhole => "Unable to parse input string as an integer, exceeded maximum size"
  | .fractional => "Input should be a valid integer, got a number with a fractional part"
  | .notFinite => "Input should be a finite number"
  | .notBoolean => "Input should be a valid boolean"
  | .unreadableBoolean => "Input should be a valid boolean, unable to interpret input"
  | .unreadableDouble => "Input should be a valid number, unable to parse string as a number"
  | .belowLeast least => "Input should be greater than or equal to " ++ toString least
  | .aboveMost most => "Input should be less than or equal to " ++ toString most
  | .unknownOperator =>
    "Input should be '=', '==', '!=', '<>', '<', '<=', '>', '>=', 'IN', 'CONTAINS' or 'SEARCH'"
  | .refused reason => "Value error, " ++ reason

end Flaw

/-- A flaw, where it is, and the value that has it. What is missing is missed in its object. -/
structure FieldError where
  path : List PathStep
  flaw : Flaw
  given : Json
deriving Repr

/-- The outcome of a check: a value, or everything that is wrong. -/
inductive Checked (α : Type) where
  | accepted (value : α)
  | rejected (errors : List FieldError)

namespace Checked

/-- Two checks both run, and their errors stand one after the other. -/
def seq {α β : Type} (f : Checked (α → β)) (x : Checked α) : Checked β :=
  match f, x with
  | .accepted f, .accepted x => .accepted (f x)
  | .accepted _, .rejected es => .rejected es
  | .rejected es, .accepted _ => .rejected es
  | .rejected es, .rejected es' => .rejected (es ++ es')

instance : Applicative Checked where
  pure := .accepted
  seq f x := f.seq (x ())

/-- A check that runs only on an accepted value. -/
def andThen {α β : Type} (x : Checked α) (f : α → Checked β) : Checked β :=
  match x with
  | .accepted x => f x
  | .rejected es => .rejected es

/-- One flaw of a value at this place. -/
def flaw {α : Type} (path : List PathStep) (given : Json) (f : Flaw) : Checked α :=
  .rejected [⟨path, f, given⟩]

/-- All checks of a list. -/
def all {α : Type} : List (Checked α) → Checked (List α)
  | [] => .accepted []
  | x :: rest => (List.cons <$> x).seq (all rest)

def errors {α : Type} : Checked α → List FieldError
  | .accepted _ => []
  | .rejected es => es

end Checked

/-! ## Checks of single values -/

namespace Check

def text (path : List PathStep) : Json → Checked String
  | .str s => .accepted s
  | v => .flaw path v .notText

/-- Text that some encoding can write. -/
def writable (path : List PathStep) (s : String) : Checked String :=
  if hasSurrogate s then .flaw path (.str s) .unwritableText else .accepted s

/-- Text that is not empty. -/
def someText (path : List PathStep) (v : Json) : Checked String :=
  ((text path v).andThen (writable path)).andThen fun s =>
    if s.isEmpty then .flaw path v .tooShort else .accepted s

/-- Text or null. -/
def optionalText (path : List PathStep) : Json → Checked (Option String)
  | .null => .accepted none
  | v => some <$> text path v

/-- A list whose items all pass the check; an item's path ends with its index. -/
def listOf {α : Type} (item : List PathStep → Json → Checked α) (path : List PathStep) :
    Json → Checked (List α)
  | .arr items => .all (items.zipIdx.map fun p => item (path ++ [.item p.2]) p.1)
  | v => .flaw path v .notList

/-- A list of texts. -/
def texts : List PathStep → Json → Checked (List String) := listOf text

/-- Half the number of the machine's whole numbers. -/
def wordLimit : Int := 9223372036854775808

/-- Whether a whole double is strictly within the machine's whole numbers. -/
def fitsWord (n : Int) : Bool := -wordLimit < n && n < wordLimit

/-- A whole number: a number without a fraction, a boolean, or a text that writes one. -/
def whole (path : List PathStep) (v : Json) : Checked Int :=
  match v with
  | .int n => .accepted n
  | .bool b => .accepted (if b then 1 else 0)
  | .float d =>
    if !d.isFinite then .flaw path v .notFinite
    else if !d.isWhole then .flaw path v .fractional
    else if fitsWord d.truncate then .accepted d.truncate
    else .flaw path v .oversizedWhole
  | .str s =>
    (writable path s).andThen fun s =>
      match formNumber s with
      | .number n => .accepted n
      | .tooLong => .flaw path v .oversizedWhole
      | .unreadable => .flaw path v .unreadableWhole
  | _ => .flaw path v .notWhole

/-- The words for no and for yes. -/
def noWords : List String := ["0", "off", "f", "false", "n", "no"]
def yesWords : List String := ["1", "on", "t", "true", "y", "yes"]

/-- Nought or one as a boolean. -/
def booleanOf (path : List PathStep) (v : Json) (n : Int) : Checked Bool :=
  if n = 0 then .accepted false else if n = 1 then .accepted true
  else .flaw path v .unreadableBoolean

/-- A boolean: itself, nought or one, or one of the words in any ASCII case. -/
def boolean (path : List PathStep) (v : Json) : Checked Bool :=
  match v with
  | .bool b => .accepted b
  | .int n =>
    if -wordLimit ≤ n ∧ n < wordLimit then booleanOf path v n else .flaw path v .notBoolean
  | .float d =>
    if d.isWhole && fitsWord d.truncate then booleanOf path v d.truncate
    else .flaw path v .notBoolean
  | .str s =>
    (writable path s).andThen fun s =>
      let word := String.ofList (s.toList.map Char.toLower)
      if noWords.contains word then .accepted false
      else if yesWords.contains word then .accepted true
      else .flaw path v .unreadableBoolean
  | _ => .flaw path v .notBoolean

/-- A whole number in a range. -/
def wholeBetween (least most : Int) (path : List PathStep) (v : Json) : Checked Int :=
  (whole path v).andThen fun n =>
    if n < least then .flaw path v (.belowLeast least)
    else if most < n then .flaw path v (.aboveMost most)
    else .accepted n

end Check

/-! ## Fields under two spellings -/

/-- A field of a form: its usual spelling and the one with underscores. -/
structure FieldName where
  usual : String
  plain : String

/-- The field as given: the spelling used and its value, if it is there. The usual spelling goes
first. -/
def FieldName.find? (name : FieldName) (fields : Fields) : Option (String × Json) :=
  match fields.get? name.usual with
  | some v => some (name.usual, v)
  | none => (fields.get? name.plain).map (name.plain, ·)

/-- A field checked where it is given; a missing one has its default or is an error. -/
def FieldName.check {α : Type} (name : FieldName) (under : List PathStep) (fields : Fields)
    (absent : Option α) (check : List PathStep → Json → Checked α) : Checked α :=
  match name.find? fields with
  | some (spelling, v) => check (under ++ [.field spelling]) v
  | none =>
    match absent with
    | some value => .accepted value
    | none => .flaw (under ++ [.field name.usual]) (.obj fields) .missing

/-- A field with one spelling. -/
def FieldName.only (name : String) : FieldName := ⟨name, name⟩

end TenantSearch
