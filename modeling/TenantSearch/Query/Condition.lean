-- One condition of a query: an attribute, an operator and a value. Only a text search
-- does without an attribute.
import TenantSearch.Text.Case
import TenantSearch.Validation.Form

namespace TenantSearch

inductive Operator where
  | equals
  | doubleEquals
  | notEquals
  | unequal
  | less
  | lessOrEqual
  | greater
  | greaterOrEqual
  | isIn
  | contains
  | search
deriving DecidableEq, Repr

namespace Operator

def sign : Operator → String
  | .equals => "="
  | .doubleEquals => "=="
  | .notEquals => "!="
  | .unequal => "<>"
  | .less => "<"
  | .lessOrEqual => "<="
  | .greater => ">"
  | .greaterOrEqual => ">="
  | .isIn => "IN"
  | .contains => "CONTAINS"
  | .search => "SEARCH"

def all : List Operator :=
  [equals, doubleEquals, notEquals, unequal, less, lessOrEqual, greater, greaterOrEqual, isIn,
    contains, search]

/-- The operator of a sign, in any case and with blanks around it. -/
def read? (s : String) : Option Operator := all.find? (·.sign == upper (trim s))

def check (path : List PathStep) : Json → Checked Operator
  | .str s =>
    match read? s with
    | some op => .accepted op
    | none => .flaw path (.str s) .unknownOperator
  | v => .flaw path v .unknownOperator

end Operator

structure Condition where
  field : Option String
  op : Operator
  value : Json

namespace Condition

/-- Whether an attribute is named, blanks aside. -/
def namesField (c : Condition) : Bool :=
  match c.field with
  | some name => !isBlankText name
  | none => false

/-- The attribute without blanks around it, when it is named. -/
def fieldName (c : Condition) : String :=
  match c.field with
  | some name => trim name
  | none => ""

/-- Why a condition without an attribute is refused. -/
def needsField (op : Operator) : String :=
  "Condition with operator " ++ op.sign ++ " requires an attribute"

/-- The condition that an object describes. -/
def check (path : List PathStep) : Json → Checked Condition
  | .obj fields =>
    let condition := Condition.mk <$>
        (FieldName.only "attribute").check path fields (some none) Check.optionalText
      <*> (FieldName.only "op").check path fields (some .equals) Operator.check
      <*> pure (Fields.look fields "value")
    condition.andThen fun c =>
      if c.op = .search || c.namesField then .accepted c
      else .flaw path (.obj fields) (.refused (needsField c.op))
  | v => .flaw path v (.notForm "Condition")

/-- The condition as an object. -/
def object (c : Condition) : Json :=
  .obj [("attribute", .ofText? c.field), ("op", .str c.op.sign), ("value", c.value)]

end Condition

end TenantSearch
