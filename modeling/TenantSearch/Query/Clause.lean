-- A filter of a compiled query is a list of clauses, all of which a document must
-- satisfy. Each condition becomes one clause. Values are passed as they are and never
-- spliced into a query text; only the pattern of a wildcard is built, with its special
-- characters escaped.
import TenantSearch.Index.Descriptor
import TenantSearch.Query.Condition

namespace TenantSearch

/-- The open end of a range. -/
inductive Bound where
  | lt
  | lte
  | gt
  | gte
deriving DecidableEq, Repr

def Bound.name : Bound → String
  | .lt => "lt"
  | .lte => "lte"
  | .gt => "gt"
  | .gte => "gte"

inductive Clause where
  | term (field : String) (value : Json)
  | terms (field : String) (values : List Json)
  | has (field : String)
  | range (field : String) (bound : Bound) (value : Json)
  | wildcard (field : String) (pattern : String)
  | textMatch (field : String) (text : String)
  | noneOf (clauses : List Clause)
  | anyOf (clauses : List Clause)
  | atLeastOneOf (clauses : List Clause)

namespace Clause

mutual
/-- The clause as the engine reads it. -/
def fields : Clause → Fields
  | .term field value => [("term", .obj [(field, value)])]
  | .terms field values => [("terms", .obj [(field, .arr values)])]
  | .has field => [("exists", .obj [("field", .str field)])]
  | .range field bound value => [("range", .obj [(field, .obj [(bound.name, value)])])]
  | .wildcard field pattern =>
    [("wildcard", .obj [(field, .obj [("value", .str pattern), ("case_insensitive", .bool true)])])]
  | .textMatch field text => [("match", .obj [(field, .str text)])]
  | .noneOf clauses => [("bool", .obj [("must_not", .arr (objects clauses))])]
  | .anyOf clauses => [("bool", .obj [("should", .arr (objects clauses))])]
  | .atLeastOneOf clauses =>
    [("bool", .obj [("should", .arr (objects clauses)), ("minimum_should_match", .int 1)])]

def objects : List Clause → List Json
  | [] => []
  | clause :: rest => .obj clause.fields :: objects rest
end

/-- The characters that a wildcard pattern gives a meaning. -/
def isPatternMark (c : Char) : Bool := c == '\\' || c == '*' || c == '?'

/-- A text as a pattern that matches just itself. -/
def literalPattern (cs : List Char) : List Char :=
  cs.flatMap fun c => if isPatternMark c then ['\\', c] else [c]

/-- The pattern that matches every text with this one inside. -/
def containing (text : String) : String :=
  String.ofList ('*' :: literalPattern text.toList ++ ['*'])

/-- The text of a condition's value; null is the empty text. -/
def valueText : Json → String
  | .null => ""
  | v => v.text

/-- Equality; equal to null means that the field is absent. -/
def equalTo (field : String) : Json → Clause
  | .null => .noneOf [.has field]
  | v => .term field v

/-- Inequality; unequal to null means that the field is there. -/
def unequalTo (field : String) : Json → Clause
  | .null => .has field
  | v => .noneOf [.term field v]

/-- Membership; a value that is no list counts as a list of one. -/
def memberOf (field : String) : Json → Clause
  | .arr values => .terms field values
  | v => .terms field [v]

/-- A text search in the merged text fields. -/
def textSearch (v : Json) : Clause :=
  .atLeastOneOf (searchTextFields.map fun field => .textMatch field (valueText v))

/-- The clause of a condition. -/
def ofCondition (c : Condition) : Clause :=
  match c.op with
  | .equals | .doubleEquals => equalTo c.fieldName c.value
  | .notEquals | .unequal => unequalTo c.fieldName c.value
  | .less => .range c.fieldName .lt c.value
  | .lessOrEqual => .range c.fieldName .lte c.value
  | .greater => .range c.fieldName .gt c.value
  | .greaterOrEqual => .range c.fieldName .gte c.value
  | .isIn => memberOf c.fieldName c.value
  | .contains => .wildcard c.fieldName (containing (valueText c.value))
  | .search => textSearch c.value

end Clause

end TenantSearch
