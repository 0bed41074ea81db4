-- Under whose name a query runs: the solution, the organization, the user and the rights
-- that the user holds. A caller without an organization or a user gets a fresh
-- identifier in its place, so that it matches nobody's documents.
import TenantSearch.Access.Guid
import TenantSearch.Text.Case
import TenantSearch.Validation.Form

namespace TenantSearch

/-- The caller of an operation. Privileges name an entity, an entity with a subtype, or `*`. -/
structure CallerContext where
  solutionId : String
  solutionOwnerId : Option String
  organizationId : String
  userId : String
  privileges : List (String × List String)
deriving DecidableEq, Repr

namespace CallerContext

/-- The caller owns the solution; identifiers are compared without case. -/
def isSolutionOwner (c : CallerContext) : Bool :=
  match c.solutionOwnerId with
  | some owner => !owner.isEmpty && lower owner == lower c.userId
  | none => false

/-! ## Checking a caller -/

def solutionIdName : FieldName := ⟨"solutionId", "solution_id"⟩
def solutionOwnerIdName : FieldName := ⟨"solutionOwnerId", "solution_owner_id"⟩
def organizationIdName : FieldName := ⟨"organizationId", "organization_id"⟩
def userIdName : FieldName := ⟨"userId", "user_id"⟩
def privilegesName : FieldName := ⟨"privileges", "privileges"⟩

/-- An identifier that stands for none: null or blank text. -/
def isBlankId : Json → Bool
  | .null => true
  | .str s => isBlankText s
  | _ => false

/-- An identifier where it is given, or a fresh one when it is blank or missing. -/
def checkId (name : FieldName) (fields : Fields) (g : GuidSupply) : Checked String × GuidSupply :=
  match name.find? fields with
  | none => (.accepted g.draw.1, g.draw.2)
  | some (spelling, v) =>
    let (v, g) := g.drawIf (isBlankId v) v
    (Check.text [.field spelling] v, g)

/-- Privileges: an object of lists of rights. -/
def checkPrivileges (path : List PathStep) : Json → Checked (List (String × List String))
  | .obj entries =>
    .all (entries.map fun e => (e.1, ·) <$> Check.texts (path ++ [.field e.1]) e.2)
  | v => .flaw path v .notObject

/-- The caller that an object describes. The organization is drawn before the user. -/
def check (v : Json) (g : GuidSupply) : Checked CallerContext × GuidSupply :=
  match v with
  | .obj fields =>
    let (organization, g) := checkId organizationIdName fields g
    let (user, g) := checkId userIdName fields g
    (CallerContext.mk <$> solutionIdName.check [] fields none Check.someText
      <*> solutionOwnerIdName.check [] fields (some none) Check.optionalText
      <*> organization
      <*> user
      <*> privilegesName.check [] fields (some []) checkPrivileges, g)
  | _ => (.flaw [] v (.notForm "CallerContext"), g)

end CallerContext

end TenantSearch
