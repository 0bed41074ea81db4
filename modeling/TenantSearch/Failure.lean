-- Everything that can go wrong, by cause. A service failure has a kind, a message and
-- the entity or index it is about; a rejected form lists its errors; a breakage is a
-- fault that nobody expected.
import TenantSearch.Validation.Form

namespace TenantSearch

/-- The kinds of service failures. -/
inductive ErrorKind where
  | validation
  | forbidden
  | dependencyFailure
  | partialBatchFailure
deriving DecidableEq, Repr

namespace ErrorKind

def name : ErrorKind → String
  | .validation => "VALIDATION"
  | .forbidden => "FORBIDDEN"
  | .dependencyFailure => "DEPENDENCY_FAILURE"
  | .partialBatchFailure => "PARTIAL_BATCH_FAILURE"

/-- The response status of a kind. -/
def status : ErrorKind → Nat
  | .validation => 400
  | .forbidden => 403
  | .dependencyFailure => 503
  | .partialBatchFailure => 500

def ofName? (s : String) : Option ErrorKind :=
  [validation, forbidden, dependencyFailure, partialBatchFailure].find? (·.name == s)

end ErrorKind

/-- A failure as it is reported. -/
structure ErrorReport where
  kind : ErrorKind
  message : Json
  entityName : Json := .null
  indexName : Json := .null

namespace ErrorReport

/-- The kind in brackets, then the message. -/
def line (r : ErrorReport) : String := "[" ++ r.kind.name ++ "] " ++ r.message.text

/-- What the failure is about; what is empty is left out. -/
def details (r : ErrorReport) : Fields :=
  (if r.entityName.given then [("entityName", r.entityName)] else []) ++
    (if r.indexName.given then [("indexName", r.indexName)] else [])

/-- The report as an object. -/
def object (r : ErrorReport) : Json :=
  .obj [("code", .str r.kind.name), ("message", r.message), ("details", .obj r.details)]

end ErrorReport

/-- What only the owner of a solution may do. -/
inductive OwnerAction where
  | reindex
  | manageIndices
deriving DecidableEq, Repr

def OwnerAction.phrase : OwnerAction → String
  | .reindex => "reindex"
  | .manageIndices => "manage search indices"

/-- Why a service refuses or cannot finish. -/
inductive Cause where
  | noEntityName
  | noId
  | noSolution
  | badTimestamp (value : Json)
  | noQuery
  | badQuery (first : Flaw)
  | noReadPrivilege
  | ownerOnly (action : OwnerAction)
  | search
  | indexExists
  | indexMapping
  | indexCreation
  | indexDeletion
  | documentIndexing (id : Json)
  | documentDeletion (id : Json)
  | metadataRead
  | recordRead
  | staleScan
  | staleListing
  | recordWrite (id : Json)

namespace Cause

def kind : Cause → ErrorKind
  | .noEntityName | .noId | .noSolution | .badTimestamp _ | .noQuery | .badQuery _ => .validation
  | .noReadPrivilege | .ownerOnly _ => .forbidden
  | _ => .dependencyFailure

def message : Cause → String
  | .noEntityName => "The entityName is not provided."
  | .noId => "The id is not provided."
  | .noSolution => "The solutionId is not provided."
  | .badTimestamp v => "Invalid timestamp: " ++ v.inner
  | .noQuery => "The query is not provided."
  | .badQuery first => "Invalid query: " ++ first.message
  | .noReadPrivilege => "The caller has no read privilege on the requested entity."
  | .ownerOnly action => "Only the solution owner can " ++ action.phrase ++ "."
  | .search => "Search query failed."
  | .indexExists => "Index existence check failed."
  | .indexMapping => "Fetching index mapping failed."
  | .indexCreation => "Index creation failed."
  | .indexDeletion => "Index deletion failed."
  | .documentIndexing id => "Indexing document " ++ id.text ++ " failed."
  | .documentDeletion id => "Deleting document " ++ id.text ++ " failed."
  | .metadataRead => "Reading entity metadata failed."
  | .recordRead => "Reading canonical records failed."
  | .staleScan => "Scanning stale records failed."
  | .staleListing => "Listing stale solutions failed."
  | .recordWrite id => "Writing record " ++ id.text ++ " failed."

end Cause

/-- A service failure: its cause and what it is about. -/
structure ServiceError where
  cause : Cause
  entityName : Json := .null
  indexName : Json := .null

/-- The failure as it is reported. -/
def ServiceError.report (e : ServiceError) : ErrorReport :=
  ⟨e.cause.kind, .str e.cause.message, e.entityName, e.indexName⟩

/-- A fault that nobody turns into a service failure. -/
inductive Breakage where
  | wrongOperand
  | notAnObject
  | missingField
  | badNumber
  | outOfRange
  | unwritableText
  | noCutoff
  | badAddress
  | unsignable
deriving DecidableEq, Repr

/-- How an outside call fails. The database has failures of its own for a value that it cannot
store and for a row that contradicts another; a call that makes no sense is broken. -/
inductive Outage where
  | transport
  | refused
  | notFound
  | poolTimeout
  | operational
  | unstorable
  | conflict
  | crash
  | broken (b : Breakage)
deriving DecidableEq, Repr

namespace Outage

/-- The search engine's own failures, which its client turns into service failures. -/
def ofEngine : Outage → Bool
  | .transport | .refused | .notFound => true
  | _ => false

/-- The database's own failures, which the store turns into service failures. -/
def ofDatabase : Outage → Bool
  | .poolTimeout | .operational | .unstorable | .conflict => true
  | _ => false

end Outage

/-- How an operation fails. -/
inductive Failure where
  | service (e : ServiceError)
  | invalid (errors : List FieldError)
  | unauthorized
  | broken (b : Breakage)
  | outage (o : Outage)

/-- An outage that nobody turns into a service failure. -/
def Outage.failure : Outage → Failure
  | .broken b => .broken b
  | o => .outage o

/-- A service failure without more to say. -/
def Failure.of (cause : Cause) : Failure := .service { cause }

/-- A service failure about an entity. -/
def Failure.ofEntity (cause : Cause) (entityName : Json) : Failure := .service { cause, entityName }

/-- A service failure about an index. -/
def Failure.ofIndex (cause : Cause) (indexName : String) : Failure :=
  .service { cause, indexName := .str indexName }

/-- The value of an accepted form, or its rejection as a failure. -/
def Checked.orInvalid {α : Type} : Checked α → Except Failure α
  | .accepted value => .ok value
  | .rejected errors => .error (.invalid errors)

end TenantSearch
