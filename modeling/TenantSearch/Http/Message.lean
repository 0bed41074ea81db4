-- The messages of the gateway's interface over the web: where a request goes, what it
-- carries, and how every outcome is answered.
import TenantSearch.Access.Token
import TenantSearch.Http.Path
import TenantSearch.Json.Bytes

namespace TenantSearch

namespace Http

/-- What a request carries. -/
inductive Body where
  | absent
  | refused (r : JsonRefusal)
  | value (v : Json)

/-- The body that bytes are. -/
def Body.read (bytes : ByteArray) : Body :=
  if bytes.isEmpty then .absent
  else
    match Json.ofBytes bytes with
    | .ok v => .value v
    | .error r => .refused r

structure Request where
  method : String
  path : String
  token : Token
  body : Body

/-- A response; headers are those that matter to the outcome. -/
structure Response where
  status : Nat
  body : Json
  headers : List (String × String) := []

/-! ## Routes -/

/-- The work that only known callers may ask for. -/
inductive Errand where
  | query
  | reindex
  | ensure
deriving DecidableEq, Repr

inductive Route where
  | root
  | health
  | errand (e : Errand)
deriving DecidableEq, Repr

namespace Route

def path : Route → String
  | .root => "/"
  | .health => "/api/search/health"
  | .errand .query => "/api/search/query"
  | .errand .reindex => "/api/search/reindex"
  | .errand .ensure => "/api/search/indices/ensure"

def method : Route → String
  | .errand _ => "POST"
  | _ => "GET"

def all : List Route := [root, health, errand .query, errand .reindex, errand .ensure]

/-- Whether a path leads to a route; a line end after it does not matter. -/
def isAt (path : String) (r : Route) : Bool := path == r.path || path == r.path ++ "\n"

def find? (path : String) : Option Route := all.find? (isAt path)

/-- The path with the slashes at its end taken away, or with one put there. -/
def otherSlash (path : String) : String :=
  let reversed := path.toList.reverse
  if reversed.head? == some '/' then
    String.ofList ((reversed.dropWhile (· == '/')).reverse)
  else path ++ "/"

/-- Whether there is a route at a path but for the slashes at its end. -/
def isNear (path : String) : Bool := path != "/" && (find? (otherSlash path)).isSome

end Route

/-! ## Responses -/

namespace Response

def detail (status : Nat) (text : String) (headers : List (String × String)) : Response :=
  ⟨status, .obj [("detail", .str text)], headers⟩

def notFound : Response := detail 404 "Not Found" []

/-- The answer at a path that is a route but for its slashes. -/
def elsewhere : Response := ⟨307, .null, []⟩

def wrongMethod (r : Route) : Response := detail 405 "Method Not Allowed" [("allow", r.method)]

def unauthorized : Response :=
  detail 401 "Could not validate credentials" [("www-authenticate", "Bearer")]

def unexpected : Response := detail 500 "Internal server error" []

/-- The answer when the database has no connection to spare. -/
def busy : Response :=
  ⟨503, .obj [("detail", .str "Service temporarily unavailable. Please retry."),
    ("retry_after", .int 5)], [("retry-after", "5")]⟩

/-- The answer to a body that is no JSON value. -/
def refused : JsonRefusal → Response
  | .malformed => ⟨422, .arr [.obj [("type", .str "json_invalid")]], []⟩
  | .unfit => detail 400 "There was an error parsing the body" []

/-- One step of a path. -/
def stepJson : PathStep → Json
  | .field name => .str name
  | .item index => .int index

/-- One error of a form. -/
def errorJson (e : FieldError) : Json :=
  .obj [("type", .str e.flaw.code), ("loc", .arr (e.path.map stepJson)),
    ("msg", .str e.flaw.message)]

/-- The answer to a form with errors. It shows the values given, so they must be writable. -/
def invalid (errors : List FieldError) : Response :=
  if errors.all (·.given.isWritable) then ⟨422, .arr (errors.map errorJson), []⟩ else unexpected

/-- The answer to a failure. What nobody expected is not explained. -/
def ofFailure : Failure → Response
  | .service e => ⟨e.report.kind.status, e.report.object, []⟩
  | .unauthorized => unauthorized
  | .outage .poolTimeout => busy
  | .outage _ => unexpected
  | .broken _ => unexpected
  | .invalid _ => unexpected

/-- A response as it is sent: one that no text can write is not explained, and a request for the
head alone is answered without a body. -/
def sent (r : Response) (method : String) : Response :=
  let r := if r.body.isWritable then r else unexpected
  if method == "HEAD" then { r with body := .null } else r

end Response

end Http

end TenantSearch
