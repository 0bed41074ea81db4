-- Every route and what it does. A request is answered in a fixed order: an unknown
-- route, a body that cannot be read, a caller without a valid token, a body that does
-- not fit, and only then the work.
import TenantSearch.Document.Reindex
import TenantSearch.Http.Forms
import TenantSearch.Query.Fusion

namespace TenantSearch

namespace Http

/-- The records behind the hits of a query. -/
def fetchRecords : Fusion.Fetch := fun ids attributes => Store.fetch (.arr ids) attributes

/-- What only the owner of a solution may ask for. -/
def requireOwner (c : CallerContext) (action : OwnerAction) : Service Unit :=
  if c.isSolutionOwner then pure () else throw (.of (.ownerOnly action))

/-- The caller that a token stands for. Identifiers drawn for it stay drawn. -/
def callerOf (t : Token) : Prog (Except Breakage (Option CallerContext)) := do
  let g : GuidSupply ← Prog.ask .guids
  let (caller, g) := t.caller g
  Prog.ask (.keepGuids g)
  pure caller

/-- The request for a query, under the settings of the moment. -/
def requestOf (fields : Fields) : Service QueryRequest := do
  let here ← Service.circumstances
  let g : GuidSupply ← Service.ask .guids
  let (outcome, g) := QueryRequest.check here.defaults here.settings (.obj fields) g
  Service.ask (.keepGuids g)
  match outcome with
  | .error b => throw (.broken b)
  | .ok (.accepted r) => pure r
  | .ok (.rejected errors) =>
    match errors with
    | [] => throw (.invalid [])
    | first :: _ =>
      let name := match fields.look "entityName" with
        | .str s => Json.str s
        | _ => .null
      throw (.ofEntity (.badQuery first.flaw) name)

/-- The query route. A score that is no finite number is answered as null. -/
def answerQuery (c : CallerContext) (form : QueryForm) : Service Json := do
  match form.query with
  | none => throw (.of .noQuery)
  | some fields =>
    let request ← requestOf fields
    let response ← Fusion.query fetchRecords c request false form.raw
      (splitAttributes form.attributes)
    pure response.object.finite

/-- The reindex route. -/
def answerReindex (c : CallerContext) (form : ReindexForm) : Service Json := do
  requireOwner c .reindex
  let counts ← Reindex.stale (.str c.solutionId) (.ofText? form.entityName)
    (.int form.pageSize) none
  pure counts.object

/-- The ensure route. -/
def answerEnsure (c : CallerContext) (form : EnsureForm) : Service Json := do
  requireOwner c .manageIndices
  let entityType := Json.ofText? form.entityType
  let created ← Index.ensure (.str c.solutionId) (.str form.entityName) entityType form.force
  let indices := (IndexTarget.writeTargets form.entityName entityType).map (·.name)
  pure (.obj [("indices", .texts indices), ("created", .texts created)])

/-- The health of the engine as it is shown. -/
def engineHealth : Option Json → Json
  | some cluster => .obj [("status", .str "healthy"), ("cluster", cluster)]
  | none => .obj [("status", .str "degraded")]

def wellOrNot (ok : Bool) : Json := .str (if ok then "healthy" else "degraded")

/-- Whether the database answers. -/
def databaseAnswers : Prog Bool := do
  match ← Prog.ask (.call (.database .ping)) with
  | .ok _ => pure true
  | .error _ => pure false

/-- The health route: the engine first, then the database. -/
def answerHealth : Prog Response := do
  let engine := ((← Engine.health.run).toOption).join
  let database ← databaseAnswers
  let memory : IndexMemory ← Prog.ask .recall
  let well := engine.isSome && database
  pure ⟨if well then 200 else 503, .obj [("status", wellOrNot well),
    ("searchEngine", engineHealth engine), ("database", wellOrNot database),
    ("knownIndices", .int memory.known.length)], []⟩

/-- The root route. -/
def rootResponse : Response :=
  ⟨200, .obj [("status", .str "healthy"), ("service", .str "Search Gateway"),
    ("version", .str "1.0.0")], []⟩

/-- The response of a route that takes a form: to the errors of the form, or to what became of the
work. -/
def answerForm {α : Type} (form : Checked α) (work : α → Service Json) : Prog Response := do
  match form with
  | .rejected errors => pure (.invalid errors)
  | .accepted form =>
    match ← (work form).run with
    | .ok v => pure ⟨200, v, []⟩
    | .error f => pure (.ofFailure f)

/-- The response to an errand of a caller. -/
def answerCaller (errand : Errand) (c : CallerContext) (body : Body) : Prog Response := do
  match errand with
  | .query => answerForm (body.form QueryForm.check) (answerQuery c)
  | .reindex =>
    let here : Circumstances ← Prog.ask .look
    answerForm (body.form (ReindexForm.check here.defaults)) (answerReindex c)
  | .ensure => answerForm (body.form EnsureForm.check) (answerEnsure c)

/-- The response to an errand. Nothing is done for a caller without a valid token. -/
def answerErrand (errand : Errand) (r : Request) : Prog Response := do
  match r.body with
  | .refused refusal => pure (.refused refusal)
  | body =>
    match ← callerOf r.token with
    | .error b => pure (.ofFailure (.broken b))
    | .ok none => pure .unauthorized
    | .ok (some c) => answerCaller errand c body

/-- The response of a route. -/
def answerRoute (route : Route) (r : Request) : Prog Response :=
  if route.method != r.method then pure (.wrongMethod route)
  else
    match route with
    | .root => pure rootResponse
    | .health => answerHealth
    | .errand e => answerErrand e r

/-- The response to a request. -/
def respond (r : Request) : Prog Response := do
  let response ← match Route.find? r.path with
    | some route => answerRoute route r
    | none => pure (if Route.isNear r.path then .elsewhere else .notFound)
  pure (response.sent r.method)

end Http

end TenantSearch
