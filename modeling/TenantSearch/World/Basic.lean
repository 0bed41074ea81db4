-- A world in memory: everything outside of the gateway, and the memory of its process,
-- as one value. A call is written down first; then it meets the planned outages; then it
-- takes effect. Running a program against a world gives its value and the world after
-- it.
import TenantSearch.Program.Basic
import TenantSearch.World.OutagePlan
import TenantSearch.World.SearchEngine

namespace TenantSearch

structure World where
  circumstances : Circumstances
  engine : SearchEngine := {}
  records : RecordTable := []
  definitions : List EntityDefinition := []
  responses : List Json := []
  queueUp : Bool := true
  memory : IndexMemory := {}
  supply : GuidSupply := .fresh
  plans : List OutagePlan := []
  log : List Call := []

namespace World

/-- The response of a search that finds nothing. -/
def emptyResponse : Json :=
  .obj [("hits", .obj [("total", .obj [("value", .int 0)]), ("hits", .arr [])])]

/-- The effect of a call to the search engine. A call about an index takes its name as an opaque
key: no comma makes two names of it, and no star matches others. What a search finds is planned by
the responses, so how a search reads the names of its indices is no matter here. -/
def answerEngine (w : World) : (c : EngineCall) → Except Outage c.Reply × World
  | .connect .. => (.ok (), w)
  | .search _ _ =>
    (.ok (w.responses.headD emptyResponse), { w with responses := w.responses.drop 1 })
  | .put index id document =>
    match w.engine.put? index id document with
    | some engine => (.ok (), { w with engine })
    | none => (.error (.broken .wrongOperand), w)
  | .remove index id =>
    match id.key? with
    | some key =>
      if w.engine.holds index key then (.ok (), { w with engine := w.engine.remove index key })
      else (.error .notFound, w)
    | none => (.error (.broken .wrongOperand), w)
  | .hasIndex index => (.ok (w.engine.mapping? index).isSome, w)
  | .mapping index =>
    match w.engine.mapping? index with
    | some mapping => (.ok mapping, w)
    | none => (.error .notFound, w)
  | .create d =>
    if (w.engine.mapping? d.indexName).isSome then (.error .refused, w)
    else (.ok (), { w with engine := w.engine.setMapping d.indexName d.mappings })
  | .drop index =>
    match w.engine.mapping? index with
    | some .null => (.error .notFound, { w with engine := w.engine.dropMapping index })
    | some _ => (.ok (), { w with engine := w.engine.drop index })
    | none => (.error .notFound, w)
  | .health => (.ok (.obj [("status", .str "green")]), w)
  | .close => (.ok (), w)

/-- The effect of a call to the job queue. -/
def answerQueue (w : World) : QueueCall → Except Outage Unit × World
  | .connect _ => (if w.queueUp then .ok () else .error .crash, w)
  | .enqueue _ => (.ok (), w)
  | .close => (.ok (), w)

/-- The effect of a call to the database. -/
def answerDatabase (w : World) : (c : DatabaseCall) → Except Outage c.Reply × World
  | .among ids => (w.records.among ids, w)
  | .page p => (w.records.page p, w)
  | .staleSolutions (some cutoff) => (.ok (w.records.staleSolutions cutoff), w)
  | .staleSolutions none => (.error .operational, w)
  | .lookUp id => (w.records.rowOf id, w)
  | .commit found document stamp =>
    match w.records.commit found document stamp with
    | .ok (saved, records) => (.ok saved, { w with records })
    | .error o => (.error o, w)
  | .definitions solutionId entityName entityType =>
    (EntityDefinition.rowsFor w.definitions solutionId entityName entityType, w)
  | .ping => (.ok (), w)

/-- The world with a definition more. -/
def define (w : World) (d : EntityDefinition) : Except Outage World :=
  (EntityDefinition.add w.definitions d).map fun definitions => { w with definitions }

/-- A call: written down, then failed by a planned outage or answered. -/
def answerCall (w : World) (c : Call) : Except Outage c.Reply × World :=
  let (outage, plans) := if c.mayFail then OutagePlan.meetAll c.name w.plans else (none, w.plans)
  let w := { w with log := w.log ++ [c], plans }
  match outage with
  | some o => (.error o, w)
  | none =>
    match c with
    | .engine c => w.answerEngine c
    | .queue c => w.answerQueue c
    | .database c => w.answerDatabase c

/-- The answer to a step, and the world after it. A lock is always free here: only programs that
take turns can find one held. -/
def answer (w : World) : (s : Step) → s.Reply × World
  | .call c => w.answerCall c
  | .recall => (w.memory, w)
  | .change c => ((), { w with memory := w.memory.change c })
  | .acquire _ => ((), w)
  | .release _ => ((), w)
  | .look => (w.circumstances, w)
  | .guids => (w.supply, w)
  | .keepGuids g => ((), { w with supply := g })
  | .rowBound => (w.records.length, w)

end World

/-- Runs a program to its end. -/
def Prog.run {α : Type} : Prog α → World → α × World
  | .done a, w => (a, w)
  | .step s next, w =>
    let (r, w) := w.answer s
    (next r).run w

/-- A program and then another run as one after the other. -/
theorem Prog.run_bind {α β : Type} (p : Prog α) (f : α → Prog β) (w : World) :
    (p.bind f).run w = (f (p.run w).1).run (p.run w).2 := by
  induction p generalizing w with
  | done a => rfl
  | step s next ih => exact ih _ _

/-- Runs a service to its end. -/
def Service.runIn {α : Type} (x : Service α) (w : World) : Except Failure α × World :=
  Prog.run (ExceptT.run x) w

end TenantSearch
