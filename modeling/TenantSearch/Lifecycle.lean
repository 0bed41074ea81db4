-- The application opens the search engine and then the job queue; it starts without the
-- queue when that cannot be opened. The worker is handed its queue. A recreated index is
-- filled again through the queue when there is one and the settings say so.
import TenantSearch.World.Basic

namespace TenantSearch

inductive Role where
  | application
  | worker
deriving DecidableEq, Repr

namespace Role

/-- Opens the search engine. A key that is not given is none. -/
def openEngine (s : Settings) : Prog Unit := do
  let _ ← Prog.ask (.call (.engine (.connect s.engineUrl s.engineKey.orNull s.engineTimeout)))

/-- Opens the job queue; says whether that worked out. -/
def openQueue (s : Settings) : Prog Bool := do
  match QueueAddress.ofValue s.queueUrl with
  | .error _ => pure false
  | .ok address =>
    match ← Prog.ask (.call (.queue (.connect address))) with
    | .ok _ => pure true
    | .error _ => pure false

/-- Starts a process; says whether there is a queue. A worker finds its queue there or not. -/
def start (p : Role) (found : Bool) (s : Settings) : Prog Bool := do
  openEngine s
  match p with
  | .application => openQueue s
  | .worker => pure found

/-- Closes the search engine. -/
def closeEngine : Prog (Except Outage Unit) := Prog.ask (.call (.engine .close))

/-- Stops a process. The application closes its queue first; if that fails the engine stays
open. -/
def stop (p : Role) (queue : Bool) : Prog (Except Outage Unit) :=
  if p = .application && queue then do
    match ← Prog.ask (.call (.queue .close)) with
    | .ok _ => closeEngine
    | .error o => pure (.error o)
  else closeEngine

end Role

/-- The world wired for a process with or without a queue. -/
def World.wired (w : World) (queue : Bool) : World :=
  { w with circumstances := { w.circumstances with
      backfills := queue && w.circumstances.settings.reindexOnRecreate.given } }

end TenantSearch
