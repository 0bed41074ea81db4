-- The minutes of an hour at which stale records are looked for, given as a comma-
-- separated list.
import TenantSearch.Failure

namespace TenantSearch

namespace Schedule

/-- A number put where it belongs in an ascending list; one that is there already is not put
twice. -/
def insert (n : Int) : List Int → List Int
  | [] => [n]
  | m :: rest => if n < m then n :: m :: rest else if n = m then m :: rest else m :: insert n rest

/-- The numbers that the pieces write. -/
def numbers : List String → Except Breakage (List Int)
  | [] => .ok []
  | piece :: rest =>
    match wholeNumber? piece with
    | some n => (numbers rest).map (n :: ·)
    | none => .error .badNumber

/-- The minutes of a list, ascending and each once. -/
def read (s : String) : Except Breakage (List Int) :=
  (numbers (commaNames s)).map fun ns => ns.foldl (fun sorted n => insert n sorted) []

end Schedule

/-- A job that runs at certain minutes of every hour, at this second. -/
structure TimedJob where
  name : String
  minutes : List Int
  second : Nat
deriving DecidableEq, Repr

/-- The timed jobs of a schedule: one when it names a minute, none otherwise. -/
def timedJobs (schedule : String) : Except Breakage (List TimedJob) :=
  (Schedule.read schedule).map fun minutes =>
    if minutes.isEmpty then [] else [⟨"cron:run_scheduled_reindex", minutes, 0⟩]

/-- How a worker runs its jobs. -/
structure WorkerLimits where
  jobs : List String
  mostJobs : Nat
  jobSeconds : Nat
  keepSeconds : Nat
  healthSeconds : Nat

/-- The limits of the worker. -/
def workerLimits : WorkerLimits where
  jobs := ["reindex_entity", "run_scheduled_reindex"]
  mostJobs := 10
  jobSeconds := 1800
  keepSeconds := 3600
  healthSeconds := 30

end TenantSearch
