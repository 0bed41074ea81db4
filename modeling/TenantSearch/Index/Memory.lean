-- What a process remembers about indices: the names of those that are known to be good,
-- and how far the check of each other index has come. The memory lives as long as the
-- process.

namespace TenantSearch

/-- How far an index has come. -/
inductive IndexState where
  | unknown
  | checking
  | good
  | missing
  | creating
deriving DecidableEq, Repr

def IndexState.name : IndexState → String
  | .unknown => "unknown"
  | .checking => "checking"
  | .good => "good"
  | .missing => "missing"
  | .creating => "creating"

structure IndexMemory where
  known : List String := []
  states : List (String × IndexState) := []
deriving Repr

/-- A change of the memory. -/
inductive MemoryChange where
  | remember (index : String)
  | forget (index : String)
  | forgetAll
  | mark (index : String) (state : IndexState)
deriving DecidableEq, Repr

namespace IndexMemory

def knows (m : IndexMemory) (index : String) : Bool := m.known.contains index

/-- The state that was marked last. -/
def marked (m : IndexMemory) (index : String) : IndexState :=
  ((m.states.find? (·.1 == index)).map (·.2)).getD .unknown

/-- The state of an index: good when it is known, the one marked last otherwise. -/
def stateOf (m : IndexMemory) (index : String) : IndexState :=
  if m.knows index then .good else m.marked index

def change (m : IndexMemory) : MemoryChange → IndexMemory
  | .remember index => if m.knows index then m else { m with known := index :: m.known }
  | .forget index => { m with known := m.known.filter (· != index) }
  | .forgetAll => { m with known := [] }
  | .mark index state =>
    { m with states := (index, state) :: m.states.filter (·.1 != index) }

end IndexMemory

end TenantSearch
