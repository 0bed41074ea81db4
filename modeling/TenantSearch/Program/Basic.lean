-- What a service does is a finite tree of steps. A step asks for something, and the
-- program goes on with the answer; who answers is left open. So one program can be run
-- against a world in memory, taken apart step by step, or run in turns with others.
import TenantSearch.Access.Guid
import TenantSearch.Index.Memory
import TenantSearch.Program.Call
import TenantSearch.Settings

namespace TenantSearch

/-- What a program can see of its surroundings: the time, what forms take a missing field to be, the
settings as they are now, and whether a recreated index is filled again through the queue. -/
structure Circumstances where
  now : Timestamp
  defaults : Settings.FormDefaults := {}
  settings : Settings := {}
  backfills : Bool := false

/-- One step of a program: an outside call, a look at the memory of the process or a change of it,
taking and giving back the lock of an index, a look around, the identifiers drawn so far, or a bound
on the rows that the record table holds in the meantime. -/
inductive Step where
  | call (c : Call)
  | recall
  | change (c : MemoryChange)
  | acquire (index : String)
  | release (index : String)
  | look
  | guids
  | keepGuids (g : GuidSupply)
  | rowBound

/-- What a step is answered with. -/
def Step.Reply : Step → Type
  | .call c => Except Outage c.Reply
  | .recall => IndexMemory
  | .look => Circumstances
  | .guids => GuidSupply
  | .rowBound => Nat
  | _ => Unit

/-- A program that gives a value in the end. -/
inductive Prog (α : Type) : Type where
  | done (value : α)
  | step (s : Step) (next : s.Reply → Prog α)

namespace Prog

/-- One program, then another that depends on its value. -/
def bind {α β : Type} : Prog α → (α → Prog β) → Prog β
  | .done a, f => f a
  | .step s next, f => .step s fun r => (next r).bind f

instance : Monad Prog where
  pure := .done
  bind := bind

/-- A single step, whose answer is the value. -/
def ask (s : Step) : Prog s.Reply := .step s .done

theorem bind_done {α : Type} (p : Prog α) : p.bind .done = p := by
  induction p with
  | done a => rfl
  | step s next ih => simp only [bind, ih]

theorem bind_assoc {α β γ : Type} (p : Prog α) (f : α → Prog β) (g : β → Prog γ) :
    (p.bind f).bind g = p.bind fun a => (f a).bind g := by
  induction p with
  | done a => rfl
  | step s next ih => simp only [bind, ih]

instance : LawfulMonad Prog :=
  LawfulMonad.mk' Prog (fun p => bind_done p) (fun _ _ => rfl) bind_assoc

end Prog

/-- A program that may fail. -/
abbrev Service (α : Type) := ExceptT Failure Prog α

namespace Service

variable {α : Type}

/-- A single step. -/
def ask (s : Step) : Service s.Reply := ExceptT.lift (Prog.ask s)

/-- A value, or a failure in its place. -/
def orFail (x : Except Failure α) : Service α := ExceptT.mk (pure x)

/-- A value, or a breakage in its place. -/
def orBroken (x : Except Breakage α) : Service α := orFail (x.mapError .broken)

/-- The outcome of a service as a value: nothing escapes. -/
def attempt (x : Service α) : Service (Except Failure α) := ExceptT.lift x.run

/-- An outside call; an outage becomes the failure that `blame` makes of it. -/
def call (c : Call) (blame : Outage → Failure) : Service c.Reply := do
  match ← ask (.call c) with
  | .ok r => pure r
  | .error o => throw (blame o)

/-- A service that runs while it holds the lock of an index, whatever becomes of it. -/
def locked (index : String) (x : Service α) : Service α := do
  ask (.acquire index)
  let outcome ← attempt x
  ask (.release index)
  orFail outcome

def memory : Service IndexMemory := ask .recall

def change (c : MemoryChange) : Service Unit := ask (.change c)

def circumstances : Service Circumstances := ask .look

end Service

/-- A failure for outages of one kind; any other outage stays what it is. -/
def Outage.blame (counts : Outage → Bool) (f : Failure) (o : Outage) : Failure :=
  if counts o then f else o.failure

end TenantSearch
