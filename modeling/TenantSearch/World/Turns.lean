-- Several programs of one process run side by side. A program keeps its turn until it
-- comes to an outside call that makes it pause, or until it finds a lock held. A lock
-- that is released goes to the one who has waited for it longest. Which calls make a
-- program pause is a rule of its own: with a pause at every call and turns in any order
-- all interleavings come about.
import TenantSearch.Index.Upkeep
import TenantSearch.World.Basic

namespace TenantSearch

/-- Programs side by side: those that can go on at once, those that pause after a call, those that
wait for a lock in the order in which they came, the locks that are held, the values of those that
are done, and the world. -/
structure Turns (α : Type) where
  ready : List (Nat × Prog α)
  paused : List (Nat × Prog α) := []
  waiting : List (String × Nat × Prog α) := []
  held : List String := []
  finished : List (Nat × α) := []
  world : World

/-- Which calls make a program pause, by the call and what became of it. -/
abbrev PauseRule := (c : Call) → Except Outage c.Reply → Bool

namespace PauseRule

/-- A pause at every call. -/
def always : PauseRule := fun _ _ => true

/-- A pause where the database answers, if only that it cannot take a value: it is the only one
that takes its time. A planned outage comes at once. -/
def atDatabase : PauseRule
  | .database _, .ok _ => true
  | .database _, .error .unstorable => true
  | .database _, .error (.broken .outOfRange) => true
  | .database _, .error (.broken .unwritableText) => true
  | _, _ => false

end PauseRule

namespace Turns

variable {α : Type}

/-- The lock goes to the first who waits for it, or is free. -/
def release (t : Turns α) (lock : String) : Turns α :=
  match t.waiting.find? (·.1 == lock) with
  | some (_, number, program) =>
    { t with
      ready := t.ready ++ [(number, program)]
      waiting := t.waiting.eraseP (·.1 == lock) }
  | none => { t with held := t.held.erase lock }

/-- One turn of a program. -/
def turn (pauses : PauseRule) (number : Nat) : Prog α → Turns α → Turns α
  | .done a, t => { t with finished := t.finished ++ [(number, a)] }
  | .step (.acquire lock) next, t =>
    if t.held.contains lock then { t with waiting := t.waiting ++ [(lock, number, next ())] }
    else turn pauses number (next ()) { t with held := lock :: t.held }
  | .step (.release lock) next, t => turn pauses number (next ()) (t.release lock)
  | .step (.call c) next, t =>
    let (r, world) := t.world.answerCall c
    if pauses c r then { t with paused := t.paused ++ [(number, next r)], world }
    else turn pauses number (next r) { t with world }
  | .step s next, t =>
    let (r, world) := t.world.answer s
    turn pauses number (next r) { t with world }

/-- Programs that have not begun. -/
def start (programs : List (Prog α)) (w : World) : Turns α :=
  { ready := programs.zipIdx.map fun p => (p.2, p.1), world := w }

/-! ## Turns in any order -/

/-- The turn of the program that stands there among those that can go on or pause, if there is
one. -/
def choose (pauses : PauseRule) (t : Turns α) (place : Nat) : Turns α :=
  match t.ready[place]? with
  | some (number, program) =>
    turn pauses number program { t with ready := t.ready.eraseIdx place }
  | none =>
    let place := place - t.ready.length
    match t.paused[place]? with
    | some (number, program) =>
      turn pauses number program { t with paused := t.paused.eraseIdx place }
    | none => t

/-- The turns of the programs chosen, one after the other. -/
def follow (pauses : PauseRule) (t : Turns α) (choices : List Nat) : Turns α :=
  choices.foldl (choose pauses) t

/-! ## Turns in order -/

/-- The turn of the program that comes next, if there is one: whoever can go on at once goes before
those that pause. -/
def next (pauses : PauseRule) (t : Turns α) : Turns α :=
  match t.ready, t.paused with
  | (number, program) :: rest, _ => turn pauses number program { t with ready := rest }
  | [], (number, program) :: rest => turn pauses number program { t with paused := rest }
  | [], [] => t

/-- So many turns in order. -/
def take (pauses : PauseRule) : Nat → Turns α → Turns α
  | 0, t => t
  | n + 1, t => take pauses n (t.next pauses)

/-- Runs programs to their ends, one after the other. -/
def runEach : List (Nat × Prog α) → World → List (Nat × α) × World
  | [], w => ([], w)
  | (number, program) :: rest, w =>
    let (a, w) := program.run w
    let (others, w) := runEach rest w
    ((number, a) :: others, w)

/-- The values of all programs, in the order of the programs, and the world at the end. Programs
that are not done yet run to their ends without turns. -/
def finish (t : Turns α) : List α × World :=
  let (others, w) := runEach (t.ready ++ t.paused ++ t.waiting.map (·.2)) t.world
  (((t.finished ++ others).mergeSort fun a b => a.1 ≤ b.1).map (·.2), w)

end Turns

/-- A wish that an index be made sure of. -/
structure EnsureWish where
  solutionId : Json
  entityName : Json
  entityType : Json
  force : Bool

/-- The program of a wish. -/
def EnsureWish.program (e : EnsureWish) : Prog (Except Failure (List String)) :=
  (Index.ensure e.solutionId e.entityName e.entityType e.force).run

/-- Makes sure of indices side by side. A wish begins, looks up two schemas and waits for two locks
at most, which makes five turns. -/
def World.ensureAll (w : World) (wishes : List EnsureWish) :
    List (Except Failure (List String)) × World :=
  let programs := wishes.map (·.program)
  (Turns.take .atDatabase (5 * programs.length) (Turns.start programs w)).finish

end TenantSearch
