-- How a service runs in a world: what it gives and where it leaves the world,
-- from what its parts give and where they leave it.
import TenantSearch.World.Basic

namespace TenantSearch

namespace Service

variable {α β : Type}

/-! ## Where a service leads -/

/-- Run in a world, the service ends with an outcome and a world of which
this holds. -/
def Leads (x : Service α) (w : World) (post : Except Failure α → World → Prop) : Prop :=
  post (x.runIn w).1 (x.runIn w).2

theorem Leads.mono {x : Service α} {w : World} {post post' : Except Failure α → World → Prop}
    (h : x.Leads w post) (himp : ∀ r w', post r w' → post' r w') : x.Leads w post' :=
  himp _ _ h

theorem Leads.and {x : Service α} {w : World} {post post' : Except Failure α → World → Prop}
    (h : x.Leads w post) (h' : x.Leads w post') :
    x.Leads w fun r w' => post r w' ∧ post' r w' := ⟨h, h'⟩

@[simp]
theorem leads_pure (a : α) (w : World) (post : Except Failure α → World → Prop) :
    (pure a : Service α).Leads w post ↔ post (.ok a) w := Iff.rfl

@[simp]
theorem leads_throw (f : Failure) (w : World) (post : Except Failure α → World → Prop) :
    (throw f : Service α).Leads w post ↔ post (.error f) w := Iff.rfl

@[simp]
theorem leads_orFail (x : Except Failure α) (w : World)
    (post : Except Failure α → World → Prop) : (orFail x).Leads w post ↔ post x w := Iff.rfl

@[simp]
theorem leads_orBroken (x : Except Breakage α) (w : World)
    (post : Except Failure α → World → Prop) :
    (orBroken x).Leads w post ↔ post (x.mapError .broken) w := Iff.rfl

theorem runIn_bind (x : Service α) (f : α → Service β) (w : World) :
    (x >>= f).runIn w =
      match x.runIn w with
      | (.ok a, w') => (f a).runIn w'
      | (.error e, w') => (.error e, w') := by
  unfold runIn
  rw [ExceptT.run_bind]
  refine (Prog.run_bind _ _ _).trans ?_
  rcases Prog.run (ExceptT.run x) w with ⟨_ | a, w'⟩
  · rfl
  · rfl

/-- The second service runs where the first one leads, unless that fails. -/
@[simp]
theorem leads_bind (x : Service α) (f : α → Service β) (w : World)
    (post : Except Failure β → World → Prop) :
    (x >>= f).Leads w post ↔ x.Leads w fun r w' =>
      match r with
      | .ok a => (f a).Leads w' post
      | .error e => post (.error e) w' := by
  unfold Leads
  rw [runIn_bind]
  rcases x.runIn w with ⟨_ | a, w'⟩
  · rfl
  · rfl

@[simp]
theorem leads_ask (s : Step) (w : World) (post : Except Failure s.Reply → World → Prop) :
    (ask s).Leads w post ↔ post (.ok (w.answer s).1) (w.answer s).2 := Iff.rfl

/-- An attempt never fails: its value is the outcome. -/
@[simp]
theorem leads_attempt (x : Service α) (w : World)
    (post : Except Failure (Except Failure α) → World → Prop) :
    (attempt x).Leads w post ↔ x.Leads w fun r w' => post (.ok r) w' := by
  unfold Leads attempt runIn
  have hrun : ExceptT.run (ExceptT.lift (m := Prog) (ε := Failure) x.run) =
      x.run.bind fun r => .done (.ok r) := rfl
  rw [hrun, Prog.run_bind]
  rfl

/-- An outside call gives what the world answers, or the failure made of its
outage. -/
@[simp]
theorem leads_call (c : Call) (blame : Outage → Failure) (w : World)
    (post : Except Failure c.Reply → World → Prop) :
    (call c blame).Leads w post ↔
      post ((w.answerCall c).1.mapError blame) (w.answerCall c).2 := by
  unfold call
  rw [leads_bind, leads_ask]
  simp only [World.answer]
  rcases w.answerCall c with ⟨_ | r, w'⟩
  · rfl
  · rfl

/-- A lock is free, so what runs under it runs as it would without. -/
@[simp]
theorem leads_locked (index : String) (x : Service α) (w : World)
    (post : Except Failure α → World → Prop) : (locked index x).Leads w post ↔ x.Leads w post := by
  refine (leads_bind (ask (.acquire index)) _ w post).trans ?_
  refine (leads_bind (attempt x) _ w post).trans ((leads_attempt x w _).trans ?_)
  rfl

@[simp]
theorem leads_memory (w : World) (post : Except Failure IndexMemory → World → Prop) :
    memory.Leads w post ↔ post (.ok w.memory) w := Iff.rfl

@[simp]
theorem leads_change (c : MemoryChange) (w : World)
    (post : Except Failure Unit → World → Prop) :
    (change c).Leads w post ↔ post (.ok ()) { w with memory := w.memory.change c } := Iff.rfl

@[simp]
theorem leads_circumstances (w : World) (post : Except Failure Circumstances → World → Prop) :
    circumstances.Leads w post ↔ post (.ok w.circumstances) w := Iff.rfl

end Service

end TenantSearch
