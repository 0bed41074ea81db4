-- What a program can go through in surroundings of any kind: the world alone,
-- a world whose calls fail, or one in which others are at work.
import TenantSearch.World.Basic

namespace TenantSearch

/-! ## Runs -/

/-- What may become of a step in a world: the answers to it, and the worlds after
it. -/
abbrev Surroundings := World → (s : Step) → s.Reply → World → Prop

/-- One step of a run, with the worlds before and after it. -/
structure Moment where
  step : Step
  before : World
  after : World

namespace Prog

variable {α β : Type} {around : Surroundings}

/-- In these surroundings a program can go through these moments to its value, from
one world to another. -/
inductive Through (around : Surroundings) : Prog α → World → List Moment → α → World → Prop
  | done (a : α) (w : World) : Through around (.done a) w [] a w
  | step {s : Step} {next : s.Reply → Prog α} {w w' w'' : World} {r : s.Reply}
      {moments : List Moment} {a : α} (meets : around w s r w')
      (rest : Through around (next r) w' moments a w'') :
      Through around (.step s next) w (⟨s, w, w'⟩ :: moments) a w''

theorem through_step_iff {s : Step} {next : s.Reply → Prog α} {w w' : World}
    {moments : List Moment} {a : α} : (Prog.step s next).Through around w moments a w' ↔
      ∃ r w₁ rest, around w s r w₁ ∧ (next r).Through around w₁ rest a w' ∧
        moments = ⟨s, w, w₁⟩ :: rest := by
  constructor
  · intro h
    cases h with
    | step meets rest => exact ⟨_, _, _, meets, rest, rfl⟩
  · rintro ⟨r, w₁, rest, meets, hrest, rfl⟩
    exact .step meets hrest

/-- A program comes to a value if it does after its first step. -/
theorem exists_through_step {s : Step} {next : s.Reply → Prog α} {w w₁ : World} {r : s.Reply}
    {a : α} (meets : around w s r w₁)
    (rest : ∃ moments w', (next r).Through around w₁ moments a w') :
    ∃ moments w', (Prog.step s next).Through around w moments a w' := by
  obtain ⟨moments, w', hrest⟩ := rest
  exact ⟨_, w', .step meets hrest⟩

/-- A program and then another go through the moments of the one and then of the
other. -/
theorem through_bind_iff {p : Prog α} {f : α → Prog β} {w w' : World} {moments : List Moment}
    {b : β} : (p.bind f).Through around w moments b w' ↔
      ∃ first a w₁ second, p.Through around w first a w₁ ∧ (f a).Through around w₁ second b w' ∧
        moments = first ++ second := by
  induction p generalizing w moments with
  | done a =>
    constructor
    · intro h
      exact ⟨[], a, w, moments, .done a w, h, rfl⟩
    · rintro ⟨first, a', w₁, second, hfirst, hsecond, rfl⟩
      cases hfirst
      exact hsecond
  | step s next ih =>
    constructor
    · intro h
      obtain ⟨r, w₁, rest, meets, hrest, rfl⟩ := through_step_iff.mp h
      obtain ⟨first, a, w₂, second, hfirst, hsecond, rfl⟩ := (ih r).mp hrest
      exact ⟨⟨s, w, w₁⟩ :: first, a, w₂, second, .step meets hfirst, hsecond, rfl⟩
    · rintro ⟨first, a, w₂, second, hfirst, hsecond, rfl⟩
      obtain ⟨r, w₁, rest, meets, hrest, rfl⟩ := through_step_iff.mp hfirst
      exact .step meets ((ih r).mpr ⟨rest, a, w₂, second, hrest, hsecond, rfl⟩)

/-- The moments of a program that is run. -/
def moments : Prog α → World → List Moment
  | .done _, _ => []
  | .step s next, w => ⟨s, w, (w.answer s).2⟩ :: (next (w.answer s).1).moments (w.answer s).2

/-- Where the world itself may answer every step, a program that is run is one of the
things that may happen. -/
theorem through_run (p : Prog α) {fact : World → Prop}
    (step : ∀ w s, fact w → around w s (w.answer s).1 (w.answer s).2 ∧ fact (w.answer s).2)
    {w : World} (hw : fact w) :
    p.Through around w (p.moments w) (p.run w).1 (p.run w).2 := by
  induction p generalizing w with
  | done a => exact .done a w
  | step s next ih => exact .step (step w s hw).1 (ih _ (step w s hw).2)

end Prog

/-! ## What becomes of a service -/

namespace Service

variable {α β : Type} (around : Surroundings)

/-- A service comes to the value that it gives when it is run, where the world itself
may answer every step. -/
theorem exists_through_run {around : Surroundings} (p : Prog (Except Failure α))
    {fact : World → Prop}
    (step : ∀ w s, fact w → around w s (w.answer s).1 (w.answer s).2 ∧ fact (w.answer s).2)
    {w : World} (hw : fact w) {a : α} (h : (p.run w).1.toOption = some a) :
    ∃ moments w', p.Through around w moments (.ok a) w' := by
  have hruns := p.through_run step hw
  rcases hr : (p.run w).1 with f | b
  · rw [hr] at h
    cases h
  · rw [hr] at h hruns
    cases h
    exact ⟨_, _, hruns⟩

/-- Whatever happens in these surroundings, the service ends with an outcome, after
moments and in a world of which this holds. -/
def EndsIn (x : Service α) (w : World)
    (post : Except Failure α → List Moment → World → Prop) : Prop :=
  ∀ r moments w', Prog.Through around x.run w moments r w' → post r moments w'

theorem EndsIn.mono {around : Surroundings} {x : Service α} {w : World}
    {post post' : Except Failure α → List Moment → World → Prop} (h : x.EndsIn around w post)
    (himp : ∀ r moments w', post r moments w' → post' r moments w') : x.EndsIn around w post' :=
  fun r moments w' hruns => himp r moments w' (h r moments w' hruns)

theorem endsIn_orFail (x : Except Failure α) (w : World)
    (post : Except Failure α → List Moment → World → Prop) :
    (orFail x).EndsIn around w post ↔ post x [] w := by
  constructor
  · exact fun h => h x [] w (.done x w)
  · intro h r moments w' hruns
    cases hruns
    exact h

theorem endsIn_pure (a : α) (w : World) (post : Except Failure α → List Moment → World → Prop) :
    (pure a : Service α).EndsIn around w post ↔ post (.ok a) [] w :=
  endsIn_orFail around (.ok a) w post

theorem endsIn_throw (f : Failure) (w : World)
    (post : Except Failure α → List Moment → World → Prop) :
    (throw f : Service α).EndsIn around w post ↔ post (.error f) [] w :=
  endsIn_orFail around (.error f) w post

theorem endsIn_orBroken (x : Except Breakage α) (w : World)
    (post : Except Failure α → List Moment → World → Prop) :
    (orBroken x).EndsIn around w post ↔ post (x.mapError .broken) [] w :=
  endsIn_orFail around _ w post

/-- The second service goes on where the first one ends, unless that fails. -/
theorem endsIn_bind (x : Service α) (f : α → Service β) (w : World)
    (post : Except Failure β → List Moment → World → Prop) :
    (x >>= f).EndsIn around w post ↔ x.EndsIn around w fun r first w₁ =>
      match r with
      | .ok a => (f a).EndsIn around w₁ fun r second w' => post r (first ++ second) w'
      | .error e => post (.error e) first w₁ := by
  unfold EndsIn
  rw [ExceptT.run_bind]
  constructor
  · intro h r first w₁ hfirst
    rcases r with e | a
    · refine h _ _ _ (Prog.through_bind_iff.mpr ⟨first, .error e, w₁, [], hfirst, ?_, ?_⟩)
      · exact .done (Except.error e) w₁
      · rw [List.append_nil]
    · intro r second w' hsecond
      exact h _ _ _ (Prog.through_bind_iff.mpr ⟨first, _, w₁, second, hfirst, hsecond, rfl⟩)
  · intro h r moments w' hruns
    obtain ⟨first, a, w₁, second, hfirst, hsecond, rfl⟩ := Prog.through_bind_iff.mp hruns
    have hpost := h _ _ _ hfirst
    rcases a with e | a
    · cases hsecond
      rwa [List.append_nil]
    · exact hpost _ _ _ hsecond

theorem endsIn_attempt (x : Service α) (w : World)
    (post : Except Failure (Except Failure α) → List Moment → World → Prop) :
    (attempt x).EndsIn around w post ↔
      x.EndsIn around w fun r moments w' => post (.ok r) moments w' := by
  unfold EndsIn attempt
  have hrun : ExceptT.run (ExceptT.lift (m := Prog) (ε := Failure) x.run) =
      x.run.bind fun r => .done (.ok r) := rfl
  rw [hrun]
  constructor
  · intro h r moments w' hruns
    refine h _ _ _ (Prog.through_bind_iff.mpr ⟨moments, r, w', [], hruns, ?_, ?_⟩)
    · exact .done (Except.ok r) w'
    · rw [List.append_nil]
  · intro h r moments w' hruns
    obtain ⟨first, a, w₁, second, hfirst, hsecond, rfl⟩ := Prog.through_bind_iff.mp hruns
    cases hsecond
    rw [List.append_nil]
    exact h _ _ _ hfirst

theorem endsIn_ask (s : Step) (w : World)
    (post : Except Failure s.Reply → List Moment → World → Prop) :
    (ask s).EndsIn around w post ↔
      ∀ r w', around w s r w' → post (.ok r) [⟨s, w, w'⟩] w' := by
  constructor
  · exact fun h r w' meets => h _ _ _ (.step meets (.done (Except.ok r) w'))
  · intro h r moments w' hruns
    obtain ⟨r, w₁, rest, meets, hrest, rfl⟩ := Prog.through_step_iff.mp hruns
    cases hrest
    exact h _ _ meets

theorem endsIn_call (c : Call) (blame : Outage → Failure) (w : World)
    (post : Except Failure c.Reply → List Moment → World → Prop) :
    (call c blame).EndsIn around w post ↔
      ∀ r w', around w (.call c) r w' →
        post (Except.mapError blame r) [⟨.call c, w, w'⟩] w' := by
  unfold call
  rw [endsIn_bind, endsIn_ask]
  refine forall_congr' fun r => forall_congr' fun w' => imp_congr_right fun _ => ?_
  rcases r with o | v
  · exact endsIn_throw around _ _ _
  · exact endsIn_pure around _ _ _

end Service

end TenantSearch
