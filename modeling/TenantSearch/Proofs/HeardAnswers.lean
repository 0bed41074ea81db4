-- Runs with what was answered to each step. A moment tells what was asked and
-- what became of the world, but not what the program heard: a call may have
-- taken effect and be answered with an outage all the same.
import TenantSearch.Proofs.IndexTraces
import TenantSearch.Proofs.LockedUpkeep

namespace TenantSearch

/-! ## Runs -/

/-- One step of a run with its answer, and the worlds before and after it. -/
structure Exchange where
  step : Step
  reply : step.Reply
  before : World
  after : World

/-- The exchange without its answer. -/
def Exchange.moment (e : Exchange) : Moment := ⟨e.step, e.before, e.after⟩

namespace Prog

variable {α β : Type} {around : Surroundings}

/-- In these surroundings a program can have these exchanges on the way to its
value, from one world to another. -/
inductive Hears (around : Surroundings) : Prog α → World → List Exchange → α → World → Prop
  | done (a : α) (w : World) : Hears around (.done a) w [] a w
  | step {s : Step} {next : s.Reply → Prog α} {w w' w'' : World} {r : s.Reply}
      {heard : List Exchange} {a : α} (meets : around w s r w')
      (rest : Hears around (next r) w' heard a w'') :
      Hears around (.step s next) w (⟨s, r, w, w'⟩ :: heard) a w''

theorem hears_step_iff {s : Step} {next : s.Reply → Prog α} {w w' : World}
    {heard : List Exchange} {a : α} : (Prog.step s next).Hears around w heard a w' ↔
      ∃ r w₁ rest, around w s r w₁ ∧ (next r).Hears around w₁ rest a w' ∧
        heard = ⟨s, r, w, w₁⟩ :: rest := by
  constructor
  · intro h
    cases h with
    | step meets rest => exact ⟨_, _, _, meets, rest, rfl⟩
  · rintro ⟨r, w₁, rest, meets, hrest, rfl⟩
    exact .step meets hrest

/-- A program and then another have the exchanges of the one and then of the
other. -/
theorem hears_bind_iff {p : Prog α} {f : α → Prog β} {w w' : World} {heard : List Exchange}
    {b : β} : (p.bind f).Hears around w heard b w' ↔
      ∃ first a w₁ second, p.Hears around w first a w₁ ∧ (f a).Hears around w₁ second b w' ∧
        heard = first ++ second := by
  induction p generalizing w heard with
  | done a =>
    constructor
    · intro h
      exact ⟨[], a, w, heard, .done a w, h, rfl⟩
    · rintro ⟨first, a', w₁, second, hfirst, hsecond, rfl⟩
      cases hfirst
      exact hsecond
  | step s next ih =>
    constructor
    · intro h
      obtain ⟨r, w₁, rest, meets, hrest, rfl⟩ := hears_step_iff.mp h
      obtain ⟨first, a, w₂, second, hfirst, hsecond, rfl⟩ := (ih r).mp hrest
      exact ⟨⟨s, r, w, w₁⟩ :: first, a, w₂, second, .step meets hfirst, hsecond, rfl⟩
    · rintro ⟨first, a, w₂, second, hfirst, hsecond, rfl⟩
      obtain ⟨r, w₁, rest, meets, hrest, rfl⟩ := hears_step_iff.mp hfirst
      exact .step meets ((ih r).mpr ⟨rest, a, w₂, second, hrest, hsecond, rfl⟩)

/-- Without the answers, the exchanges of a program are what it goes through. -/
theorem through_iff_exists_hears {p : Prog α} {w w' : World} {moments : List Moment} {a : α} :
    p.Through around w moments a w' ↔
      ∃ heard, heard.map (·.moment) = moments ∧ p.Hears around w heard a w' := by
  constructor
  · intro h
    induction h with
    | done a w => exact ⟨[], rfl, .done a w⟩
    | step meets _ ih =>
      obtain ⟨heard, rfl, hheard⟩ := ih
      exact ⟨_ :: heard, rfl, .step meets hheard⟩
  · rintro ⟨heard, rfl, h⟩
    induction h with
    | done a w => exact .done a w
    | step meets _ ih => exact .step meets ih

/-- The exchanges of a program that is run. -/
def exchanges : Prog α → World → List Exchange
  | .done _, _ => []
  | .step s next, w =>
    ⟨s, (w.answer s).1, w, (w.answer s).2⟩ :: (next (w.answer s).1).exchanges (w.answer s).2

/-- Where the world itself may answer every step, what a program hears when it is run is one of
the things that it can hear. -/
theorem hears_run_of (answers : ∀ w s, around w s (w.answer s).1 (w.answer s).2) (p : Prog α)
    (w : World) : p.Hears around w (p.exchanges w) (p.run w).1 (p.run w).2 := by
  induction p generalizing w with
  | done a => exact .done a w
  | step s next ih => exact .step (answers w s) (ih _ _)

/-- A program that is run hears one of the things that may be answered. -/
theorem hears_run (p : Prog α) (w : World) :
    p.Hears (World.Meets World.anyCall) w (p.exchanges w) (p.run w).1 (p.run w).2 := by
  refine hears_run_of (fun w s => ?_) p w
  have hplans : w.Plans World.anyCall := fun _ _ => trivial
  exact hplans.meets s

/-- What each exchange keeps is kept. -/
theorem Hears.lasts {p : Prog α} {w w' : World} {heard : List Exchange} {a : α}
    (h : p.Hears around w heard a w') (fact : World → Prop)
    (step : ∀ e ∈ heard, around e.before e.step e.reply e.after → fact e.before → fact e.after)
    (hw : fact w) : fact w' := by
  induction h with
  | done a w => exact hw
  | step meets _ ih =>
    refine ih (fun e he => step e (List.mem_cons_of_mem _ he)) ?_
    exact step _ List.mem_cons_self meets hw

/-- Nothing that is heard changes the circumstances. -/
theorem Hears.circumstances {frail : Call → Prop} {p : Prog α} {w w' : World}
    {heard : List Exchange} {a : α} (h : p.Hears (World.Meets frail) w heard a w') :
    w'.circumstances = w.circumstances :=
  h.lasts (·.circumstances = w.circumstances)
    (fun _ _ meets hsame => meets.circumstances.trans hsame) rfl

theorem Takes.mono {allows allows' : Step → Prop} {p : Prog α} (hp : p.Takes allows)
    (himp : ∀ s, allows s → allows' s) : p.Takes allows' := by
  induction p with
  | done a => trivial
  | step s next ih => exact ⟨himp s hp.1, fun r => ih r (hp.2 r)⟩

/-- A program that takes only allowed steps is heard to take no others. -/
theorem Takes.hears {allows : Step → Prop} {p : Prog α} (hp : p.Takes allows) {w w' : World}
    {heard : List Exchange} {a : α} (h : p.Hears around w heard a w') :
    ∀ e ∈ heard, allows e.step := by
  induction h with
  | done a w => exact fun e he => absurd he List.not_mem_nil
  | step _ _ ih =>
    intro e he
    rcases List.mem_cons.mp he with rfl | he
    · exact hp.1
    · exact ih (hp.2 _) e he

end Prog

/-! ## What a service hears -/

namespace Service

variable {α β : Type}

/-- The service can have these exchanges on the way to its outcome, when any call
may fail. -/
def Hears (x : Service α) (w : World) (heard : List Exchange) (r : Except Failure α)
    (w' : World) : Prop := Prog.Hears (World.Meets World.anyCall) x.run w heard r w'

/-- Whatever is answered, the service ends with an outcome, after exchanges and in
a world of which this holds. -/
def Told (x : Service α) (w : World)
    (post : Except Failure α → List Exchange → World → Prop) : Prop :=
  ∀ r heard w', x.Hears w heard r w' → post r heard w'

theorem Told.mono {x : Service α} {w : World}
    {post post' : Except Failure α → List Exchange → World → Prop} (h : x.Told w post)
    (himp : ∀ r heard w', post r heard w' → post' r heard w') : x.Told w post' :=
  fun r heard w' hhears => himp r heard w' (h r heard w' hhears)

theorem Told.steady {x : Service α} {w : World}
    {post : Except Failure α → List Exchange → World → Prop} (h : x.Told w post) :
    x.Told w fun r heard w' => w'.circumstances = w.circumstances ∧ post r heard w' :=
  fun r heard w' hhears => ⟨Prog.Hears.circumstances hhears, h r heard w' hhears⟩

/-- A service that is run hears one of the things that it can hear. -/
theorem hears_runIn {around : Surroundings}
    (answers : ∀ w s, around w s (w.answer s).1 (w.answer s).2) (x : Service α) (w : World) :
    Prog.Hears around x.run w (Prog.exchanges x.run w) (x.runIn w).1 (x.runIn w).2 :=
  Prog.hears_run_of answers x.run w

/-- What holds of whatever a service can hear holds of its run. -/
theorem Told.leads {x : Service α} {w : World} {post : Except Failure α → World → Prop}
    (h : x.Told w fun r _ w' => post r w') : x.Leads w post :=
  h _ _ _ (Prog.hears_run x.run w)

variable (w : World)

theorem told_orFail (x : Except Failure α)
    (post : Except Failure α → List Exchange → World → Prop) :
    (orFail x).Told w post ↔ post x [] w := by
  constructor
  · exact fun h => h x [] w (.done x w)
  · intro h r heard w' hhears
    cases hhears
    exact h

theorem told_pure (a : α) (post : Except Failure α → List Exchange → World → Prop) :
    (pure a : Service α).Told w post ↔ post (.ok a) [] w := told_orFail w (.ok a) post

theorem told_throw (f : Failure) (post : Except Failure α → List Exchange → World → Prop) :
    (throw f : Service α).Told w post ↔ post (.error f) [] w := told_orFail w (.error f) post

theorem told_orBroken (x : Except Breakage α)
    (post : Except Failure α → List Exchange → World → Prop) :
    (orBroken x).Told w post ↔ post (x.mapError .broken) [] w := told_orFail w _ post

/-- The second service goes on where the first one ends, unless that fails. -/
theorem hears_bind_iff {x : Service α} {f : α → Service β} {w w' : World}
    {heard : List Exchange} {r : Except Failure β} : (x >>= f).Hears w heard r w' ↔
      (∃ e, x.Hears w heard (.error e) w' ∧ r = .error e) ∨
        ∃ first a w₁ second, x.Hears w first (.ok a) w₁ ∧ (f a).Hears w₁ second r w' ∧
          heard = first ++ second := by
  unfold Hears
  rw [ExceptT.run_bind]
  refine Prog.hears_bind_iff.trans ?_
  constructor
  · rintro ⟨first, e | a, w₁, second, hfirst, hsecond, rfl⟩
    · cases hsecond
      rw [List.append_nil]
      exact Or.inl ⟨e, hfirst, rfl⟩
    · exact Or.inr ⟨first, a, w₁, second, hfirst, hsecond, rfl⟩
  · rintro (⟨e, hfirst, rfl⟩ | ⟨first, a, w₁, second, hfirst, hsecond, rfl⟩)
    · exact ⟨heard, .error e, w', [], hfirst, .done (Except.error e) w',
        (List.append_nil _).symm⟩
    · exact ⟨first, .ok a, w₁, second, hfirst, hsecond, rfl⟩

theorem told_bind (x : Service α) (f : α → Service β)
    (post : Except Failure β → List Exchange → World → Prop) :
    (x >>= f).Told w post ↔ x.Told w fun r first w₁ =>
      match r with
      | .ok a => (f a).Told w₁ fun r second w' => post r (first ++ second) w'
      | .error e => post (.error e) first w₁ := by
  constructor
  · intro h r first w₁ hfirst
    rcases r with e | a
    · exact h _ _ _ (hears_bind_iff.mpr (Or.inl ⟨e, hfirst, rfl⟩))
    · intro r second w' hsecond
      exact h _ _ _ (hears_bind_iff.mpr (Or.inr ⟨first, a, w₁, second, hfirst, hsecond, rfl⟩))
  · intro h r heard w' hhears
    rcases hears_bind_iff.mp hhears with ⟨e, hfirst, rfl⟩ |
      ⟨first, a, w₁, second, hfirst, hsecond, rfl⟩
    · exact h _ _ _ hfirst
    · exact h _ _ _ hfirst _ _ _ hsecond

/-- An attempt has the exchanges of the service, and its outcome as its value. -/
theorem hears_attempt_iff {x : Service α} {w w' : World} {heard : List Exchange}
    {r : Except Failure (Except Failure α)} : (attempt x).Hears w heard r w' ↔
      ∃ outcome, r = .ok outcome ∧ x.Hears w heard outcome w' := by
  have hrun : ExceptT.run (attempt x) = x.run.bind fun r => .done (.ok r) := rfl
  unfold Hears
  rw [hrun]
  refine Prog.hears_bind_iff.trans ?_
  constructor
  · rintro ⟨first, outcome, w₁, second, hfirst, hsecond, rfl⟩
    cases hsecond
    rw [List.append_nil]
    exact ⟨outcome, rfl, hfirst⟩
  · rintro ⟨outcome, rfl, hheard⟩
    exact ⟨heard, outcome, w', [], hheard, .done (Except.ok outcome) w',
      (List.append_nil _).symm⟩

theorem told_attempt (x : Service α)
    (post : Except Failure (Except Failure α) → List Exchange → World → Prop) :
    (attempt x).Told w post ↔ x.Told w fun r heard w' => post (.ok r) heard w' := by
  constructor
  · exact fun h r heard w' hheard => h _ _ _ (hears_attempt_iff.mpr ⟨r, rfl, hheard⟩)
  · intro h r heard w' hheard
    obtain ⟨outcome, rfl, houtcome⟩ := hears_attempt_iff.mp hheard
    exact h _ _ _ houtcome

theorem told_ask (s : Step) (post : Except Failure s.Reply → List Exchange → World → Prop) :
    (ask s).Told w post ↔
      ∀ r w', w.Meets World.anyCall s r w' → post (.ok r) [⟨s, r, w, w'⟩] w' := by
  constructor
  · exact fun h r w' meets => h _ _ _ (.step meets (.done (Except.ok r) w'))
  · intro h r heard w' hhears
    obtain ⟨r, w₁, rest, meets, hrest, rfl⟩ := Prog.hears_step_iff.mp hhears
    cases hrest
    exact h _ _ meets

/-- A step that is no call is answered by the world. -/
theorem told_ask_own {s : Step} (own : ∀ c, s ≠ .call c)
    (post : Except Failure s.Reply → List Exchange → World → Prop) :
    (ask s).Told w post ↔
      post (.ok (w.answer s).1) [⟨s, (w.answer s).1, w, (w.answer s).2⟩] (w.answer s).2 := by
  rw [told_ask]
  constructor
  · exact fun h => h _ _ (.own own)
  · intro h r w' meets
    cases meets with
    | call answers => exact absurd rfl (own _)
    | own _ => exact h

theorem told_ask_call (c : Call)
    (post : Except Failure (Except Outage c.Reply) → List Exchange → World → Prop) :
    (ask (.call c)).Told w post ↔ ∀ r w', w.Answers World.anyCall c r w' →
      post (.ok r) [⟨.call c, r, w, w'⟩] w' := by
  refine (told_ask w _ _).trans (forall_congr' fun r => forall_congr' fun w' => ?_)
  refine ⟨fun h answers => h (.call answers), fun h meets => ?_⟩
  cases meets with
  | call answers => exact h answers
  | own own => exact absurd rfl (own c)

theorem told_call (c : Call) (blame : Outage → Failure)
    (post : Except Failure c.Reply → List Exchange → World → Prop) :
    (call c blame).Told w post ↔ ∀ r w', w.Answers World.anyCall c r w' →
      post (Except.mapError blame r) [⟨.call c, r, w, w'⟩] w' := by
  unfold call
  rw [told_bind]
  refine (told_ask_call w c _).trans (forall_congr' fun r => forall_congr' fun w' => ?_)
  refine imp_congr_right fun _ => ?_
  rcases r with o | v
  · exact told_throw _ _ _
  · exact told_pure _ _ _

end Service

end TenantSearch
