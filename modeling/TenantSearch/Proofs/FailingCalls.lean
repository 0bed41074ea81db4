-- What a program can go through when calls fail in any pattern. A call that
-- fails may do so before it takes effect, or after it took effect, and then
-- nobody learns that it did.
import TenantSearch.Proofs.CallEffects
import TenantSearch.Proofs.Surroundings

namespace TenantSearch

/-! ## Planned outages -/

namespace OutagePlan

/-- A call that meets an outage has a plan. -/
theorem exists_of_met {call : String} {plans : List OutagePlan} {o : Outage}
    (h : (meetAll call plans).1 = some o) : ∃ plan ∈ plans, plan.call = call := by
  induction plans with
  | nil => cases h
  | cons plan rest ih =>
    unfold meetAll at h
    split at h
    · next hname => exact ⟨plan, List.mem_cons_self, beq_iff_eq.mp hname⟩
    · obtain ⟨other, hother, hname⟩ := ih h
      exact ⟨other, List.mem_cons_of_mem _ hother, hname⟩

/-- A call uses up plans but makes no new ones. -/
theorem calls_meetAll (call : String) (plans : List OutagePlan) :
    (meetAll call plans).2.map (·.call) = plans.map (·.call) := by
  induction plans with
  | nil => rfl
  | cons plan rest ih =>
    have hmeet : plan.meet.2.call = plan.call := by
      unfold meet
      split
      · rfl
      · split
        · rfl
        · rfl
        · rfl
    unfold meetAll
    split
    · rw [List.map_cons, hmeet, List.map_cons]
    · rw [List.map_cons, ih, List.map_cons]

end OutagePlan

/-- No call fails. -/
def noCall : Call → Prop := fun _ => False

namespace World

/-! ## What may become of a call -/

/-- The world in which a call is written down, with these outages planned for
the calls to come. -/
def calling (w : World) (c : Call) (plans : List OutagePlan) : World :=
  { w with log := w.log ++ [c], plans }

/-- What may become of a call when the frail calls may fail: it takes effect and
is answered, it fails before it takes effect, or its answer is lost. -/
inductive Answers (frail : Call → Prop) (w : World) (c : Call) :
    Except Outage c.Reply → World → Prop
  | answered (plans : List OutagePlan) :
      Answers frail w c ((w.calling c plans).effect c).1 ((w.calling c plans).effect c).2
  | failed (o : Outage) (plans : List OutagePlan) (may : frail c) :
      Answers frail w c (.error o) (w.calling c plans)
  | lost (o : Outage) (plans : List OutagePlan) (may : frail c) :
      Answers frail w c (.error o) ((w.calling c plans).effect c).2

/-- Every call may fail. -/
def anyCall : Call → Prop := fun _ => True

section

variable {frail : Call → Prop} {w w' : World} {c : Call} {r : Except Outage c.Reply}

/-- Where outages are planned for frail calls only, what becomes of a call is one
of these. -/
theorem answers_of_planned (w : World) (c : Call)
    (planned : ∀ plan ∈ w.plans, plan.call = c.name → frail c) :
    w.Answers frail c (w.answerCall c).1 (w.answerCall c).2 := by
  have hnoted : w.noted c = w.calling c (w.meeting c).2 := rfl
  rw [answerCall_eq, hnoted]
  rcases hmet : (w.meeting c).1 with _ | o
  · exact .answered _
  · refine .failed o _ ?_
    unfold meeting at hmet
    split at hmet
    · obtain ⟨plan, hplan, hname⟩ := OutagePlan.exists_of_met hmet
      exact planned plan hplan hname
    · cases hmet

/-- However a call ends, the world is the one in which it is written down, or
the one in which it also took effect. -/
theorem Answers.world (h : w.Answers frail c r w') :
    ∃ plans, w' = w.calling c plans ∨ w' = ((w.calling c plans).effect c).2 := by
  cases h with
  | answered plans => exact ⟨plans, Or.inr rfl⟩
  | failed o plans => exact ⟨plans, Or.inl rfl⟩
  | lost o plans => exact ⟨plans, Or.inr rfl⟩

/-- A call never touches the circumstances, the definitions, the memory or the
identifiers drawn so far. -/
theorem Answers.frame (h : w.Answers frail c r w') :
    ∃ plans engine responses records,
      w' = { w.calling c plans with engine, responses, records } := by
  obtain ⟨plans, rfl | rfl⟩ := h.world
  · exact ⟨plans, w.engine, w.responses, w.records, rfl⟩
  · obtain ⟨engine, responses, records, heffect⟩ := effect_frame (w.calling c plans) c
    exact ⟨plans, engine, responses, records, heffect⟩

theorem Answers.engine (h : w.Answers frail c r w') : EngineChange w.engine c w'.engine := by
  obtain ⟨plans, rfl | rfl⟩ := h.world
  · exact .same
  · exact engine_effect (w.calling c plans) c

/-- Only a commit changes the records. -/
theorem Answers.records (h : w.Answers frail c r w')
    (unsaved : ∀ found document stamp, c ≠ .database (.commit found document stamp)) :
    w'.records = w.records := by
  obtain ⟨plans, rfl | rfl⟩ := h.world
  · rfl
  · rcases records_effect (w.calling c plans) c with hsame | ⟨found, document, stamp, _, hc, -⟩
    · exact hsame
    · exact absurd hc (unsaved found document stamp)

/-- An answer is that of the effect. -/
theorem Answers.effect_of_ok {v : c.Reply} (h : w.Answers frail c (.ok v) w') :
    ∃ plans, (w.calling c plans).effect c = (.ok v, w') := by
  generalize hr : (Except.ok v : Except Outage c.Reply) = r at h
  cases h with
  | answered plans => exact ⟨plans, rfl⟩
  | failed o plans => cases hr
  | lost o plans => cases hr

/-- An engine that answers tells whether an index is there. -/
theorem Answers.hasIndex {index : String} {there : Bool}
    (h : w.Answers frail (.engine (.hasIndex index)) (.ok there) w') :
    there = (w.engine.mapping? index).isSome := by
  obtain ⟨plans, heffect⟩ := h.effect_of_ok
  have hanswer : (Except.ok (w.engine.mapping? index).isSome : Except Outage Bool) = .ok there :=
    congrArg Prod.fst heffect
  exact (Except.ok.inj hanswer).symm

/-- An engine that answers tells the mapping of an index. -/
theorem Answers.mapping {index : String} {mapping : Json}
    (h : w.Answers frail (.engine (.mapping index)) (.ok mapping) w') :
    w.engine.mapping? index = some mapping := by
  obtain ⟨plans, heffect⟩ := h.effect_of_ok
  have hsame : (w.calling (.engine (.mapping index)) plans).engine = w.engine := rfl
  simp only [World.effect, World.answerEngine, hsame] at heffect
  rcases hlive : w.engine.mapping? index with _ | live
  · rw [hlive] at heffect
    cases heffect
  · rw [hlive] at heffect
    cases heffect
    rfl

end

/-! ## What may become of a step -/

/-- What may become of a step: of a call as above; all other steps never fail. -/
inductive Meets (frail : Call → Prop) (w : World) : (s : Step) → s.Reply → World → Prop
  | call {c : Call} {r : Except Outage c.Reply} {w' : World} (answers : w.Answers frail c r w') :
      Meets frail w (.call c) r w'
  | own {s : Step} (own : ∀ c, s ≠ .call c) : Meets frail w s (w.answer s).1 (w.answer s).2

section

variable {frail : Call → Prop} {w w' : World} {s : Step} {r : s.Reply}

theorem Meets.circumstances (h : w.Meets frail s r w') : w'.circumstances = w.circumstances := by
  cases h with
  | call answers =>
    obtain ⟨plans, engine, responses, records, rfl⟩ := answers.frame
    rfl
  | own own =>
    cases s with
    | call c => exact absurd rfl (own c)
    | _ => rfl

theorem Meets.definitions (h : w.Meets frail s r w') : w'.definitions = w.definitions := by
  cases h with
  | call answers =>
    obtain ⟨plans, engine, responses, records, rfl⟩ := answers.frame
    rfl
  | own own =>
    cases s with
    | call c => exact absurd rfl (own c)
    | _ => rfl

/-- Only a call changes the engine. -/
theorem Meets.engine (h : w.Meets frail s r w') :
    w'.engine = w.engine ∨ ∃ c, s = .call c ∧ EngineChange w.engine c w'.engine := by
  cases h with
  | call answers => exact Or.inr ⟨_, rfl, answers.engine⟩
  | own own =>
    cases s with
    | call c => exact absurd rfl (own c)
    | _ => exact Or.inl rfl

theorem Meets.records (h : w.Meets frail s r w')
    (unsaved : ∀ found document stamp, s ≠ .call (.database (.commit found document stamp))) :
    w'.records = w.records := by
  cases h with
  | call answers =>
    exact answers.records fun found document stamp h => unsaved found document stamp (h ▸ rfl)
  | own own =>
    cases s with
    | call c => exact absurd rfl (own c)
    | _ => rfl

/-- Outages are planned for frail calls only. -/
def Plans (w : World) (frail : Call → Prop) : Prop :=
  ∀ c : Call, c.name ∈ w.plans.map (·.call) → frail c

theorem Plans.meets (h : w.Plans frail) (s : Step) :
    w.Meets frail s (w.answer s).1 (w.answer s).2 := by
  cases s with
  | call c =>
    refine .call (answers_of_planned w c fun plan hplan hname => h c ?_)
    exact hname ▸ List.mem_map_of_mem hplan
  | _ => exact .own fun c h => nomatch h

theorem Plans.answer (h : w.Plans frail) (s : Step) :
    (w.answer s).2.Plans frail := by
  cases s with
  | call c =>
    obtain ⟨engine, responses, records, hframe⟩ := answerCall_frame w c
    have hplans : (w.answerCall c).2.plans.map (·.call) = w.plans.map (·.call) := by
      rw [hframe]
      unfold noted meeting
      split
      · exact OutagePlan.calls_meetAll _ _
      · rfl
    have hsame : (w.answer (.call c)).2 = (w.answerCall c).2 := rfl
    unfold Plans
    rw [hsame, hplans]
    exact h
  | _ => exact h

end

end World

/-! ## Runs -/

namespace Prog

variable {α β : Type} {frail : Call → Prop}

/-- A program can go through these moments to its value, from one world to
another. -/
inductive Runs (frail : Call → Prop) : Prog α → World → List Moment → α → World → Prop
  | done (a : α) (w : World) : Runs frail (.done a) w [] a w
  | step {s : Step} {next : s.Reply → Prog α} {w w' w'' : World} {r : s.Reply}
      {moments : List Moment} {a : α} (meets : w.Meets frail s r w')
      (rest : Runs frail (next r) w' moments a w'') :
      Runs frail (.step s next) w (⟨s, w, w'⟩ :: moments) a w''

/-- The worlds whose frail calls may fail are surroundings. -/
theorem runs_iff_through {p : Prog α} {w w' : World} {moments : List Moment} {a : α} :
    p.Runs frail w moments a w' ↔ p.Through (World.Meets frail) w moments a w' := by
  constructor
  · intro h
    induction h with
    | done a w => exact .done a w
    | step meets _ ih => exact .step meets ih
  · intro h
    induction h with
    | done a w => exact .done a w
    | step meets _ ih => exact .step meets ih

/-- What a program does in a world with planned outages is one of the things it
can go through. -/
theorem runs_run_of_plans (p : Prog α) {w : World} (h : w.Plans frail) :
    p.Runs frail w (p.moments w) (p.run w).1 (p.run w).2 := by
  apply runs_iff_through.mpr
  exact p.through_run (fun _ s (h : World.Plans _ frail) => ⟨h.meets s, h.answer s⟩) h

theorem runs_run (p : Prog α) (w : World) :
    p.Runs World.anyCall w (p.moments w) (p.run w).1 (p.run w).2 :=
  p.runs_run_of_plans fun _ _ => trivial

/-- Under a contract only allowed calls are made, whatever becomes of them. -/
theorem Keeps.made_through {around : Surroundings} {allows : Call → Prop} {post : α → Prop}
    {p : Prog α} (hp : p.Keeps (.only allows) post) {w w' : World} {moments : List Moment} {a : α}
    (h : p.Through around w moments a w') :
    ∀ m ∈ moments, ∀ c, m.step = .call c → allows c := by
  induction h with
  | done a w => exact fun m hm => absurd hm List.not_mem_nil
  | @step s next w₁ w₂ w₃ r rest a meets hrest ih =>
    have hnext : (next r).Keeps (.only allows) post := by
      cases s with
      | call c => exact hp.2 r fun _ _ => trivial
      | _ => exact hp r
    intro m hm c hc
    rcases List.mem_cons.mp hm with rfl | hm
    · dsimp only at hc
      subst hc
      exact hp.1
    · exact ih hnext m hm c hc

theorem Keeps.made {allows : Call → Prop} {post : α → Prop} {p : Prog α}
    (hp : p.Keeps (.only allows) post) {w w' : World} {moments : List Moment} {a : α}
    (h : p.Runs frail w moments a w') : ∀ m ∈ moments, ∀ c, m.step = .call c → allows c :=
  hp.made_through (runs_iff_through.mp h)

end Prog

/-! ## From world to world -/

namespace World

variable {frail : Call → Prop} {w w' : World} {moments : List Moment}

/-- These moments lead from one world to another. -/
inductive Goes (frail : Call → Prop) : World → List Moment → World → Prop
  | still (w : World) : Goes frail w [] w
  | step {s : Step} {r : s.Reply} {w w' w'' : World} {moments : List Moment}
      (meets : w.Meets frail s r w') (rest : Goes frail w' moments w'') :
      Goes frail w (⟨s, w, w'⟩ :: moments) w''

/-- What each moment keeps is kept. -/
theorem Goes.lasts (h : Goes frail w moments w') (fact : World → Prop)
    (step : ∀ s r w₁ w₂, ⟨s, w₁, w₂⟩ ∈ moments → w₁.Meets frail s r w₂ → fact w₁ → fact w₂)
    (hw : fact w) : fact w' := by
  induction h with
  | still w => exact hw
  | step meets rest ih =>
    exact ih (fun s r w₁ w₂ hm => step s r w₁ w₂ (List.mem_cons_of_mem _ hm))
      (step _ _ _ _ List.mem_cons_self meets hw)

theorem Goes.circumstances (h : Goes frail w moments w') :
    w'.circumstances = w.circumstances :=
  h.lasts (·.circumstances = w.circumstances)
    (fun _ _ _ _ _ meets hsame => meets.circumstances.trans hsame) rfl

theorem Goes.records (h : Goes frail w moments w')
    (unsaved : ∀ m ∈ moments, ∀ found document stamp,
      m.step ≠ .call (.database (.commit found document stamp))) :
    w'.records = w.records :=
  h.lasts (·.records = w.records)
    (fun _ _ _ _ hm meets hsame => (meets.records (unsaved _ hm)).trans hsame) rfl

/-- A copy that is held in the end was put into its index on the way, or it was
held all along. -/
theorem Goes.copy (h : Goes frail w moments w') {index : String} {key : Json.Key}
    {fields : Fields} (hcopy : w'.engine.copy? index key = some fields) :
    (∃ m ∈ moments, (∃ id, m.step = .call (.engine (.put index id fields))) ∧
        m.after.engine.copy? index key = some fields) ∨
      w.engine.copy? index key = some fields ∧
        ∀ m ∈ moments, m.after.engine.copy? index key = some fields := by
  induction h with
  | still w => exact Or.inr ⟨hcopy, fun m hm => absurd hm List.not_mem_nil⟩
  | @step s r w₁ w₂ w₃ moments meets rest ih =>
    rcases ih hcopy with ⟨m, hm, hput⟩ | ⟨hheld, hall⟩
    · exact Or.inl ⟨m, List.mem_cons_of_mem _ hm, hput⟩
    · have hbefore : w₁.engine.copy? index key = some fields ∨
          ∃ id, s = .call (.engine (.put index id fields)) := by
        rcases meets.engine with hsame | ⟨c, rfl, hchange⟩
        · exact Or.inl (hsame ▸ hheld)
        · exact (hchange.copy hheld).imp_right fun ⟨id, hc, _⟩ => ⟨id, by rw [hc]⟩
      rcases hbefore with hbefore | hput
      · refine Or.inr ⟨hbefore, fun m hm => ?_⟩
        rcases List.mem_cons.mp hm with rfl | hm
        · exact hheld
        · exact hall m hm
      · exact Or.inl ⟨_, List.mem_cons_self, hput, hheld⟩

end World

theorem Prog.Runs.goes {α : Type} {frail : Call → Prop} {p : Prog α} {w w' : World}
    {moments : List Moment} {a : α} (h : p.Runs frail w moments a w') :
    World.Goes frail w moments w' := by
  induction h with
  | done a w => exact .still w
  | step meets _ ih => exact .step meets ih

/-! ## What becomes of a service -/

namespace Service

variable {α β : Type} (frail : Call → Prop)

/-- Whatever becomes of the frail calls, the service ends with an outcome, after
moments and in a world of which this holds. -/
def Ends (x : Service α) (w : World)
    (post : Except Failure α → List Moment → World → Prop) : Prop :=
  ∀ r moments w', Prog.Runs frail x.run w moments r w' → post r moments w'

theorem ends_iff_endsIn {frail : Call → Prop} {x : Service α} {w : World}
    {post : Except Failure α → List Moment → World → Prop} :
    x.Ends frail w post ↔ x.EndsIn (World.Meets frail) w post := by
  unfold Ends EndsIn
  simp only [Prog.runs_iff_through]

theorem Ends.mono {frail : Call → Prop} {x : Service α} {w : World}
    {post post' : Except Failure α → List Moment → World → Prop} (h : x.Ends frail w post)
    (himp : ∀ r moments w', post r moments w' → post' r moments w') : x.Ends frail w post' :=
  fun r moments w' hruns => himp r moments w' (h r moments w' hruns)

theorem ends_orFail (x : Except Failure α) (w : World)
    (post : Except Failure α → List Moment → World → Prop) :
    (orFail x).Ends frail w post ↔ post x [] w :=
  ends_iff_endsIn.trans (endsIn_orFail _ x w post)

theorem ends_pure (a : α) (w : World) (post : Except Failure α → List Moment → World → Prop) :
    (pure a : Service α).Ends frail w post ↔ post (.ok a) [] w := ends_orFail frail (.ok a) w post

theorem ends_throw (f : Failure) (w : World)
    (post : Except Failure α → List Moment → World → Prop) :
    (throw f : Service α).Ends frail w post ↔ post (.error f) [] w :=
  ends_orFail frail (.error f) w post

theorem ends_orBroken (x : Except Breakage α) (w : World)
    (post : Except Failure α → List Moment → World → Prop) :
    (orBroken x).Ends frail w post ↔ post (x.mapError .broken) [] w :=
  ends_orFail frail _ w post

/-- The second service goes on where the first one ends, unless that fails. -/
theorem ends_bind (x : Service α) (f : α → Service β) (w : World)
    (post : Except Failure β → List Moment → World → Prop) :
    (x >>= f).Ends frail w post ↔ x.Ends frail w fun r first w₁ =>
      match r with
      | .ok a => (f a).Ends frail w₁ fun r second w' => post r (first ++ second) w'
      | .error e => post (.error e) first w₁ := by
  simp only [ends_iff_endsIn]
  exact endsIn_bind _ x f w post

theorem ends_attempt (x : Service α) (w : World)
    (post : Except Failure (Except Failure α) → List Moment → World → Prop) :
    (attempt x).Ends frail w post ↔ x.Ends frail w fun r moments w' => post (.ok r) moments w' := by
  simp only [ends_iff_endsIn]
  exact endsIn_attempt _ x w post

theorem ends_ask (s : Step) (w : World)
    (post : Except Failure s.Reply → List Moment → World → Prop) :
    (ask s).Ends frail w post ↔
      ∀ r w', w.Meets frail s r w' → post (.ok r) [⟨s, w, w'⟩] w' :=
  ends_iff_endsIn.trans (endsIn_ask _ s w post)

/-- A step that is no call is answered by the world. -/
theorem ends_ask_own {s : Step} (own : ∀ c, s ≠ .call c) (w : World)
    (post : Except Failure s.Reply → List Moment → World → Prop) :
    (ask s).Ends frail w post ↔
      post (.ok (w.answer s).1) [⟨s, w, (w.answer s).2⟩] (w.answer s).2 := by
  rw [ends_ask]
  constructor
  · exact fun h => h _ _ (.own own)
  · intro h r w' meets
    cases meets with
    | call answers => exact absurd rfl (own _)
    | own _ => exact h

theorem ends_circumstances (w : World)
    (post : Except Failure Circumstances → List Moment → World → Prop) :
    circumstances.Ends frail w post ↔ post (.ok w.circumstances) [⟨.look, w, w⟩] w :=
  have own (c : Call) : Step.look ≠ .call c := nofun
  ends_ask_own frail own w post

theorem ends_call (c : Call) (blame : Outage → Failure) (w : World)
    (post : Except Failure c.Reply → List Moment → World → Prop) :
    (call c blame).Ends frail w post ↔
      ∀ r w', w.Answers frail c r w' → post (r.mapError blame) [⟨.call c, w, w'⟩] w' := by
  refine ends_iff_endsIn.trans ((endsIn_call _ c blame w post).trans ?_)
  refine forall_congr' fun r => forall_congr' fun w' => ⟨fun h answers => h (.call answers), ?_⟩
  intro h meets
  cases meets with
  | call answers => exact h answers
  | own own => exact absurd rfl (own c)

/-- A call that is not frail is answered. -/
theorem ends_call_firm {frail : Call → Prop} {c : Call} (firm : ¬ frail c)
    (blame : Outage → Failure) (w : World)
    (post : Except Failure c.Reply → List Moment → World → Prop) :
    (call c blame).Ends frail w post ↔ ∀ plans,
      post (((w.calling c plans).effect c).1.mapError blame)
        [⟨.call c, w, ((w.calling c plans).effect c).2⟩] ((w.calling c plans).effect c).2 := by
  rw [ends_call]
  constructor
  · exact fun h plans => h _ _ (.answered plans)
  · intro h r w' answers
    cases answers with
    | answered plans => exact h plans
    | failed o plans may => exact absurd may firm
    | lost o plans may => exact absurd may firm

/-- Under a contract only allowed calls are made. -/
theorem Keeps.ends {allows : Call → Prop} {post : α → Prop} {x : Service α}
    (hx : x.Keeps (.only allows) post) (w : World) :
    x.Ends frail w fun _ moments _ => ∀ m ∈ moments, ∀ c, m.step = .call c → allows c := by
  unfold Keeps at hx
  exact fun _ _ _ hruns => hx.made hruns

end Service

end TenantSearch
