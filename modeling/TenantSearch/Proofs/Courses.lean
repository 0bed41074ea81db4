-- Calls of several callers in one process, whose steps come in any order. A course
-- tells who took which step and what became of it. What a program keeps to, whatever
-- it is answered, it keeps to on every course.
import Mathlib.Data.List.Induction
import Mathlib.Logic.Function.Basic
import TenantSearch.Proofs.DocumentWrites
import TenantSearch.Proofs.SideBySide

namespace TenantSearch

/-! ## The latest of a kind -/

/-- The latest in a list that has a property. -/
def Latest {α : Type} (p : α → Prop) (l : List α) (a : α) : Prop :=
  ∃ earlier later, l = earlier ++ a :: later ∧ p a ∧ ∀ b ∈ later, ¬ p b

section

variable {α : Type} {p : α → Prop} {l : List α} {a b : α}

theorem Latest.mem (h : Latest p l a) : a ∈ l ∧ p a := by
  obtain ⟨earlier, later, rfl, ha, -⟩ := h
  exact ⟨List.mem_append_right _ List.mem_cons_self, ha⟩

theorem latest_snoc (h : p b) : Latest p (l ++ [b]) b :=
  ⟨l, [], rfl, h, fun _ hc => absurd hc List.not_mem_nil⟩

theorem Latest.snoc (h : Latest p l a) (hb : ¬ p b) : Latest p (l ++ [b]) a := by
  obtain ⟨earlier, later, rfl, ha, hlater⟩ := h
  refine ⟨earlier, later ++ [b], by simp, ha, fun c hc => ?_⟩
  rcases List.mem_append.mp hc with hc | hc
  · exact hlater c hc
  · exact List.mem_singleton.mp hc ▸ hb

/-- The last of a list is the latest, unless it does not have the property. -/
theorem latest_snoc_iff : Latest p (l ++ [b]) a ↔ p b ∧ a = b ∨ ¬ p b ∧ Latest p l a := by
  constructor
  · rintro ⟨earlier, later, hl, ha, hlater⟩
    rcases List.eq_nil_or_concat later with rfl | ⟨rest, c, rfl⟩
    · obtain ⟨rfl, hab⟩ := List.append_inj' hl rfl
      obtain rfl := List.singleton_inj.mp hab
      exact Or.inl ⟨ha, rfl⟩
    · rw [List.concat_eq_append] at hl hlater
      rw [← List.cons_append, ← List.append_assoc] at hl
      obtain ⟨rfl, hbc⟩ := List.append_inj' hl rfl
      obtain rfl := List.singleton_inj.mp hbc
      refine Or.inr ⟨hlater b (List.mem_append_right _ List.mem_cons_self), earlier, rest, rfl, ha,
        ?_⟩
      exact fun c hc => hlater c (List.mem_append_left _ hc)
  · rintro (⟨hb, rfl⟩ | ⟨hb, h⟩)
    · exact latest_snoc hb
    · exact h.snoc hb

theorem exists_latest (ha : a ∈ l) (h : p a) : ∃ b, Latest p l b := by
  induction l using List.reverseRecOn generalizing a with
  | nil => exact absurd ha List.not_mem_nil
  | append_singleton l b ih =>
    by_cases hb : p b
    · exact ⟨b, latest_snoc hb⟩
    · rcases List.mem_append.mp ha with ha | ha
      · obtain ⟨c, hc⟩ := ih ha h
        exact ⟨c, hc.snoc hb⟩
      · exact absurd (List.mem_singleton.mp ha ▸ h) hb

end

/-! ## Courses -/

/-- The program of a call. -/
def IndexingCall.program : IndexingCall → Prog Unit
  | .upsert document => (fun _ => ()) <$> (Indexing.upsert document).run
  | .write document => (fun _ => ()) <$> (Store.write document).run
  | .reindex solutionId entityName pageSize cutoff =>
    (fun _ => ()) <$> (Reindex.stale solutionId entityName pageSize cutoff).run

/-- A step that one of several programs took: the number of the program, what the step
was answered, and the worlds before and after it. -/
structure Act where
  actor : Nat
  step : Step
  reply : step.Reply
  before : World
  after : World

/-- What may become of a step in a world in which others add rows: a bound on the rows
may be any number. -/
inductive World.MeetsAmid (frail : Call → Prop) (w : World) :
    (s : Step) → s.Reply → World → Prop
  | met {s : Step} {r : s.Reply} {w' : World} (meets : w.Meets frail s r w') :
      MeetsAmid frail w s r w'
  | bounded (bound : Nat) : MeetsAmid frail w .rowBound bound w

theorem World.Meets.answers {frail : Call → Prop} {w w' : World} {c : Call}
    {r : Except Outage c.Reply} (h : w.Meets frail (.call c) r w') : w.Answers frail c r w' := by
  cases h with
  | own own => exact absurd rfl (own c)
  | call answers => exact answers

theorem World.MeetsAmid.answers {frail : Call → Prop} {w w' : World} {c : Call}
    {r : Except Outage c.Reply} (h : w.MeetsAmid frail (.call c) r w') :
    w.Answers frail c r w' := by
  cases h with
  | met meets => exact meets.answers

namespace Crew

/-- Programs side by side of which none has begun. -/
def begin (programs : List (Prog Unit)) (w : World) : Crew where
  programs := programs
  held := []
  world := w

/-- Every program has come to its end. -/
def Done (c : Crew) : Prop := ∀ p ∈ c.programs, p = .done ()

/-- By these acts, one after the other, programs side by side get from where they stand
to somewhere else. -/
inductive Course (around : Surroundings) (t : Crew) : List Act → Crew → Prop
  | still : Course around t [] t
  | next {acts : List Act} {u : Crew} {number : Nat} {s : Step} {next : s.Reply → Prog Unit}
      {r : s.Reply} {held : List String} {w : World} (course : Course around t acts u)
      (turn : u.programs[number]? = some (.step s next)) (locks : Locks s u.held held)
      (meets : around u.world s r w) :
      Course around t (acts ++ [⟨number, s, r, u.world, w⟩])
        ⟨u.programs.set number (next r), held, w⟩

variable {around : Surroundings} {t u : Crew} {acts : List Act}

theorem Course.mono {around' : Surroundings} (h : t.Course around acts u)
    (himp : ∀ w s r w', around w s r w' → around' w s r w') : t.Course around' acts u := by
  induction h with
  | still => exact .still
  | next _ turn locks meets ih => exact ih.next turn locks (himp _ _ _ _ meets)

/-- One course and then another. -/
theorem Course.trans {v : Crew} {more : List Act} (h : t.Course around acts u)
    (h' : u.Course around more v) : t.Course around (acts ++ more) v := by
  induction h' with
  | still =>
    rw [List.append_nil]
    exact h
  | next _ turn locks meets ih =>
    rw [← List.append_assoc]
    exact ih.next turn locks meets

/-- Every act is one that may be. -/
theorem Course.meets (h : t.Course around acts u) :
    ∀ a ∈ acts, around a.before a.step a.reply a.after := by
  induction h with
  | still => exact fun a ha => absurd ha List.not_mem_nil
  | next _ _ _ meets ih =>
    intro a ha
    rcases List.mem_append.mp ha with ha | ha
    · exact ih a ha
    · exact List.mem_singleton.mp ha ▸ meets

theorem Course.actor_lt (h : t.Course around acts u) : ∀ a ∈ acts, a.actor < u.programs.length := by
  induction h with
  | still => exact fun a ha => absurd ha List.not_mem_nil
  | next _ turn _ _ ih =>
    intro a ha
    dsimp only
    rw [List.length_set]
    rcases List.mem_append.mp ha with ha | ha
    · exact ih a ha
    · exact List.mem_singleton.mp ha ▸ (List.getElem?_eq_some_iff.mp turn).1

theorem Course.length (h : t.Course around acts u) : u.programs.length = t.programs.length := by
  induction h with
  | still => rfl
  | next _ _ _ _ ih => exact List.length_set.trans ih

end Crew

/-! ## Contracts on a course -/

/-- The answer of an act is as a contract promises. -/
def Act.Honors (k : Contract) : Act → Prop
  | ⟨_, .call c, r, _, _⟩ => ∀ v, r = .ok v → k.promises c v
  | _ => True

theorem Act.honors_only (a : Act) (allows : Call → Prop) : a.Honors (.only allows) := by
  obtain ⟨actor, s, r, before, after⟩ := a
  cases s with
  | call c => exact fun _ _ => trivial
  | _ => trivial

namespace Prog

variable {α : Type} {k : Contract} {post : α → Prop}

theorem Keeps.next {s : Step} {next : s.Reply → Prog α} (h : (Prog.step s next).Keeps k post)
    {number : Nat} {r : s.Reply} {w w' : World} (honors : Act.Honors k ⟨number, s, r, w, w'⟩) :
    (next r).Keeps k post := by
  cases s with
  | call c => exact h.2 r honors
  | _ => exact h r

end Prog

/-- As long as its answers are as promised, a program keeps its contract on a course. -/
theorem Crew.Course.keeps {around : Surroundings} {t u : Crew} {acts : List Act}
    (h : t.Course around acts u) {k : Contract} {post : Unit → Prop} {number : Nat}
    (keeps : ∀ p, t.programs[number]? = some p → p.Keeps k post)
    (honors : ∀ a ∈ acts, a.actor = number → a.Honors k) :
    ∀ p, u.programs[number]? = some p → p.Keeps k post := by
  induction h with
  | still => exact keeps
  | @next acts u other s next r held w course turn locks meets ih =>
    have hbefore := ih fun a ha => honors a (List.mem_append_left _ ha)
    intro p hp
    by_cases hother : other = number
    · subst hother
      have hlt := (List.getElem?_eq_some_iff.mp turn).1
      rw [List.getElem?_set_self hlt] at hp
      cases hp
      exact (hbefore _ turn).next (honors _ (List.mem_append_right _ List.mem_cons_self) rfl)
    · rw [List.getElem?_set_ne hother] at hp
      exact hbefore p hp

/-- Documents are saved only after they were checked. -/
def stamping : Contract := .only fun c => match c with
  | .database (.commit _ document stamp) => IsStamped document stamp
  | _ => True

theorem stamping_admits : stamping.Admits fun _ => True where
  free := by
    refine ⟨fun c hc => ?_, fun _ _ => trivial⟩
    cases c with
    | engine c => trivial
    | queue c => trivial
    | database c => cases c <;> trivial
  put _ _ _ _ _ _ := trivial
  save _ _ _ _ h _ := h
  saved _ _ _ _ _ _ _ := trivial
  page _ _ _ _ _ _ _ _ _ := trivial

/-- Under a contract that admits the document that is handed in, a call keeps it. -/
theorem IndexingCall.keeps {k : Contract} {kind : Fields → Prop} (hk : k.Admits kind)
    (c : IndexingCall) (hkind : ∀ d, c.document? = some d → kind d) :
    c.program.Keeps k fun _ => True := by
  have hlast {α : Type} {x : Service α} (hx : x.Within k) :
      ((fun _ => ()) <$> x.run).Keeps k fun _ => True := by
    unfold Service.Within Service.Keeps at hx
    exact hx.bind fun _ _ => trivial
  cases c with
  | upsert document =>
    exact hlast (upsert_within hk.free fun _ _ _ => hk.put _ _ _ _ (hkind document rfl))
  | write document => exact hlast (write_within hk (hkind document rfl))
  | reindex solutionId entityName pageSize cutoff =>
    exact hlast (stale_within hk solutionId entityName pageSize cutoff)

/-! ## Disciplines -/

/-- What a program may do next by what it has come to, and what it comes to by the
answer. -/
structure Discipline (σ : Type) where
  allows : σ → Step → Prop
  passes : σ → (s : Step) → s.Reply → σ → Prop

namespace Prog

variable {α β σ : Type} {d : Discipline σ}

/-- The program keeps to the discipline from here on, and in the end this holds of its
value and what it has come to. -/
def Obeys (d : Discipline σ) (post : α → σ → Prop) : Prog α → σ → Prop
  | .done a, x => post a x
  | .step s next, x => d.allows x s ∧ ∀ r x', d.passes x s r x' → (next r).Obeys d post x'

theorem obeys_bind (p : Prog α) (f : α → Prog β) (post : β → σ → Prop) (x : σ) :
    (p.bind f).Obeys d post x ↔ p.Obeys d (fun a x => (f a).Obeys d post x) x := by
  induction p generalizing x with
  | done a => rfl
  | step s next ih =>
    unfold Prog.bind Obeys
    simp only [ih]

theorem Obeys.mono {p : Prog α} {post post' : α → σ → Prop} {x : σ} (h : p.Obeys d post x)
    (himp : ∀ a x, post a x → post' a x) : p.Obeys d post' x := by
  induction p generalizing x with
  | done a => exact himp a x h
  | step s next ih => exact ⟨h.1, fun r x' hpasses => ih r (h.2 r x' hpasses)⟩

end Prog

namespace Service

variable {α β σ : Type} {d : Discipline σ}

/-- A service that keeps to a discipline. -/
def Obeys (d : Discipline σ) (x : Service α) (state : σ) (post : Except Failure α → σ → Prop) :
    Prop := Prog.Obeys d post x.run state

variable (state : σ)

theorem Obeys.mono {x : Service α} {state : σ} {post post' : Except Failure α → σ → Prop}
    (h : x.Obeys d state post) (himp : ∀ r state, post r state → post' r state) :
    x.Obeys d state post' := Prog.Obeys.mono h himp

@[simp]
theorem obeys_orFail (outcome : Except Failure α) (post : Except Failure α → σ → Prop) :
    (orFail outcome).Obeys d state post ↔ post outcome state := Iff.rfl

@[simp]
theorem obeys_orBroken (outcome : Except Breakage α) (post : Except Failure α → σ → Prop) :
    (orBroken outcome).Obeys d state post ↔ post (outcome.mapError .broken) state := Iff.rfl

@[simp]
theorem obeys_bind (x : Service α) (f : α → Service β) (post : Except Failure β → σ → Prop) :
    (x >>= f).Obeys d state post ↔ x.Obeys d state fun r state' =>
      match r with
      | .ok a => (f a).Obeys d state' post
      | .error e => post (.error e) state' := by
  unfold Obeys
  rw [ExceptT.run_bind]
  refine (Prog.obeys_bind _ _ _ _).trans ?_
  refine iff_of_eq (congrArg (fun q => Prog.Obeys d q x.run state) ?_)
  funext r state'
  rcases r with e | a
  · rfl
  · rfl

@[simp]
theorem obeys_attempt (x : Service α) (post : Except Failure (Except Failure α) → σ → Prop) :
    (attempt x).Obeys d state post ↔ x.Obeys d state fun r state' => post (.ok r) state' := by
  unfold Obeys attempt
  have hrun : ExceptT.run (ExceptT.lift (m := Prog) (ε := Failure) x.run) =
      x.run.bind fun r => .done (.ok r) := rfl
  rw [hrun, Prog.obeys_bind]
  rfl

@[simp]
theorem obeys_ask (s : Step) (post : Except Failure s.Reply → σ → Prop) :
    (ask s).Obeys d state post ↔ d.allows state s ∧
      ∀ r state', d.passes state s r state' → post (.ok r) state' := Iff.rfl

theorem obeys_memory (post : Except Failure IndexMemory → σ → Prop) :
    memory.Obeys d state post ↔ d.allows state .recall ∧
      ∀ (m : IndexMemory) state', d.passes state .recall m state' → post (.ok m) state' := Iff.rfl

theorem obeys_change (c : MemoryChange) (post : Except Failure Unit → σ → Prop) :
    (change c).Obeys d state post ↔ d.allows state (.change c) ∧
      ∀ (r : Unit) state', d.passes state (.change c) r state' → post (.ok r) state' := Iff.rfl

theorem obeys_call (c : Call) (blame : Outage → Failure)
    (post : Except Failure c.Reply → σ → Prop) :
    (call c blame).Obeys d state post ↔ d.allows state (.call c) ∧
      ∀ (r : Except Outage c.Reply) state', d.passes state (.call c) r state' →
        post (r.mapError blame) state' := by
  unfold call
  rw [obeys_bind, obeys_ask]
  refine and_congr_right fun _ => forall_congr' fun r => forall_congr' fun state' =>
    imp_congr_right fun _ => ?_
  rcases r with o | v
  · rfl
  · rfl

/-- Under a lock: it is taken, the service runs, and it is given back whatever became of
that. -/
theorem obeys_locked (index : String) (x : Service α) (post : Except Failure α → σ → Prop) :
    (locked index x).Obeys d state post ↔ d.allows state (.acquire index) ∧
      ∀ r entered, d.passes state (.acquire index) r entered →
        x.Obeys d entered fun outcome left => d.allows left (.release index) ∧
          ∀ r after, d.passes left (.release index) r after → post outcome after := by
  refine (obeys_bind state (ask (.acquire index)) _ _).trans ?_
  refine and_congr_right fun _ => forall_congr' fun r => forall_congr' fun entered =>
    imp_congr_right fun _ => ?_
  refine (obeys_bind entered (attempt x) _ _).trans ((obeys_attempt entered x _).trans ?_)
  exact iff_of_eq (congrArg (Obeys d x entered) (funext fun outcome => funext fun left =>
    propext (obeys_bind left (ask (.release index)) _ _)))

end Service

/-- Where every allowed step lets the one who takes it come to something new, so that
the invariant lasts, programs that keep to a discipline do so on every course. -/
theorem Crew.Course.obeys {around : Surroundings} {t u : Crew} {acts : List Act}
    (h : t.Course around acts u) {σ : Type} {d : Discipline σ} {post : Unit → σ → Prop}
    (inv : List Act → List String → World → (Nat → σ) → Prop) (first : Nat → σ)
    (obeys : ∀ number (p : Prog Unit), t.programs[number]? = some p →
      p.Obeys d post (first number))
    (start : inv [] t.held t.world first)
    (step : ∀ {acts : List Act} {held held' : List String} {w w' : World} {states : Nat → σ}
      {number : Nat} {s : Step} {r : s.Reply}, number < t.programs.length →
      inv acts held w states → d.allows (states number) s → Locks s held held' →
      around w s r w' → ∃ after, d.passes (states number) s r after ∧
        inv (acts ++ [⟨number, s, r, w, w'⟩]) held' w' (Function.update states number after)) :
    ∃ states, inv acts u.held u.world states ∧
      ∀ number (p : Prog Unit), u.programs[number]? = some p →
        p.Obeys d post (states number) := by
  induction h with
  | still => exact ⟨first, start, obeys⟩
  | @next acts u number s next r held w course turn locks meets ih =>
    obtain ⟨states, hinv, hall⟩ := ih
    have hlt : number < u.programs.length := (List.getElem?_eq_some_iff.mp turn).1
    obtain ⟨hallows, hnext⟩ := hall number _ turn
    obtain ⟨after, hpasses, hafter⟩ := step (course.length ▸ hlt) hinv hallows locks meets
    refine ⟨_, hafter, fun other p hp => ?_⟩
    dsimp only at hp
    by_cases hother : number = other
    · subst hother
      rw [List.getElem?_set_self hlt] at hp
      cases hp
      rw [Function.update_self]
      exact hnext r after hpasses
    · rw [List.getElem?_set_ne hother] at hp
      rw [Function.update_of_ne (Ne.symm hother)]
      exact hall other p hp

/-! ## The record table on a course -/

/-- Only a commit changes the records. -/
theorem World.Meets.committing {frail : Call → Prop} {w w' : World} {s : Step} {r : s.Reply}
    (h : w.Meets frail s r w') : w'.records = w.records ∨ ∃ found document stamp saved,
      s = .call (.database (.commit found document stamp)) ∧
        w.records.commit found document stamp = .ok (saved, w'.records) := by
  cases h with
  | own own =>
    cases s with
    | call c => exact absurd rfl (own c)
    | _ => exact Or.inl rfl
  | @call c _ _ answers =>
    obtain ⟨plans, rfl | rfl⟩ := answers.world
    · exact Or.inl rfl
    · rcases records_effect (w.calling c plans) c with
        hsame | ⟨found, document, stamp, saved, rfl, hcommit⟩
      · exact Or.inl hsame
      · exact Or.inr ⟨found, document, stamp, saved, rfl, hcommit⟩

theorem World.MeetsAmid.committing {frail : Call → Prop} {w w' : World} {s : Step} {r : s.Reply}
    (h : w.MeetsAmid frail s r w') : w'.records = w.records ∨ ∃ found document stamp saved,
      s = .call (.database (.commit found document stamp)) ∧
        w.records.commit found document stamp = .ok (saved, w'.records) := by
  cases h with
  | met meets => exact meets.committing
  | bounded bound => exact Or.inl rfl

/-- A commit that is answered puts a row into the table. -/
theorem World.MeetsAmid.commit {frail : Call → Prop} {w w' : World} {found : Option Record}
    {document saved : Fields} {stamp : Option Timestamp}
    (h : w.MeetsAmid frail (.call (.database (.commit found document stamp))) (Except.ok saved) w') :
    w.records.commit found document stamp = .ok (saved, w'.records) := by
  obtain ⟨plans, heffect⟩ := h.answers.effect_of_ok
  have hanswer :=
    (answerDatabase_commit (w.calling _ plans) found document stamp).symm.trans heffect
  have hrecords : (w.calling (.database (.commit found document stamp)) plans).records =
      w.records := rfl
  rw [hrecords] at hanswer
  rcases hcommit : w.records.commit found document stamp with o | ⟨version, table⟩
  · rw [hcommit] at hanswer
    cases hanswer
  · rw [hcommit] at hanswer
    cases hanswer
    rfl

/-- A lookup that is answered finds the row of the identifier and leaves the table alone. -/
theorem World.MeetsAmid.lookUp {frail : Call → Prop} {w w' : World} {id : Json}
    {found : Option Record}
    (h : w.MeetsAmid frail (.call (.database (.lookUp id))) (Except.ok found) w') :
    w'.records.rowOf id = .ok found := by
  have hsame : w'.records = w.records := by
    rcases h.committing with hsame | ⟨_, _, _, _, hstep, -⟩
    · exact hsame
    · cases hstep
  obtain ⟨plans, heffect⟩ := h.answers.effect_of_ok
  rw [hsame]
  exact congrArg Prod.fst heffect

namespace Crew

variable {frail : Call → Prop} {calls : List IndexingCall} {w : World} {u : Crew} {acts : List Act}

/-- What a call keeps by itself it keeps among others, as long as its answers are as
promised. -/
theorem Course.keeps_call {around : Surroundings}
    (h : (begin (calls.map (·.program)) w).Course around acts u) {k : Contract} {number : Nat}
    (keeps : ∀ c, calls[number]? = some c → c.program.Keeps k fun _ => True)
    (honors : ∀ a ∈ acts, a.actor = number → a.Honors k) :
    ∀ p, u.programs[number]? = some p → p.Keeps k fun _ => True := by
  refine h.keeps (fun p hp => ?_) honors
  have hmap : (calls.map (·.program))[number]? = some p := hp
  rw [List.getElem?_map] at hmap
  obtain ⟨c, hc, rfl⟩ := Option.map_eq_some_iff.mp hmap
  exact keeps c hc

/-- Every document that a call is about to commit was checked. -/
theorem Course.stamped {around : Surroundings}
    (h : (begin (calls.map (·.program)) w).Course around acts u) {number : Nat}
    {found : Option Record} {document : Fields} {stamp : Option Timestamp}
    {next : Step.Reply (.call (.database (.commit found document stamp))) → Prog Unit}
    (turn : u.programs[number]? =
      some (.step (.call (.database (.commit found document stamp))) next)) :
    IsStamped document stamp := by
  have hkeeps : ∀ p, u.programs[number]? = some p → p.Keeps stamping fun _ => True :=
    h.keeps_call (fun c _ => c.keeps stamping_admits fun _ _ => trivial)
      (fun a _ _ => Act.honors_only a _)
  exact (hkeeps _ turn).1

/-- The table stays sound. -/
theorem Course.sound (h : (begin (calls.map (·.program)) w).Course (World.MeetsAmid frail) acts u)
    (hw : w.records.Sound) :
    u.world.records.Sound ∧ ∀ a ∈ acts, a.before.records.Sound := by
  induction h with
  | still => exact ⟨hw, fun a ha => absurd ha List.not_mem_nil⟩
  | next course turn _ meets ih =>
    obtain ⟨hsound, hacts⟩ := ih
    refine ⟨?_, fun a ha => ?_⟩
    · rcases meets.committing with hsame | ⟨found, document, stamp, saved, rfl, hcommit⟩
      · exact hsame ▸ hsound
      · exact hsound.commit (course.stamped turn) hcommit
    · rcases List.mem_append.mp ha with ha | ha
      · exact hacts a ha
      · exact List.mem_singleton.mp ha ▸ hsound

end Crew

/-! ## Courses that are played -/

namespace Crew

/-- The locks after a step, unless it has to wait. -/
def lockedBy (held : List String) : Step → Option (List String)
  | .acquire index => if held.contains index then none else some (index :: held)
  | .release index => some (held.erase index)
  | _ => some held

theorem locks_of_lockedBy {s : Step} {held held' : List String}
    (h : lockedBy held s = some held') : Locks s held held' := by
  cases s with
  | acquire index =>
    dsimp only [lockedBy] at h
    split at h
    · cases h
    · next hfree =>
      cases h
      exact .acquire (mt List.contains_iff_mem.mpr hfree)
  | release index =>
    cases h
    exact .release
  | _ =>
    cases h
    exact .plain id

/-- The program of a number takes a step, as the world answers it. -/
def play (c : Crew) (number : Nat) : Option (Act × Crew) :=
  match c.programs[number]? with
  | some (.step s next) =>
    (lockedBy c.held s).map fun held =>
      let (r, w) := c.world.answer s
      (⟨number, s, r, c.world, w⟩, ⟨c.programs.set number (next r), held, w⟩)
  | _ => none

/-- The programs of these numbers take a step each, one after the other. -/
def playAll (c : Crew) : List Nat → Option (List Act × Crew)
  | [] => some ([], c)
  | number :: rest => do
    let (act, c) ← c.play number
    let (acts, c) ← c.playAll rest
    pure (act :: acts, c)

/-- Where the world itself may answer every step, a step that is played is one of those
that may be taken. -/
theorem course_of_play {frail : Call → Prop} {c c' : Crew} {number : Nat} {act : Act}
    (planned : c.world.Plans frail) (h : c.play number = some (act, c')) :
    c.Course (World.Meets frail) [act] c' ∧ c'.world.Plans frail := by
  unfold play at h
  split at h
  · next s next hturn =>
    obtain ⟨held, hheld, hplayed⟩ := Option.map_eq_some_iff.mp h
    cases hplayed
    exact ⟨Course.still.next hturn (locks_of_lockedBy hheld) (planned.meets s), planned.answer s⟩
  · cases h

/-- What is played where outages are planned for frail calls only is a course. -/
theorem course_of_playAll {frail : Call → Prop} {c c' : Crew} {numbers : List Nat}
    {acts : List Act} (planned : c.world.Plans frail)
    (h : c.playAll numbers = some (acts, c')) : c.Course (World.Meets frail) acts c' := by
  induction numbers generalizing c acts with
  | nil =>
    cases h
    exact .still
  | cons number rest ih =>
    obtain ⟨⟨act, c₁⟩, hplay, h⟩ := Option.bind_eq_some_iff.mp h
    obtain ⟨⟨acts', c₂⟩, hrest, h⟩ := Option.bind_eq_some_iff.mp h
    cases h
    obtain ⟨hfirst, hplanned⟩ := course_of_play planned hplay
    exact hfirst.trans (ih hplanned hrest)

/-- A course that can be played passes every check that holds of what is played. -/
theorem exists_course {frail : Call → Prop} {c : Crew} (numbers : List Nat)
    (planned : c.world.Plans frail) {check : List Act → Crew → Bool}
    (h : ((c.playAll numbers).map fun played => check played.1 played.2) = some true) :
    ∃ acts u, c.Course (World.Meets frail) acts u ∧ check acts u = true := by
  obtain ⟨⟨acts, u⟩, hplayed, hcheck⟩ := Option.map_eq_some_iff.mp h
  exact ⟨acts, u, course_of_playAll planned hplayed, hcheck⟩

/-- Whether every program has come to its end. -/
def isDone (c : Crew) : Bool := c.programs.all fun
  | .done _ => true
  | .step _ _ => false

theorem done_of_isDone {c : Crew} (h : c.isDone = true) : c.Done := by
  intro p hp
  have hdone := List.all_eq_true.mp h p hp
  cases p with
  | done a => rfl
  | step s next => cases hdone

end Crew

end TenantSearch
