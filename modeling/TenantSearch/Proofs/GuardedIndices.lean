-- Programs that look after indices under their locks. Such a program takes one
-- lock at a time and changes only the index of the lock that it holds, so
-- others that do the same cannot change that index under its hands.
import TenantSearch.Proofs.FailingCalls
import TenantSearch.Proofs.SoundMappings

namespace TenantSearch

/-! ## What is remembered -/

namespace IndexMemory

theorem knows_remember (m : IndexMemory) (index other : String) :
    (m.change (.remember index)).knows other = (other == index || m.knows other) := by
  unfold change
  dsimp only
  by_cases hknown : m.knows index = true
  · rw [if_pos hknown]
    by_cases hother : other = index
    · rw [hother, hknown, Bool.or_true]
    · simp [hother]
  · rw [if_neg hknown, Bool.eq_iff_iff]
    simp [knows]

theorem knows_forget (m : IndexMemory) (index other : String) :
    (m.change (.forget index)).knows other = (other != index && m.knows other) := by
  unfold change knows
  rw [Bool.eq_iff_iff]
  simp [and_comm]

theorem marked_remember (m : IndexMemory) (index other : String) :
    (m.change (.remember index)).marked other = m.marked other := by
  unfold change
  dsimp only
  split
  · rfl
  · rfl

theorem marked_eq (m : IndexMemory) (index : String) :
    m.marked index = (valueUnder m.states index).getD .unknown := rfl

theorem marked_mark (m : IndexMemory) (index other : String) (state : IndexState) :
    (m.change (.mark index state)).marked other = if other = index then state else m.marked other := by
  have hfilter := valueUnder_filter (· != index) m.states other
  rw [marked_eq, marked_eq]
  unfold change
  dsimp only
  rw [valueUnder_cons, hfilter]
  by_cases hother : other = index
  · simp [hother]
  · have hne : index ≠ other := fun h => hother h.symm
    simp [hother, hne]

end IndexMemory

/-! ## What an index looks like -/

/-- A step that may change an index: its mapping, or what is remembered of it. -/
def Step.Touches (index : String) : Step → Prop
  | .call (.engine (.create d)) => d.indexName = index
  | .call (.engine (.drop name)) => name = index
  | .change (.remember name) => name = index
  | .change (.forget name) => name = index
  | .change (.mark name _) => name = index
  | .change .forgetAll => True
  | _ => False

/-- What happens to an index: it is deleted, or remembered to be good; a job that
fills it again is queued under its lock; the lock is given back. -/
inductive IndexSign where
  | deleted
  | confirmed
  | backfilled
  | released
deriving DecidableEq, Repr

/-- What an index looks like: its mapping, what is remembered of it, and what
happened to it since its lock was taken. -/
structure IndexView where
  mapping : Option Json
  known : Bool
  marked : IndexState
  backfills : Bool
  signs : List IndexSign

/-- An index that is known to be good has a compatible mapping, and only such an
index is marked as good. -/
structure IndexView.Sound (v : IndexView) : Prop where
  live : v.known = true → isSound v.mapping = true
  honest : v.marked = .good → v.known = true

/-- What an index looks like in a world. -/
def World.view (w : World) (index : String) (signs : List IndexSign) : IndexView where
  mapping := w.engine.mapping? index
  known := w.memory.knows index
  marked := w.memory.marked index
  backfills := w.circumstances.backfills
  signs := signs

/-- What a moment does to an index, whose lock is held or not. -/
def Moment.sign? (index : String) (held : Bool) (m : Moment) : Option IndexSign :=
  match m.step with
  | .call (.engine (.drop name)) =>
    if name = index ∧ (m.before.engine.mapping? index).isSome ∧
      (m.after.engine.mapping? index).isNone then some .deleted else none
  | .call (.queue (.enqueue _)) => if held then some .backfilled else none
  | .change (.remember name) => if name = index then some .confirmed else none
  | .release name => if name = index then some .released else none
  | _ => none

namespace World

variable {frail : Call → Prop} {w w' : World}

theorem view_effect_of_not_touches (w : World) (c : Call) {index : String}
    (h : ¬ (Step.call c).Touches index) (signs : List IndexSign) :
    (w.effect c).2.view index signs = w.view index signs := by
  obtain ⟨engine, responses, records, hframe⟩ := effect_frame w c
  have hmapping : (w.effect c).2.engine.mapping? index = w.engine.mapping? index := by
    have hchange := engine_effect w c
    generalize (w.effect c).2.engine = e at hchange
    cases hchange with
    | same => rfl
    | put put => exact SearchEngine.mapping?_put put index
    | remove key => rfl
    | create => rw [SearchEngine.mapping?_setMapping, if_neg fun heq => h heq.symm]
    | drop => rw [SearchEngine.mapping?_drop, if_neg fun heq => h heq.symm]
    | @unmap i =>
      have hdropped := SearchEngine.mapping?_drop w.engine i index
      rw [if_neg fun heq => h heq.symm] at hdropped
      exact hdropped
  unfold view
  rw [hmapping, hframe]

theorem Answers.view_of_not_touches {c : Call} {r : Except Outage c.Reply}
    (h : w.Answers frail c r w') {index : String} (htouches : ¬ (Step.call c).Touches index)
    (signs : List IndexSign) : w'.view index signs = w.view index signs := by
  obtain ⟨plans, rfl | rfl⟩ := h.world
  · rfl
  · exact view_effect_of_not_touches (w.calling c plans) c htouches signs

/-- A step leaves the indices that it does not touch as they look. -/
theorem Meets.view_of_not_touches {s : Step} {r : s.Reply} (h : w.Meets frail s r w')
    {index : String} (htouches : ¬ s.Touches index) (signs : List IndexSign) :
    w'.view index signs = w.view index signs := by
  cases h with
  | call answers => exact answers.view_of_not_touches htouches signs
  | own own =>
    cases s with
    | call c => exact absurd rfl (own c)
    | change m =>
      unfold view
      simp only [answer]
      cases m with
      | remember name =>
        have hne : (index == name) = false := by simpa using fun heq => htouches heq.symm
        rw [IndexMemory.knows_remember, IndexMemory.marked_remember, hne, Bool.false_or]
      | forget name =>
        have hne : (index != name) = true := by simpa using fun heq => htouches heq.symm
        rw [IndexMemory.knows_forget, hne, Bool.true_and]
        rfl
      | mark name state =>
        rw [IndexMemory.marked_mark, if_neg fun heq => htouches heq.symm]
        rfl
      | forgetAll => exact absurd trivial htouches
    | _ => rfl

end World

/-! ## Holding a lock -/

/-- What can happen to an index while its lock is held: it is left alone, found
to be good, deleted and no more, or created anew after it was deleted, and then
a job is queued that fills it again. -/
inductive IsVisit (backfills : Bool) : List IndexSign → Prop
  | quiet : IsVisit backfills []
  | confirmed : IsVisit backfills [.confirmed]
  | interrupted : IsVisit backfills [.deleted]
  | recreated :
    IsVisit backfills (.deleted :: .confirmed :: if backfills then [.backfilled] else [])

/-- The lock that a program holds, and what the index of the lock looks like. -/
structure Hold where
  index : String
  view : IndexView

/-- The index of a lock looks as its holder has it. -/
def Hold.Agrees (hold : Hold) (w : World) : Prop :=
  w.view hold.index hold.view.signs = hold.view

/-- What the index of a lock looks like after a moment of its holder. -/
def Hold.after (hold : Hold) (m : Moment) : Hold where
  index := hold.index
  view := m.after.view hold.index (hold.view.signs ++ (m.sign? hold.index true).toList)

/-- A step that takes a lock or gives it back. -/
def Step.IsLocking : Step → Prop
  | .acquire _ => True
  | .release _ => True
  | _ => False

/-- What a program may do that holds a lock or none: it takes one lock at a time
and gives it back after a visit, and it changes the index of its lock alone. -/
def Permits : Option Hold → Step → Prop
  | none, .acquire _ => True
  | some _, .acquire _ => False
  | none, .release _ => False
  | some hold, .release index => hold.index = index ∧ IsVisit hold.view.backfills hold.view.signs
  | held, s => ∀ index, s.Touches index → held.map Hold.index = some index

/-- What becomes of a lock in a step: an index whose lock is taken may look like
anything sound, and only the holder changes it from then on. -/
inductive Moves : Option Hold → (s : Step) → s.Reply → Option Hold → Prop
  | acquire {index : String} {v : IndexView} (sound : v.Sound) (fresh : v.signs = []) :
    Moves none (.acquire index) () (some ⟨index, v⟩)
  | release {hold : Hold} {index : String} : Moves (some hold) (.release index) () none
  | free {s : Step} {r : s.Reply} {w w' : World} (plain : ¬ s.IsLocking)
      (meets : w.Meets World.anyCall s r w') : Moves none s r none
  | held {hold : Hold} {s : Step} {r : s.Reply} {w w' : World} (plain : ¬ s.IsLocking)
      (agrees : hold.Agrees w) (meets : w.Meets World.anyCall s r w') :
    Moves (some hold) s r (some (hold.after ⟨s, w, w'⟩))

/-- A program that looks after indices under their locks, with this being so of
its value and its lock in the end. -/
def Prog.Guarded {α : Type} (post : α → Option Hold → Prop) : Prog α → Option Hold → Prop
  | .done a, held => post a held
  | .step s next, held => Permits held s ∧ ∀ r held', Moves held s r held' →
      (∀ hold ∈ held', hold.view.Sound) ∧ (next r).Guarded post held'

theorem Prog.guarded_bind {α β : Type} (p : Prog α) (f : α → Prog β)
    (post : β → Option Hold → Prop) (held : Option Hold) :
    (p.bind f).Guarded post held ↔ p.Guarded (fun a h => (f a).Guarded post h) held := by
  induction p generalizing held with
  | done a => rfl
  | step s next ih =>
    unfold Prog.bind Prog.Guarded
    simp only [ih]

theorem Prog.Guarded.mono {α : Type} {p : Prog α} {post post' : α → Option Hold → Prop}
    {held : Option Hold} (h : p.Guarded post held) (himp : ∀ a h, post a h → post' a h) :
    p.Guarded post' held := by
  induction p generalizing held with
  | done a => exact himp a held h
  | step s next ih =>
    exact ⟨h.1, fun r held' hmoves => ⟨(h.2 r held' hmoves).1, ih r (h.2 r held' hmoves).2⟩⟩

/-! ## Guarded services -/

namespace Service

variable {α β : Type}

/-- A service that looks after indices under their locks. -/
def Guarded (x : Service α) (held : Option Hold)
    (post : Except Failure α → Option Hold → Prop) : Prop := Prog.Guarded post x.run held

theorem Guarded.mono {x : Service α} {held : Option Hold}
    {post post' : Except Failure α → Option Hold → Prop} (h : x.Guarded held post)
    (himp : ∀ r held', post r held' → post' r held') : x.Guarded held post' :=
  Prog.Guarded.mono h himp

variable (held : Option Hold)

@[simp]
theorem guarded_pure (a : α) (post : Except Failure α → Option Hold → Prop) :
    (pure a : Service α).Guarded held post ↔ post (.ok a) held := Iff.rfl

@[simp]
theorem guarded_throw (f : Failure) (post : Except Failure α → Option Hold → Prop) :
    (throw f : Service α).Guarded held post ↔ post (.error f) held := Iff.rfl

@[simp]
theorem guarded_orFail (x : Except Failure α) (post : Except Failure α → Option Hold → Prop) :
    (orFail x).Guarded held post ↔ post x held := Iff.rfl

@[simp]
theorem guarded_orBroken (x : Except Breakage α)
    (post : Except Failure α → Option Hold → Prop) :
    (orBroken x).Guarded held post ↔ post (x.mapError .broken) held := Iff.rfl

@[simp]
theorem guarded_bind (x : Service α) (f : α → Service β)
    (post : Except Failure β → Option Hold → Prop) :
    (x >>= f).Guarded held post ↔ x.Guarded held fun r held' =>
      match r with
      | .ok a => (f a).Guarded held' post
      | .error e => post (.error e) held' := by
  unfold Guarded
  rw [ExceptT.run_bind]
  refine (Prog.guarded_bind _ _ _ _).trans ?_
  refine iff_of_eq (congrArg (fun q => Prog.Guarded q x.run held) ?_)
  funext r held'
  rcases r with e | a
  · rfl
  · rfl

@[simp]
theorem guarded_attempt (x : Service α)
    (post : Except Failure (Except Failure α) → Option Hold → Prop) :
    (attempt x).Guarded held post ↔ x.Guarded held fun r held' => post (.ok r) held' := by
  unfold Guarded attempt
  have hrun : ExceptT.run (ExceptT.lift (m := Prog) (ε := Failure) x.run) =
      x.run.bind fun r => .done (.ok r) := rfl
  rw [hrun, Prog.guarded_bind]
  rfl

@[simp]
theorem guarded_ask (s : Step) (post : Except Failure s.Reply → Option Hold → Prop) :
    (ask s).Guarded held post ↔ Permits held s ∧ ∀ r held', Moves held s r held' →
      (∀ hold ∈ held', hold.view.Sound) ∧ post (.ok r) held' := Iff.rfl

end Service

/-! ## Steps under a lock -/

section

variable {hold : Hold} {w w' : World}

theorem Hold.after_eq (agrees : hold.Agrees w) {s : Step} {r : s.Reply}
    (meets : w.Meets World.anyCall s r w') (htouches : ¬ s.Touches hold.index) :
    hold.after ⟨s, w, w'⟩ = ⟨hold.index, { hold.view with
      signs := hold.view.signs ++ (Moment.sign? hold.index true ⟨s, w, w'⟩).toList }⟩ := by
  have hview := meets.view_of_not_touches htouches hold.view.signs
  rw [agrees] at hview
  rw [← hview]
  rfl

namespace Service

/-- A step under a lock that is not about locks, and changes at most the index of
the lock. -/
theorem guarded_ask_held {s : Step} (plain : ¬ s.IsLocking)
    (own : ∀ index, s.Touches index → hold.index = index)
    {post : Except Failure s.Reply → Option Hold → Prop}
    (h : ∀ w r w', hold.Agrees w → w.Meets World.anyCall s r w' →
      (hold.after ⟨s, w, w'⟩).view.Sound ∧ post (.ok r) (some (hold.after ⟨s, w, w'⟩))) :
    (ask s).Guarded (some hold) post := by
  rw [guarded_ask]
  refine ⟨?_, fun r held' hmoves => ?_⟩
  · have htouches (index : String) (ht : s.Touches index) :
        (some hold).map Hold.index = some index := congrArg some (own index ht)
    cases s with
    | acquire index => exact absurd trivial plain
    | release index => exact absurd trivial plain
    | _ => exact htouches
  · cases hmoves with
    | release => exact absurd trivial plain
    | held _ agrees meets =>
      obtain ⟨hsound, hpost⟩ := h _ _ _ agrees meets
      refine ⟨fun other hother => ?_, hpost⟩
      cases hother
      exact hsound

/-- A step under a lock that changes no index and is no sign leaves all as it
is. -/
theorem guarded_ask_still (sound : hold.view.Sound) {s : Step} (plain : ¬ s.IsLocking)
    (still : ∀ index, ¬ s.Touches index)
    (unseen : ∀ w w', Moment.sign? hold.index true ⟨s, w, w'⟩ = none)
    {post : Except Failure s.Reply → Option Hold → Prop}
    (h : ∀ w r w', hold.Agrees w → w.Meets World.anyCall s r w' → post (.ok r) (some hold)) :
    (ask s).Guarded (some hold) post := by
  refine guarded_ask_held plain (fun index ht => absurd ht (still index)) ?_
  intro w r w' agrees meets
  have hafter : hold.after ⟨s, w, w'⟩ = hold := by
    rw [Hold.after_eq agrees meets (still hold.index), unseen, Option.toList_none, List.append_nil]
  rw [hafter]
  exact ⟨sound, h w r w' agrees meets⟩

/-- A call under a lock that changes at most the index of the lock. -/
theorem guarded_call_held {c : Call} (blame : Outage → Failure)
    (own : ∀ index, (Step.call c).Touches index → hold.index = index)
    {post : Except Failure c.Reply → Option Hold → Prop}
    (h : ∀ w r w', hold.Agrees w → w.Answers World.anyCall c r w' →
      (hold.after ⟨.call c, w, w'⟩).view.Sound ∧
        post (r.mapError blame) (some (hold.after ⟨.call c, w, w'⟩))) :
    (call c blame).Guarded (some hold) post := by
  unfold call
  rw [guarded_bind]
  refine guarded_ask_held id own fun w r w' agrees meets => ?_
  cases meets with
  | own own => exact absurd rfl (own c)
  | call answers =>
    obtain ⟨hsound, hpost⟩ := h w r w' agrees answers
    refine ⟨hsound, ?_⟩
    rcases r with o | v
    · exact hpost
    · exact hpost

/-- A call under a lock that changes no index and is no sign. -/
theorem guarded_call_still (sound : hold.view.Sound) {c : Call} (blame : Outage → Failure)
    (still : ∀ index, ¬ (Step.call c).Touches index)
    (unseen : ∀ w w', Moment.sign? hold.index true ⟨.call c, w, w'⟩ = none)
    {post : Except Failure c.Reply → Option Hold → Prop}
    (h : ∀ w r w', hold.Agrees w → w.Answers World.anyCall c r w' →
      post (r.mapError blame) (some hold)) :
    (call c blame).Guarded (some hold) post := by
  refine guarded_call_held blame (fun index ht => absurd ht (still index)) ?_
  intro w r w' agrees answers
  have hafter : hold.after ⟨.call c, w, w'⟩ = hold := by
    rw [Hold.after_eq agrees (.call answers) (still hold.index), unseen, Option.toList_none,
      List.append_nil]
  rw [hafter]
  exact ⟨sound, h w r w' agrees answers⟩

end Service

end

/-! ## One step of a guarded program -/

/-- Every index that is known to be good is, and only such are marked as good. -/
def World.Honest (w : World) : Prop := ∀ index, (w.view index []).Sound

theorem World.honest_of_fresh {w : World} (h : w.memory = {}) : w.Honest := by
  intro index
  have hknown : (w.view index []).known = false := by
    unfold World.view
    rw [h]
    rfl
  have hmarked : (w.view index []).marked = .unknown := by
    unfold World.view
    rw [h]
    rfl
  exact ⟨fun h => absurd (hknown.symm.trans h) Bool.false_ne_true,
    fun h => nomatch hmarked.symm.trans h⟩

/-- The lock that is held after a moment. -/
def Moment.hold (m : Moment) : Option Hold → Option Hold
  | held => match m.step with
    | .acquire index => some ⟨index, m.after.view index []⟩
    | .release _ => none
    | _ => held.map (·.after m)

theorem Moment.hold_of_plain (m : Moment) (plain : ¬ m.step.IsLocking) (held : Option Hold) :
    m.hold held = held.map (·.after m) := by
  obtain ⟨s, w, w'⟩ := m
  cases s with
  | acquire index => exact absurd trivial plain
  | release index => exact absurd trivial plain
  | _ => rfl

/-- An index may only be touched under its lock. -/
theorem Permits.touches {held : Option Hold} {s : Step} (h : Permits held s) {index : String}
    (ht : s.Touches index) : held.map Hold.index = some index := by
  cases s with
  | acquire other => exact ht.elim
  | release other => exact ht.elim
  | _ => cases held <;> exact h index ht

/-- In a step of a guarded program the indices stay honest, and the program goes
on guarded with what its index looks like afterwards. -/
theorem Prog.Guarded.step {α : Type} {post : α → Option Hold → Prop} {s : Step}
    {next : s.Reply → Prog α} {held : Option Hold} (h : (Prog.step s next).Guarded post held)
    {w w' : World} {r : s.Reply} (honest : w.Honest) (agrees : ∀ hold ∈ held, hold.Agrees w)
    (meets : w.Meets World.anyCall s r w') :
    w'.Honest ∧ (∀ hold ∈ Moment.hold ⟨s, w, w'⟩ held, hold.Agrees w') ∧
      (next r).Guarded post (Moment.hold ⟨s, w, w'⟩ held) := by
  obtain ⟨hpermits, hnext⟩ := h
  have huntouched (index : String) (h : held.map Hold.index ≠ some index) :
      (w'.view index []).Sound := by
    rw [meets.view_of_not_touches fun ht => h (hpermits.touches ht)]
    exact honest index
  by_cases plain : s.IsLocking
  · cases s with
    | acquire index =>
      rcases held with _ | hold
      · cases meets with
        | own own =>
          refine ⟨honest, fun hold hhold => ?_, (hnext _ _ (.acquire (honest index) rfl)).2⟩
          cases hhold
          rfl
      · exact absurd hpermits id
    | release index =>
      rcases held with _ | hold
      · exact absurd hpermits id
      · cases meets with
        | own own => exact ⟨honest, fun hold hhold => (nomatch hhold), (hnext _ _ .release).2⟩
    | _ => exact absurd plain id
  · rw [Moment.hold_of_plain _ plain]
    rcases held with _ | hold
    · exact ⟨fun index => huntouched index (nomatch ·), fun hold hhold => (nomatch hhold),
        (hnext _ _ (.free plain meets)).2⟩
    · obtain ⟨hsound, hguarded⟩ := hnext _ _ (.held plain (agrees hold rfl) meets)
      have hafter : (hold.after ⟨s, w, w'⟩).view.Sound := hsound _ rfl
      refine ⟨fun index => ?_, fun other hother => ?_, hguarded⟩
      · by_cases hindex : hold.index = index
        · subst hindex
          exact ⟨hafter.live, hafter.honest⟩
        · exact huntouched index fun h => hindex (Option.some.inj h)
      · cases hother
        rfl

end TenantSearch
