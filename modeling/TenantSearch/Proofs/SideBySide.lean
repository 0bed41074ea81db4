-- Requests side by side, whose steps come in any order. They keep to the locks
-- of the indices, so what each of them knows of the index of its lock stays true
-- while the others go on. Programs that take turns are a case of this.
import TenantSearch.Proofs.GuardedUpkeep
import TenantSearch.World.Turns

namespace TenantSearch

/-! ## Programs side by side -/

/-- Programs that run side by side, the locks that are held, and the world. -/
structure Crew where
  programs : List (Prog Unit)
  held : List String
  world : World

/-- The locks before and after a step: one that is taken was free. -/
inductive Locks : Step → List String → List String → Prop
  | acquire {index : String} {held : List String} (free : index ∉ held) :
    Locks (.acquire index) held (index :: held)
  | release {index : String} {held : List String} :
    Locks (.release index) held (held.erase index)
  | plain {s : Step} {held : List String} (plain : ¬ s.IsLocking) : Locks s held held

theorem Locks.nodup {s : Step} {held held' : List String} (h : Locks s held held')
    (apart : held.Nodup) : held'.Nodup := by
  cases h with
  | acquire free => exact List.nodup_cons.mpr ⟨free, apart⟩
  | release => exact apart.erase _
  | plain => exact apart

namespace Crew

/-- Requests that have not begun. -/
def start (requests : List IndexRequest) (w : World) : Crew where
  programs := requests.map (·.program)
  held := []
  world := w

/-- One of the programs takes a step, or others do something that leaves the
indices as they look. -/
inductive Goes : Crew → Crew → Prop
  | step {before after : List (Prog Unit)} {s : Step} {next : s.Reply → Prog Unit} {r : s.Reply}
      {held held' : List String} {w w' : World} (locks : Locks s held held')
      (meets : w.Meets World.anyCall s r w') :
    Goes ⟨before ++ .step s next :: after, held, w⟩ ⟨before ++ next r :: after, held', w'⟩
  | meanwhile {programs : List (Prog Unit)} {held : List String} {w w' : World}
      (others : ∀ index, w'.view index [] = w.view index []) :
    Goes ⟨programs, held, w⟩ ⟨programs, held, w'⟩

/-- What programs side by side can come to. -/
inductive Reached (t : Crew) : Crew → Prop
  | start : Reached t t
  | next {u v : Crew} (reached : Reached t u) (goes : Goes u v) : Reached t v

/-! ## What every step keeps -/

/-- The locks that programs hold. -/
def locksOf (guards : List (Option Hold × Prog Unit)) : List String :=
  guards.filterMap (·.1.map Hold.index)

theorem locksOf_middle (first second : List (Option Hold × Prog Unit))
    (g : Option Hold × Prog Unit) : locksOf (first ++ g :: second) =
      locksOf first ++ ((g.1.map Hold.index).toList ++ locksOf second) := by
  obtain ⟨lock, program⟩ := g
  unfold locksOf
  rw [List.filterMap_append, List.filterMap_cons]
  rcases lock with _ | hold
  · rfl
  · rfl

/-- Programs side by side that keep to the locks, each with the lock that it
holds and what the index of the lock looks like. -/
structure Keeps (t : Crew) (guards : List (Option Hold × Prog Unit)) : Prop where
  honest : t.world.Honest
  programs : t.programs = guards.map Prod.snd
  guarded : ∀ g ∈ guards, g.2.Guarded (fun _ held => held = none) g.1
  agrees : ∀ g ∈ guards, ∀ hold ∈ g.1, hold.Agrees t.world
  locks : (locksOf guards).Perm t.held
  apart : t.held.Nodup

theorem keeps_start (requests : List IndexRequest) {w : World} (honest : w.Honest) :
    ∃ guards, (start requests w).Keeps guards := by
  refine ⟨requests.map fun c => (none, c.program), honest, ?_, ?_, ?_, ?_, List.nodup_nil⟩
  · simp [start]
  · intro g hg
    obtain ⟨c, -, rfl⟩ := List.mem_map.mp hg
    exact c.guarded
  · intro g hg hold hhold
    obtain ⟨c, -, rfl⟩ := List.mem_map.mp hg
    cases hhold
  · simp [start, locksOf]

/-- The locks that are held after a step are those of the others and that of the
program that took the step. -/
theorem perm_of_locks {first second : List String} {held held' : List String}
    {lock : Option Hold} {m : Moment} (permits : Permits lock m.step)
    (locks : Locks m.step held held')
    (perm : (first ++ ((lock.map Hold.index).toList ++ second)).Perm held) :
    (first ++ (((m.hold lock).map Hold.index).toList ++ second)).Perm held' := by
  obtain ⟨s, w, w'⟩ := m
  cases locks with
  | acquire free =>
    rcases lock with _ | hold
    · exact List.perm_middle.trans (perm.cons _)
    · exact absurd permits id
  | @release index =>
    rcases lock with _ | hold
    · exact absurd permits id
    · cases permits.1
      have hmoved : (hold.index :: (first ++ second)).Perm held :=
        List.perm_middle.symm.trans perm
      have herased := hmoved.erase hold.index
      rw [List.erase_cons_head] at herased
      exact herased
  | plain plain =>
    rw [Moment.hold_of_plain _ plain]
    rcases lock with _ | hold
    · exact perm
    · exact perm

/-- A step touches no index whose lock another program holds. -/
theorem not_touches_of_others {first second held : List String} {lock : Option Hold} {s : Step}
    (permits : Permits lock s)
    (perm : (first ++ ((lock.map Hold.index).toList ++ second)).Perm held) (apart : held.Nodup)
    {index : String} (other : index ∈ first ++ second) : ¬ s.Touches index := by
  intro touches
  have hnodup := perm.nodup_iff.mpr apart
  have hlock : lock.map Hold.index = some index := permits.touches touches
  rw [hlock, Option.toList_some, List.singleton_append] at hnodup
  exact (List.nodup_cons.mp (List.perm_middle.nodup_iff.mp hnodup)).1 other

/-- A step of one program leaves what the others see of their indices. -/
theorem Keeps.step {before after : List (Prog Unit)} {s : Step} {next : s.Reply → Prog Unit}
    {r : s.Reply} {held held' : List String} {w w' : World}
    {guards : List (Option Hold × Prog Unit)}
    (h : Keeps ⟨before ++ .step s next :: after, held, w⟩ guards) (locks : Locks s held held')
    (meets : w.Meets World.anyCall s r w') :
    ∃ guards', Keeps ⟨before ++ next r :: after, held', w'⟩ guards' := by
  obtain ⟨honest, hprograms, hguarded, hagrees, hlocks, hapart⟩ := h
  obtain ⟨first, rest, rfl, hbefore, hrest⟩ := List.map_eq_append_iff.mp hprograms.symm
  obtain ⟨⟨lock, program⟩, second, rfl, rfl, hafter⟩ := List.map_eq_cons_iff.mp hrest
  have hg : (lock, Prog.step s next) ∈ first ++ (lock, Prog.step s next) :: second :=
    List.mem_append_right _ List.mem_cons_self
  have hpermits : Permits lock s := (hguarded _ hg).1
  obtain ⟨honest', hagrees', hguarded'⟩ := (hguarded _ hg).step honest (hagrees _ hg) meets
  rw [locksOf_middle] at hlocks
  have hothers (g : Option Hold × Prog Unit) (hmem : g ∈ first ++ second) :
      g.2.Guarded (fun _ held => held = none) g.1 ∧ ∀ hold ∈ g.1, hold.Agrees w' := by
    have hold := List.mem_append.mp hmem
    have hmem' : g ∈ first ++ (lock, Prog.step s next) :: second :=
      List.mem_append.mpr (hold.imp_right (List.mem_cons_of_mem _))
    refine ⟨hguarded g hmem', fun hold hhold => ?_⟩
    have hother : hold.index ∈ locksOf first ++ locksOf second := by
      unfold locksOf
      rw [← List.filterMap_append]
      exact List.mem_filterMap.mpr ⟨g, hmem, congrArg (Option.map Hold.index) hhold⟩
    have huntouched := not_touches_of_others hpermits hlocks hapart hother
    unfold Hold.Agrees
    rw [meets.view_of_not_touches huntouched]
    exact hagrees g hmem' hold hhold
  have hall (g : Option Hold × Prog Unit)
      (hmem : g ∈ first ++ (Moment.hold ⟨s, w, w'⟩ lock, next r) :: second) :
      g.2.Guarded (fun _ held => held = none) g.1 ∧ ∀ hold ∈ g.1, hold.Agrees w' := by
    rcases List.mem_append.mp hmem with hmem | hmem
    · exact hothers g (List.mem_append_left _ hmem)
    · rcases List.mem_cons.mp hmem with rfl | hmem
      · exact ⟨hguarded', hagrees'⟩
      · exact hothers g (List.mem_append_right _ hmem)
  refine ⟨first ++ (Moment.hold ⟨s, w, w'⟩ lock, next r) :: second, honest', ?_,
    fun g hmem => (hall g hmem).1, fun g hmem => (hall g hmem).2, ?_, locks.nodup hapart⟩
  · rw [List.map_append, List.map_cons, hbefore, hafter]
  · rw [locksOf_middle]
    exact perm_of_locks hpermits locks hlocks

theorem Reached.keeps {t u : Crew} (h : Reached t u) {guards : List (Option Hold × Prog Unit)}
    (keeps : t.Keeps guards) : ∃ guards', u.Keeps guards' := by
  induction h with
  | start => exact ⟨guards, keeps⟩
  | next reached goes ih =>
    obtain ⟨guards', hkeeps⟩ := ih
    cases goes with
    | step locks meets => exact hkeeps.step locks meets
    | meanwhile others =>
      refine ⟨guards', ?_, hkeeps.programs, hkeeps.guarded, ?_, hkeeps.locks, hkeeps.apart⟩
      · exact fun index => others index ▸ hkeeps.honest index
      · intro g hmem hold hhold
        refine Eq.trans ?_ (hkeeps.agrees g hmem hold hhold)
        exact congrArg (fun v => { v with signs := hold.view.signs }) (others hold.index)

/-- A lock that a program is about to give back is held. -/
theorem Keeps.held_of_release {c : Crew} {guards : List (Option Hold × Prog Unit)}
    (h : c.Keeps guards) {lock : String} {next : Step.Reply (.release lock) → Prog Unit}
    (hmem : Prog.step (.release lock) next ∈ c.programs) : lock ∈ c.held := by
  rw [h.programs] at hmem
  obtain ⟨⟨held, program⟩, hg, hprogram⟩ := List.mem_map.mp hmem
  cases hprogram
  have hpermits : Permits held (.release lock) := (h.guarded _ hg).1
  rcases held with _ | hold
  · exact absurd hpermits id
  · exact h.locks.mem_iff.mp (List.mem_filterMap.mpr ⟨_, hg, congrArg some hpermits.1⟩)

end Crew

/-! ## Taking turns -/

namespace Turns

variable {α : Type}

/-- A program that waits for a lock: it stands before it. -/
def awaiting (p : String × Nat × Prog α) : Prog α := .step (.acquire p.1) fun _ => p.2.2

/-- The programs of those that take turns, also those that wait or are done. -/
def programs (t : Turns α) : List (Prog α) :=
  t.ready.map (·.2) ++ (t.paused.map (·.2) ++ (t.waiting.map awaiting ++
    t.finished.map fun p => .done p.2))

section

variable (t : Turns α)

theorem programs_ready (number : Nat) (p : Prog α) :
    (programs { t with ready := t.ready ++ [(number, p)] }).Perm (p :: t.programs) := by
  unfold programs
  simp only [List.map_append, List.map_cons, List.map_nil, List.append_assoc,
    List.singleton_append]
  exact List.perm_middle

theorem programs_paused (number : Nat) (p : Prog α) :
    (programs { t with paused := t.paused ++ [(number, p)] }).Perm (p :: t.programs) := by
  unfold programs
  simp only [List.map_append, List.map_cons, List.map_nil, List.append_assoc,
    List.singleton_append]
  exact (List.perm_middle.append_left _).trans List.perm_middle

theorem programs_waiting (p : String × Nat × Prog α) :
    (programs { t with waiting := t.waiting ++ [p] }).Perm (awaiting p :: t.programs) := by
  unfold programs
  simp only [List.map_append, List.map_cons, List.map_nil, List.append_assoc,
    List.singleton_append]
  exact ((List.perm_middle.append_left _).trans List.perm_middle |>.append_left _).trans
    List.perm_middle

theorem programs_finished (number : Nat) (a : α) :
    (programs { t with finished := t.finished ++ [(number, a)] }).Perm (.done a :: t.programs) := by
  unfold programs
  simp only [List.map_append, List.map_cons, List.map_nil]
  refine (List.Perm.append_left _ (List.Perm.append_left _ (List.Perm.append_left _
    (List.perm_append_singleton _ _)))).trans ?_
  exact (((List.perm_middle.append_left _).trans List.perm_middle).append_left _).trans
    List.perm_middle

end

/-- A rule of what programs side by side can come to: one of them takes a step, no lock is
held twice, and who gives back a lock holds it. -/
structure Admits (frail : Call → Prop) (rule : List (Prog α) → List String → World → Prop) :
    Prop where
  step : ∀ {before after : List (Prog α)} {s : Step} {next : s.Reply → Prog α} {r : s.Reply}
    {held held' : List String} {w w' : World}, rule (before ++ .step s next :: after) held w →
      Locks s held held' → w.Meets frail s r w' → rule (before ++ next r :: after) held' w'
  apart : ∀ {programs : List (Prog α)} {held : List String} {w : World},
    rule programs held w → held.Nodup
  holds : ∀ {programs : List (Prog α)} {held : List String} {w : World} {lock : String}
    {next : Step.Reply (.release lock) → Prog α},
      rule programs held w → Prog.step (.release lock) next ∈ programs → lock ∈ held

/-- By this rule programs stand where those stand that take turns while these have the
turn. -/
structure Shows (rule : List (Prog α) → List String → World → Prop) (t : Turns α)
    (running : List (Prog α)) (programs : List (Prog α)) (held : List String) : Prop where
  reached : rule programs held t.world
  programs : programs.Perm (running ++ t.programs)
  held : held.Perm t.held

section

variable {frail : Call → Prop} {rule : List (Prog α) → List String → World → Prop} {t : Turns α}
  {programs : List (Prog α)} {held : List String}

/-- A step of a program that is somewhere among the others. -/
theorem Admits.go (admits : Admits frail rule) {w w' : World} (reached : rule programs held w)
    {s : Step} {next : s.Reply → Prog α} {rest : List (Prog α)}
    (perm : programs.Perm (.step s next :: rest)) {held' : List String}
    (locks : Locks s held held') {r : s.Reply} (meets : w.Meets frail s r w') :
    ∃ programs', rule programs' held' w' ∧ programs'.Perm (next r :: rest) := by
  obtain ⟨before, after, rfl⟩ := List.append_of_mem (perm.mem_iff.mpr List.mem_cons_self)
  refine ⟨before ++ next r :: after, admits.step reached locks meets, ?_⟩
  have hrest : (before ++ after).Perm rest := (List.perm_middle.symm.trans perm).cons_inv
  exact List.perm_middle.trans (hrest.cons _)

/-- A lock that is given back goes to the first who waits for it. -/
theorem Shows.release (admits : Admits frail rule) {lock : String}
    {next : Step.Reply (.release lock) → Prog α}
    (shows : t.Shows rule [.step (.release lock) next] programs held) :
    ∃ programs' held', (t.release lock).Shows rule [next ()] programs' held' := by
  have hheld : lock ∈ held :=
    admits.holds shows.reached (shows.programs.mem_iff.mpr List.mem_cons_self)
  obtain ⟨programs₁, hreached, hperm⟩ := admits.go shows.reached shows.programs .release
    (.own fun c h => nomatch h)
  unfold Turns.release
  split
  · next name number program hfind =>
    obtain ⟨hname, before, after, hwaiting, hbefore⟩ := List.find?_eq_some_iff_append.mp hfind
    have hlock : name = lock := by simpa using hname
    subst hlock
    have herased : t.waiting.eraseP (·.1 == name) = before ++ after := by
      rw [hwaiting, List.eraseP_append_right _ (by simpa using hbefore)]
      simp
    rw [herased]
    have hprograms : t.programs.Perm (awaiting (name, number, program) ::
        ({ t with waiting := before ++ after } : Turns α).programs) := by
      unfold Turns.programs
      rw [hwaiting, List.map_append, List.map_append, List.map_cons, List.append_assoc,
        List.append_assoc, List.cons_append]
      exact (((List.perm_middle.append_left _).trans List.perm_middle).append_left _).trans
        List.perm_middle
    have hturn : programs₁.Perm (awaiting (name, number, program) :: next () ::
        ({ t with waiting := before ++ after } : Turns α).programs) :=
      (hperm.trans (hprograms.cons _)).trans (.swap ..)
    have hfree : name ∉ held.erase name := (admits.apart shows.reached).not_mem_erase
    obtain ⟨programs₂, hreached₂, hperm₂⟩ := admits.go hreached hturn (.acquire hfree)
      (.own fun c h => nomatch h)
    refine ⟨programs₂, _, hreached₂, ?_, ?_⟩
    · exact hperm₂.trans ((List.Perm.swap ..).trans
        ((programs_ready { t with waiting := before ++ after } number program).symm.cons _))
    · exact (List.perm_cons_erase hheld).symm.trans shows.held
  · exact ⟨programs₁, _, hreached, hperm, shows.held.erase lock⟩

/-- A turn is made of steps of programs side by side. -/
theorem Shows.turn {pauses : PauseRule} {number : Nat} {p : Prog α} (admits : Admits frail rule)
    (planned : t.world.Plans frail) (shows : t.Shows rule [p] programs held) :
    (∃ programs' held', (turn pauses number p t).Shows rule [] programs' held') ∧
      (turn pauses number p t).world.Plans frail := by
  induction p generalizing t programs held with
  | done a =>
    exact ⟨⟨programs, held, shows.reached, shows.programs.trans (programs_finished t number a).symm,
      shows.held⟩, planned⟩
  | step s next ih =>
    have hgoes (plain : ¬ s.IsLocking) : ∃ programs',
        ({ t with world := (t.world.answer s).2 } : Turns α).Shows rule
          [next (t.world.answer s).1] programs' held := by
      obtain ⟨programs', hreached, hperm⟩ := admits.go shows.reached shows.programs (.plain plain)
        (planned.meets s)
      exact ⟨programs', hreached, hperm, shows.held⟩
    have hplanned := planned.answer s
    cases s with
    | acquire lock =>
      have hturn : Turns.turn pauses number (.step (.acquire lock) next) t =
        if t.held.contains lock then { t with waiting := t.waiting ++ [(lock, number, next ())] }
        else Turns.turn pauses number (next ()) { t with held := lock :: t.held } := rfl
      rw [hturn]
      split
      · exact ⟨⟨programs, held, shows.reached,
          shows.programs.trans (programs_waiting t (lock, number, next ())).symm, shows.held⟩,
          planned⟩
      · next hfree =>
        have hfree' : lock ∉ held := fun h =>
          hfree (List.contains_iff_mem.mpr (shows.held.mem_iff.mp h))
        obtain ⟨programs', hreached, hperm⟩ := admits.go shows.reached shows.programs
          (.acquire hfree') (.own fun c h => nomatch h)
        exact ih () planned ⟨hreached, hperm, shows.held.cons lock⟩
    | release lock =>
      obtain ⟨programs', held', hshows⟩ := shows.release admits
      have hreleased : (t.release lock).world.Plans frail := by
        unfold Turns.release
        split
        · exact planned
        · exact planned
      exact ih () hreleased hshows
    | call call =>
      have hturn : Turns.turn pauses number (.step (.call call) next) t =
        if pauses call (t.world.answerCall call).1 then
          { t with
            paused := t.paused ++ [(number, next (t.world.answerCall call).1)]
            world := (t.world.answerCall call).2 }
        else Turns.turn pauses number (next (t.world.answerCall call).1)
          { t with world := (t.world.answerCall call).2 } := rfl
      obtain ⟨programs', hshows⟩ := hgoes id
      rw [hturn]
      split
      · exact ⟨⟨programs', held, hshows.reached,
          hshows.programs.trans (programs_paused _ number _).symm, hshows.held⟩, hplanned⟩
      · exact ih _ hplanned hshows
    | _ =>
      obtain ⟨programs', hshows⟩ := hgoes id
      exact ih _ hplanned hshows

theorem perm_of_getElem? {β : Type} {l : List β} {place : Nat} {x : β} (h : l[place]? = some x) :
    l.Perm (x :: l.eraseIdx place) := by
  obtain ⟨hlt, rfl⟩ := List.getElem?_eq_some_iff.mp h
  have hsplit : l.take place ++ l[place] :: l.drop (place + 1) = l := by
    rw [List.getElem_cons_drop hlt, List.take_append_drop]
  rw [List.eraseIdx_eq_take_drop_succ]
  exact (List.Perm.of_eq hsplit.symm).trans List.perm_middle

/-- A program that is chosen is one of those that stand there. -/
theorem Shows.choose {pauses : PauseRule} (admits : Admits frail rule)
    (planned : t.world.Plans frail) (shows : t.Shows rule [] programs held) (place : Nat) :
    (∃ programs' held', (t.choose pauses place).Shows rule [] programs' held') ∧
      (t.choose pauses place).world.Plans frail := by
  unfold Turns.choose
  split
  · next number program hready =>
    refine Shows.turn admits planned ⟨shows.reached, shows.programs.trans ?_, shows.held⟩
    exact ((perm_of_getElem? hready).map _).append_right _
  · dsimp only
    split
    · next number program hpaused =>
      refine Shows.turn admits planned ⟨shows.reached, shows.programs.trans ?_, shows.held⟩
      exact ((((perm_of_getElem? hpaused).map _).append_right _).append_left _).trans
        List.perm_middle
    · exact ⟨⟨programs, held, shows⟩, planned⟩

theorem Shows.follow {pauses : PauseRule} (admits : Admits frail rule) (choices : List Nat)
    {t : Turns α} {programs : List (Prog α)} {held : List String}
    (planned : t.world.Plans frail) (shows : t.Shows rule [] programs held) :
    ∃ programs' held', (t.follow pauses choices).Shows rule [] programs' held' := by
  induction choices generalizing t programs held with
  | nil => exact ⟨programs, held, shows⟩
  | cons place rest ih =>
    obtain ⟨⟨programs', held', hshows⟩, hplanned⟩ := shows.choose admits planned place
    exact ih hplanned hshows

/-- Whatever programs come to by turns, in whatever order and wherever they pause, they
come to by a rule that admits it. -/
theorem follow_admitted (admits : Admits frail rule) {w : World} (planned : w.Plans frail)
    (programs : List (Prog α)) (start : rule programs [] w) (pauses : PauseRule)
    (choices : List Nat) : ∃ programs' held',
      ((Turns.start programs w).follow pauses choices).Shows rule [] programs' held' := by
  refine Shows.follow admits choices planned ⟨start, ?_, .refl _⟩
  unfold Turns.programs Turns.start
  simp [Function.comp_def, List.zipIdx_map_fst]

end

/-- What requests come to side by side admits what they come to by turns. -/
theorem admits_crew {start : Crew} {guards : List (Option Hold × Prog Unit)}
    (keeps : start.Keeps guards) :
    Admits World.anyCall fun programs held w => start.Reached ⟨programs, held, w⟩ := by
  refine ⟨fun reached locks meets => reached.next (.step locks meets), fun reached => ?_,
    fun reached hmem => ?_⟩
  · obtain ⟨guards', hkeeps⟩ := reached.keeps keeps
    exact hkeeps.apart
  · obtain ⟨guards', hkeeps⟩ := reached.keeps keeps
    exact hkeeps.held_of_release hmem

/-- Whatever requests come to by turns, in whatever order and wherever they
pause, they come to side by side. -/
theorem follow_reached (requests : List IndexRequest) {w : World} (honest : w.Honest)
    (pauses : PauseRule) (choices : List Nat) :
    ∃ c, (Crew.start requests w).Reached c ∧
      c.world = ((Turns.start (requests.map (·.program)) w).follow pauses choices).world := by
  obtain ⟨guards, hkeeps⟩ := Crew.keeps_start requests honest
  obtain ⟨programs, held, hshows⟩ := follow_admitted (admits_crew hkeeps) (fun _ _ => trivial)
    (requests.map (·.program)) .start pauses choices
  exact ⟨_, hshows.reached, rfl⟩

end Turns

end TenantSearch
