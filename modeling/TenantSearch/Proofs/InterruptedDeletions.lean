-- What happens to an index over a sequence of requests when anything may fail
-- in between: a deletion that is interrupted before the index is created anew is
-- not made good for by a later request that finds or creates the index.
import TenantSearch.Proofs.GuardedUpkeep

namespace TenantSearch

/-! ## The history of an index -/

/-- Whether the lock of an index is held after a moment. -/
def Moment.locks (index : String) (held : Bool) (m : Moment) : Bool :=
  match m.step with
  | .acquire other => other == index || held
  | .release other => other != index && held
  | _ => held

/-- What happened to an index, in order. -/
def history (index : String) : Bool → List Moment → List IndexSign
  | _, [] => []
  | held, m :: rest => (m.sign? index held).toList ++ history index (m.locks index held) rest

theorem history_cons (index : String) (held : Bool) (m : Moment) (rest : List Moment) :
    history index held (m :: rest) =
      (m.sign? index held).toList ++ history index (m.locks index held) rest := rfl

/-- Visits under the lock of an index, one after the other. -/
inductive Visits (backfills : Bool) : List IndexSign → Prop
  | none : Visits backfills []
  | visit {signs rest : List IndexSign} (visit : IsVisit backfills signs)
      (later : Visits backfills rest) : Visits backfills (signs ++ .released :: rest)

/-- What happened to an index under the lock that is held. -/
def pending (index : String) : Option Hold → List IndexSign
  | some hold => if hold.index = index then hold.view.signs else []
  | none => []

/-- Whether the lock that is held is that of an index. -/
def isLocked (index : String) (held : Option Hold) : Bool := held.map Hold.index == some index

theorem sign?_of_not_touches {m : Moment} {index : String} (h : ¬ m.step.Touches index)
    (plain : ¬ m.step.IsLocking) : m.sign? index false = none := by
  obtain ⟨s, w, w'⟩ := m
  have hne (name : String) (hs : s.Touches index ↔ name = index) : name ≠ index :=
    fun heq => h (hs.mpr heq)
  cases s with
  | release name => exact absurd trivial plain
  | change c =>
    cases c with
    | remember name => exact if_neg (hne name Iff.rfl)
    | _ => rfl
  | call c =>
    cases c with
    | engine c =>
      cases c with
      | drop name => exact if_neg fun hdropped => hne name Iff.rfl hdropped.1
      | _ => rfl
    | queue c =>
      cases c with
      | _ => rfl
    | database c => rfl
  | _ => rfl

theorem Moment.locks_of_plain (m : Moment) (plain : ¬ m.step.IsLocking) (index : String)
    (held : Bool) : m.locks index held = held := by
  obtain ⟨s, w, w'⟩ := m
  cases s with
  | acquire index => exact absurd trivial plain
  | release index => exact absurd trivial plain
  | _ => rfl

/-- A step that takes and gives back no lock is a part of the visit in which it
is taken. -/
theorem pending_of_plain {held : Option Hold} {m : Moment} (permits : Permits held m.step)
    (plain : ¬ m.step.IsLocking) (index : String) (rest : List Moment) :
    pending index held ++ history index (isLocked index held) (m :: rest) =
      pending index (m.hold held) ++ history index (isLocked index (m.hold held)) rest := by
  obtain ⟨s, w, w'⟩ := m
  rw [Moment.hold_of_plain _ plain, history_cons, Moment.locks_of_plain _ plain]
  rcases held with _ | hold
  · have huntouched : ¬ s.Touches index := fun ht => nomatch permits.touches ht
    have hunseen : Moment.sign? index (isLocked index none) ⟨s, w, w'⟩ = none :=
      sign?_of_not_touches huntouched plain
    rw [hunseen]
    rfl
  · by_cases hindex : hold.index = index
    · have hlocked : isLocked index (some hold) = true := by simp [isLocked, hindex]
      subst hindex
      rw [hlocked, ← List.append_assoc]
      simp [pending, isLocked, Hold.after, World.view]
    · have huntouched : ¬ s.Touches index :=
        fun ht => hindex (Option.some.inj (permits.touches ht))
      have hne : (hold.index == index) = false := by simpa using hindex
      have hunlocked : isLocked index (some hold) = false := by simp [isLocked, hindex]
      rw [hunlocked, sign?_of_not_touches huntouched plain]
      simp [pending, isLocked, Hold.after, hindex, hne]

/-- A step is a part of the visit in which it is taken, or the end of it. -/
theorem visits_step {backfills : Bool} {held : Option Hold} {m : Moment} {index : String}
    {rest : List Moment} (permits : Permits held m.step)
    (hbackfills : ∀ hold ∈ held, hold.view.backfills = backfills)
    (later : Visits backfills (pending index (m.hold held) ++
      history index (isLocked index (m.hold held)) rest)) :
    Visits backfills (pending index held ++ history index (isLocked index held) (m :: rest)) := by
  obtain ⟨s, w, w'⟩ := m
  by_cases plain : s.IsLocking
  · cases s with
    | acquire other =>
      rcases held with _ | hold
      · simpa [Moment.hold, pending, isLocked, history, Moment.sign?, Moment.locks, World.view]
          using later
      · exact absurd permits id
    | release other =>
      rcases held with _ | hold
      · exact absurd permits id
      · obtain ⟨hindex, hvisit⟩ := permits
        rw [hbackfills hold rfl] at hvisit
        by_cases hother : other = index
        · subst hother
          have hstep := Visits.visit hvisit later
          simpa [Moment.hold, pending, isLocked, history, Moment.sign?, Moment.locks, hindex]
            using hstep
        · have hne : (other == index) = false := by simpa using hother
          simpa [Moment.hold, pending, isLocked, history, Moment.sign?, Moment.locks, hindex, hother,
            hne] using later
    | _ => exact absurd plain id
  · rw [pending_of_plain permits plain]
    exact later

/-! ## Requests one after the other -/

/-- A run of a guarded program leaves the indices honest, and to an index it is
one visit after the other. -/
theorem Prog.Runs.visits {α : Type} {p : Prog α} {w w' : World} {moments : List Moment} {a : α}
    (h : p.Runs World.anyCall w moments a w') {held : Option Hold}
    (guarded : p.Guarded (fun _ held => held = none) held) (honest : w.Honest)
    (agrees : ∀ hold ∈ held, hold.Agrees w) (index : String) {more : List Moment}
    (later : w'.Honest → Visits w'.circumstances.backfills (history index false more)) :
    Visits w.circumstances.backfills
      (pending index held ++ history index (isLocked index held) (moments ++ more)) := by
  induction h generalizing held with
  | done a w =>
    subst guarded
    exact later honest
  | step meets rest ih =>
    obtain ⟨honest', agrees', hnext⟩ := guarded.step honest agrees meets
    have hrest := ih hnext honest' agrees' later
    rw [meets.circumstances] at hrest
    exact visits_step guarded.1
      (fun hold hhold => (congrArg IndexView.backfills (agrees hold hhold)).symm) hrest

/-- Requests that were served one after the other, any of whose calls may have
failed. In between others may do anything that leaves the indices as they
look. -/
inductive Served : World → List Moment → World → Prop
  | none (w : World) : Served w [] w
  | request (c : IndexRequest) {w w' w'' : World} {moments rest : List Moment}
      (runs : c.program.Runs World.anyCall w moments () w') (later : Served w' rest w'') :
      Served w (moments ++ rest) w''
  | meanwhile {w w' w'' : World} {moments : List Moment}
      (others : ∀ index, w'.view index [] = w.view index []) (later : Served w' moments w'') :
      Served w moments w''

/-- What happens to an index is one visit after the other. -/
theorem Served.visits {w w' : World} {moments : List Moment} (h : Served w moments w')
    (honest : w.Honest) (index : String) :
    Visits w.circumstances.backfills (history index false moments) := by
  induction h with
  | none w => exact .none
  | request c runs later ih =>
    exact runs.visits c.guarded honest (fun hold hhold => nomatch hhold) index fun honest' =>
      ih honest'
  | meanwhile others later ih =>
    have hvisits := ih fun index => others index ▸ honest index
    have hbackfills := congrArg IndexView.backfills (others index)
    exact (congrArg (Visits · _) hbackfills).mp hvisits

/-! ## What stands beside a sign -/

/-- What stands before and after a sign where jobs are queued: after a deletion
comes the end of the visit, or the index is created anew and the job is queued
at once. There is a job only then. -/
def Beside (earlier : List IndexSign) (sign : IndexSign) (later : List IndexSign) : Prop :=
  match sign with
  | .deleted => (∃ rest, later = .released :: rest) ∨
      ∃ rest, later = .confirmed :: .backfilled :: rest
  | .confirmed => (∃ rest, later = .released :: rest) ∨
      (∃ rest, later = .backfilled :: rest) ∧ ∃ before, earlier = before ++ [.deleted]
  | .backfilled => ∃ before, earlier = before ++ [.deleted, .confirmed]
  | .released => True

theorem Beside.after {earlier later : List IndexSign} {sign : IndexSign}
    (h : Beside earlier sign later) (past : List IndexSign) :
    Beside (past ++ earlier) sign later := by
  cases sign with
  | deleted => exact h
  | released => trivial
  | confirmed =>
    rcases h with h | ⟨h, before, rfl⟩
    · exact Or.inl h
    · exact Or.inr ⟨h, past ++ before, by rw [List.append_assoc]⟩
  | backfilled =>
    obtain ⟨before, rfl⟩ := h
    exact ⟨past ++ before, by rw [List.append_assoc]⟩

/-- Two ways to split a list: the one place is within the first part, or it is in
the rest. -/
theorem append_cons_eq_cases {α : Type} {first rest earlier later : List α} {a x : α}
    (h : first ++ a :: rest = earlier ++ x :: later) :
    (∃ l, first ++ [a] = earlier ++ x :: l ∧ later = l ++ rest) ∨
      ∃ l, earlier = first ++ [a] ++ l ∧ rest = l ++ x :: later := by
  have h' : (first ++ [a]) ++ rest = earlier ++ x :: later := by simpa using h
  rcases List.append_eq_append_iff.mp h' with ⟨l, hearlier, hrest⟩ | ⟨l, hfirst, hlater⟩
  · exact Or.inr ⟨l, hearlier, hrest⟩
  · cases l with
    | nil =>
      right
      refine ⟨[], by simpa using hfirst.symm, by simpa using hlater.symm⟩
    | cons y l =>
      cases hlater
      exact Or.inl ⟨l, hfirst, rfl⟩

theorem IsVisit.beside {signs : List IndexSign} (h : IsVisit true signs)
    {earlier later rest : List IndexSign} {sign : IndexSign}
    (hsplit : signs ++ [.released] = earlier ++ sign :: later) :
    Beside earlier sign (later ++ rest) := by
  cases h with
  | quiet =>
    rcases earlier with _ | ⟨_, earlier⟩
    · cases hsplit
      trivial
    · simp at hsplit
  | confirmed =>
    rcases earlier with _ | ⟨_, _ | ⟨_, earlier⟩⟩
    · cases hsplit
      exact Or.inl ⟨rest, rfl⟩
    · cases hsplit
      trivial
    · simp at hsplit
  | interrupted =>
    rcases earlier with _ | ⟨_, _ | ⟨_, earlier⟩⟩
    · cases hsplit
      exact Or.inl ⟨rest, rfl⟩
    · cases hsplit
      trivial
    · simp at hsplit
  | recreated =>
    rcases earlier with _ | ⟨_, _ | ⟨_, _ | ⟨_, _ | ⟨_, earlier⟩⟩⟩⟩
    · cases hsplit
      exact Or.inr ⟨.released :: rest, rfl⟩
    · cases hsplit
      exact Or.inr ⟨⟨.released :: rest, rfl⟩, [], rfl⟩
    · cases hsplit
      exact ⟨[], rfl⟩
    · cases hsplit
      trivial
    · simp at hsplit

theorem Visits.beside {signs : List IndexSign} (h : Visits true signs)
    {earlier later : List IndexSign} {sign : IndexSign}
    (hsplit : signs = earlier ++ sign :: later) : Beside earlier sign later := by
  induction h generalizing earlier with
  | none => simp at hsplit
  | visit visit _ ih =>
    rcases append_cons_eq_cases hsplit with ⟨l, hvisit, rfl⟩ | ⟨l, rfl, hrest⟩
    · exact visit.beside hvisit
    · exact (ih hrest).after _

/-! ## Deletions and backfills -/

/-- Whenever the index becomes good after a deletion, a job that fills it again
was queued since the deletion, by the end of the visit in which it became
good. -/
def BackfilledInTime (signs : List IndexSign) : Prop :=
  ∀ earlier between later, signs = earlier ++ .deleted :: (between ++ .confirmed :: later) →
    .backfilled ∈ between ++ .confirmed :: later.takeWhile (· ≠ .released)

/-- An index that was deleted becomes good in the same visit, or not before it is
deleted again. -/
def GoodAtOnce (signs : List IndexSign) : Prop :=
  ∀ earlier between later, signs = earlier ++ .deleted :: (between ++ .confirmed :: later) →
    .deleted ∉ between → .confirmed ∉ between → .released ∉ between

theorem released_mem_of_append {first later rest : List IndexSign}
    (h : first ++ .confirmed :: later = .released :: rest) : .released ∈ first := by
  cases first with
  | nil => cases h
  | cons sign first =>
    cases h
    exact List.mem_cons_self

theorem GoodAtOnce.backfilledInTime {signs : List IndexSign} (h : GoodAtOnce signs)
    (visits : Visits true signs) : BackfilledInTime signs := by
  intro earlier between later hsplit
  induction hn : between.length using Nat.strongRecOn generalizing earlier between with
  | _ n ih =>
    by_cases hdeleted : .deleted ∈ between
    · obtain ⟨first, second, rfl⟩ := List.append_of_mem hdeleted
      have hlength : second.length < n := by
        rw [← hn, List.length_append, List.length_cons]
        omega
      have hsecond := ih second.length hlength (earlier ++ .deleted :: first) second
        (by simpa using hsplit) rfl
      simp only [List.append_assoc, List.cons_append, List.mem_append, List.mem_cons]
      exact Or.inr (Or.inr (by simpa using hsecond))
    · rcases visits.beside hsplit with ⟨rest, hreleased⟩ | ⟨rest, hrecreated⟩
      · by_cases hconfirmed : .confirmed ∈ between
        · obtain ⟨first, second, rfl, hfirst⟩ := List.eq_append_cons_of_mem hconfirmed
          have hgood := h earlier first (second ++ .confirmed :: later) (by simpa using hsplit)
            (fun hmem => hdeleted (List.mem_append_left _ hmem)) hfirst
          rw [List.append_assoc] at hreleased
          exact absurd (released_mem_of_append hreleased) hgood
        · exact absurd (released_mem_of_append hreleased)
            (h earlier between later hsplit hdeleted hconfirmed)
      · rcases between with _ | ⟨sign, _ | ⟨sign', between⟩⟩
        · cases hrecreated
          simp
        · cases hrecreated
        · cases hrecreated
          simp

theorem BackfilledInTime.goodAtOnce {signs : List IndexSign} (h : BackfilledInTime signs)
    (visits : Visits true signs) : GoodAtOnce signs := by
  intro earlier between later hsplit hdeleted hconfirmed hreleased
  rcases List.mem_append.mp (h earlier between later hsplit) with hmem | hmem
  · obtain ⟨first, second, rfl⟩ := List.append_of_mem hmem
    have hjob : signs = (earlier ++ .deleted :: first) ++
        .backfilled :: (second ++ .confirmed :: later) := by simpa using hsplit
    obtain ⟨before, hends⟩ := visits.beside hjob
    rcases List.eq_nil_or_concat first with rfl | ⟨first, sign, rfl⟩
    · have hlast : earlier ++ [.deleted] = (before ++ [.deleted]) ++ [.confirmed] := by
        simpa using hends
      cases (List.append_inj' hlast rfl).2
    · have hlast : (earlier ++ .deleted :: first) ++ [sign] =
          (before ++ [.deleted]) ++ [.confirmed] := by simpa using hends
      cases (List.append_inj' hlast rfl).2
      exact hconfirmed (by simp)
  · have hgood : signs = (earlier ++ .deleted :: between) ++ .confirmed :: later := by
      simpa using hsplit
    rcases visits.beside hgood with ⟨rest, rfl⟩ | ⟨-, before, hends⟩
    · simp at hmem
    · rcases List.eq_nil_or_concat between with rfl | ⟨between, sign, rfl⟩
      · exact absurd hreleased List.not_mem_nil
      · have hlast : (earlier ++ .deleted :: between) ++ [sign] = before ++ [.deleted] := by
          simpa using hends
        cases (List.append_inj' hlast rfl).2
        exact hdeleted (by simp)

/-- Over any sequence of requests of a manager that starts with an empty memory,
whatever calls fail, a deleted index that becomes good again was filled again in
time just when it became good in the visit of its last deletion. The job is
queued in no other case. -/
theorem deletions_are_backfilled_iff {w w' : World} {moments : List Moment}
    (fresh : w.memory = {}) (queue : w.circumstances.backfills = true)
    (served : Served w moments w') (index : String) :
    (BackfilledInTime (history index false moments) ↔ GoodAtOnce (history index false moments)) ∧
      ∀ earlier later, history index false moments = earlier ++ .backfilled :: later →
        ∃ before, earlier = before ++ [.deleted, .confirmed] := by
  have hvisits := served.visits (World.honest_of_fresh fresh) index
  rw [queue] at hvisits
  exact ⟨⟨fun h => h.goodAtOnce hvisits, fun h => h.backfilledInTime hvisits⟩,
    fun earlier later hsplit => hvisits.beside hsplit⟩

/-! ## A deletion that is interrupted -/

/-- An index for events with identifiers that are not keywords, and an empty
memory. -/
def wrongEvents : World where
  circumstances := { morning with backfills := true }
  engine := { mappings := [("event", .obj [("properties", .obj [("id", .obj
    [("type", .str "text")])])])] }

/-- The engine refuses to create an index, once. -/
def refusingOnce : World :=
  { wrongEvents with plans := [⟨"indices.create", .refused, 0, some 1⟩] }

/-- A wish for the index of events. -/
def wantEvents : IndexRequest := .ensure (.str "sol-1") "Event" .null false

/-- The moments of two wishes for the index of events. -/
def twoWishes (w : World) : List Moment :=
  wantEvents.program.moments w ++
    (wantEvents.program.moments (wantEvents.program.run w).2 ++ [])

theorem served_twoWishes (w : World) :
    Served w (twoWishes w) (wantEvents.program.run (wantEvents.program.run w).2).2 :=
  have hruns (p : Prog Unit) (w : World) :
      p.Runs World.anyCall w (p.moments w) () (p.run w).2 := p.runs_run w
  .request wantEvents (hruns _ _) (.request wantEvents (hruns _ _) (.none _))

/-- Where nothing fails, the first wish deletes the index, creates it anew and
queues the job. -/
theorem a_clean_deletion_is_backfilled :
    wrongEvents.memory = {} ∧ wrongEvents.circumstances.backfills = true ∧
      Served wrongEvents (twoWishes wrongEvents)
        (wantEvents.program.run (wantEvents.program.run wrongEvents).2).2 ∧
      history "event" false (twoWishes wrongEvents) =
        [.deleted, .confirmed, .backfilled, .released, .released] ∧
      BackfilledInTime (history "event" false (twoWishes wrongEvents)) := by
  have hserved := served_twoWishes wrongEvents
  have hhistory : history "event" false (twoWishes wrongEvents) =
    [.deleted, .confirmed, .backfilled, .released, .released] := by decide +kernel
  refine ⟨rfl, rfl, hserved, hhistory, ?_⟩
  have hiff := (deletions_are_backfilled_iff rfl rfl hserved "event").1
  refine hiff.mpr ?_
  rw [hhistory]
  intro earlier between later hsplit _ hconfirmed
  rcases earlier with _ | ⟨_, earlier⟩
  · rcases between with _ | ⟨sign, between⟩
    · exact List.not_mem_nil
    · have hsign : .confirmed = sign := (List.cons.inj (List.cons.inj hsplit).2).1
      exact absurd (hsign ▸ List.mem_cons_self) hconfirmed
  · have hrest := (List.cons.inj hsplit).2
    have hdeleted : .deleted ∈ [IndexSign.confirmed, .backfilled, .released, .released] := by
      rw [hrest]
      simp
    simp at hdeleted

/-- The first wish deletes the index and fails to create it; the second creates
it and queues nothing. -/
theorem an_interrupted_deletion_is_not_backfilled :
    refusingOnce.memory = {} ∧ refusingOnce.circumstances.backfills = true ∧
      Served refusingOnce (twoWishes refusingOnce)
        (wantEvents.program.run (wantEvents.program.run refusingOnce).2).2 ∧
      history "event" false (twoWishes refusingOnce) =
        [.deleted, .released, .confirmed, .released] ∧
      ¬ BackfilledInTime (history "event" false (twoWishes refusingOnce)) := by
  have hhistory : history "event" false (twoWishes refusingOnce) =
    [.deleted, .released, .confirmed, .released] := by decide +kernel
  refine ⟨rfl, rfl, served_twoWishes refusingOnce, hhistory, fun h => ?_⟩
  rw [hhistory] at h
  have hjob := h [] [.released] [.released] rfl
  simp at hjob

end TenantSearch
