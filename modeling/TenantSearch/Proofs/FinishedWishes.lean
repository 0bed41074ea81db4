-- Wishes side by side never block each other and come to an end. Then every index
-- that was not good was created by the first that could, and by nobody else.
import TenantSearch.Proofs.GatheredWishes

namespace TenantSearch

namespace Gathering

/-! ## Coming to an end -/

/-- One of the programs is a step shorter. -/
inductive Shortens {α : Type} : List (Prog α) → List (Prog α) → Prop
  | step {before after : List (Prog α)} {s : Step} {next : s.Reply → Prog α} (r : s.Reply) :
      Shortens (before ++ next r :: after) (before ++ .step s next :: after)

theorem shortens_cons {α : Type} {p : Prog α} {l l' : List (Prog α)} (h : Shortens l' (p :: l)) :
    (∃ (s : Step) (next : s.Reply → Prog α) (r : s.Reply), p = .step s next ∧ l' = next r :: l) ∨
      ∃ rest, l' = p :: rest ∧ Shortens rest l := by
  generalize hl : p :: l = programs at h
  obtain @⟨before, after, s, next, r⟩ := h
  rcases before with _ | ⟨first, before⟩
  · cases hl
    exact Or.inl ⟨s, next, r, rfl, rfl⟩
  · cases hl
    exact Or.inr ⟨_, rfl, .step r⟩

/-- One program more does not make it last forever: it is induction on that program,
and for each of its steps on what the others do. -/
theorem acc_cons {α : Type} (p : Prog α) {l : List (Prog α)} (h : Acc Shortens l) :
    Acc Shortens (p :: l) := by
  induction p generalizing l with
  | done a =>
    induction h with
    | intro l _ ih =>
      refine .intro _ fun l' hl' => ?_
      rcases shortens_cons hl' with ⟨s, next, r, hp, -⟩ | ⟨rest, rfl, hrest⟩
      · cases hp
      · exact ih rest hrest
  | step s next ihnext =>
    induction h with
    | intro l hl ih =>
      refine .intro _ fun l' hl' => ?_
      rcases shortens_cons hl' with ⟨s', next', r, hp, rfl⟩ | ⟨rest, rfl, hrest⟩
      · cases hp
        exact ihnext r (.intro l hl)
      · exact ih rest hrest

theorem acc_shortens {α : Type} (l : List (Prog α)) : Acc Shortens l := by
  induction l with
  | nil =>
    refine .intro _ fun l' h => ?_
    generalize hl : ([] : List (Prog α)) = programs at h
    obtain ⟨r⟩ := h
    exact absurd hl.symm (List.append_ne_nil_of_right_ne_nil _ (List.cons_ne_nil _ _))
  | cons p l ih => exact acc_cons p ih

/-- Programs side by side cannot go on forever. -/
theorem acc_goes (t : Gathering) : Acc (fun v u => Goes u v) t := by
  refine Subrelation.accessible ?_ (InvImage.accessible programs (acc_shortens t.programs))
  intro v u h
  cases h with
  | step _ _ => exact .step _

theorem goes_of_mem {t : Gathering} {s : Step} {next : s.Reply → Prog (Except Failure (List String))}
    (hmem : Prog.step s next ∈ t.programs) {held' : List String} (locks : Locks s t.held held')
    {r : s.Reply} {w' : World} (meets : t.world.Meets noCall s r w') : ∃ u, t.Goes u := by
  obtain ⟨programs, held, w⟩ := t
  obtain ⟨before, after, rfl⟩ := List.append_of_mem hmem
  exact ⟨_, .step locks meets⟩

/-- Every step can be met. -/
theorem exists_meets (w : World) (s : Step) : ∃ r w', w.Meets noCall s r w' := by
  cases s with
  | call c => exact ⟨_, _, .call (.answered w.plans)⟩
  | _ => exact ⟨_, _, .own fun c h => nomatch h⟩

/-- A wish stands where it is done. -/
def Stand.Done : Stand → Prop
  | between _ rest => rest = []
  | inside _ _ _ _ => False
  | failed _ _ => True

section

variable {t : Gathering} {wishes : List EnsureWish} {start : World} {places : List Place}
  {visits : String → List Shape}

theorem Keeps.program_mem (h : t.Keeps wishes start places visits) {p : Place} (hp : p ∈ places)
    {program : Prog (Except Failure (List String))} (hprogram : p.program = program) :
    program ∈ t.programs := by
  rw [h.programs]
  exact hprogram ▸ List.mem_map_of_mem hp

/-- Who holds a lock can go on. -/
theorem Keeps.goes_of_lock (h : t.Keeps wishes start places visits) {p : Place} (hp : p ∈ places)
    {index : String} (hlock : p.stand.lock? = some index) : ∃ u, t.Goes u := by
  obtain ⟨wish, stand⟩ := p
  cases stand with
  | inside made target rest left =>
    cases left with
    | done outcome =>
      have hmem : leaving wish.solutionId made target rest outcome ∈ t.programs :=
        h.program_mem hp rfl
      exact goes_of_mem hmem .release (.own fun c h => nomatch h)
    | step s next =>
      have hmem : Prog.step s (fun r => (next r).bind (leaving wish.solutionId made target rest)) ∈
          t.programs := h.program_mem hp rfl
      obtain ⟨r, w', hmeets⟩ := exists_meets t.world s
      exact goes_of_mem hmem (.plain (h.fits _ hp).works.1.1.plain) hmeets
  | _ => cases hlock

/-- Who is about to give back a lock holds it. -/
theorem Keeps.held_of_release (h : t.Keeps wishes start places visits) {lock : String}
    {next : Step.Reply (.release lock) → Prog (Except Failure (List String))}
    (hmem : Prog.step (.release lock) next ∈ t.programs) : lock ∈ t.held := by
  rw [h.programs] at hmem
  obtain ⟨⟨wish, stand⟩, hp, hprogram⟩ := List.mem_map.mp hmem
  cases Stand.steps_of_program hprogram with
  | work => exact absurd trivial (h.fits _ hp).works.1.1.plain
  | leave => exact h.locks.mem_iff.mp (List.mem_filterMap.mpr ⟨_, hp, rfl⟩)

theorem Keeps.free_of_locksOf (h : t.Keeps wishes start places visits)
    (hlocks : locksOf places = []) : t.held = [] := by
  have hperm := h.locks
  rw [hlocks] at hperm
  exact hperm.symm.eq_nil

/-- Wishes never block each other: someone can go on, or all are done. -/
theorem Keeps.goes_or_done (h : t.Keeps wishes start places visits) :
    (∃ u, t.Goes u) ∨ ∀ p ∈ places, p.stand.Done := by
  rcases hlocks : locksOf places with _ | ⟨index, others⟩
  · refine Classical.or_iff_not_imp_left.mpr fun hstuck p hp => ?_
    have hfree : p.stand.lock? = none := List.filterMap_eq_nil_iff.mp hlocks p hp
    obtain ⟨wish, stand⟩ := p
    cases stand with
    | inside => cases hfree
    | failed made f => trivial
    | between made rest =>
      rcases rest with _ | ⟨target, rest⟩
      · exact rfl
      · have hmem := h.program_mem hp (pending_cons wish.solutionId made target rest)
        refine absurd (goes_of_mem hmem (.acquire ?_) (.own fun c h => nomatch h)) hstuck
        rw [h.free_of_locksOf hlocks]
        exact List.not_mem_nil
  · have hin : index ∈ locksOf places := hlocks ▸ List.mem_cons_self
    obtain ⟨p, hp, hlock⟩ := List.mem_filterMap.mp hin
    exact Or.inl (h.goes_of_lock hp hlock)

end

/-! ## What became of an index -/

/-- The wish targets the index. -/
def Targets (e : EnsureWish) (index : String) : Prop := ∃ target ∈ e.targets, target.name = index

/-- A wish with what became of it. -/
abbrev Outcome := EnsureWish × Except Failure (List String)

/-- The indices that a wish lists: none if it failed. -/
def Outcome.names (o : Outcome) : List String :=
  match o.2 with
  | .ok names => names
  | .error _ => []

/-- The indices that wishes list. -/
def listed (outcomes : List Outcome) : List String := outcomes.flatMap Outcome.names

/-- An index was left as it is: at most somebody looked at it, and nobody lists it. -/
structure Spared (start w : World) (outcomes : List Outcome) (index : String) : Prop where
  mapping : w.engine.mapping? index = start.engine.mapping? index
  calls : callsAbout index w.log = callsAbout index start.log ∨
    callsAbout index w.log = callsAbout index start.log ++ [.mapping index]
  unlisted : index ∉ listed outcomes

/-- An index was looked at so often, but nobody could create it. -/
structure Neglected (start w : World) (outcomes : List Outcome) (index : String) (looks : Nat) :
    Prop where
  mapping : w.engine.mapping? index = start.engine.mapping? index
  calls : callsAbout index w.log =
    callsAbout index start.log ++ List.replicate looks (.mapping index)
  unlisted : index ∉ listed outcomes

/-- An index was created anew, once and in one go, as one of the wishes would have it,
and is compatible now. Before, it was looked at so often by those who could not create
it. -/
structure Recreated (start w : World) (outcomes : List Outcome) (index : String) (looks : Nat)
    (d : IndexDescriptor) : Prop where
  wanted : start.Wants (outcomes.map Prod.fst) index (.ok d)
  mapping : w.engine.mapping? index = some d.mappings
  sound : isSound (w.engine.mapping? index) = true
  calls : callsAbout index w.log =
    callsAbout index start.log ++ List.replicate looks (.mapping index) ++
      recreation index (start.engine.mapping? index).isSome d
  listed : (listed outcomes).count index ≤ 1

/-- All wishes are done, and those that can be met have not failed. An index that was good
or that nobody targets was left as it is. Any other one was created anew, unless nobody
could; it is listed by one wish if all that target it can be met. -/
structure Ended (t : Gathering) (start : World) (outcomes : List Outcome) : Prop where
  done : t.programs = outcomes.map fun o => .done o.2
  met : ∀ o ∈ outcomes, start.Describes o.1 → ∃ names, o.2 = .ok names
  spared : ∀ index, start.spares index = true ∨ (∀ o ∈ outcomes, ¬ Targets o.1 index) →
    Spared start t.world outcomes index
  created : ∀ index, start.spares index = false → ∃ looks,
    (Neglected start t.world outcomes index looks ∧
      ∀ o ∈ outcomes, Targets o.1 index → ¬ start.Describes o.1) ∨
    ∃ d, Recreated start t.world outcomes index looks d
  createdOnce : ∀ index, start.spares index = false → (∃ o ∈ outcomes, Targets o.1 index) →
    (∀ o ∈ outcomes, Targets o.1 index → start.Describes o.1) →
      ∃ d, Recreated start t.world outcomes index 0 d ∧ (listed outcomes).count index = 1

/-- What a wish gives when it is done. -/
def Place.outcome (p : Place) : Outcome :=
  (p.wish, match p.stand with
    | .failed _ f => .error f
    | stand => .ok stand.made)

theorem program_of_done {p : Place} (h : p.stand.Done) : p.program = .done p.outcome.2 := by
  obtain ⟨wish, stand⟩ := p
  cases stand with
  | failed made f => rfl
  | inside => exact h.elim
  | between made rest =>
    cases h
    exact pending_nil wish.solutionId made

/-- A wish that did not fail lists what it created, a failed one nothing. -/
theorem names_outcome (p : Place) :
    p.outcome.names = p.stand.made ∨ p.outcome.names = [] ∧ ∃ made f, p.stand = .failed made f := by
  obtain ⟨wish, stand⟩ := p
  cases stand with
  | failed made f => exact Or.inr ⟨rfl, made, f, rfl⟩
  | _ => exact Or.inl rfl

theorem count_listed_le (places : List Place) (index : String) :
    (listed (places.map Place.outcome)).count index ≤
      (places.flatMap (·.stand.made)).count index := by
  unfold listed
  rw [List.flatMap_map]
  induction places with
  | nil => exact Nat.le_refl _
  | cons p rest ih =>
    simp only [List.flatMap_cons, List.count_append]
    rcases names_outcome p with hnames | ⟨hnames, -⟩
    · rw [hnames]
      exact Nat.add_le_add_left ih _
    · rw [hnames, List.count_nil, Nat.zero_add]
      exact Nat.le_trans ih (Nat.le_add_left _ _)

/-- An index that no failed wish created is listed as often as it was created. -/
theorem count_listed_eq {places : List Place} {index : String}
    (h : ∀ p ∈ places, (∃ made f, p.stand = .failed made f) → index ∉ p.stand.made) :
    (listed (places.map Place.outcome)).count index =
      (places.flatMap (·.stand.made)).count index := by
  unfold listed
  rw [List.flatMap_map]
  induction places with
  | nil => rfl
  | cons p rest ih =>
    simp only [List.flatMap_cons, List.count_append]
    rw [ih fun q hq => h q (List.mem_cons_of_mem _ hq)]
    rcases names_outcome p with hnames | ⟨hnames, hfailed⟩
    · rw [hnames]
    · rw [hnames, List.count_nil, List.count_eq_zero.mpr (h p List.mem_cons_self hfailed)]

section

variable {t : Gathering} {wishes : List EnsureWish} {start : World} {places : List Place}
  {visits : String → List Shape}

theorem Keeps.trace_of_done (h : t.Keeps wishes start places visits)
    (done : ∀ p ∈ places, p.stand.Done) (index : String) :
    t.world.trace index = (start.trace index).after index (visits index) := by
  have hlocks : locksOf places = [] := by
    refine List.filterMap_eq_nil_iff.mpr fun p hp => ?_
    have hdone := done p hp
    obtain ⟨wish, stand⟩ := p
    cases stand with
    | inside => exact hdone.elim
    | _ => rfl
  exact h.free index (h.free_of_locksOf hlocks ▸ List.not_mem_nil)

theorem Keeps.wants (h : t.Keeps wishes start places visits) {index : String} {shape : Shape}
    (hshape : shape ∈ visits index) :
    start.Wants ((places.map Place.outcome).map Prod.fst) index shape := by
  have hwishes : (places.map Place.outcome).map Prod.fst = wishes := by
    rw [List.map_map]
    exact h.same
  rw [hwishes]
  exact h.wanted index shape hshape

/-- A wish that can be met has come to each of its targets. -/
theorem Keeps.visited_of_done (h : t.Keeps wishes start places visits) {p : Place}
    (hp : p ∈ places) (done : p.stand.Done) (describes : start.Describes p.wish)
    {index : String} (targets : Targets p.wish index) : ∃ d, .ok d ∈ visits index := by
  obtain ⟨target, htarget, rfl⟩ := targets
  obtain ⟨d, hd⟩ := describes.shaped target htarget
  rcases (h.fits p hp).visited target htarget with hahead | hvisited | ⟨made, f, hfailed⟩
  · obtain ⟨wish, stand⟩ := p
    cases stand with
    | between made rest =>
      cases done
      exact absurd hahead List.not_mem_nil
    | inside => exact done.elim
    | failed made f => exact absurd hahead List.not_mem_nil
  · exact ⟨d, hd ▸ hvisited⟩
  · exact absurd describes ((h.fits p hp).fails made f hfailed)

theorem Keeps.spared (h : t.Keeps wishes start places visits) (done : ∀ p ∈ places, p.stand.Done)
    {index : String}
    (hspared : start.spares index = true ∨ ∀ o ∈ places.map Place.outcome, ¬ Targets o.1 index) :
    Spared start t.world (places.map Place.outcome) index := by
  have htrace := h.trace_of_done done index
  have hmade := h.made index
  have hcount := count_listed_le places index
  have hends : (t.world.trace index = start.trace index ∨
      t.world.trace index = (start.trace index).looked index) ∧
        (places.flatMap (·.stand.made)).count index = 0 := by
    rcases hspared with hgood | huntargeted
    · rw [htrace, hmade]
      exact IndexTrace.after_of_good (t := start.trace index) hgood (visits index)
    · have hnone : visits index = [] := by
        refine List.eq_nil_iff_forall_not_mem.mpr fun shape hshape => ?_
        obtain ⟨e, he, target, htarget, hname, -⟩ := h.wants hshape
        obtain ⟨o, ho, rfl⟩ := List.mem_map.mp he
        exact huntargeted o ho ⟨target, htarget, hname⟩
      rw [htrace, hmade, hnone]
      exact ⟨Or.inl rfl, rfl⟩
  obtain ⟨hlast, hnever⟩ := hends
  rw [hnever, Nat.le_zero] at hcount
  have hunlisted := List.count_eq_zero.mp hcount
  rcases hlast with hsame | hlooked
  · exact ⟨congrArg IndexTrace.mapping hsame, Or.inl (congrArg IndexTrace.calls hsame), hunlisted⟩
  · refine ⟨(congrArg IndexTrace.mapping hlooked).trans ?_, ?_, hunlisted⟩
    · unfold IndexTrace.looked
      split
      · rfl
      · rfl
    · have hcalls : callsAbout index t.world.log = ((start.trace index).looked index).calls :=
        congrArg IndexTrace.calls hlooked
      rw [hcalls]
      unfold IndexTrace.looked
      split
      · exact Or.inl rfl
      · exact Or.inr rfl

/-- An index that is not good is created by whoever comes first with a descriptor. -/
theorem Keeps.created (h : t.Keeps wishes start places visits) (done : ∀ p ∈ places, p.stand.Done)
    {index : String} (hbad : start.spares index = false) :
    ∃ looks, (Neglected start t.world (places.map Place.outcome) index looks ∧
        ∀ d, .ok d ∉ visits index) ∨
      ∃ d, Recreated start t.world (places.map Place.outcome) index looks d ∧
        (places.flatMap (·.stand.made)).count index = 1 ∧
        (0 < looks → ∃ f, .error f ∈ visits index) := by
  have htrace := h.trace_of_done done index
  have hmade := h.made index
  have hcount := count_listed_le places index
  rcases IndexTrace.after_of_bad (t := start.trace index) hbad (visits index) with
    ⟨hafter, hnever, hfails⟩ | ⟨looks, d, hafter, honce, hok, hlooks⟩
  · rw [hafter] at htrace
    rw [hmade, hnever, Nat.le_zero] at hcount
    exact ⟨_, Or.inl ⟨⟨congrArg IndexTrace.mapping htrace, congrArg IndexTrace.calls htrace,
      List.count_eq_zero.mp hcount⟩, hfails⟩⟩
  · rw [hafter] at htrace
    rw [hmade, honce] at hcount
    have hmapping : t.world.engine.mapping? index = some d.mappings :=
      congrArg IndexTrace.mapping htrace
    obtain ⟨e, he, target, htarget, hname, hshape⟩ := h.wants hok
    refine ⟨looks, Or.inr ⟨d, ⟨⟨e, he, target, htarget, hname, hshape⟩, hmapping, ?_,
      congrArg IndexTrace.calls htrace, hcount⟩, hmade.trans honce, hlooks⟩⟩
    rw [hmapping]
    exact (descriptorFor_eq_ok hshape).2

/-- Where all that target an index can be met, whoever comes first creates and lists it. -/
theorem Keeps.createdOnce (h : t.Keeps wishes start places visits)
    (done : ∀ p ∈ places, p.stand.Done) {index : String} (hbad : start.spares index = false)
    (targeted : ∃ o ∈ places.map Place.outcome, Targets o.1 index)
    (described : ∀ o ∈ places.map Place.outcome, Targets o.1 index → start.Describes o.1) :
    ∃ d, Recreated start t.world (places.map Place.outcome) index 0 d ∧
      (listed (places.map Place.outcome)).count index = 1 := by
  have hmet (p : Place) (hp : p ∈ places) (htargets : Targets p.wish index) :
      start.Describes p.wish := described p.outcome (List.mem_map_of_mem hp) htargets
  obtain ⟨looks, ⟨-, hfails⟩ | ⟨d, hrecreated, honce, hlooks⟩⟩ := h.created done hbad
  · obtain ⟨o, ho, htargets⟩ := targeted
    obtain ⟨p, hp, rfl⟩ := List.mem_map.mp ho
    obtain ⟨d, hd⟩ := h.visited_of_done hp (done p hp) (hmet p hp htargets) htargets
    exact absurd hd (hfails d)
  · have hzero : looks = 0 := by
      refine Nat.eq_zero_of_not_pos fun hpos => ?_
      obtain ⟨f, hf⟩ := hlooks hpos
      obtain ⟨e, he, target, htarget, hname, hshape⟩ := h.wants hf
      obtain ⟨o, ho, rfl⟩ := List.mem_map.mp he
      obtain ⟨d', hd'⟩ := (described o ho ⟨target, htarget, hname⟩).shaped target htarget
      rw [hshape] at hd'
      cases hd'
    refine ⟨d, hzero ▸ hrecreated, (count_listed_eq fun p hp hfailed hin => ?_).trans honce⟩
    obtain ⟨made, f, hstand⟩ := hfailed
    exact (h.fits p hp).fails made f hstand (hmet p hp ((h.fits p hp).made index hin))

/-- Where all wishes are done, each index came to the end that is due to it. -/
theorem Keeps.ended (h : t.Keeps wishes start places visits)
    (done : ∀ p ∈ places, p.stand.Done) : t.Ended start (places.map Place.outcome) := by
  refine ⟨?_, fun o ho hdescribes => ?_, fun _ => h.spared done, fun index hbad => ?_,
    fun _ => h.createdOnce done⟩
  · rw [h.programs, List.map_map]
    exact List.map_congr_left fun p hp => program_of_done (done p hp)
  · obtain ⟨p, hp, rfl⟩ := List.mem_map.mp ho
    have hfails := (h.fits p hp).fails
    obtain ⟨wish, stand⟩ := p
    cases stand with
    | failed made f => exact absurd hdescribes (hfails made f rfl)
    | _ => exact ⟨_, rfl⟩
  · obtain ⟨looks, ⟨hneglected, hfails⟩ | ⟨d, hrecreated, -⟩⟩ := h.created done hbad
    · refine ⟨looks, Or.inl ⟨hneglected, fun o ho htargets hdescribes => ?_⟩⟩
      obtain ⟨p, hp, rfl⟩ := List.mem_map.mp ho
      obtain ⟨d, hd⟩ := h.visited_of_done hp (done p hp) hdescribes htargets
      exact hfails d hd
    · exact ⟨looks, Or.inr ⟨d, hrecreated⟩⟩

end

/-- Wishes that are not forced can go on, or each index came to the end that is due to it. -/
theorem Reached.goes_or_ended {wishes : List EnsureWish} {w : World} {t : Gathering}
    (reached : (Gathering.start wishes w).Reached t) (unforced : ∀ e ∈ wishes, e.force = false) :
    (∃ u, t.Goes u) ∨
      ∃ outcomes : List Outcome, outcomes.map Prod.fst = wishes ∧ t.Ended w outcomes := by
  obtain ⟨places, visits, hkeeps⟩ := reached.keeps (keeps_start unforced w)
  refine hkeeps.goes_or_done.imp_right fun done => ⟨_, ?_, hkeeps.ended done⟩
  rw [List.map_map]
  exact hkeeps.same

/-- Whatever wishes come to by turns while no outage is planned, in whatever order and
wherever they pause, they come to side by side. -/
theorem exists_reached_by_turns {wishes : List EnsureWish} {w : World}
    (unforced : ∀ e ∈ wishes, e.force = false) (planless : w.plans = []) (pauses : PauseRule)
    (choices : List Nat) :
    ∃ t, (Gathering.start wishes w).Reached t ∧
      t.world = ((Turns.start (wishes.map (·.program)) w).follow pauses choices).world ∧
      t.programs.Perm ((Turns.start (wishes.map (·.program)) w).follow pauses choices).programs := by
  have hadmits : Turns.Admits noCall fun programs held v =>
      (Gathering.start wishes w).Reached ⟨programs, held, v⟩ := by
    refine ⟨fun reached locks meets => reached.next (.step locks meets), fun reached => ?_,
      fun reached hmem => ?_⟩
    · obtain ⟨places, visits, hkeeps⟩ := reached.keeps (keeps_start unforced w)
      exact hkeeps.apart
    · obtain ⟨places, visits, hkeeps⟩ := reached.keeps (keeps_start unforced w)
      exact hkeeps.held_of_release hmem
  have hplans : w.Plans noCall := by
    intro c hc
    rw [planless] at hc
    cases hc
  obtain ⟨programs, held, hshows⟩ := Turns.follow_admitted hadmits hplans
    (wishes.map (·.program)) .start pauses choices
  exact ⟨⟨programs, held, _⟩, hshows.reached, rfl, hshows.programs⟩

/-- Where all have had their turns nobody can go on. -/
theorem not_goes_of_finished {t : Gathering} {turns : Turns (Except Failure (List String))}
    (same : t.programs.Perm turns.programs)
    (finished : (turns.ready.isEmpty && turns.paused.isEmpty && turns.waiting.isEmpty) = true) :
    ¬ ∃ u, t.Goes u := by
  rintro ⟨u, goes⟩
  rw [Bool.and_eq_true, Bool.and_eq_true, List.isEmpty_iff, List.isEmpty_iff, List.isEmpty_iff]
    at finished
  obtain ⟨⟨hready, hpaused⟩, hwaiting⟩ := finished
  cases goes with
  | @step before after s next r held held' w w' locks meets =>
    have hmem : Prog.step s next ∈ turns.programs :=
      same.mem_iff.mp (List.mem_append_right before List.mem_cons_self)
    unfold Turns.programs at hmem
    rw [hready, hpaused, hwaiting] at hmem
    obtain ⟨p, -, hp⟩ := List.mem_map.mp hmem
    cases hp

theorem Reached.after_step {t u v : Gathering} (goes : Goes t u) (h : Reached u v) :
    Reached t v := by
  induction h with
  | start => exact .next .start goes
  | next _ goes' ih => exact .next ih goes'

/-- In some order wishes come to an end. -/
theorem exists_stuck (t : Gathering) : ∃ u, t.Reached u ∧ ¬ ∃ v, u.Goes v := by
  induction acc_goes t with
  | intro t _ ih =>
    by_cases hgoes : ∃ u, t.Goes u
    · obtain ⟨u, goes⟩ := hgoes
      obtain ⟨v, hreached, hstuck⟩ := ih u goes
      exact ⟨v, hreached.after_step goes, hstuck⟩
    · exact ⟨t, .start, hgoes⟩

/-- Two solutions that want one index, and write its name differently. -/
def contenders : List EnsureWish :=
  [⟨.str "sol-1", .str "Event", .null, false⟩, ⟨.str "sol-2", .str "EVENT", .null, false⟩]

/-- A world with an index for events whose identifiers are no keywords. -/
def bareIndex : World where
  circumstances := { now := ⟨0⟩ }
  engine := { mappings := [("event", .obj [])] }

theorem contenders_described : ∀ e ∈ contenders, bareIndex.Describes e := by
  have hshaped : contenders.all fun e => e.targets.all fun target =>
      (descriptorFor [] e.solutionId target).isOk := by decide +kernel
  intro e he
  refine ⟨?_, fun target htarget => ?_⟩
  · rw [contenders, List.mem_cons, List.mem_singleton] at he
    rcases he with rfl | rfl
    · exact ⟨"Event", rfl⟩
    · exact ⟨"EVENT", rfl⟩
  · exact isOk_iff.mp (List.all_eq_true.mp (List.all_eq_true.mp hshaped e he) target htarget)

/-- The contenders in turn, with a pause at every call. -/
def contendersInTurn (n : Nat) : Turns (Except Failure (List String)) :=
  (Turns.start (contenders.map (·.program)) bareIndex).follow .always (List.replicate n 0)

/-- A wish for the index of events. -/
def eventWish : EnsureWish := ⟨.str "sol-1", .str "Event", .null, false⟩

/-- A world without an index for events, whose fields are not defined as they must be. -/
def illDefined : World where
  circumstances := { now := ⟨0⟩ }
  definitions := [⟨"sol-1", "Event", none, .obj [("x", .str "text")], .null, .null⟩]

/-- A world whose index for events was dropped by somebody else, and is still known. -/
def staleMemory : World where
  circumstances := { now := ⟨0⟩ }
  memory := { known := ["event"] }

end Gathering

end TenantSearch
