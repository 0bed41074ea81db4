-- What a manager finds that is started again. Once the indices of an entity were made sure of
-- they are good, whatever their definitions asked for and whatever failed on the way. So a
-- manager that remembers nothing of them looks at them and leaves them alone.
import TenantSearch.Proofs.EnsuredTargets
import TenantSearch.Proofs.ReachableWorlds

namespace TenantSearch

open Service

/-! ## The pure model -/

namespace World

/-- The looks at the indices of targets, those aside that are remembered. -/
def looks (w : World) (targets : List IndexTarget) : List Call :=
  (targets.filter fun t => !w.memory.knows t.name).map fun t => .engine (.mapping t.name)

/-- From one world to another the indices of targets were looked at, and nothing else was asked
of anyone. -/
structure LookedAt (w w' : World) (targets : List IndexTarget) : Prop where
  log : w'.log = w.log ++ w.looks targets
  engine : w'.engine = w.engine
  plans : w'.plans = w.plans
  known : ∀ index ∉ targets.map (·.name), w'.memory.knows index = w.memory.knows index

/-- The indices of targets look as they did in another world, and the engine shows how they
look. What else it holds, what is defined and what is remembered may all be different. -/
structure Resumes (v w : World) (targets : List IndexTarget) : Prop where
  mapping : ∀ t ∈ targets, v.engine.mapping? t.name = w.engine.mapping? t.name
  shown : ∀ t ∈ targets, v.Unplanned (.engine (.mapping t.name))

end World

/-! ## Looking at good indices -/

namespace World

variable {w w₁ w' : World} {t : IndexTarget} {rest : List IndexTarget}

theorem LookedAt.refl (w : World) : w.LookedAt w [] :=
  ⟨(List.append_nil _).symm, rfl, rfl, fun _ _ => rfl⟩

theorem looks_cons (w : World) (t : IndexTarget) (rest : List IndexTarget) :
    w.looks (t :: rest) = w.looks [t] ++ w.looks rest := by
  unfold looks
  rw [← List.map_append, ← List.filter_append]
  rfl

/-- A look at one index changes nothing about the looks at others. -/
theorem LookedAt.looks (h : w.LookedAt w₁ [t]) (hname : t.name ∉ rest.map (·.name)) :
    w₁.looks rest = w.looks rest := by
  unfold World.looks
  refine congrArg _ (List.filter_congr fun other hother => ?_)
  have hne : other.name ∉ [t].map (·.name) := by
    rw [List.map_singleton, List.mem_singleton]
    exact fun heq => hname (List.mem_map.mpr ⟨other, hother, heq⟩)
  rw [h.known _ hne]

theorem LookedAt.cons (h : w.LookedAt w₁ [t]) (hname : t.name ∉ rest.map (·.name))
    (h' : w₁.LookedAt w' rest) : w.LookedAt w' (t :: rest) where
  log := by rw [h'.log, h.looks hname, h.log, looks_cons w t rest, List.append_assoc]
  engine := h'.engine.trans h.engine
  plans := h'.plans.trans h.plans
  known index hindex := by
    rw [List.map_cons, List.mem_cons, not_or] at hindex
    rw [h'.known index hindex.2]
    exact h.known index (by simpa using hindex.1)

theorem Resumes.of_subset {targets others : List IndexTarget} (h : w.Resumes w₁ targets)
    (hsubset : others ⊆ targets) : w.Resumes w₁ others :=
  ⟨fun t ht => h.mapping t (hsubset ht), fun t ht => h.shown t (hsubset ht)⟩

theorem LookedAt.resumes (h : w.LookedAt w' [t]) {targets : List IndexTarget} {left : World}
    (resumes : w.Resumes left targets) : w'.Resumes left targets where
  mapping other hother := by
    rw [h.engine]
    exact resumes.mapping other hother
  shown other hother := by
    unfold Unplanned
    rw [h.plans]
    exact resumes.shown other hother

end World

section

variable {w : World} {t : IndexTarget}

/-- An index that is good is found to be good, from memory or by a look at it. -/
theorem isGood_leads_looking (live : isSound (w.engine.mapping? t.name) = true)
    (shown : w.Unplanned (.engine (.mapping t.name))) :
    (Index.isGood t.name).Leads w fun r w' => r = .ok true ∧ w.LookedAt w' [t] := by
  unfold Index.isGood
  rw [leads_bind, leads_memory]
  dsimp only
  by_cases hknown : w.memory.knows t.name = true
  · have hlooks : w.looks [t] = [] := by simp [World.looks, hknown]
    rw [if_pos hknown, leads_pure]
    exact ⟨rfl, by rw [hlooks, List.append_nil], rfl, rfl, fun _ _ => rfl⟩
  · have hlooks : w.looks [t] = [.engine (.mapping t.name)] := by simp [World.looks, hknown]
    rw [if_neg hknown, leads_bind, leads_change, leads_bind]
    have hshown : World.Unplanned { w with memory := w.memory.change (.mark t.name .checking) }
        (.engine (.mapping t.name)) := shown
    dsimp only
    rw [checkLive_leads hshown]
    dsimp only
    rw [live]
    simp only [if_true, leads_bind, leads_change, leads_pure]
    refine ⟨trivial, congrArg (w.log ++ ·) hlooks.symm, rfl, rfl, fun index hindex => ?_⟩
    have hne : (index == t.name) = false := by simpa using hindex
    have hremembered := IndexMemory.knows_remember (w.memory.change (.mark t.name .checking))
      t.name index
    rw [hne, Bool.false_or] at hremembered
    exact hremembered

theorem ensureOne_leads_looking (live : isSound (w.engine.mapping? t.name) = true)
    (shown : w.Unplanned (.engine (.mapping t.name))) (solutionId : Json) :
    (Index.ensureOne solutionId false t).Leads w fun r w' =>
      r = .ok false ∧ w.LookedAt w' [t] := by
  unfold Index.ensureOne
  rw [leads_locked]
  simp only [Bool.false_eq_true, if_false, map_eq_pure_bind, leads_bind]
  refine (isGood_leads_looking live shown).mono ?_
  rintro r w' ⟨rfl, hlooked⟩
  exact ⟨rfl, hlooked⟩

end

/-- Where the indices of all targets were left good, making sure of them is looking at them. -/
theorem ensureEach_leads_looking {left : World} {targets : List IndexTarget}
    (live : ∀ t ∈ targets, isSound (left.engine.mapping? t.name) = true)
    (hnames : (targets.map (·.name)).Nodup) (solutionId : Json) {w : World}
    (resumes : w.Resumes left targets) :
    (Index.ensureEach solutionId false targets).Leads w fun r w' =>
      r = .ok [] ∧ w.LookedAt w' targets := by
  induction targets generalizing w with
  | nil => exact ⟨rfl, .refl w⟩
  | cons t rest ih =>
    obtain ⟨hname, hnodup⟩ := List.nodup_cons.mp hnames
    have hlive : isSound (w.engine.mapping? t.name) = true := by
      rw [resumes.mapping t List.mem_cons_self]
      exact live t List.mem_cons_self
    unfold Index.ensureEach
    rw [leads_bind]
    refine (ensureOne_leads_looking hlive (resumes.shown t List.mem_cons_self) solutionId).mono ?_
    rintro r w₁ ⟨rfl, hlooked⟩
    have hresumes := (hlooked.resumes resumes).of_subset (List.subset_cons_self t rest)
    dsimp only
    rw [leads_bind]
    refine (ih (fun other hother => live other (List.mem_cons_of_mem _ hother)) hnodup
      hresumes).mono ?_
    rintro r w' ⟨rfl, hrest⟩
    exact ⟨rfl, hlooked.cons hname hrest⟩

/-! ## What a run leaves -/

/-- Whatever a guarded program hears, it leaves the indices honest. -/
theorem Prog.Hears.honest {α : Type} {p : Prog α} {w w' : World} {heard : List Exchange} {a : α}
    (h : p.Hears (World.Meets World.anyCall) w heard a w') {held : Option Hold}
    {post : α → Option Hold → Prop} (guarded : p.Guarded post held) (honest : w.Honest)
    (agrees : ∀ hold ∈ held, hold.Agrees w) : w'.Honest := by
  induction h generalizing held with
  | done a w => exact honest
  | step meets _ ih =>
    obtain ⟨honest', agrees', hnext⟩ := guarded.step honest agrees meets
    exact ih hnext honest' agrees'

/-- A program that keeps to some calls is heard to make no others. -/
theorem Prog.Keeps.hears {α : Type} {around : Surroundings} {allows : Call → Prop} {p : Prog α}
    {w w' : World} {heard : List Exchange} {a : α} (h : p.Hears around w heard a w')
    {post : α → Prop} (hp : p.Keeps (.only allows) post) :
    ∀ e ∈ heard, ∀ c, e.step = .call c → allows c := by
  induction h with
  | done a w => exact fun e he => absurd he List.not_mem_nil
  | @step s next w w' w'' r heard a meets _ ih =>
    cases s with
    | call c =>
      obtain ⟨hallowed, hnext⟩ := hp
      intro e he c' hc'
      rcases List.mem_cons.mp he with rfl | he
      · cases hc'
        exact hallowed
      · exact ih (hnext r fun _ _ => trivial) e he c' hc'
    | _ =>
      intro e he c' hc'
      rcases List.mem_cons.mp he with rfl | he
      · cases hc'
      · exact ih (hp r) e he c' hc'

theorem Exchange.exists_of_created {e : Exchange} {index : String}
    (h : e.created? = some index) : ∃ d, e.step = .call (.engine (.create d)) := by
  unfold created? at h
  split at h
  · exact ⟨_, rfl⟩
  · cases h

/-- Whatever is heard while the indices of an entity are made sure of, an index is created with a
mapping that is good only. -/
theorem isSound_of_created {solutionId entityName entityType : Json} {force : Bool} {w w' : World}
    {heard : List Exchange} {r : Except Failure (List String)}
    (h : (Index.ensure solutionId entityName entityType force).Hears w heard r w')
    {e : Exchange} (he : e ∈ heard) {d : IndexDescriptor}
    (hcreate : e.step = .call (.engine (.create d))) : isSound (some d.mappings) = true := by
  have hwithin := ensure_within checkedWrites_admits.free solutionId entityName entityType force
  unfold Within Service.Keeps at hwithin
  exact Prog.Keeps.hears h hwithin e he _ hcreate

/-- Indices that were made sure of are good in the end. -/
theorem isSound_of_ensured {solutionId : Json} {force : Bool} {targets : List IndexTarget}
    (hnames : (targets.map (·.name)).Nodup) {w w' : World} (honest : w.Honest)
    {heard : List Exchange} {names : List String}
    (h : (Index.ensureEach solutionId force targets).Hears w heard (.ok names) w') :
    ∀ t ∈ targets, isSound (w'.engine.mapping? t.name) = true := by
  intro t ht
  have hknown : w'.memory.knows t.name = true :=
    ((ensureEach_told solutionId force hnames w _ _ _ h).returned names rfl).2 t ht
  have honest' : w'.Honest := Prog.Hears.honest h (ensureEach_guarded solutionId force targets)
    honest fun hold hhold => nomatch hhold
  exact (honest' t.name).live hknown

/-! ## Restarts -/

theorem ensure_eq {name : String} (hname : isBlankText name = false) (solutionId entityType : Json)
    (force : Bool) : Index.ensure solutionId (.str name) entityType force =
      Index.ensureEach solutionId force (IndexTarget.writeTargets name entityType) := by
  unfold Index.ensure
  rw [entityNameOf_of_not_blank hname]
  rfl

/-- Without the name of an entity nothing is made sure of. -/
theorem not_blank_of_ensured {name : String} {solutionId entityType : Json} {force : Bool}
    {w w' : World} {heard : List Exchange} {names : List String}
    (h : (Index.ensure solutionId (.str name) entityType force).Hears w heard (.ok names) w') :
    isBlankText name = false := by
  by_cases hblank : isBlankText name = true
  · unfold Index.ensure at h
    rw [entityNameOf_of_blank (Or.inr ⟨name, rfl, hblank⟩)] at h
    cases h
  · exact Bool.eq_false_iff.mpr hblank

theorem writeTargets_subset (name : String) {entityType again : Json}
    (h : again ∈ [entityType, .null]) :
    IndexTarget.writeTargets name again ⊆ IndexTarget.writeTargets name entityType := by
  rcases List.mem_pair.mp h with rfl | rfl
  · exact List.Subset.refl _
  · unfold IndexTarget.writeTargets
    cases entityType.given with
    | true => exact fun t ht => List.mem_cons.mpr (Or.inl (List.mem_singleton.mp ht))
    | false => exact List.Subset.refl _

/-- The indices of an entity were made sure of, whatever its definitions ask for and whichever
calls failed, by a manager that remembered none or only good ones. A manager that finds them as
they were left, for whichever solution and under whatever definitions, gives an empty list for
the entity, with its subtype or without: where it remembers nothing it looks at each index, and it
asks for nothing else. And an index that shows the mapping it was created with passes the look. -/
theorem indices_outlast_a_restart {w w' : World} (honest : w.Honest) {solutionId entityType : Json}
    {name : String} {force : Bool} {heard : List Exchange} {names : List String}
    (ensured : (Index.ensure solutionId (.str name) entityType force).Hears w heard (.ok names)
      w') :
    (∀ v : World, v.Resumes w' (IndexTarget.writeTargets name entityType) →
      ∀ solution : Json, ∀ again ∈ [entityType, .null],
        (Index.ensure solution (.str name) again false).Leads v fun r v' =>
          r = .ok [] ∧ v.LookedAt v' (IndexTarget.writeTargets name again)) ∧
    ∀ e ∈ heard, ∀ d : IndexDescriptor, e.step = .call (.engine (.create d)) → ∀ v : World,
      v.engine.mapping? d.indexName = some d.mappings →
      v.Unplanned (.engine (.mapping d.indexName)) →
        (Index.checkLive d.indexName).Leads v fun r _ => r = .ok true := by
  refine ⟨fun v resumes solution again hagain => ?_, fun e he d hcreate v hmapping hshown => ?_⟩
  · have hname := not_blank_of_ensured ensured
    have hsubset := writeTargets_subset name hagain
    rw [ensure_eq hname] at ensured ⊢
    have hlive := isSound_of_ensured (nodup_writeTargets name entityType) honest ensured
    exact ensureEach_leads_looking (fun t ht => hlive t (hsubset ht))
      (nodup_writeTargets name again) solution (resumes.of_subset hsubset)
  · rw [checkLive_leads hshown, hmapping, isSound_of_created ensured he hcreate]

/-- The definition of events asks for identifiers that are no keywords, as those of the index
that there is. No job can be queued. -/
def redefinedEvents : World :=
  { wrongEvents with
    definitions := [{
      solutionId := "sol-1"
      entityName := "Event"
      entityType := none
      indexFields := .obj [("id", .obj [("type", .str "text")])]
      display := .null
      content := .null }]
    plans := [⟨"enqueue_job", .crash, 0, none⟩] }

/-- What is heard when concerts are wanted. -/
def concertsHeard : List Exchange := wantConcerts.run.exchanges redefinedEvents

/-- A world with the same engine, in which nothing is defined or remembered. -/
def World.restarted (w : World) : World := { World.empty morning with engine := w.engine }

theorem World.resumes_restarted (w : World) (targets : List IndexTarget) :
    w.restarted.Resumes w targets where
  mapping _ _ := rfl
  shown _ _ := by
    have hcalm : w.restarted.Calm := rfl
    exact hcalm.unplanned _

/-- Concerts were wanted. -/
def redefinedConcerts : World := (wantConcerts.run.run redefinedEvents).2

/-- The indices of events and of concerts are created with keywords all the same, and another
solution finds them good after a restart. -/
theorem concerts_outlast_a_restart :
    redefinedEvents.Honest ∧
    wantConcerts.Hears redefinedEvents concertsHeard (.ok ["event", "event_concert"])
      redefinedConcerts ∧
    redefinedConcerts.restarted.Resumes redefinedConcerts
      (IndexTarget.writeTargets "Event" (.str "Concert")) ∧
    ((Index.ensure (.str "sol-2") (.str "Event") (.str "Concert") false).Leads
      redefinedConcerts.restarted fun r v =>
        r = .ok [] ∧ redefinedConcerts.restarted.LookedAt v
          (IndexTarget.writeTargets "Event" (.str "Concert"))) ∧
    ∃ e ∈ concertsHeard, ∃ d : IndexDescriptor, e.step = .call (.engine (.create d)) ∧
      (Index.checkLive d.indexName).Leads
        { World.empty morning with
          engine := (World.empty morning).engine.setMapping d.indexName d.mappings }
        fun r _ => r = .ok true := by
  have honest : redefinedEvents.Honest := World.honest_of_fresh rfl
  have hmade : (wantConcerts.run.run redefinedEvents).1 = .ok ["event", "event_concert"] :=
    toOption_eq_some.mp (by decide +kernel)
  have hheard : wantConcerts.Hears redefinedEvents concertsHeard
      (wantConcerts.run.run redefinedEvents).1 redefinedConcerts :=
    Prog.hears_run wantConcerts.run redefinedEvents
  rw [hmade] at hheard
  have hresumes := redefinedConcerts.resumes_restarted
    (IndexTarget.writeTargets "Event" (.str "Concert"))
  obtain ⟨hagain, hcreated⟩ := indices_outlast_a_restart honest hheard
  refine ⟨honest, hheard, hresumes, hagain _ hresumes _ _ List.mem_cons_self, ?_⟩
  have hevents : "event" ∈ concertsHeard.filterMap (·.created?) := by decide +kernel
  obtain ⟨e, he, hname⟩ := List.mem_filterMap.mp hevents
  obtain ⟨d, hcreate⟩ := Exchange.exists_of_created hname
  let reporting : World := { World.empty morning with
    engine := (World.empty morning).engine.setMapping d.indexName d.mappings }
  have hreports : reporting.engine.mapping? d.indexName = some d.mappings :=
    (SearchEngine.mapping?_setMapping _ _ _ _).trans (if_pos rfl)
  have hanswers : reporting.Calm := rfl
  exact ⟨e, he, d, hcreate, hcreated e he d hcreate reporting hreports (hanswers.unplanned _)⟩

end TenantSearch
