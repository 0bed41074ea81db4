-- Making sure of several indices in a world in which any call may fail: which are
-- created, which is left behind when a call fails, and that nothing depends on
-- what becomes of the jobs that fill recreated indices again.
import Mathlib.Data.List.Basic
import TenantSearch.Proofs.CalmIndexing
import TenantSearch.Proofs.IgnoredJobs
import TenantSearch.Proofs.InterruptedDeletions
import TenantSearch.Proofs.SparedIndices

namespace TenantSearch

open Service

/-! ## Indices that nothing is done about -/

/-- A call that is not about an index changes no copy in it. -/
theorem World.EngineChange.copy?_of_other {e e' : SearchEngine} {c : Call}
    (h : World.EngineChange e c e') {index : String}
    (hother : ∀ ec, c = .engine ec → ec.index? ≠ some index) (key : Json.Key) :
    e'.copy? index key = e.copy? index key := by
  cases h with
  | same => rfl
  | @put i id fields _ put =>
    have hne : index ≠ i := fun heq => hother _ rfl (congrArg some heq.symm)
    rw [SearchEngine.copy?_put put, if_neg fun hat => hne hat.1]
  | @remove i id k =>
    have hne : index ≠ i := fun heq => hother _ rfl (congrArg some heq.symm)
    rw [SearchEngine.copy?_remove, if_neg fun hat => hne hat.1]
  | create => rfl
  | @drop i =>
    have hne : index ≠ i := fun heq => hother _ rfl (congrArg some heq.symm)
    rw [SearchEngine.copy?_drop, if_neg hne]
  | unmap => rfl

/-- During these exchanges nothing was done about an index: none of them was about
it, and it is as it was, with its copies and all that is remembered of it. -/
structure Untouched (index : String) (w : World) (heard : List Exchange) (w' : World) : Prop where
  avoided : ∀ e ∈ heard, e.step.Avoids index
  view : w'.view index [] = w.view index []
  copies : ∀ key, w'.engine.copy? index key = w.engine.copy? index key

namespace Untouched

variable {index : String} {w w₁ w' : World} {first second : List Exchange}

theorem append (h : Untouched index w first w₁) (h' : Untouched index w₁ second w') :
    Untouched index w (first ++ second) w' where
  avoided e he := (List.mem_append.mp he).elim (h.avoided e) (h'.avoided e)
  view := h'.view.trans h.view
  copies key := (h'.copies key).trans (h.copies key)

/-- What was not touched at all was not touched in the second half either. -/
theorem of_append (h : Untouched index w (first ++ second) w') (h₁ : Untouched index w first w₁) :
    Untouched index w₁ second w' where
  avoided e he := h.avoided e (List.mem_append_right _ he)
  view := h.view.trans h₁.view.symm
  copies key := (h.copies key).trans (h₁.copies key).symm

theorem mapping (h : Untouched index w first w') :
    w'.engine.mapping? index = w.engine.mapping? index := congrArg IndexView.mapping h.view

theorem knows (h : Untouched index w first w') : w'.memory.knows index = w.memory.knows index :=
  congrArg IndexView.known h.view

end Untouched

/-- A program that avoids an index leaves it untouched. -/
theorem Prog.Takes.untouched {α : Type} {index : String} {p : Prog α}
    (hp : p.Takes (Step.Avoids index)) {w w' : World} {heard : List Exchange} {a : α}
    (h : p.Hears (World.Meets World.anyCall) w heard a w') : Untouched index w heard w' where
  avoided := hp.hears h
  view := by
    refine h.lasts (fun v => v.view index [] = w.view index []) ?_ rfl
    exact fun e he meets hsame =>
      (meets.view_of_not_touches (hp.hears h e he).untouched []).trans hsame
  copies key := by
    refine h.lasts (fun v => v.engine.copy? index key = w.engine.copy? index key) ?_ rfl
    intro e he meets hsame
    rcases meets.engine with hengine | ⟨c, hstep, hchange⟩
    · rw [hengine]
      exact hsame
    · refine (hchange.copy?_of_other (fun ec hc => ?_) key).trans hsame
      exact (hp.hears h e he).unasked ec (hstep.trans (congrArg Step.call hc))

section

variable {solutionId : Json} {force : Bool} {other : String}

theorem locked_avoids {index : String} {x : Service Bool} (hx : x.Takes (Step.IsFor index))
    (hother : other ≠ index) : (locked index x).Takes (Step.Avoids other) := by
  have hunder := Prog.Takes.mono hx fun s hs => hs.avoids other hother
  refine (takes_ask ⟨id, nofun⟩).bind fun _ => (Takes.attempt hunder).bind fun outcome => ?_
  exact (takes_ask ⟨id, nofun⟩).bind fun _ => takes_orFail outcome

theorem ensureOne_avoids {target : IndexTarget} (hother : other ≠ target.name) :
    (Index.ensureOne solutionId force target).Takes (Step.Avoids other) := by
  refine locked_avoids ?_ hother
  cases force with
  | true => exact (recreate_takes solutionId rfl).bind fun _ => takes_pure true
  | false => exact ensuring_takes solutionId target

theorem ensureEach_avoids {targets : List IndexTarget} (hother : ∀ t ∈ targets, other ≠ t.name) :
    (Index.ensureEach solutionId force targets).Takes (Step.Avoids other) := by
  induction targets with
  | nil => exact takes_pure []
  | cons target rest ih =>
    refine (ensureOne_avoids (hother target List.mem_cons_self)).bind fun created => ?_
    refine (ih fun t ht => hother t (List.mem_cons_of_mem _ ht)).bind fun others => ?_
    exact takes_pure _

end

/-! ## One target after the other -/

/-- What is heard while several indices are made sure of is what is heard for the
first of them and then, unless that fails, for the others. -/
theorem ensureEach_cons_hears {solutionId : Json} {force : Bool} {target : IndexTarget}
    {rest : List IndexTarget} {w w' : World} {heard : List Exchange}
    {r : Except Failure (List String)} :
    (Index.ensureEach solutionId force (target :: rest)).Hears w heard r w' ↔
      (∃ f, (Index.ensureOne solutionId force target).Hears w heard (.error f) w' ∧
        r = .error f) ∨
      ∃ first made w₁ second others,
        (Index.ensureOne solutionId force target).Hears w first (.ok made) w₁ ∧
        (Index.ensureEach solutionId force rest).Hears w₁ second others w' ∧
        heard = first ++ second ∧
        r = others.map fun names => if made then target.name :: names else names := by
  rw [Index.ensureEach]
  refine hears_bind_iff.trans (or_congr_right ?_)
  constructor
  · rintro ⟨first, made, w₁, second, hfirst, hsecond, rfl⟩
    rcases hears_bind_iff.mp hsecond with ⟨f, hothers, rfl⟩ |
      ⟨more, names, w₂, last, hothers, hlast, rfl⟩
    · exact ⟨first, made, w₁, second, .error f, hfirst, hothers, rfl, rfl⟩
    · cases hlast
      rw [List.append_nil]
      exact ⟨first, made, w₁, more, .ok names, hfirst, hothers, rfl, rfl⟩
  · rintro ⟨first, made, w₁, second, others, hfirst, hothers, rfl, rfl⟩
    refine ⟨first, made, w₁, second, hfirst, hears_bind_iff.mpr ?_, rfl⟩
    rcases others with f | names
    · exact Or.inl ⟨f, hothers, rfl⟩
    · refine Or.inr ⟨second, names, w', [], hothers, ?_, (List.append_nil _).symm⟩
      exact .done _ w'

/-- The targets whose index was created, going by the names of those created. -/
def completed (targets : List IndexTarget) (created : List String) : List IndexTarget :=
  targets.filter fun t => created.contains t.name

theorem completed_nil (targets : List IndexTarget) : completed targets [] = [] := by
  simp [completed]

theorem completed_cons_created {target : IndexTarget} {rest : List IndexTarget}
    (hname : target.name ∉ rest.map (·.name)) (created : List String) :
    completed (target :: rest) (target.name :: created) = target :: completed rest created := by
  have hothers : ∀ t ∈ rest, ¬ t.name = target.name := fun t ht heq =>
    hname (List.mem_map.mpr ⟨t, ht, heq⟩)
  unfold completed
  rw [List.filter_cons_of_pos (by simp)]
  refine congrArg (target :: ·) (List.filter_congr fun t ht => ?_)
  simp [hothers t ht]

theorem completed_cons_spared {target : IndexTarget} {created : List String}
    (hname : target.name ∉ created) (rest : List IndexTarget) :
    completed (target :: rest) created = completed rest created :=
  List.filter_cons_of_neg (by simpa using hname)

/-- What is left of several targets when one of them failed: the earlier ones as
they were completed, this one unknown, and the later ones untouched. -/
structure Stopped (solutionId : Json) (force : Bool) (w : World) (earlier : List IndexTarget)
    (target : IndexTarget) (later : List IndexTarget) (heard : List Exchange) (w' : World) :
    Prop where
  completed : ∃ first names w₁ second, heard = first ++ second ∧
    (Index.ensureEach solutionId force earlier).Hears w first (.ok names) w₁ ∧
    ∀ t ∈ earlier, w₁.memory.knows t.name = true ∧ Untouched t.name w₁ second w'
  failed : w'.memory.knows target.name = false ∧ w'.memory.stateOf target.name = .unknown
  untouched : ∀ t ∈ later, Untouched t.name w heard w'

/-- What is heard while several indices are made sure of, and what comes of it. -/
structure Ensured (solutionId : Json) (force : Bool) (targets : List IndexTarget) (w : World)
    (r : Except Failure (List String)) (heard : List Exchange) (w' : World) : Prop where
  dropped : ∀ past e later index, heard = past ++ e :: later → e.dropped? = some index →
    ∃ t ∈ targets, MayDrop solutionId force w t index past
  created : (heard.filterMap (·.created?)).Sublist (targets.map (·.name))
  queued : heard.filterMap (·.queued?) =
    (completed targets (heard.filterMap (·.created?))).flatMap (w.refills solutionId)
  returned : ∀ names, r = .ok names → names = heard.filterMap (·.created?) ∧
    ∀ t ∈ targets, w'.memory.knows t.name = true
  raised : ∀ f, r = .error f → ∃ earlier target later, targets = earlier ++ target :: later ∧
    Stopped solutionId force w earlier target later heard w'

section

variable {solutionId : Json} {force : Bool} {target t : IndexTarget} {rest : List IndexTarget}
  {w w₁ w' : World} {first second past : List Exchange} {index : String}

/-- Whatever was done about others before, an index may be dropped for the same
reasons. -/
theorem MayDrop.after (h : MayDrop solutionId force w₁ t index past)
    (huntouched : Untouched t.name w first w₁) :
    MayDrop solutionId force w t index (first ++ past) := by
  have hsub : past ⊆ first ++ past := List.subset_append_right first past
  refine ⟨h.toMayReplace.mono hsub, h.due.imp_right ?_⟩
  rintro ⟨hunknown, hdoubted⟩
  obtain rfl := h.name
  rw [← huntouched.knows]
  refine ⟨hunknown, ?_⟩
  obtain ⟨reply, before, after, hmem, hdoubt⟩ := hdoubted.mono hsub
  rw [huntouched.mapping] at hdoubt
  exact ⟨reply, before, after, hmem, hdoubt⟩

theorem World.refills_of_untouched (huntouched : Untouched t.name w first w₁)
    (hcircumstances : w₁.circumstances = w.circumstances) :
    w₁.refills solutionId t = w.refills solutionId t := by
  unfold World.refills
  rw [huntouched.mapping, hcircumstances]

/-- When the first target fails, the others are left alone. -/
theorem Ensured.of_failure {f : Failure} (hname : target.name ∉ rest.map (·.name))
    (hrun : (Index.ensureOne solutionId force target).Hears w first (.error f) w') :
    Ensured solutionId force (target :: rest) w (.error f) first w' := by
  obtain ⟨haccount, hsettled⟩ := ensureOne_told solutionId force target _ _ _ hrun
  have hcreated : first.filterMap (·.created?) = [] := haccount.created
  refine ⟨fun past e later index hsplit hdropped => ?_, ?_, ?_, nofun, fun f' hf => ?_⟩
  · exact ⟨target, List.mem_cons_self, haccount.dropped past e later index hsplit hdropped⟩
  · rw [hcreated]
    exact List.nil_sublist _
  · rw [hcreated, completed_nil]
    exact haccount.queued
  · refine ⟨[], target, rest, rfl, ?_, hsettled, fun t ht => ?_⟩
    · exact ⟨[], [], w, first, rfl, .done _ w, fun t ht => absurd ht List.not_mem_nil⟩
    · refine Prog.Takes.untouched (ensureOne_avoids fun heq => hname ?_) hrun
      exact List.mem_map.mpr ⟨t, ht, heq⟩

/-- A target that was completed first stays as it is when a later one fails. -/
theorem Stopped.cons {made : Bool} {earlier later : List IndexTarget}
    (hname : ∀ t ∈ earlier, target.name ≠ t.name)
    (hrun : (Index.ensureOne solutionId force target).Hears w first (.ok made) w₁)
    (hknown : w₁.memory.knows target.name = true)
    (hsecond : Untouched target.name w₁ second w')
    (hfirst : ∀ t ∈ later, Untouched t.name w first w₁)
    (h : Stopped solutionId force w₁ earlier t later second w') :
    Stopped solutionId force w (target :: earlier) t later (first ++ second) w' := by
  obtain ⟨⟨early, names, w₂, late, rfl, hearly, hkept⟩, hfailed, hlater⟩ := h
  have hdone : (Index.ensureEach solutionId force (target :: earlier)).Hears w (first ++ early)
      (.ok (if made then target.name :: names else names)) w₂ :=
    ensureEach_cons_hears.mpr
      (Or.inr ⟨first, made, w₁, early, .ok names, hrun, hearly, rfl, rfl⟩)
  refine ⟨⟨first ++ early, _, w₂, late, (List.append_assoc _ _ _).symm, hdone, ?_⟩, hfailed, ?_⟩
  · have hspared : Untouched target.name w₁ early w₂ :=
      Prog.Takes.untouched (ensureEach_avoids hname) hearly
    refine List.forall_mem_cons.mpr ⟨⟨?_, hsecond.of_append hspared⟩, hkept⟩
    rw [hspared.knows, hknown]
  · exact fun t ht => (hfirst t ht).append (hlater t ht)

/-- What the exchanges for the first target and then those for the others come
to. -/
theorem Ensured.account_cons {made : Bool} {others : Except Failure (List String)}
    (hmade : Handled solutionId force target w (.ok made) first w₁)
    (hfirst : ∀ t ∈ rest, Untouched t.name w first w₁)
    (hcircumstances : w₁.circumstances = w.circumstances)
    (h : Ensured solutionId force rest w₁ others second w') :
    Account (fun index past => ∃ t ∈ target :: rest, MayDrop solutionId force w t index past)
      (ifCreated (.ok made) [target.name] ++ second.filterMap (·.created?))
      (ifCreated (.ok made) (w.refills solutionId target) ++
        (completed rest (second.filterMap (·.created?))).flatMap (w.refills solutionId))
      (first ++ second) := by
  have hrefills : (completed rest (second.filterMap (·.created?))).flatMap
      (w₁.refills solutionId) =
        (completed rest (second.filterMap (·.created?))).flatMap (w.refills solutionId) := by
    refine List.flatMap_congr fun t ht => ?_
    exact World.refills_of_untouched (hfirst t (List.mem_of_mem_filter ht)) hcircumstances
  have hrest : Account (fun index past => ∃ t ∈ rest, MayDrop solutionId force w₁ t index past)
      (second.filterMap (·.created?))
      ((completed rest (second.filterMap (·.created?))).flatMap (w.refills solutionId)) second :=
    ⟨rfl, h.queued.trans hrefills, h.dropped⟩
  refine (hmade.account.mono fun _ _ hdrop => ⟨target, List.mem_cons_self, hdrop⟩).append hrest ?_
  rintro index past ⟨t, ht, hdrop⟩
  exact ⟨t, List.mem_cons_of_mem _ ht, hdrop.after (hfirst t ht)⟩

/-- After the first target the others are made sure of as if it had not been
there. -/
theorem Ensured.cons {made : Bool} {others : Except Failure (List String)}
    (hname : target.name ∉ rest.map (·.name))
    (hrun : (Index.ensureOne solutionId force target).Hears w first (.ok made) w₁)
    (hothers : (Index.ensureEach solutionId force rest).Hears w₁ second others w')
    (h : Ensured solutionId force rest w₁ others second w') :
    Ensured solutionId force (target :: rest) w
      (others.map fun names => if made then target.name :: names else names)
      (first ++ second) w' := by
  have hmade := ensureOne_told solutionId force target _ _ _ hrun
  have hne : ∀ t ∈ rest, target.name ≠ t.name := fun t ht heq =>
    hname (List.mem_map.mpr ⟨t, ht, heq.symm⟩)
  have hfirst : ∀ t ∈ rest, Untouched t.name w first w₁ := fun t ht =>
    Prog.Takes.untouched (ensureOne_avoids (hne t ht).symm) hrun
  have hsecond : Untouched target.name w₁ second w' :=
    Prog.Takes.untouched (ensureEach_avoids hne) hothers
  have hall := h.account_cons hmade hfirst (Prog.Hears.circumstances hrun)
  have hcompleted : completed (target :: rest) ((first ++ second).filterMap (·.created?)) =
      ifCreated (.ok made) [target] ++ completed rest (second.filterMap (·.created?)) := by
    rw [hall.created]
    cases made with
    | true => exact completed_cons_created hname _
    | false => exact completed_cons_spared (fun hmem => hname (h.created.subset hmem)) rest
  refine ⟨hall.dropped, ?_, ?_, fun names hr => ?_, fun f hr => ?_⟩
  · rw [hall.created]
    cases made with
    | true => exact h.created.cons_cons target.name
    | false => exact h.created.cons target.name
  · rw [hcompleted, hall.queued]
    cases made with
    | true => simp
    | false => rfl
  · rcases others with f | othersMade
    · cases hr
    cases hr
    obtain ⟨rfl, hknows⟩ := h.returned othersMade rfl
    refine ⟨?_, List.forall_mem_cons.mpr ⟨hsecond.knows.trans hmade.settled, hknows⟩⟩
    rw [hall.created]
    cases made with
    | true => rfl
    | false => rfl
  · rcases others with f' | othersMade
    · obtain ⟨earlier, failed, later, rfl, hstopped⟩ := h.raised f' rfl
      refine ⟨target :: earlier, failed, later, rfl,
        hstopped.cons (fun t ht => hne t ?_) hrun hmade.settled hsecond fun t ht => hfirst t ?_⟩
      · exact List.mem_append_left _ ht
      · exact List.mem_append_right _ (List.mem_cons_of_mem _ ht)
    · cases hr

end

/-- However the calls end, several indices with names of their own are made sure
of one after the other. -/
theorem ensureEach_told (solutionId : Json) (force : Bool) {targets : List IndexTarget}
    (hnames : (targets.map (·.name)).Nodup) (w : World) :
    (Index.ensureEach solutionId force targets).Told w (Ensured solutionId force targets w) := by
  induction targets generalizing w with
  | nil =>
    refine (told_pure _ _ _).mpr ⟨?_, List.nil_sublist _, rfl, ?_, nofun⟩
    · intro past e later index hsplit
      cases past <;> cases hsplit
    · rintro names hr
      cases hr
      exact ⟨rfl, fun t ht => absurd ht List.not_mem_nil⟩
  | cons target rest ih =>
    obtain ⟨hname, hrest⟩ := List.nodup_cons.mp hnames
    intro r heard w' hheard
    rcases ensureEach_cons_hears.mp hheard with ⟨f, hrun, rfl⟩ |
      ⟨first, made, w₁, second, others, hrun, hothers, rfl, rfl⟩
    · exact .of_failure hname hrun
    · exact .cons hname hrun hothers (ih hrest w₁ _ _ _ hothers)

/-! ## The indices of an entity -/

theorem entityNameOf_of_not_blank {name : String} (h : isBlankText name = false) :
    Index.entityNameOf (.str name) = .ok name := by
  unfold Index.entityNameOf
  rw [given_of_not_blank h]
  dsimp only
  rw [h]
  rfl

theorem entityNameOf_of_blank {v : Json}
    (h : v.given = false ∨ ∃ name, v = .str name ∧ isBlankText name = true) :
    Index.entityNameOf v = .error (.of .noEntityName) := by
  unfold Index.entityNameOf
  by_cases hgiven : v.given = true
  · rcases h with hnot | ⟨name, rfl, hblank⟩
    · rw [hgiven] at hnot
      cases hnot
    · rw [hgiven]
      dsimp only
      rw [hblank]
      rfl
  · rw [Bool.eq_false_iff.mpr hgiven]
    rfl

/-- Making sure of the indices of an entity, from any world and however the calls
end. An index is dropped for a good reason only and once there is a descriptor for
it; the outcome lists what was created; a failure leaves its own target unknown,
the earlier ones completed and the later ones untouched; jobs are queued for the
indices that were there before, and nothing depends on what becomes of them.
Without the name of an entity nothing is asked at all. -/
theorem ensure_accounts_for_its_targets (solutionId entityName entityType : Json) (force : Bool)
    {w w' : World} {heard : List Exchange} {r : Except Failure (List String)}
    (h : (Index.ensure solutionId entityName entityType force).Hears w heard r w') :
    (∀ name, entityName = .str name → isBlankText name = false →
      Ensured solutionId force (IndexTarget.writeTargets name entityType) w r heard w' ∧
      ∀ heard', List.Forall₂ Exchange.Alike heard' heard →
        (Index.ensure solutionId entityName entityType force).Hears w heard' r w') ∧
    ((entityName.given = false ∨ ∃ name, entityName = .str name ∧ isBlankText name = true) →
      ∃ cause, cause.kind = .validation ∧ r = .error (.of cause) ∧ heard = [] ∧ w' = w) := by
  refine ⟨?_, fun hblank => ?_⟩
  · rintro name rfl hname
    have hensure : Index.ensure solutionId (.str name) entityType force =
        Index.ensureEach solutionId force (IndexTarget.writeTargets name entityType) := by
      unfold Index.ensure
      rw [entityNameOf_of_not_blank hname]
      rfl
    rw [hensure] at h ⊢
    refine ⟨?_, fun heard' halike => ?_⟩
    · exact ensureEach_told solutionId force (nodup_writeTargets name entityType) w _ _ _ h
    · exact ensureEach_ignoresJobs solutionId force _ w heard r w' heard' h halike
  · unfold Index.ensure at h
    rw [entityNameOf_of_blank hblank] at h
    cases h
    exact ⟨.noEntityName, rfl, rfl, rfl, rfl⟩

/-- The engine refuses the second index that it is to create, and no job can be
queued. -/
def refusingLater : World :=
  { wrongEvents with
    plans := [⟨"indices.create", .refused, 1, some 1⟩, ⟨"enqueue_job", .crash, 0, none⟩] }

/-- A wish for the indices of events and of concerts. -/
def wantConcerts : Service (List String) :=
  Index.ensure (.str "sol-1") (.str "Event") (.str "Concert") false

/-- The index of events, whose identifiers are not keywords, is created anew. That
of concerts cannot be created. -/
theorem concerts_fail_after_events :
    wantConcerts.Hears refusingLater (wantConcerts.run.exchanges refusingLater)
      (wantConcerts.run.run refusingLater).1 (wantConcerts.run.run refusingLater).2 ∧
    (wantConcerts.run.run refusingLater).1.toOption = none ∧
    (wantConcerts.run.exchanges refusingLater).filterMap (·.created?) = ["event"] ∧
    (wantConcerts.run.exchanges refusingLater).filterMap (·.dropped?) = ["event"] ∧
    ((wantConcerts.run.exchanges refusingLater).filterMap (·.queued?)).map (·.entityName) =
      ["Event"] ∧
    Ensured (.str "sol-1") false (IndexTarget.writeTargets "Event" (.str "Concert")) refusingLater
      (wantConcerts.run.run refusingLater).1 (wantConcerts.run.exchanges refusingLater)
      (wantConcerts.run.run refusingLater).2 := by
  have hheard : wantConcerts.Hears refusingLater (wantConcerts.run.exchanges refusingLater)
      (wantConcerts.run.run refusingLater).1 (wantConcerts.run.run refusingLater).2 :=
    Prog.hears_run _ _
  have hname : isBlankText "Event" = false := by decide
  refine ⟨hheard, by decide +kernel, by decide +kernel, by decide +kernel, by decide +kernel, ?_⟩
  exact ((ensure_accounts_for_its_targets _ _ _ _ hheard).1 "Event" rfl hname).1

end TenantSearch
