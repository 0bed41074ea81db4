-- What unforced upkeep in a world without outages leaves of all indices. One that is good is
-- spared and one that can be created is created, so both can hold a document afterwards. No
-- other index is touched, and the copies change in those alone that are dropped.
import TenantSearch.Proofs.Dividers
import TenantSearch.Proofs.LockedUpkeep
import TenantSearch.Proofs.RefilledIndices

namespace TenantSearch

open Service

/-! ## Other indices -/

/-- A program whose steps are all for one index leaves no trace on another. -/
theorem Prog.Takes.trace_run {α : Type} {index other : String} (hother : other ≠ index)
    {p : Prog α} (h : p.Takes (Step.IsFor index)) (w : World) :
    (p.run w).2.trace other = w.trace other := by
  induction p generalizing w with
  | done => rfl
  | step s next ih =>
    have hplans : w.Plans World.anyCall := fun _ _ => trivial
    exact (ih _ (h.2 _) _).trans ((hplans.meets s).trace_of_avoids (h.1.avoids other hother))

/-- Making sure of an index leaves no trace on another. -/
theorem ensureOne_leaves_trace (solutionId : Json) (target : IndexTarget) {other : String}
    (hother : other ≠ target.name) (w : World) :
    (Index.ensureOne solutionId false target).Leads w fun _ w' =>
      w'.trace other = w.trace other := by
  rw [ensureOne_eq, leads_locked]
  exact (ensuring_takes solutionId target).trace_run hother w

/-! ## Making sure of one index -/

/-- An index that is good is left alone, and one that is not is created anew. -/
theorem ensureOne_leads_unforced {w : World} (hcalm : w.Calm) (solutionId : Json)
    (target : IndexTarget) :
    (Index.ensureOne solutionId false target).Leads w fun r w' => w.Beside w' ∧
      (w.spares target.name = true ∧ r = .ok false ∧ w'.engine = w.engine ∧ w.Logs w' [] ∨
        w.spares target.name = false ∧ ∃ r', r = r'.map (fun _ => true) ∧
          Recreation w solutionId target r' w') := by
  unfold Index.ensureOne
  rw [leads_locked]
  simp only [Bool.false_eq_true, if_false, map_eq_pure_bind, leads_bind]
  refine (isGood_leads hcalm target.name).mono ?_
  rintro r w₀ ⟨rfl, hbeside, hengine, hlogs⟩
  dsimp only
  rw [leads_pure]
  dsimp only
  cases hspares : w.spares target.name with
  | true => exact ⟨hbeside, Or.inl ⟨rfl, rfl, hengine, hlogs⟩⟩
  | false =>
    refine (recreateDue_leads (hbeside.calm hcalm) solutionId target).mono ?_
    rintro r w' ⟨hbeside', r', rfl, hrecreation⟩
    exact ⟨hbeside.trans hbeside',
      Or.inr ⟨rfl, r', rfl, hrecreation.after_look hbeside hengine hlogs⟩⟩

/-- An index can hold a document if it is good or can be created. -/
def World.CanHold (w : World) (solutionId : Json) (target : IndexTarget) : Prop :=
  w.spares target.name = true ∨ ∃ d, descriptorFor w.definitions solutionId target = .ok d

/-- From one world to another, indices with these names were made sure of. Only those among
them are dropped that are there and not good, and all others keep their copies. -/
structure World.Tended (w w' : World) (names : List String) : Prop where
  beside : w.Beside w'
  logged : w.log <+: w'.log
  others : ∀ index ∉ names, w'.trace index = w.trace index
  dropped : ∀ index ∈ w.droppedSince w', index ∈ names ∧ w.spares index = false ∧
    (w.engine.mapping? index).isSome = true
  kept : ∀ index ∉ w.droppedSince w', ∀ key, w'.engine.copy? index key = w.engine.copy? index key

namespace World

theorem spares_of_trace {w w' : World} {index : String} (h : w'.trace index = w.trace index) :
    w'.spares index = w.spares index := by
  have hknown : w'.memory.knows index = w.memory.knows index := congrArg IndexTrace.known h
  have hmapping : w'.engine.mapping? index = w.engine.mapping? index :=
    congrArg IndexTrace.mapping h
  unfold spares
  rw [hknown, hmapping]

theorem Logs.logged {w w' : World} {events : List IndexEvent} (h : w.Logs w' events) :
    w.log <+: w'.log := by
  obtain ⟨calls, hlog, -⟩ := h
  exact ⟨calls, hlog.symm⟩

theorem Logs.droppedSince_nil {w w' : World} (h : w.Logs w' []) (index : String) :
    index ∉ w.droppedSince w' := fun hmem => absurd (h.mem_droppedSince.mp hmem) List.not_mem_nil

theorem logs_eventsSince {w w' : World} (h : w.log <+: w'.log) :
    w.Logs w' (w.eventsSince w') := by
  obtain ⟨calls, hlog⟩ := h
  have hlogs : w.Logs w' (calls.filterMap Call.event?) := ⟨calls, hlog.symm, rfl⟩
  rwa [hlogs.eventsSince]

theorem mem_droppedSince_trans {w w' w'' : World} (h : w.log <+: w'.log) (h' : w'.log <+: w''.log)
    (index : String) :
    index ∈ w.droppedSince w'' ↔ index ∈ w.droppedSince w' ∨ index ∈ w'.droppedSince w'' := by
  have hlogs := logs_eventsSince h
  have hlogs' := logs_eventsSince h'
  rw [(hlogs.trans hlogs').mem_droppedSince, hlogs.mem_droppedSince, hlogs'.mem_droppedSince,
    List.mem_append]

theorem Tended.refl (w : World) (names : List String) : w.Tended w names where
  beside := .refl w
  logged := List.prefix_refl _
  others _ _ := rfl
  dropped index h := absurd h ((Logs.refl w).droppedSince_nil index)
  kept _ _ _ := rfl

theorem Tended.cons {w w₁ w₂ : World} {name : String} {names : List String}
    (h : w.Tended w₁ [name]) (h' : w₁.Tended w₂ names) (hname : name ∉ names) :
    w.Tended w₂ (name :: names) := by
  have hdropped := mem_droppedSince_trans h.logged h'.logged
  refine ⟨h.beside.trans h'.beside, h.logged.trans h'.logged, fun index hindex => ?_,
    fun index hindex => ?_, fun index hindex key => ?_⟩
  · obtain ⟨hhead, htail⟩ := not_or.mp (mt List.mem_cons.mpr hindex)
    exact (h'.others index htail).trans (h.others index (mt List.mem_singleton.mp hhead))
  · rcases (hdropped index).mp hindex with hindex | hindex
    · obtain ⟨hmem, hrest⟩ := h.dropped index hindex
      exact ⟨List.mem_singleton.mp hmem ▸ List.mem_cons_self, hrest⟩
    · obtain ⟨hmem, hspares, hmapping⟩ := h'.dropped index hindex
      have htrace := h.others index fun heq => hname (List.mem_singleton.mp heq ▸ hmem)
      have hmapping' : w₁.engine.mapping? index = w.engine.mapping? index :=
        congrArg IndexTrace.mapping htrace
      exact ⟨List.mem_cons_of_mem _ hmem, (spares_of_trace htrace).symm.trans hspares,
        hmapping' ▸ hmapping⟩
  · obtain ⟨hfirst, hsecond⟩ := not_or.mp (mt (hdropped index).mpr hindex)
    exact (h'.kept index hsecond key).trans (h.kept index hfirst key)

end World

/-- An index without a mapping keeps its copies when it is created. -/
theorem SearchEngine.copy?_renewed_of_none {e : SearchEngine} {index : String}
    (hnone : e.mapping? index = none) (mapping : Json) (i : String) (key : Json.Key) :
    (e.renewed index mapping).copy? i key = e.copy? i key := by
  unfold renewed
  rw [hnone]
  exact copy?_setMapping e index mapping i key

theorem Recreation.tended {w w' : World} {solutionId : Json} {target : IndexTarget}
    {r : Except Failure IndexDescriptor} (h : Recreation w solutionId target r w')
    (hbeside : w.Beside w') (hspares : w.spares target.name = false)
    (hothers : ∀ index ∉ [target.name], w'.trace index = w.trace index) :
    w.Tended w' [target.name] := by
  cases h with
  | refused _ engine logs =>
    exact ⟨hbeside, logs.logged, hothers,
      fun index hindex => absurd hindex (logs.droppedSince_nil index),
      fun index _ key => by rw [engine]⟩
  | @done d _ descriptor engine logs =>
    refine ⟨hbeside, logs.logged, hothers, fun index hindex => ?_, fun index hindex key => ?_⟩
    · rw [logs.mem_droppedSince] at hindex
      split at hindex
      · next hthere =>
        obtain rfl : index = target.name := by
          rcases List.mem_cons.mp hindex with heq | hmem
          · exact IndexEvent.dropped.inj heq
          · split at hmem
            · exact nomatch List.mem_singleton.mp hmem
            · exact absurd hmem List.not_mem_nil
        exact ⟨List.mem_singleton_self _, hspares, hthere⟩
      · exact absurd hindex List.not_mem_nil
    · rw [logs.mem_droppedSince] at hindex
      rw [engine]
      rcases hmapping : w.engine.mapping? target.name with _ | old
      · exact SearchEngine.copy?_renewed_of_none hmapping _ _ _
      · rw [hmapping] at hindex
        refine SearchEngine.copy?_renewed_of_ne _ _ (fun heq => hindex ?_) key
        rw [heq]
        exact List.mem_cons_self

/-- One index is made sure of just when it can hold a document. -/
theorem ensureOne_tends {w : World} (hcalm : w.Calm) (solutionId : Json) (target : IndexTarget) :
    (Index.ensureOne solutionId false target).Leads w fun r w' => w.Tended w' [target.name] ∧
      ((∃ created, r = .ok created) ↔ w.CanHold solutionId target) := by
  have htraces : (Index.ensureOne solutionId false target).Leads w fun _ w' =>
      ∀ index ∉ [target.name], w'.trace index = w.trace index := fun index hindex =>
    ensureOne_leaves_trace solutionId target (mt List.mem_singleton.mpr hindex) w
  refine ((ensureOne_leads_unforced hcalm solutionId target).and htraces).mono ?_
  rintro r w' ⟨⟨hbeside, ⟨hspares, rfl, hengine, hlogs⟩ | ⟨hspares, r', rfl, hrecreation⟩⟩, hothers⟩
  · exact ⟨⟨hbeside, hlogs.logged, hothers, fun index hindex =>
      absurd hindex (hlogs.droppedSince_nil index), fun index _ key => by rw [hengine]⟩,
      fun _ => Or.inl hspares, fun _ => ⟨false, rfl⟩⟩
  · refine ⟨hrecreation.tended hbeside hspares hothers, ?_⟩
    unfold World.CanHold
    rw [hspares]
    cases hrecreation with
    | refused descriptor => simp [descriptor, Except.map]
    | done descriptor => simp [descriptor, Except.map]

/-! ## Making sure of all indices of a document -/

theorem World.Tended.canHold_iff {w w' : World} {names : List String} (h : w.Tended w' names)
    {solutionId : Json} {target : IndexTarget} (htarget : target.name ∉ names) :
    w'.CanHold solutionId target ↔ w.CanHold solutionId target := by
  unfold World.CanHold
  rw [World.spares_of_trace (h.others _ htarget), h.beside.definitions]

/-- Indices with names of their own are made sure of just when each of them can hold a
document. -/
theorem ensureEach_tends (solutionId : Json) {targets : List IndexTarget}
    (hnames : (targets.map (·.name)).Nodup) {w : World} (hcalm : w.Calm) :
    (Index.ensureEach solutionId false targets).Leads w fun r w' =>
      w.Tended w' (targets.map (·.name)) ∧
        ((∃ created, r = .ok created) ↔ ∀ t ∈ targets, w.CanHold solutionId t) := by
  induction targets generalizing w with
  | nil => exact ⟨.refl w [], fun _ t ht => absurd ht List.not_mem_nil, fun _ => ⟨[], rfl⟩⟩
  | cons target rest ih =>
    obtain ⟨hhead, hrest⟩ := List.nodup_cons.mp hnames
    unfold Index.ensureEach
    rw [leads_bind]
    refine (ensureOne_tends hcalm solutionId target).mono ?_
    rintro r w₁ ⟨hfirst, hok⟩
    rw [List.forall_mem_cons, ← hok]
    rcases r with f | created
    · exact ⟨hfirst.cons (.refl w₁ _) hhead,
        iff_of_false not_exists_ok fun h => not_exists_ok h.1⟩
    · dsimp only
      rw [leads_bind]
      refine (ih hrest (hfirst.beside.calm hcalm)).mono ?_
      rintro r w₂ ⟨hsecond, hothers⟩
      have hsame : (∀ t ∈ rest, w₁.CanHold solutionId t) ↔ ∀ t ∈ rest, w.CanHold solutionId t :=
        forall₂_congr fun t ht => hfirst.canHold_iff
          fun heq => hhead (List.mem_map.mpr ⟨t, ht, List.mem_singleton.mp heq⟩)
      rw [← hsame, ← hothers]
      have hboth := hfirst.cons hsecond hhead
      rcases r with f | others
      · exact ⟨hboth, iff_of_false not_exists_ok fun h => not_exists_ok h.2⟩
      · exact ⟨hboth, fun _ => ⟨⟨_, rfl⟩, _, rfl⟩, fun _ => ⟨_, rfl⟩⟩

/-- The name of a subtype's index is longer than that of its entity's. -/
theorem name_ne_of_given {entityName : String} {entityType : Json} (h : entityType.given = true) :
    IndexTarget.name ⟨entityName, .null⟩ ≠ IndexTarget.name ⟨entityName, entityType⟩ := by
  intro heq
  have hparts : (entityName ++ "_" ++ entityType.text).toList =
      entityName.toList ++ '_' :: entityType.text.toList := by simp
  have hlength := congrArg (List.length ∘ String.toList) heq
  have hnull : Json.null.given = false := rfl
  simp only [IndexTarget.name, h, hnull, Bool.false_eq_true, if_false, if_true,
    Function.comp_apply, toList_lower, hparts, isDivider_underscore.lowerChars_append,
    List.length_append, List.length_cons] at hlength
  omega

/-- The indices that a document is written to have names of their own. -/
theorem nodup_writeTargets (entityName : String) (entityType : Json) :
    ((IndexTarget.writeTargets entityName entityType).map (·.name)).Nodup := by
  unfold IndexTarget.writeTargets
  split
  · next hgiven =>
    refine List.nodup_cons.mpr ⟨fun hmem => ?_, List.nodup_cons.mpr ⟨List.not_mem_nil, .nil⟩⟩
    exact name_ne_of_given hgiven (List.mem_singleton.mp hmem)
  · exact List.nodup_cons.mpr ⟨List.not_mem_nil, .nil⟩

end TenantSearch
