-- The upkeep of indices keeps to the locks: whatever fails on the way, making
-- sure of an index and creating it anew are single visits under its lock.
import TenantSearch.Proofs.DroppedIndices
import TenantSearch.Proofs.GuardedIndices

namespace TenantSearch

/-! ## What a step makes of an index -/

section

variable {index : String} {v : IndexView} {w w' : World}

theorem Hold.Agrees.mapping (h : Hold.Agrees ⟨index, v⟩ w) : w.engine.mapping? index = v.mapping :=
  congrArg IndexView.mapping h

theorem Hold.Agrees.known (h : Hold.Agrees ⟨index, v⟩ w) : w.memory.knows index = v.known :=
  congrArg IndexView.known h

theorem Hold.Agrees.marked (h : Hold.Agrees ⟨index, v⟩ w) : w.memory.marked index = v.marked :=
  congrArg IndexView.marked h

theorem Hold.Agrees.backfills (h : Hold.Agrees ⟨index, v⟩ w) :
    w.circumstances.backfills = v.backfills :=
  congrArg IndexView.backfills h

/-- A call changes no more than the mapping of an index. -/
theorem Hold.after_call (agrees : Hold.Agrees ⟨index, v⟩ w) {c : Call}
    {r : Except Outage c.Reply} (answers : w.Answers World.anyCall c r w') :
    Hold.after ⟨index, v⟩ ⟨.call c, w, w'⟩ = ⟨index, { v with
      mapping := w'.engine.mapping? index
      signs := v.signs ++ (Moment.sign? index true ⟨.call c, w, w'⟩).toList }⟩ := by
  obtain ⟨plans, engine, responses, records, rfl⟩ := answers.frame
  unfold Hold.after World.view
  dsimp only
  rw [← agrees.known, ← agrees.marked, ← agrees.backfills]
  rfl

/-- A change of what is remembered leaves the mapping as it is. -/
theorem Hold.after_change (agrees : Hold.Agrees ⟨index, v⟩ w) (c : MemoryChange) :
    Hold.after ⟨index, v⟩ ⟨.change c, w, (w.answer (.change c)).2⟩ = ⟨index, { v with
      known := (w.memory.change c).knows index
      marked := (w.memory.change c).marked index
      signs := v.signs ++
        (Moment.sign? index true ⟨.change c, w, (w.answer (.change c)).2⟩).toList }⟩ := by
  unfold Hold.after World.view
  dsimp only
  rw [← agrees.mapping, ← agrees.backfills]
  rfl

/-- An index that is created comes to be where there was none. -/
theorem World.Answers.create {d : IndexDescriptor} {r : Except Outage (Call.Reply (.engine (.create d)))}
    (h : w.Answers World.anyCall (.engine (.create d)) r w') :
    (w.engine.mapping? d.indexName = none ∧ w'.engine.mapping? d.indexName = some d.mappings) ∨
      (w'.engine.mapping? d.indexName = w.engine.mapping? d.indexName ∧ ∃ o, r = .error o) := by
  have heffect (plans : List OutagePlan) :
      (w.calling (.engine (.create d)) plans).effect (.engine (.create d)) =
        if (w.engine.mapping? d.indexName).isSome then
          (.error .refused, w.calling (.engine (.create d)) plans)
        else (.ok (), { w.calling (.engine (.create d)) plans with
          engine := w.engine.setMapping d.indexName d.mappings }) := rfl
  have hset : (w.engine.setMapping d.indexName d.mappings).mapping? d.indexName =
      some d.mappings := by
    rw [SearchEngine.mapping?_setMapping, if_pos rfl]
  cases h with
  | failed o plans => exact Or.inr ⟨rfl, o, rfl⟩
  | answered plans =>
    rw [heffect]
    rcases hmapping : w.engine.mapping? d.indexName with _ | old
    · exact Or.inl ⟨rfl, hset⟩
    · exact Or.inr ⟨hmapping, .refused, rfl⟩
  | lost o plans =>
    rw [heffect]
    rcases hmapping : w.engine.mapping? d.indexName with _ | old
    · exact Or.inl ⟨rfl, hset⟩
    · exact Or.inr ⟨hmapping, o, rfl⟩

/-- An index that is dropped is gone, or it is left alone. -/
theorem World.Answers.drop {r : Except Outage (Call.Reply (.engine (.drop index)))}
    (h : w.Answers World.anyCall (.engine (.drop index)) r w') :
    w'.engine.mapping? index = none ∨ w'.engine.mapping? index = w.engine.mapping? index := by
  have heffect (plans : List OutagePlan) :
      (((w.calling (.engine (.drop index)) plans).effect (.engine (.drop index))).2).engine.mapping?
        index = none := by
    have hsame : (w.calling (.engine (.drop index)) plans).engine = w.engine := rfl
    simp only [World.effect, World.answerEngine, hsame]
    rcases hmapping : w.engine.mapping? index with _ | old
    · exact hmapping
    · have hcleared := SearchEngine.mapping?_cleared w.engine index old
      cases old with
      | null => exact hcleared
      | _ => exact hcleared
  obtain ⟨plans, rfl | rfl⟩ := h.world
  · exact Or.inr rfl
  · exact Or.inl (heffect plans)

end

/-! ## Calls under a lock -/

namespace Service

variable {α : Type} {index : String} {v : IndexView}

theorem guarded_memory (sound : v.Sound) {post : Except Failure IndexMemory → Option Hold → Prop}
    (h : ∀ m : IndexMemory, m.knows index = v.known → post (.ok m) (some ⟨index, v⟩)) :
    memory.Guarded (some ⟨index, v⟩) post := by
  refine guarded_ask_still sound id (fun _ => id) (fun _ _ => rfl) fun w r w' agrees meets => ?_
  cases meets with
  | own own => exact h _ agrees.known

theorem guarded_circumstances (sound : v.Sound)
    {post : Except Failure Circumstances → Option Hold → Prop}
    (h : ∀ here : Circumstances, here.backfills = v.backfills →
      post (.ok here) (some ⟨index, v⟩)) :
    circumstances.Guarded (some ⟨index, v⟩) post := by
  refine guarded_ask_still sound id (fun _ => id) (fun _ _ => rfl) fun w r w' agrees meets => ?_
  cases meets with
  | own own => exact h _ agrees.backfills

/-- An index is remembered to be good where it is. -/
theorem guarded_remember (live : isSound v.mapping = true)
    {post : Except Failure Unit → Option Hold → Prop}
    (h : post (.ok ()) (some ⟨index, { v with
      known := true, signs := v.signs ++ [.confirmed] }⟩)) :
    (change (.remember index)).Guarded (some ⟨index, v⟩) post := by
  have own (i : String) (h : (Step.change (.remember index)).Touches i) : index = i := h
  refine guarded_ask_held id own fun w r w' agrees meets => ?_
  cases meets with
  | own own =>
    have hafter : Hold.after ⟨index, v⟩ ⟨.change (.remember index), w,
        (w.answer (.change (.remember index))).2⟩ =
          ⟨index, { v with known := true, signs := v.signs ++ [.confirmed] }⟩ := by
      rw [Hold.after_change agrees, IndexMemory.knows_remember, IndexMemory.marked_remember,
        agrees.marked]
      simp [Moment.sign?]
    rw [hafter]
    exact ⟨⟨fun _ => live, fun _ => rfl⟩, h⟩

theorem guarded_forget (unmarked : v.marked ≠ .good)
    {post : Except Failure Unit → Option Hold → Prop}
    (h : post (.ok ()) (some ⟨index, { v with known := false }⟩)) :
    (change (.forget index)).Guarded (some ⟨index, v⟩) post := by
  have own (i : String) (h : (Step.change (.forget index)).Touches i) : index = i := h
  refine guarded_ask_held id own fun w r w' agrees meets => ?_
  cases meets with
  | own own =>
    have hafter : Hold.after ⟨index, v⟩ ⟨.change (.forget index), w,
        (w.answer (.change (.forget index))).2⟩ = ⟨index, { v with known := false }⟩ := by
      have hmarked : (w.memory.change (.forget index)).marked index = v.marked := agrees.marked
      rw [Hold.after_change agrees, IndexMemory.knows_forget, hmarked]
      simp [Moment.sign?]
    rw [hafter]
    exact ⟨⟨fun h => absurd h Bool.false_ne_true, fun h => absurd h unmarked⟩, h⟩

/-- An index is marked as good only after it is remembered. -/
theorem guarded_mark (sound : v.Sound) {state : IndexState}
    (honest : state = .good → v.known = true) {post : Except Failure Unit → Option Hold → Prop}
    (h : post (.ok ()) (some ⟨index, { v with marked := state }⟩)) :
    (change (.mark index state)).Guarded (some ⟨index, v⟩) post := by
  have own (i : String) (h : (Step.change (.mark index state)).Touches i) : index = i := h
  refine guarded_ask_held id own fun w r w' agrees meets => ?_
  cases meets with
  | own own =>
    have hafter : Hold.after ⟨index, v⟩ ⟨.change (.mark index state), w,
        (w.answer (.change (.mark index state))).2⟩ = ⟨index, { v with marked := state }⟩ := by
      have hknown : (w.memory.change (.mark index state)).knows index = v.known := agrees.known
      rw [Hold.after_change agrees, IndexMemory.marked_mark, if_pos rfl, hknown]
      simp [Moment.sign?]
    rw [hafter]
    exact ⟨⟨sound.live, honest⟩, h⟩

/-- An index that is sound where it is is confirmed to be good: it is remembered,
and then it is marked. -/
theorem guarded_confirm (live : isSound v.mapping = true) {rest : Service α}
    {post : Except Failure α → Option Hold → Prop}
    (h : ∀ v' : IndexView, v'.Sound → v'.backfills = v.backfills →
      v'.signs = v.signs ++ [.confirmed] → rest.Guarded (some ⟨index, v'⟩) post) :
    (do change (.remember index); change (.mark index .good); rest : Service α).Guarded
      (some ⟨index, v⟩) post := by
  have hremembered : IndexView.Sound { v with
      known := true, signs := v.signs ++ [.confirmed] } := ⟨fun _ => live, fun _ => rfl⟩
  rw [guarded_bind]
  refine guarded_remember live ?_
  dsimp only
  rw [guarded_bind]
  refine guarded_mark hremembered (fun _ => rfl) ?_
  exact h _ ⟨fun _ => live, fun _ => rfl⟩ rfl rfl

theorem lookUpSchema_guarded (sound : v.Sound) (solutionId entityName entityType : Json) :
    (lookUpSchema solutionId entityName entityType).Guarded (some ⟨index, v⟩) fun _ held =>
      held = some ⟨index, v⟩ := by
  unfold lookUpSchema
  rw [guarded_bind]
  refine guarded_call_still sound _ (fun _ => id) (fun _ _ => rfl) fun w r w' agrees answers => ?_
  rcases r with o | rows
  · rfl
  · rfl

theorem hasIndex_guarded (sound : v.Sound) :
    (Engine.hasIndex index).Guarded (some ⟨index, v⟩) fun r held =>
      held = some ⟨index, v⟩ ∧ ∀ existed, r = .ok existed → existed = v.mapping.isSome := by
  refine guarded_call_still sound _ (fun _ => id) (fun _ _ => rfl) fun w r w' agrees answers => ?_
  refine ⟨rfl, fun existed hr => ?_⟩
  rcases r with o | answer
  · cases hr
  · cases hr
    rw [← agrees.mapping]
    exact answers.hasIndex

/-- An index that is not known to be good is dropped, or it is left as it is. -/
theorem dropIndex_guarded (unknown : v.known = false) (sound : v.Sound)
    (there : v.mapping.isSome = true) :
    (Engine.dropIndex index).Guarded (some ⟨index, v⟩) fun _ held =>
      held = some ⟨index, v⟩ ∨
        held = some ⟨index, { v with mapping := none, signs := v.signs ++ [.deleted] }⟩ := by
  unfold Engine.dropIndex Engine.removal
  rw [guarded_bind]
  have own (i : String) (h : (Step.call (.engine (.drop index))).Touches i) : index = i := h
  refine guarded_ask_held id own fun w r w' agrees meets => ?_
  cases meets with
  | own own => exact absurd rfl (own _)
  | call answers =>
    have hafter : Hold.after ⟨index, v⟩ ⟨.call (.engine (.drop index)), w, w'⟩ = ⟨index, v⟩ ∨
        Hold.after ⟨index, v⟩ ⟨.call (.engine (.drop index)), w, w'⟩ =
          ⟨index, { v with mapping := none, signs := v.signs ++ [.deleted] }⟩ := by
      rw [Hold.after_call agrees answers]
      unfold Moment.sign?
      dsimp only
      rw [agrees.mapping]
      rcases answers.drop with hgone | hsame
      · right
        rw [hgone]
        simp [there]
      · left
        rw [hsame, agrees.mapping]
        have hthere : v.mapping ≠ none := Option.isSome_iff_ne_none.mp there
        simp [hthere]
    generalize Hold.after ⟨index, v⟩ ⟨.call (.engine (.drop index)), w, w'⟩ = hold at hafter
    refine ⟨?_, ?_⟩
    · rcases hafter with rfl | rfl
      · exact sound
      · exact ⟨fun h => absurd (unknown.symm.trans h) Bool.false_ne_true, sound.honest⟩
    · have hheld := hafter.imp (congrArg some) (congrArg some)
      rcases r with o | _
      · cases o with
        | _ => exact hheld
      · exact hheld

/-- An index that is not known to be good is created where there is none. -/
theorem createIndex_guarded (unknown : v.known = false) (sound : v.Sound) {d : IndexDescriptor}
    (hindex : d.indexName = index) :
    (Engine.createIndex d).Guarded (some ⟨index, v⟩) fun r held =>
      (v.mapping = none ∧ held = some ⟨index, { v with mapping := some d.mappings }⟩) ∨
        (held = some ⟨index, v⟩ ∧ ∃ f, r = .error f) := by
  subst hindex
  have own (i : String) (h : (Step.call (.engine (.create d))).Touches i) : d.indexName = i := h
  refine guarded_call_held _ own fun w r w' agrees answers => ?_
  rw [Hold.after_call agrees answers]
  have hunseen : (Moment.sign? d.indexName true
    ⟨.call (.engine (.create d)), w, w'⟩).toList = [] := rfl
  rw [hunseen, List.append_nil]
  refine ⟨⟨fun h => absurd (unknown.symm.trans h) Bool.false_ne_true, sound.honest⟩, ?_⟩
  have hcreated := answers.create
  rw [agrees.mapping] at hcreated
  rcases hcreated with ⟨hnone, hnew⟩ | ⟨hsame, o, rfl⟩
  · rw [hnew]
    rcases r with o | _
    · exact Or.inl ⟨hnone, rfl⟩
    · exact Or.inl ⟨hnone, rfl⟩
  · rw [hsame]
    exact Or.inr ⟨rfl, _, rfl⟩

end Service

/-! ## Upkeep under a lock -/

open Service

section

variable {index : String} {v : IndexView}

/-- A look at an index leaves it alone and gives the types of its fields. -/
theorem liveSchema_guarded (sound : v.Sound) :
    (Engine.liveSchema index).Guarded (some ⟨index, v⟩) fun r held =>
      held = some ⟨index, v⟩ ∧ ∀ types, r = .ok (some types) →
        ∃ mapping, v.mapping = some mapping ∧ Engine.fieldTypes mapping = .ok types := by
  unfold Engine.liveSchema
  rw [guarded_bind]
  refine guarded_ask_still sound id (fun _ => id) (fun _ _ => rfl) fun w r w' agrees meets => ?_
  cases meets with
  | own own => exact absurd rfl (own _)
  | call answers =>
    rcases r with o | mapping
    · cases o with
      | _ => exact ⟨rfl, fun types h => by cases h⟩
    · have hmapping : v.mapping = some mapping := agrees.mapping.symm.trans answers.mapping
      have hread : (some <$> orBroken (Engine.fieldTypes mapping) : Service _).Guarded
          (some ⟨index, v⟩) fun r held => held = some ⟨index, v⟩ ∧
            ∀ types, r = .ok (some types) →
              ∃ mapping, v.mapping = some mapping ∧ Engine.fieldTypes mapping = .ok types := by
        rcases htypes : Engine.fieldTypes mapping with b | types
        · exact ⟨rfl, fun types h => by cases h⟩
        · exact ⟨rfl, fun types' h => ⟨mapping, hmapping, by cases h; exact htypes⟩⟩
      exact hread

/-- What a look at an index finds to be good is sound. -/
theorem checkLive_guarded (sound : v.Sound) :
    (Index.checkLive index).Guarded (some ⟨index, v⟩) fun r held =>
      held = some ⟨index, v⟩ ∧ ∃ good, r = .ok good ∧ (good = true → isSound v.mapping = true) := by
  unfold Index.checkLive
  rw [guarded_bind, guarded_attempt]
  refine (liveSchema_guarded sound).mono ?_
  rintro r _ ⟨rfl, htypes⟩
  rcases r with f | _ | types
  · exact ⟨rfl, false, rfl, fun h => absurd h Bool.false_ne_true⟩
  · exact ⟨rfl, false, rfl, fun h => absurd h Bool.false_ne_true⟩
  · obtain ⟨mapping, hmapping, htypes⟩ := htypes types rfl
    refine ⟨rfl, Index.isCompatible types, rfl, fun hgood => ?_⟩
    rw [hmapping]
    unfold isSound
    dsimp only
    rw [htypes]
    exact hgood

/-- The check of an index: one that is found to be good is known, and all else
stays as it is. -/
theorem isGood_guarded (sound : v.Sound) (fresh : v.signs = []) :
    (Index.isGood index).Guarded (some ⟨index, v⟩) fun r held => ∃ good v',
      r = .ok good ∧ held = some ⟨index, v'⟩ ∧ v'.Sound ∧
        (if good then IsVisit v'.backfills v'.signs else v'.signs = []) := by
  unfold Index.isGood
  rw [guarded_bind]
  refine guarded_memory sound fun m hknows => ?_
  dsimp only
  rw [hknows]
  by_cases hknown : v.known = true
  · rw [if_pos hknown]
    refine ⟨true, v, rfl, rfl, sound, ?_⟩
    rw [if_pos rfl, fresh]
    exact .quiet
  · rw [if_neg hknown, guarded_bind]
    refine guarded_mark sound (by rintro ⟨⟩) ?_
    have hchecked : IndexView.Sound { v with marked := .checking } :=
      ⟨sound.live, fun h => nomatch h⟩
    dsimp only
    rw [guarded_bind]
    refine (checkLive_guarded hchecked).mono ?_
    rintro _ _ ⟨rfl, good, rfl, hlive⟩
    cases good with
    | true =>
      simp only [if_true]
      refine guarded_confirm (hlive rfl) fun v' hgood _ hsigns => ?_
      refine ⟨true, v', rfl, rfl, hgood, ?_⟩
      rw [if_pos rfl, hsigns, fresh]
      exact .confirmed
    | false =>
      simp only [Bool.false_eq_true, if_false]
      rw [guarded_bind]
      refine guarded_mark hchecked (by rintro ⟨⟩) ?_
      exact ⟨false, _, rfl, rfl, ⟨sound.live, fun h => nomatch h⟩, fresh⟩

/-- What the replacement of an index leaves: it is sound again if all went well,
and at most deleted if something failed. -/
structure Replaced (index : String) (r : Except Failure (IndexDescriptor × Bool))
    (held : Option Hold) (v : IndexView) : Prop where
  held : held = some ⟨index, v⟩
  sound : v.Sound
  live : ∀ d existed, r = .ok (d, existed) → isSound v.mapping = true ∧
    v.signs = if existed then [.deleted] else []
  signs : v.signs = [] ∨ v.signs = [.deleted]

theorem Replaced.failed {f : Failure} (sound : v.Sound)
    (signs : v.signs = [] ∨ v.signs = [.deleted]) :
    Replaced index (.error f) (some ⟨index, v⟩) v where
  held := rfl
  sound := sound
  live _ _ h := nomatch h
  signs := signs

/-- An index that was deleted if it was there is created. -/
theorem createIndex_replaces (sound : v.Sound) (unknown : v.known = false) {d : IndexDescriptor}
    {existed : Bool} (hindex : d.indexName = index) (hlive : isSound (some d.mappings) = true)
    (signs : v.signs = [] ∨ v.signs = [.deleted])
    (gone : v.mapping = none → v.signs = if existed then [.deleted] else []) :
    (do Engine.createIndex d; pure (d, existed) : Service _).Guarded (some ⟨index, v⟩)
      fun r held => ∃ v', Replaced index r held v' := by
  rw [guarded_bind]
  refine (createIndex_guarded unknown sound hindex).mono ?_
  rintro r _ (⟨hnone, rfl⟩ | ⟨rfl, f, rfl⟩)
  · have hcreated : IndexView.Sound { v with mapping := some d.mappings } :=
      ⟨fun _ => hlive, sound.honest⟩
    rcases r with f | _
    · exact ⟨_, .failed hcreated signs⟩
    · exact ⟨_, rfl, hcreated, fun _ _ h => by cases h; exact ⟨hlive, gone hnone⟩, signs⟩
  · exact ⟨v, .failed sound signs⟩

theorem replace_guarded (solutionId : Json) (target : IndexTarget) (sound : v.Sound)
    (unknown : v.known = false) (fresh : v.signs = []) :
    (Index.replace solutionId target).Guarded (some ⟨target.name, v⟩) fun r held =>
      ∃ v', Replaced target.name r held v' := by
  unfold Index.replace
  rw [guarded_bind]
  refine (lookUpSchema_guarded sound solutionId _ _).mono ?_
  rintro r _ rfl
  rcases r with f | schema
  · exact ⟨v, .failed sound (Or.inl fresh)⟩
  dsimp only
  rw [guarded_bind, guarded_orFail]
  rcases hchecked : (IndexDescriptor.build target.name schema.extraFields).checked.orInvalid
    with f | d
  · exact ⟨v, .failed sound (Or.inl fresh)⟩
  dsimp only
  have hindex : d.indexName = target.name := by
    rw [(checked_eq_ok hchecked).1]
    rfl
  have hlive : isSound (some d.mappings) = true := isSound_of_checked hchecked
  rw [guarded_bind]
  refine (hasIndex_guarded sound).mono ?_
  rintro r _ ⟨rfl, hexisted⟩
  rcases r with f | existed
  · exact ⟨v, .failed sound (Or.inl fresh)⟩
  dsimp only
  have hthere := hexisted existed rfl
  cases existed with
  | false =>
    rw [if_neg Bool.false_ne_true]
    exact createIndex_replaces sound unknown hindex hlive (Or.inl fresh) fun _ => fresh
  | true =>
    rw [if_pos rfl, guarded_bind]
    refine (dropIndex_guarded unknown sound hthere.symm).mono ?_
    rintro r _ (rfl | rfl)
    · rcases r with f | _
      · exact ⟨v, .failed sound (Or.inl fresh)⟩
      · refine createIndex_replaces sound unknown hindex hlive (Or.inl fresh) fun hnone => ?_
        rw [hnone] at hthere
        cases hthere
    · have hdropped : IndexView.Sound
          { v with mapping := none, signs := v.signs ++ [.deleted] } :=
        ⟨fun h => absurd (unknown.symm.trans h) Bool.false_ne_true, sound.honest⟩
      have hsigns : v.signs ++ [.deleted] = [.deleted] := by rw [fresh, List.nil_append]
      rcases r with f | _
      · exact ⟨_, .failed hdropped (Or.inr hsigns)⟩
      · exact createIndex_replaces hdropped unknown hindex hlive (Or.inr hsigns) fun _ => hsigns

/-- What is done to an index under its lock, however it ends. -/
def Visited (index : String) (held : Option Hold) : Prop :=
  ∃ v : IndexView, held = some ⟨index, v⟩ ∧ IsVisit v.backfills v.signs

theorem backfill_guarded (solutionId : Json) (target : IndexTarget) (sound : v.Sound)
    (signs : v.signs = [.deleted, .confirmed]) :
    (Index.backfill solutionId target).Guarded (some ⟨index, v⟩) fun _ held =>
      Visited index held := by
  unfold Index.backfill
  rw [guarded_bind]
  refine guarded_circumstances sound fun here hbackfills => ?_
  dsimp only
  rw [hbackfills]
  have hrecreated : IsVisit v.backfills
      (.deleted :: .confirmed :: if v.backfills then [.backfilled] else []) := .recreated
  by_cases hqueue : v.backfills = true
  · rw [if_pos hqueue] at hrecreated ⊢
    rw [guarded_bind]
    have still (job : BackfillJob) (i : String) :
        ¬ (Step.call (.queue (.enqueue job))).Touches i := fun h => h
    refine guarded_ask_held id (fun i h => absurd h (still _ i)) fun w r w' agrees meets => ?_
    rw [Hold.after_eq agrees meets (still _ _)]
    refine ⟨⟨sound.live, sound.honest⟩, { v with signs := v.signs ++ [.backfilled] }, rfl, ?_⟩
    rw [signs]
    exact hrecreated
  · rw [if_neg hqueue] at hrecreated ⊢
    exact ⟨v, rfl, signs ▸ hrecreated⟩

theorem recreate_guarded (solutionId : Json) (target : IndexTarget) (sound : v.Sound)
    (fresh : v.signs = []) :
    (Index.recreate solutionId target).Guarded (some ⟨target.name, v⟩) fun _ held =>
      Visited target.name held := by
  unfold Index.recreate
  dsimp only
  have hmarked : IndexView.Sound { v with marked := .creating } :=
    ⟨sound.live, fun h => nomatch h⟩
  have hforgotten : IndexView.Sound { v with known := false, marked := .creating } :=
    ⟨fun h => absurd h Bool.false_ne_true, fun h => nomatch h⟩
  rw [guarded_bind]
  refine guarded_mark sound (by rintro ⟨⟩) ?_
  dsimp only
  rw [guarded_bind]
  refine guarded_forget (by rintro ⟨⟩) ?_
  dsimp only
  rw [guarded_bind, guarded_attempt]
  refine (replace_guarded solutionId target hforgotten rfl fresh).mono ?_
  rintro r held ⟨v', rfl, hsound, hlive, hsigns⟩
  dsimp only
  rcases r with f | ⟨d, existed⟩
  · dsimp only
    rw [guarded_bind]
    refine guarded_mark hsound (by rintro ⟨⟩) ?_
    refine ⟨_, rfl, ?_⟩
    rcases hsigns with hsigns | hsigns
    · exact hsigns ▸ .quiet
    · exact hsigns ▸ .interrupted
  · obtain ⟨hlive, hsigns⟩ := hlive d existed rfl
    dsimp only
    refine guarded_confirm hlive fun v'' hgood _ hconfirmed => ?_
    rw [hsigns] at hconfirmed
    cases existed with
    | true =>
      rw [if_pos rfl, guarded_bind]
      have hdone : v''.signs = [.deleted, .confirmed] := hconfirmed
      refine (backfill_guarded solutionId target hgood hdone).mono ?_
      rintro r held hvisited
      rcases r with f | _
      · exact hvisited
      · exact hvisited
    | false =>
      rw [if_neg Bool.false_ne_true]
      refine ⟨v'', rfl, ?_⟩
      rw [hconfirmed]
      exact .confirmed

end

/-! ## Upkeep -/

/-- What runs under a lock is guarded if the lock is held for a visit. -/
theorem locked_guarded {α : Type} (index : String) (x : Service α)
    (h : ∀ v : IndexView, v.Sound → v.signs = [] →
      x.Guarded (some ⟨index, v⟩) fun _ held => Visited index held) :
    (locked index x).Guarded none fun _ held => held = none := by
  refine (guarded_bind none (ask (.acquire index)) _ _).mpr ?_
  refine ⟨trivial, fun _ held hmoves => ?_⟩
  cases hmoves with
  | free plain => exact absurd trivial plain
  | @acquire _ v sound fresh =>
    refine ⟨fun hold hhold => by cases hhold; exact sound, ?_⟩
    refine (guarded_bind _ (attempt x) _ _).mpr ((guarded_attempt _ x _).mpr ?_)
    refine (h v sound fresh).mono ?_
    rintro r _ ⟨v', rfl, hvisit⟩
    refine (guarded_bind _ (ask (.release index)) _ _).mpr ?_
    refine ⟨⟨rfl, hvisit⟩, fun _ held hmoves => ?_⟩
    cases hmoves with
    | held plain => exact absurd trivial plain
    | release => exact ⟨fun hold hhold => (nomatch hhold), rfl⟩

theorem ensureOne_guarded (solutionId : Json) (force : Bool) (target : IndexTarget) :
    (Index.ensureOne solutionId force target).Guarded none fun _ held => held = none := by
  refine locked_guarded target.name _ fun v sound fresh => ?_
  have hrecreate (w : IndexView) (hsound : w.Sound) (hfresh : w.signs = []) :
      (do let _ ← Index.recreate solutionId target; pure true : Service Bool).Guarded
        (some ⟨target.name, w⟩) fun _ held => Visited target.name held := by
    rw [guarded_bind]
    refine (recreate_guarded solutionId target hsound hfresh).mono ?_
    rintro r held hvisited
    rcases r with f | _
    · exact hvisited
    · exact hvisited
  dsimp only
  cases force with
  | true => exact hrecreate v sound fresh
  | false =>
    rw [if_neg Bool.false_ne_true, guarded_bind, map_eq_pure_bind, guarded_bind]
    refine (isGood_guarded sound fresh).mono ?_
    rintro _ _ ⟨good, v', rfl, rfl, hsound, hsigns⟩
    cases good with
    | true =>
      exact ⟨v', rfl, hsigns⟩
    | false => exact hrecreate v' hsound hsigns

theorem ensureEach_guarded (solutionId : Json) (force : Bool) (targets : List IndexTarget) :
    (Index.ensureEach solutionId force targets).Guarded none fun _ held => held = none := by
  induction targets with
  | nil => rfl
  | cons target rest ih =>
    unfold Index.ensureEach
    rw [guarded_bind]
    refine (ensureOne_guarded solutionId force target).mono ?_
    rintro r _ rfl
    rcases r with f | created
    · rfl
    · dsimp only
      rw [guarded_bind]
      refine ih.mono ?_
      rintro r _ rfl
      rcases r with f | others
      · rfl
      · rfl

namespace IndexRequest

/-- The program of a request. -/
def program : IndexRequest → Prog Unit
  | .ensure solutionId entityName entityType force =>
    (fun _ => ()) <$> (Index.ensure solutionId (.str entityName) entityType force).run
  | .create solutionId target => (fun _ => ()) <$> (Index.create solutionId target).run

/-- Every request keeps to the locks and gives back the last one in the end. -/
theorem guarded (c : IndexRequest) : c.program.Guarded (fun _ held => held = none) none := by
  cases c with
  | create solutionId target =>
    refine (Prog.guarded_bind _ _ _ _).mpr ?_
    exact locked_guarded target.name _ fun v sound fresh =>
      recreate_guarded solutionId target sound fresh
  | ensure solutionId entityName entityType force =>
    refine (Prog.guarded_bind _ _ _ _).mpr ?_
    have hensure : (Index.ensure solutionId (.str entityName) entityType force).Guarded none
        fun _ held => held = none := by
      unfold Index.ensure
      rw [guarded_bind, guarded_orFail]
      rcases Index.entityNameOf (.str entityName) with f | name
      · rfl
      · exact ensureEach_guarded solutionId force _
    exact hensure

end IndexRequest

end TenantSearch
