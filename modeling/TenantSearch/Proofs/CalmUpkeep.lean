-- The upkeep of indices in a world without outages: which indices are spared,
-- which are created anew, and what that leaves of the rest of the world.
import TenantSearch.Proofs.CallEffects
import TenantSearch.Proofs.EngineDocuments
import TenantSearch.Proofs.SoundMappings

namespace TenantSearch

/-! ## What is written down -/

/-- What the log says about indices: one was dropped, or a job was queued that
fills one again. -/
inductive IndexEvent where
  | dropped (index : String)
  | queued (job : BackfillJob)

def Call.event? : Call → Option IndexEvent
  | .engine (.drop index) => some (.dropped index)
  | .queue (.enqueue job) => some (.queued job)
  | _ => none

/-- The calls between two worlds of a run drop these indices and queue these
jobs. -/
def World.Logs (w w' : World) (events : List IndexEvent) : Prop :=
  ∃ calls, w'.log = w.log ++ calls ∧ calls.filterMap Call.event? = events

theorem World.Logs.refl (w : World) : w.Logs w [] := ⟨[], (List.append_nil _).symm, rfl⟩

theorem World.Logs.trans {w w' w'' : World} {events more : List IndexEvent} (h : w.Logs w' events)
    (h' : w'.Logs w'' more) : w.Logs w'' (events ++ more) := by
  obtain ⟨calls, hlog, hevents⟩ := h
  obtain ⟨calls', hlog', hevents'⟩ := h'
  refine ⟨calls ++ calls', by rw [hlog', hlog, List.append_assoc], ?_⟩
  rw [List.filterMap_append, hevents, hevents']

/-! ## The schema of an index -/

/-- The schema that the definition table has for an entity. -/
def schemaFor (definitions : List EntityDefinition) (solutionId entityName entityType : Json) :
    Except Failure EntitySchema := do
  let rows ← (EntityDefinition.rowsFor definitions solutionId entityName entityType).mapError
    (Outage.blame Outage.ofDatabase (.ofEntity .metadataRead entityName))
  (EntityDefinition.choose rows).mapError .broken

/-- What an index is created with. -/
def descriptorFor (definitions : List EntityDefinition) (solutionId : Json)
    (target : IndexTarget) : Except Failure IndexDescriptor := do
  let schema ← schemaFor definitions solutionId (.str target.entityName) target.entityType
  (IndexDescriptor.build target.name schema.extraFields).checked.orInvalid

open Service

theorem lookUpSchema_leads {w : World} (hcalm : w.Calm) (solutionId entityName entityType : Json)
    (post : Except Failure EntitySchema → World → Prop) :
    (lookUpSchema solutionId entityName entityType).Leads w post ↔
      post (schemaFor w.definitions solutionId entityName entityType)
        (w.logged [.database (.definitions solutionId entityName entityType)]) := by
  unfold lookUpSchema
  rw [leads_bind, leads_call_calm hcalm]
  unfold schemaFor
  have hdefinitions : ((w.logged [.database (.definitions solutionId entityName entityType)]).effect
      (.database (.definitions solutionId entityName entityType))) =
        (EntityDefinition.rowsFor w.definitions solutionId entityName entityType,
          w.logged [.database (.definitions solutionId entityName entityType)]) := rfl
  rw [hdefinitions]
  rcases EntityDefinition.rowsFor w.definitions solutionId entityName entityType with o | rows
  · rfl
  · rfl

/-! ## Looking at an index -/

/-- Whether an index is left as it is unless its replacement is forced. -/
def World.spares (w : World) (index : String) : Bool :=
  w.memory.knows index || isSound (w.engine.mapping? index)

theorem World.spares_of_isSound {w : World} {index : String}
    (h : isSound (w.engine.mapping? index) = true) : w.spares index = true := by
  unfold World.spares
  rw [h, Bool.or_true]

theorem liveSchema_leads {w : World} {index : String}
    (hshown : w.Unplanned (.engine (.mapping index)))
    (post : Except Failure (Option (List (String × Json))) → World → Prop) :
    (Engine.liveSchema index).Leads w post ↔
      post (match w.engine.mapping? index with
        | some mapping => some <$> (Engine.fieldTypes mapping).mapError .broken
        | none => .ok none) (w.logged [.engine (.mapping index)]) := by
  refine (leads_bind _ _ _ _).trans ((leads_ask_unplanned hshown _).trans ?_)
  have hmapping : (w.logged [.engine (.mapping index)]).effect (.engine (.mapping index)) =
      match w.engine.mapping? index with
      | some mapping => (.ok mapping, w.logged [.engine (.mapping index)])
      | none => (.error .notFound, w.logged [.engine (.mapping index)]) := rfl
  rw [hmapping]
  rcases w.engine.mapping? index with _ | mapping
  · rfl
  · dsimp only
    rcases Engine.fieldTypes mapping with b | types
    · rfl
    · rfl

theorem checkLive_leads {w : World} {index : String}
    (hshown : w.Unplanned (.engine (.mapping index)))
    (post : Except Failure Bool → World → Prop) :
    (Index.checkLive index).Leads w post ↔
      post (.ok (isSound (w.engine.mapping? index))) (w.logged [.engine (.mapping index)]) := by
  unfold Index.checkLive
  rw [leads_bind, leads_attempt, liveSchema_leads hshown]
  rcases w.engine.mapping? index with _ | mapping
  · rfl
  · dsimp only [isSound]
    rcases Engine.fieldTypes mapping with b | types
    · rfl
    · rfl

/-! ## Between two worlds -/

namespace World

/-- Two worlds that differ in the engine, the memory and the log alone. -/
structure Beside (w w' : World) : Prop where
  circumstances : w'.circumstances = w.circumstances
  records : w'.records = w.records
  definitions : w'.definitions = w.definitions
  plans : w'.plans = w.plans

theorem Beside.refl (w : World) : w.Beside w := ⟨rfl, rfl, rfl, rfl⟩

theorem Beside.trans {w w' w'' : World} (h : w.Beside w') (h' : w'.Beside w'') : w.Beside w'' :=
  ⟨h'.circumstances.trans h.circumstances, h'.records.trans h.records,
    h'.definitions.trans h.definitions, h'.plans.trans h.plans⟩

theorem Beside.remembering {w w' : World} (h : w.Beside w') (m : IndexMemory) :
    w.Beside { w' with memory := m } := ⟨h.circumstances, h.records, h.definitions, h.plans⟩

theorem Beside.calm {w w' : World} (h : w.Beside w') (hcalm : w.Calm) : w'.Calm :=
  h.plans.trans hcalm

end World

open Service

theorem isGood_leads {w : World} (hcalm : w.Calm) (index : String) :
    (Index.isGood index).Leads w fun r w' => r = .ok (w.spares index) ∧ w.Beside w' ∧
      w'.engine = w.engine ∧ w.Logs w' [] := by
  unfold Index.isGood
  rw [leads_bind, leads_memory]
  dsimp only
  by_cases hknown : w.memory.knows index = true
  · have hspares : w.spares index = true := by
      unfold World.spares
      rw [hknown, Bool.true_or]
    rw [if_pos hknown, leads_pure, hspares]
    exact ⟨rfl, .refl w, rfl, .refl w⟩
  · have hspares : w.spares index = isSound (w.engine.mapping? index) := by
      unfold World.spares
      rw [Bool.eq_false_iff.mpr hknown, Bool.false_or]
    rw [if_neg hknown, leads_bind, leads_change, leads_bind]
    dsimp only
    have hcalm' : World.Calm { w with memory := w.memory.change (.mark index .checking) } := hcalm
    rw [checkLive_leads (hcalm'.unplanned _), hspares]
    dsimp only
    cases isSound (w.engine.mapping? index) with
    | true =>
      simp only [if_true, leads_bind, leads_change, leads_pure]
      exact ⟨trivial, ⟨rfl, rfl, rfl, rfl⟩, rfl, [.engine (.mapping index)], rfl, rfl⟩
    | false =>
      simp only [Bool.false_eq_true, if_false, leads_bind, leads_change, leads_pure]
      exact ⟨trivial, ⟨rfl, rfl, rfl, rfl⟩, rfl, [.engine (.mapping index)], rfl, rfl⟩

/-! ## Creating an index anew -/

/-- The engine after an index with a mapping was dropped. What is mapped to
null only loses its mapping. -/
def SearchEngine.cleared (e : SearchEngine) (index : String) : Json → SearchEngine
  | .null => e.dropMapping index
  | _ => e.drop index

/-- The engine after an index was dropped, if there was one, and created. -/
def SearchEngine.renewed (e : SearchEngine) (index : String) (mapping : Json) : SearchEngine :=
  (match e.mapping? index with
    | some old => e.cleared index old
    | none => e).setMapping index mapping

theorem SearchEngine.mapping?_cleared (e : SearchEngine) (index : String) (old : Json) :
    (e.cleared index old).mapping? index = none := by
  have hdropped : (e.drop index).mapping? index = none := by
    rw [mapping?_drop, if_pos rfl]
  cases old with
  | null => exact hdropped
  | _ => exact hdropped

theorem hasIndex_leads {w : World} (hcalm : w.Calm) (index : String)
    (post : Except Failure Bool → World → Prop) :
    (Engine.hasIndex index).Leads w post ↔
      post (.ok (w.engine.mapping? index).isSome) (w.logged [.engine (.hasIndex index)]) :=
  (leads_call_calm hcalm _ _ _).trans Iff.rfl

theorem createIndex_leads {w : World} (hcalm : w.Calm) (d : IndexDescriptor)
    (hnone : w.engine.mapping? d.indexName = none) (post : Except Failure Unit → World → Prop) :
    (Engine.createIndex d).Leads w post ↔ post (.ok ())
      { w.logged [.engine (.create d)] with
        engine := w.engine.setMapping d.indexName d.mappings } := by
  refine (leads_call_calm hcalm _ _ _).trans ?_
  have hcreate : (w.logged [.engine (.create d)]).effect (.engine (.create d)) =
      if (w.engine.mapping? d.indexName).isSome then
        (.error .refused, w.logged [.engine (.create d)])
      else (.ok (), { w.logged [.engine (.create d)] with
        engine := w.engine.setMapping d.indexName d.mappings }) := rfl
  rw [hcreate, hnone]
  rfl

theorem dropIndex_leads {w : World} (hcalm : w.Calm) (index : String) {mapping : Json}
    (hmapping : w.engine.mapping? index = some mapping)
    (post : Except Failure Unit → World → Prop) :
    (Engine.dropIndex index).Leads w post ↔ post (.ok ())
      { w.logged [.engine (.drop index)] with engine := w.engine.cleared index mapping } := by
  refine (leads_bind _ _ _ _).trans ((leads_ask_calm hcalm _ _).trans ?_)
  simp only [World.effect, World.answerEngine, World.logged_engine, hmapping]
  cases mapping with
  | null => rfl
  | _ => rfl

/-- What an index is created with names it and is compatible. -/
theorem descriptorFor_eq_ok {definitions : List EntityDefinition} {solutionId : Json}
    {target : IndexTarget} {d : IndexDescriptor}
    (h : descriptorFor definitions solutionId target = .ok d) :
    d.indexName = target.name ∧ isSound (some d.mappings) = true := by
  unfold descriptorFor at h
  obtain ⟨schema, -, h⟩ := bind_eq_ok.mp h
  obtain ⟨rfl, -⟩ := checked_eq_ok h
  exact ⟨rfl, isSound_of_checked h⟩

/-- An index is created by its descriptor, or nothing happens to it. -/
theorem replace_leads {w : World} (hcalm : w.Calm) (solutionId : Json) (target : IndexTarget) :
    (Index.replace solutionId target).Leads w fun r w' => w.Beside w' ∧
      match descriptorFor w.definitions solutionId target with
      | .ok d => r = .ok (d, (w.engine.mapping? target.name).isSome) ∧
          w'.engine = w.engine.renewed target.name d.mappings ∧
          w.Logs w' (if (w.engine.mapping? target.name).isSome then [.dropped target.name] else [])
      | .error f => r = .error f ∧ w'.engine = w.engine ∧ w.Logs w' [] := by
  unfold Index.replace
  rw [leads_bind, lookUpSchema_leads hcalm]
  generalize hlookUp : Call.database (.definitions solutionId (.str target.entityName)
    target.entityType) = lookUp
  unfold descriptorFor
  rcases schemaFor w.definitions solutionId (.str target.entityName) target.entityType with f | schema
  · exact ⟨⟨rfl, rfl, rfl, rfl⟩, rfl, rfl, [lookUp], rfl, hlookUp ▸ rfl⟩
  · have hname : (IndexDescriptor.build target.name schema.extraFields).indexName = target.name := rfl
    have hcases := checked_cases (IndexDescriptor.build target.name schema.extraFields)
    rw [ok_bind]
    dsimp only
    generalize IndexDescriptor.build target.name schema.extraFields = d at hname hcases
    rw [leads_bind, leads_orFail]
    rcases hcases with hok | ⟨errors, hbad⟩
    · rw [hok]
      dsimp only
      rw [leads_bind, hasIndex_leads (hcalm.logged _)]
      dsimp only
      unfold SearchEngine.renewed
      rw [World.logged_engine]
      rcases hmapping : w.engine.mapping? target.name with _ | old
      · simp only [Option.isSome_none, Bool.false_eq_true, if_false]
        rw [leads_bind, createIndex_leads ((hcalm.logged _).logged _) _ (hname ▸ hmapping)]
        dsimp only
        rw [leads_pure]
        refine ⟨⟨rfl, rfl, rfl, rfl⟩, rfl, by rw [hname]; rfl, [lookUp,
          .engine (.hasIndex target.name), .engine (.create d)], ?_, hlookUp ▸ rfl⟩
        simp only [World.logged_logged]
        rfl
      · simp only [Option.isSome_some, if_true]
        rw [leads_bind, dropIndex_leads ((hcalm.logged _).logged _) _ hmapping]
        dsimp only
        rw [leads_bind, createIndex_leads _ _ (hname ▸ SearchEngine.mapping?_cleared _ _ _)]
        dsimp only
        rw [leads_pure]
        · refine ⟨⟨rfl, rfl, rfl, rfl⟩, rfl, by rw [hname]; rfl, [lookUp,
            .engine (.hasIndex target.name), .engine (.drop target.name), .engine (.create d)], ?_,
            hlookUp ▸ rfl⟩
          have hlog : w.log ++ [lookUp] ++ [.engine (.hasIndex target.name)] ++
              [.engine (.drop target.name)] ++ [.engine (.create d)] = w.log ++ [lookUp,
                .engine (.hasIndex target.name), .engine (.drop target.name), .engine (.create d)] := by
            simp only [List.append_assoc]
            rfl
          exact hlog
        · exact hcalm
    · rw [hbad]
      exact ⟨⟨rfl, rfl, rfl, rfl⟩, rfl, rfl, [lookUp], rfl, hlookUp ▸ rfl⟩

/-! ## Making sure of an index -/

/-- The job that fills an index again once it was recreated. -/
def jobOf (here : Circumstances) (solutionId : Json) (entityName : String) : BackfillJob :=
  ⟨solutionId, entityName, here.now⟩

/-- What the log says when an index that was there is created anew. -/
def recreationEvents (here : Circumstances) (solutionId : Json) (target : IndexTarget) :
    List IndexEvent :=
  .dropped target.name ::
    if here.backfills then [.queued (jobOf here solutionId target.entityName)] else []

theorem backfill_leads {w : World} (hcalm : w.Calm) (solutionId : Json) (target : IndexTarget) :
    (Index.backfill solutionId target).Leads w fun r w' => r = .ok () ∧ w.Beside w' ∧
      w'.engine = w.engine ∧ w.Logs w' (if w.circumstances.backfills then
        [.queued (jobOf w.circumstances solutionId target.entityName)] else []) := by
  unfold Index.backfill
  rw [leads_bind, leads_circumstances]
  dsimp only
  split
  · rw [leads_bind]
    refine (leads_ask_calm hcalm _ _).mpr ?_
    exact ⟨rfl, ⟨rfl, rfl, rfl, rfl⟩, rfl, _, rfl, rfl⟩
  · exact ⟨rfl, .refl w, rfl, .refl w⟩

/-- What becomes of an index that is created anew, in a calm world. -/
inductive Recreation (w : World) (solutionId : Json) (target : IndexTarget) :
    Except Failure IndexDescriptor → World → Prop
  /-- The index has no proper descriptor and is left alone. -/
  | refused {f : Failure} {w' : World}
      (descriptor : descriptorFor w.definitions solutionId target = .error f)
      (engine : w'.engine = w.engine) (logs : w.Logs w' []) :
      Recreation w solutionId target (.error f) w'
  /-- The index is replaced; where there was one, it is to be filled again. -/
  | done {d : IndexDescriptor} {w' : World}
      (descriptor : descriptorFor w.definitions solutionId target = .ok d)
      (engine : w'.engine = w.engine.renewed target.name d.mappings)
      (logs : w.Logs w' (if (w.engine.mapping? target.name).isSome then
        recreationEvents w.circumstances solutionId target else [])) :
      Recreation w solutionId target (.ok d) w'

theorem recreate_leads {w : World} (hcalm : w.Calm) (solutionId : Json) (target : IndexTarget) :
    (Index.recreate solutionId target).Leads w fun r w' => w.Beside w' ∧
      Recreation w solutionId target r w' := by
  unfold Index.recreate
  simp only [leads_bind, leads_change, leads_attempt]
  generalize (w.memory.change (.mark target.name .creating)).change (.forget target.name) = m
  have hcalm' : World.Calm { w with memory := m } := hcalm
  refine (replace_leads hcalm' solutionId target).mono ?_
  rintro r w' ⟨hbeside, hcases⟩
  have hbeside' : w.Beside w' := ((World.Beside.refl w).remembering m).trans hbeside
  dsimp only at hcases
  rcases hd : descriptorFor w.definitions solutionId target with f | d
  · rw [hd] at hcases
    obtain ⟨rfl, hengine, hlogs⟩ := hcases
    dsimp only
    rw [leads_bind, leads_change]
    dsimp only
    rw [leads_throw]
    exact ⟨hbeside'.remembering _, .refused hd hengine hlogs⟩
  · rw [hd] at hcases
    obtain ⟨rfl, hengine, hlogs⟩ := hcases
    dsimp only
    rw [leads_bind, leads_change]
    dsimp only
    rw [leads_bind, leads_change]
    dsimp only
    split
    · next hexisted =>
      rw [leads_bind]
      refine (backfill_leads ?_ solutionId target).mono ?_
      · exact hbeside'.calm hcalm
      · rintro r w'' ⟨rfl, hbeside'', hengine'', hlogs''⟩
        dsimp only
        rw [leads_pure]
        refine ⟨(hbeside'.remembering _).trans hbeside'', .done hd (hengine''.trans hengine) ?_⟩
        rw [if_pos hexisted] at hlogs ⊢
        have hall := hlogs.trans hlogs''
        rwa [hbeside'.circumstances] at hall
    · next hexisted =>
      refine ⟨hbeside'.remembering _, .done hd hengine ?_⟩
      rw [if_neg hexisted] at hlogs ⊢
      exact hlogs

/-- What becomes of an index that is made sure of, in a calm world. -/
inductive Upkeep (w : World) (solutionId : Json) (force : Bool) (target : IndexTarget) :
    Except Failure Bool → World → Prop
  /-- The index is good. -/
  | spared {w' : World} (unforced : force = false) (engine : w'.engine = w.engine)
      (logs : w.Logs w' []) : Upkeep w solutionId force target (.ok false) w'
  /-- The index is due and created anew. -/
  | recreated {w' : World} {r : Except Failure IndexDescriptor}
      (due : force = true ∨ isSound (w.engine.mapping? target.name) = false)
      (recreation : Recreation w solutionId target r w') :
      Upkeep w solutionId force target (r.map fun _ => true) w'

/-- A recreation that begins after a look at the index. -/
theorem Recreation.after_look {w w₀ w' : World} {solutionId : Json} {target : IndexTarget}
    {r : Except Failure IndexDescriptor} (hbeside : w.Beside w₀) (hengine : w₀.engine = w.engine)
    (hlogs : w.Logs w₀ []) (h : Recreation w₀ solutionId target r w') :
    Recreation w solutionId target r w' := by
  cases h with
  | refused descriptor engine logs =>
    exact .refused (hbeside.definitions ▸ descriptor) (engine.trans hengine) (hlogs.trans logs)
  | done descriptor engine logs =>
    refine .done (hbeside.definitions ▸ descriptor) (hengine ▸ engine) ?_
    rw [hengine, hbeside.circumstances] at logs
    exact hlogs.trans logs

theorem recreateDue_leads {w : World} (hcalm : w.Calm) (solutionId : Json) (target : IndexTarget) :
    (do let _ ← Index.recreate solutionId target; pure true : Service Bool).Leads w fun r w' =>
      w.Beside w' ∧ ∃ r', r = r'.map (fun _ => true) ∧ Recreation w solutionId target r' w' := by
  rw [leads_bind]
  refine (recreate_leads hcalm solutionId target).mono ?_
  rintro r w' ⟨hbeside, hrecreation⟩
  rcases r with f | d
  · exact ⟨hbeside, _, rfl, hrecreation⟩
  · exact ⟨hbeside, _, rfl, hrecreation⟩

theorem ensureOne_leads {w : World} (hcalm : w.Calm) (solutionId : Json) (force : Bool)
    (target : IndexTarget) :
    (Index.ensureOne solutionId force target).Leads w fun r w' => w.Beside w' ∧
      Upkeep w solutionId force target r w' := by
  unfold Index.ensureOne
  rw [leads_locked]
  cases force with
  | true =>
    refine (recreateDue_leads hcalm solutionId target).mono ?_
    rintro r w' ⟨hbeside, r', rfl, hrecreation⟩
    exact ⟨hbeside, .recreated (Or.inl rfl) hrecreation⟩
  | false =>
    simp only [Bool.false_eq_true, if_false, map_eq_pure_bind, leads_bind]
    refine (isGood_leads hcalm target.name).mono ?_
    rintro r w₀ ⟨rfl, hbeside, hengine, hlogs⟩
    dsimp only
    rw [leads_pure]
    dsimp only
    cases hspares : w.spares target.name with
    | true => exact ⟨hbeside, .spared rfl hengine hlogs⟩
    | false =>
      have hunsound : isSound (w.engine.mapping? target.name) = false := by
        rw [Bool.eq_false_iff]
        intro hsound
        rw [World.spares_of_isSound hsound] at hspares
        cases hspares
      refine (recreateDue_leads (hbeside.calm hcalm) solutionId target).mono ?_
      rintro r w' ⟨hbeside', r', rfl, hrecreation⟩
      exact ⟨hbeside.trans hbeside', .recreated (Or.inr hunsound)
        (hrecreation.after_look hbeside hengine hlogs)⟩

/-! ## Sound indices -/

/-- An index is compatible if it is there, so it is left as it is unless its
replacement is forced. -/
def SearchEngine.SoundAt (e : SearchEngine) (index : String) : Prop :=
  ∀ mapping, e.mapping? index = some mapping → isSound (some mapping) = true

/-- What unforced upkeep leaves of a sound index: it keeps its copies and stays
sound. -/
structure World.KeptTo (w w' : World) (index : String) : Prop where
  beside : w.Beside w'
  sound : w'.engine.SoundAt index
  copies : ∀ key, w'.engine.copy? index key = w.engine.copy? index key

theorem World.KeptTo.of_engine {w w' : World} {index : String} (hsound : w.engine.SoundAt index)
    (hbeside : w.Beside w') (hengine : w'.engine = w.engine) : w.KeptTo w' index :=
  ⟨hbeside, hengine ▸ hsound, fun _ => by rw [hengine]⟩

theorem World.KeptTo.trans {w w' w'' : World} {index : String} (h : w.KeptTo w' index)
    (h' : w'.KeptTo w'' index) : w.KeptTo w'' index :=
  ⟨h.beside.trans h'.beside, h'.sound, fun k => (h'.copies k).trans (h.copies k)⟩

namespace SearchEngine

theorem mapping?_renewed (e : SearchEngine) (index : String) (mapping : Json) (i : String) :
    (e.renewed index mapping).mapping? i = if i = index then some mapping else e.mapping? i := by
  unfold renewed
  rw [mapping?_setMapping]
  by_cases hi : i = index
  · rw [if_pos hi, if_pos hi]
  · rw [if_neg hi, if_neg hi]
    rcases e.mapping? index with _ | old
    · rfl
    · have hdropped : (e.drop index).mapping? i = e.mapping? i := by
        rw [mapping?_drop, if_neg hi]
      cases old with
      | null => exact hdropped
      | _ => exact hdropped

theorem SoundAt.renewed {e : SearchEngine} {index i : String} (h : i ≠ index → e.SoundAt i)
    {mapping : Json} (hmapping : isSound (some mapping) = true) :
    (e.renewed index mapping).SoundAt i := by
  intro m hm
  rw [mapping?_renewed] at hm
  split at hm
  · cases hm
    exact hmapping
  · next hne => exact h hne m hm

/-- Another index keeps its copies. -/
theorem copy?_renewed_of_ne (e : SearchEngine) {index i : String} (mapping : Json)
    (hi : i ≠ index) (key : Json.Key) : (e.renewed index mapping).copy? i key = e.copy? i key := by
  unfold renewed
  rw [copy?_setMapping]
  rcases e.mapping? index with _ | old
  · rfl
  · cases old with
    | null => exact copy?_dropMapping e index i key
    | _ => exact (copy?_drop e index i key).trans (if_neg hi)

end SearchEngine

/-- Unforced upkeep of any index keeps a sound one. -/
theorem Upkeep.kept {w w' : World} {solutionId : Json} {target : IndexTarget} {index : String}
    {r : Except Failure Bool} (hsound : w.engine.SoundAt index) (hbeside : w.Beside w')
    (h : Upkeep w solutionId false target r w') : w.KeptTo w' index := by
  cases h with
  | spared _ engine => exact .of_engine hsound hbeside engine
  | recreated due recreation =>
    cases recreation with
    | refused _ engine => exact .of_engine hsound hbeside engine
    | done descriptor engine =>
      obtain ⟨-, hnew⟩ := descriptorFor_eq_ok descriptor
      refine ⟨hbeside, engine ▸ SearchEngine.SoundAt.renewed (fun _ => hsound) hnew, fun key => ?_⟩
      rw [engine]
      by_cases hi : index = target.name
      · have hmissing : w.engine.mapping? target.name = none := by
          cases hmapping : w.engine.mapping? target.name with
          | none => rfl
          | some old =>
            rw [hmapping, hsound old (hi ▸ hmapping)] at due
            rcases due with due | due
            · cases due
            · cases due
        unfold SearchEngine.renewed
        rw [hmissing]
        exact SearchEngine.copy?_setMapping _ _ _ _ _
      · exact SearchEngine.copy?_renewed_of_ne _ _ hi key

theorem Upkeep.ok_of_descriptor {w w' : World} {solutionId : Json} {force : Bool}
    {target : IndexTarget} {r : Except Failure Bool} {d : IndexDescriptor}
    (h : Upkeep w solutionId force target r w')
    (hd : descriptorFor w.definitions solutionId target = .ok d) : ∃ created, r = .ok created := by
  cases h with
  | spared => exact ⟨false, rfl⟩
  | recreated _ recreation =>
    cases recreation with
    | refused descriptor =>
      rw [hd] at descriptor
      cases descriptor
    | done => exact ⟨true, rfl⟩

theorem ensureEach_leads (solutionId : Json) (targets : List IndexTarget) {w : World}
    (hcalm : w.Calm) {index : String} (hsound : w.engine.SoundAt index) :
    (Index.ensureEach solutionId false targets).Leads w fun r w' => w.KeptTo w' index ∧
      ((∀ t ∈ targets, ∃ d, descriptorFor w.definitions solutionId t = .ok d) →
        ∃ names, r = .ok names) := by
  induction targets generalizing w with
  | nil => exact ⟨.of_engine hsound (.refl w) rfl, fun _ => ⟨[], rfl⟩⟩
  | cons target rest ih =>
    unfold Index.ensureEach
    rw [leads_bind]
    refine (ensureOne_leads hcalm solutionId false target).mono ?_
    rintro r w' ⟨hbeside, hupkeep⟩
    have hkept := hupkeep.kept hsound hbeside
    rcases r with f | created
    · refine ⟨hkept, fun hall => ?_⟩
      obtain ⟨d, hd⟩ := hall target List.mem_cons_self
      obtain ⟨created, hcreated⟩ := hupkeep.ok_of_descriptor hd
      cases hcreated
    · dsimp only
      rw [leads_bind]
      refine (ih (hbeside.calm hcalm) hkept.sound).mono ?_
      rintro r w'' ⟨hrest, hok⟩
      rw [hbeside.definitions] at hok
      rcases r with f | names
      · refine ⟨hkept.trans hrest, fun hall => ?_⟩
        obtain ⟨names, hnames⟩ := hok fun t ht => hall t (List.mem_cons_of_mem _ ht)
        cases hnames
      · exact ⟨hkept.trans hrest, fun _ => ⟨_, rfl⟩⟩

end TenantSearch
