-- What is heard while one index is made sure of, whatever call fails: which
-- creations worked out, what was dropped and after what, which jobs were
-- queued, and what is remembered of the index in the end.
import TenantSearch.Proofs.HeardAnswers

namespace TenantSearch

/-! ## The pure model -/

/-- The world after a change of its memory. -/
def World.changed (w : World) (m : MemoryChange) : World := { w with memory := w.memory.change m }

namespace Exchange

/-- A change of the memory. -/
def ofChange (w : World) (m : MemoryChange) : Exchange := ⟨.change m, (), w, w.changed m⟩

/-- The index whose creation worked out. -/
def created? : Exchange → Option String
  | ⟨.call (.engine (.create d)), .ok _, _, _⟩ => some d.indexName
  | _ => none

/-- The index that was to be dropped. -/
def dropped? : Exchange → Option String
  | ⟨.call (.engine (.drop index)), _, _, _⟩ => some index
  | _ => none

/-- The job that was to be queued. -/
def queued? : Exchange → Option BackfillJob
  | ⟨.call (.queue (.enqueue job)), _, _, _⟩ => some job
  | _ => none

end Exchange

/-- The definitions of the target were read, and they give it a descriptor. -/
def Described (solutionId : Json) (target : IndexTarget) (past : List Exchange) : Prop :=
  ∃ (rows : List EntityDefinition) (before after : World) (schema : EntitySchema)
      (d : IndexDescriptor),
    (⟨.call (.database (.definitions solutionId (.str target.entityName) target.entityType)),
      .ok rows, before, after⟩ : Exchange) ∈ past ∧
    EntityDefinition.choose rows = .ok schema ∧
    (IndexDescriptor.build target.name schema.extraFields).checked.orInvalid = .ok d

/-- The mapping of an index was asked for, and that failed, or the live mapping
does not make identifiers keywords. -/
def Doubted (w : World) (index : String) (past : List Exchange) : Prop :=
  ∃ (reply : Except Outage Json) (before after : World),
    (⟨.call (.engine (.mapping index)), reply, before, after⟩ : Exchange) ∈ past ∧
      ((∃ o, reply = .error o) ∨ isSound (w.engine.mapping? index) = false)

theorem Described.mono {solutionId : Json} {target : IndexTarget} {past past' : List Exchange}
    (h : Described solutionId target past) (hsub : past ⊆ past') :
    Described solutionId target past' := by
  obtain ⟨rows, before, after, schema, d, hmem, hschema, hd⟩ := h
  exact ⟨rows, before, after, schema, d, hsub hmem, hschema, hd⟩

theorem Doubted.mono {w : World} {index : String} {past past' : List Exchange}
    (h : Doubted w index past) (hsub : past ⊆ past') : Doubted w index past' := by
  obtain ⟨reply, before, after, hmem, hdoubt⟩ := h
  exact ⟨reply, before, after, hsub hmem, hdoubt⟩

/-- When an index may be dropped while that of a target is replaced: it is that
index, and there is a descriptor to create it by. -/
structure MayReplace (solutionId : Json) (target : IndexTarget) (index : String)
    (past : List Exchange) : Prop where
  name : index = target.name
  described : Described solutionId target past

/-- When an index may be dropped while that of a target is made sure of, from a
world on: when it is to be replaced by force, or it was not known to be good and
a look at it left doubts. -/
structure MayDrop (solutionId : Json) (force : Bool) (w : World) (target : IndexTarget)
    (index : String) (past : List Exchange) : Prop
    extends MayReplace solutionId target index past where
  due : force = true ∨ (w.memory.knows index = false ∧ Doubted w index past)

section

variable {solutionId : Json} {target : IndexTarget} {index : String} {past past' : List Exchange}

theorem MayReplace.mono (h : MayReplace solutionId target index past) (hsub : past ⊆ past') :
    MayReplace solutionId target index past' := ⟨h.name, h.described.mono hsub⟩

theorem MayDrop.mono {force : Bool} {w : World} (h : MayDrop solutionId force w target index past)
    (hsub : past ⊆ past') : MayDrop solutionId force w target index past' where
  toMayReplace := h.toMayReplace.mono hsub
  due := h.due.imp_right fun ⟨hunknown, hdoubted⟩ => ⟨hunknown, hdoubted.mono hsub⟩

end

/-- What there is after an outcome: these, unless it is a failure. -/
@[simp]
def ifOk {α β : Type} : Except Failure α → List β → List β
  | .ok _, l => l
  | .error _, _ => []

/-- What there is once an index was made sure of: these, if it was created. -/
@[simp]
def ifCreated {β : Type} : Except Failure Bool → List β → List β
  | .ok true, l => l
  | _, _ => []

/-- How an index is remembered after an outcome: it is known to be good, or the
attempt failed, and nothing is known of it. -/
def Settled {α : Type} (m : IndexMemory) (index : String) : Except Failure α → Prop
  | .ok _ => m.knows index = true
  | .error _ => m.knows index = false ∧ m.stateOf index = .unknown

theorem settled_of_forgotten {α : Type} {m : IndexMemory} {index : String}
    (h : m.knows index = false) (f : Failure) :
    Settled (m.change (.mark index .unknown)) index (.error f : Except Failure α) := by
  have hknows : (m.change (.mark index .unknown)).knows index = false := h
  refine ⟨hknows, ?_⟩
  unfold IndexMemory.stateOf
  rw [hknows, if_neg Bool.false_ne_true]
  exact (IndexMemory.marked_mark m index index .unknown).trans (if_pos rfl)

theorem IndexMemory.knows_of_remember (m : IndexMemory) (index : String) :
    (m.change (.remember index)).knows index = true := by
  rw [IndexMemory.knows_remember, beq_self_eq_true, Bool.true_or]

/-- The job that is queued when the index of a target is created, provided that
there was one and jobs are queued at all. -/
def World.refills (w : World) (solutionId : Json) (target : IndexTarget) : List BackfillJob :=
  if (w.engine.mapping? target.name).isSome && w.circumstances.backfills then
    [jobOf w.circumstances solutionId target.entityName]
  else []

/-- What the exchanges of a run come to: the indices whose creation worked out,
the jobs that were queued, and what went before each index was dropped. -/
structure Account (drops : String → List Exchange → Prop) (created : List String)
    (queued : List BackfillJob) (heard : List Exchange) : Prop where
  created : heard.filterMap (·.created?) = created
  queued : heard.filterMap (·.queued?) = queued
  dropped : ∀ past e later index, heard = past ++ e :: later → e.dropped? = some index →
    drops index past

/-- No index is dropped. -/
def NoDrop : String → List Exchange → Prop := fun _ _ => False

namespace Account

variable {drops drops' : String → List Exchange → Prop} {created created' : List String}
  {queued queued' : List BackfillJob} {first second : List Exchange}

theorem nil : Account drops [] [] [] where
  created := rfl
  queued := rfl
  dropped := by
    intro past e later index hsplit
    cases past <;> cases hsplit

theorem single {e : Exchange} (hdrops : ∀ index, e.dropped? = some index → drops index []) :
    Account drops e.created?.toList e.queued?.toList [e] where
  created := by cases h : e.created? <;> simp [h]
  queued := by cases h : e.queued? <;> simp [h]
  dropped := by
    intro past e' later index hsplit hdropped
    cases past with
    | nil =>
      cases hsplit
      exact hdrops index hdropped
    | cons x past => cases past <;> cases hsplit

theorem mono (h : Account drops created queued first)
    (himp : ∀ index past, drops index past → drops' index past) :
    Account drops' created queued first :=
  ⟨h.created, h.queued, fun past e later index hsplit hdropped =>
    himp index past (h.dropped past e later index hsplit hdropped)⟩

/-- Where nothing is dropped, nothing need be said of drops. -/
theorem quiet (h : Account NoDrop created queued first) : Account drops created queued first :=
  h.mono fun _ _ => False.elim

/-- One run and then another; what went before a drop of the second includes all
of the first. -/
theorem append (h : Account drops created queued first)
    (h' : Account drops' created' queued' second)
    (himp : ∀ index past, drops' index past → drops index (first ++ past)) :
    Account drops (created ++ created') (queued ++ queued') (first ++ second) where
  created := by rw [List.filterMap_append, h.created, h'.created]
  queued := by rw [List.filterMap_append, h.queued, h'.queued]
  dropped := by
    intro past e later index hsplit hdropped
    rcases List.append_eq_append_iff.mp hsplit with ⟨rest, rfl, hsecond⟩ | ⟨rest, hfirst, hrest⟩
    · exact himp index rest (h'.dropped rest e later index hsecond hdropped)
    · cases rest with
      | nil =>
        rw [List.append_nil] at hfirst
        rw [← hfirst, ← List.append_nil first]
        exact himp index [] (h'.dropped [] e later index hrest.symm hdropped)
      | cons x rest =>
        cases hrest
        exact h.dropped past e rest index hfirst hdropped

/-- An exchange that the account says nothing of. -/
theorem idle {e : Exchange} (hcreated : e.created? = none) (hqueued : e.queued? = none)
    (hdropped : e.dropped? = none) : Account NoDrop [] [] [e] := by
  have hsingle : Account NoDrop e.created?.toList e.queued?.toList [e] := .single fun index h => by
    rw [hdropped] at h
    cases h
  rwa [hcreated, hqueued] at hsingle

theorem change (w : World) (m : MemoryChange) : Account NoDrop [] [] [.ofChange w m] :=
  idle rfl rfl rfl

/-- Nothing is dropped in the second run. -/
theorem andThen (h : Account drops created queued first)
    (h' : Account NoDrop created' queued' second) :
    Account drops (created ++ created') (queued ++ queued') (first ++ second) :=
  h.append h' fun _ _ => False.elim

/-- Nothing is dropped in the first run. -/
theorem after (h' : Account drops' created' queued' second)
    (h : Account NoDrop created queued first)
    (himp : ∀ index past, drops' index past → drops index (first ++ past)) :
    Account drops (created ++ created') (queued ++ queued') (first ++ second) :=
  h.quiet.append h' himp

end Account

open Service

/-! ## Steps -/

section

variable {w : World} {index : String}

theorem told_change (m : MemoryChange)
    (post : Except Failure Unit → List Exchange → World → Prop) :
    (change m).Told w post ↔ post (.ok ()) [.ofChange w m] (w.changed m) :=
  told_ask_own w (s := .change m) (fun _ => nofun) post

theorem told_locked (x : Service Bool)
    (post : Except Failure Bool → List Exchange → World → Prop) :
    (locked index x).Told w post ↔ x.Told w fun r heard w' =>
      post r (⟨.acquire index, (), w, w⟩ :: (heard ++ [⟨.release index, (), w', w'⟩])) w' := by
  unfold locked
  refine (told_bind w (ask (.acquire index)) _ post).trans ?_
  refine (told_ask_own w (s := .acquire index) (fun _ => nofun) _).trans ?_
  refine (told_bind w (attempt x) _ _).trans ((told_attempt w x _).trans ?_)
  refine forall_congr' fun r => forall_congr' fun heard => forall_congr' fun w' => ?_
  refine imp_congr_right fun _ => ?_
  refine (told_bind w' (ask (.release index)) _ _).trans ?_
  refine (told_ask_own w' (s := .release index) (fun _ => nofun) _).trans ?_
  exact told_orFail w' r _

theorem engine_of_answers {c : Call} {r : Except Outage c.Reply} {w' : World}
    (h : w.Answers World.anyCall c r w') (htouches : ¬ (Step.call c).Touches index) :
    w'.engine.mapping? index = w.engine.mapping? index :=
  congrArg IndexView.mapping (h.view_of_not_touches htouches [])

theorem memory_of_answers {c : Call} {r : Except Outage c.Reply} {w' : World}
    (h : w.Answers World.anyCall c r w') : w'.memory = w.memory := by
  obtain ⟨plans, engine, responses, records, rfl⟩ := h.frame
  rfl

/-! ## Looking at an index -/

/-- A look at an index asks for its mapping, and finds it good or is in doubt. -/
theorem checkLive_told : (Index.checkLive index).Told w fun r heard w' =>
    ∃ (good : Bool) (reply : Except Outage Json), r = .ok good ∧
      heard = [⟨.call (.engine (.mapping index)), reply, w, w'⟩] ∧
      w.Answers World.anyCall (.engine (.mapping index)) reply w' ∧
      (good = false → (∃ o, reply = .error o) ∨ isSound (w.engine.mapping? index) = false) := by
  unfold Index.checkLive Engine.liveSchema
  refine (told_bind _ _ _ _).mpr ((told_attempt _ _ _).mpr ((told_bind _ _ _ _).mpr ?_))
  refine (told_ask_call _ _ _).mpr fun reply w' answers => ?_
  rcases reply with o | mapping
  · have hdoubt : ∀ good : Bool, good = false → (∃ o', (Except.error o : Except Outage Json) =
        .error o') ∨ isSound (w.engine.mapping? index) = false := fun _ _ => Or.inl ⟨o, rfl⟩
    cases o with
    | notFound =>
      refine (told_pure _ _ _).mpr ((told_pure _ _ _).mpr ?_)
      exact ⟨false, _, rfl, rfl, answers, hdoubt false⟩
    | _ =>
      refine (told_throw _ _ _).mpr ((told_pure _ _ _).mpr ?_)
      exact ⟨false, _, rfl, rfl, answers, hdoubt false⟩
  · have hlive : w.engine.mapping? index = some mapping := answers.mapping
    dsimp only
    rw [map_eq_pure_bind]
    refine (told_bind _ _ _ _).mpr ((told_orBroken _ _ _).mpr ?_)
    rcases htypes : Engine.fieldTypes mapping with b | types
    · have hbad : isSound (w.engine.mapping? index) = false := by
        unfold isSound
        rw [hlive]
        dsimp only
        rw [htypes]
      refine (told_pure _ _ _).mpr ?_
      exact ⟨false, _, rfl, rfl, answers, fun _ => Or.inr hbad⟩
    · have hsound : isSound (w.engine.mapping? index) = Index.isCompatible types := by
        unfold isSound
        rw [hlive]
        dsimp only
        rw [htypes]
      refine (told_pure _ _ _).mpr ((told_pure _ _ _).mpr ?_)
      exact ⟨_, _, rfl, rfl, answers, fun hbad => Or.inr (hsound.trans hbad)⟩

/-- What is heard when an index is looked at, from memory or in the engine. -/
structure Looked (index : String) (w : World) (good : Bool) (heard : List Exchange) (w' : World) :
    Prop where
  account : Account NoDrop [] [] heard
  mapping : w'.engine.mapping? index = w.engine.mapping? index
  known : good = true → w'.memory.knows index = true
  doubted : good = false → w.memory.knows index = false ∧ Doubted w index heard

theorem isGood_told : (Index.isGood index).Told w fun r heard w' =>
    ∃ good, r = .ok good ∧ Looked index w good heard w' := by
  unfold Index.isGood
  refine (told_bind _ memory _ _).mpr ((told_ask_own _ (s := .recall) (fun _ => nofun) _).mpr ?_)
  have hrecall : Account NoDrop [] [] [⟨.recall, w.memory, w, w⟩] := .idle rfl rfl rfl
  dsimp only [World.answer]
  by_cases hknown : w.memory.knows index = true
  · rw [if_pos hknown]
    refine (told_pure _ _ _).mpr ⟨true, rfl, ?_⟩
    exact ⟨hrecall, rfl, fun _ => hknown, nofun⟩
  rw [if_neg hknown]
  refine (told_bind _ _ _ _).mpr ((told_change _ _).mpr ?_)
  refine (told_bind _ _ _ _).mpr (checkLive_told.mono ?_)
  rintro r heard w' ⟨good, reply, rfl, rfl, answers, hdoubt⟩
  have hmapping : w'.engine.mapping? index = w.engine.mapping? index :=
    engine_of_answers (w := w.changed (.mark index .checking)) answers id
  have hasked : Account NoDrop [] [] [⟨.call (.engine (.mapping index)), reply,
      w.changed (.mark index .checking), w'⟩] := .idle rfl rfl rfl
  have hbegun := hrecall.andThen ((Account.change w (.mark index .checking)).andThen hasked)
  dsimp only
  cases good with
  | true =>
    refine (told_bind _ _ _ _).mpr ((told_change _ _).mpr ?_)
    refine (told_bind _ _ _ _).mpr ((told_change _ _).mpr ((told_pure _ _ _).mpr ?_))
    refine ⟨true, rfl, ?_, hmapping, fun _ => ?_, nofun⟩
    · simpa using hbegun.andThen ((Account.change w' (.remember index)).andThen
        (Account.change _ (.mark index .good)))
    · exact w'.memory.knows_of_remember index
  | false =>
    refine (told_bind _ _ _ _).mpr ((told_change _ _).mpr ((told_pure _ _ _).mpr ?_))
    refine ⟨false, rfl, ?_, hmapping, nofun, fun _ => ?_⟩
    · simpa using hbegun.andThen (Account.change w' (.mark index .missing))
    · refine ⟨Bool.eq_false_iff.mpr hknown, reply, w.changed (.mark index .checking), w', ?_,
        hdoubt rfl⟩
      simp

/-! ## Replacing an index -/

theorem lookUpSchema_told (solutionId entityName entityType : Json) :
    (lookUpSchema solutionId entityName entityType).Told w fun r heard w' =>
      ∃ reply, heard = [⟨.call (.database (.definitions solutionId entityName entityType)),
          reply, w, w'⟩] ∧
        w.Answers World.anyCall (.database (.definitions solutionId entityName entityType))
          reply w' ∧
        ∀ schema, r = .ok schema → ∃ rows, reply = .ok rows ∧
          EntityDefinition.choose rows = .ok schema := by
  unfold lookUpSchema
  refine (told_bind _ _ _ _).mpr ((told_call _ _ _ _).mpr fun reply w' answers => ?_)
  rcases reply with o | rows
  · exact ⟨_, rfl, answers, nofun⟩
  · refine (told_orBroken _ _ _).mpr ⟨_, rfl, answers, fun schema hr => ⟨rows, rfl, ?_⟩⟩
    rcases hchoose : EntityDefinition.choose rows with b | chosen
    · rw [hchoose] at hr
      cases hr
    · rw [hchoose] at hr
      cases hr
      rfl

theorem hasIndex_told : (Engine.hasIndex index).Told w fun r heard w' =>
    ∃ reply, heard = [⟨.call (.engine (.hasIndex index)), reply, w, w'⟩] ∧
      w.Answers World.anyCall (.engine (.hasIndex index)) reply w' ∧
      ∀ existed, r = .ok existed → existed = (w.engine.mapping? index).isSome := by
  unfold Engine.hasIndex Engine.call
  refine (told_call _ _ _ _).mpr fun reply w' answers => ⟨reply, rfl, answers, fun existed hr => ?_⟩
  rcases reply with o | there
  · cases hr
  · cases hr
    exact answers.hasIndex

theorem dropIndex_told : (Engine.dropIndex index).Told w fun _ heard w' =>
    ∃ reply, heard = [⟨.call (.engine (.drop index)), reply, w, w'⟩] ∧
      w.Answers World.anyCall (.engine (.drop index)) reply w' := by
  unfold Engine.dropIndex Engine.removal
  refine (told_bind _ _ _ _).mpr ((told_ask_call _ _ _).mpr fun reply w' answers => ?_)
  rcases reply with o | _
  · cases o with
    | notFound => exact (told_pure _ _ _).mpr ⟨_, rfl, answers⟩
    | _ => exact (told_throw _ _ _).mpr ⟨_, rfl, answers⟩
  · exact (told_pure _ _ _).mpr ⟨_, rfl, answers⟩

theorem createIndex_told {target : IndexTarget} {d : IndexDescriptor}
    (hname : d.indexName = target.name) : (Engine.createIndex d).Told w fun r heard w' =>
      w'.memory = w.memory ∧ Account NoDrop (ifOk r [target.name]) [] heard := by
  unfold Engine.createIndex Engine.call
  refine (told_call _ _ _ _).mpr fun reply w' answers => ⟨memory_of_answers answers, ?_⟩
  let e : Exchange := ⟨.call (.engine (.create d)), reply, w, w'⟩
  have hsingle : Account NoDrop e.created?.toList e.queued?.toList [e] := .single nofun
  rcases reply with o | _
  · exact hsingle
  · change Account NoDrop [target.name] [] _
    rw [← hname]
    exact hsingle

/-- The end of a replacement: the index is dropped if it was there, and created. -/
theorem renew_told {target : IndexTarget} {d : IndexDescriptor}
    (hname : d.indexName = target.name) (existed : Bool) :
    (do
      if existed then Engine.dropIndex target.name
      Engine.createIndex d
      pure (d, existed) : Service (IndexDescriptor × Bool)).Told w fun r heard w' =>
        w'.memory = w.memory ∧
        Account (fun index _ => index = target.name) (ifOk r [target.name]) [] heard ∧
        ∀ made, r = .ok made → made.2 = existed := by
  have hcreate (v : World) : (do
      Engine.createIndex d
      pure (d, existed) : Service (IndexDescriptor × Bool)).Told v fun r heard w' =>
        w'.memory = v.memory ∧
        Account (fun index _ => index = target.name) (ifOk r [target.name]) [] heard ∧
        ∀ made, r = .ok made → made.2 = existed := by
    refine (told_bind _ _ _ _).mpr ((createIndex_told hname).mono ?_)
    rintro r heard w' ⟨hmemory, haccount⟩
    rcases r with f | _
    · exact ⟨hmemory, haccount.quiet, nofun⟩
    · refine (told_pure _ _ _).mpr ⟨hmemory, ?_, fun made hmade => ?_⟩
      · rw [List.append_nil]
        exact haccount.quiet
      · cases hmade
        rfl
  cases existed with
  | false => exact hcreate w
  | true =>
    refine (told_bind _ _ _ _).mpr (dropIndex_told.mono ?_)
    rintro r _ w₁ ⟨reply, rfl, answers⟩
    have hmemory := memory_of_answers answers
    let e : Exchange := ⟨.call (.engine (.drop target.name)), reply, w, w₁⟩
    have hdrop : Account (fun index _ => index = target.name) e.created?.toList e.queued?.toList
        [e] := .single fun index hindex => (Option.some.inj hindex).symm
    rcases r with f | _
    · exact ⟨hmemory, hdrop, nofun⟩
    · refine (hcreate w₁).mono ?_
      rintro r heard w' ⟨hmemory₁, haccount, hmade⟩
      exact ⟨hmemory₁.trans hmemory, hdrop.append haccount fun _ _ => id, hmade⟩

/-- An index is replaced: it is dropped only after it was described, and created
if that works out; nothing is remembered of it meanwhile. -/
theorem replace_told (solutionId : Json) (target : IndexTarget) :
    (Index.replace solutionId target).Told w fun r heard w' => w'.memory = w.memory ∧
      Account (MayReplace solutionId target) (ifOk r [target.name]) [] heard ∧
      ∀ made, r = .ok made → made.2 = (w.engine.mapping? target.name).isSome := by
  unfold Index.replace
  refine (told_bind _ _ _ _).mpr ((lookUpSchema_told _ _ _).mono ?_)
  rintro r _ w₁ ⟨reply, rfl, answers, hrows⟩
  have hmemory : w₁.memory = w.memory := memory_of_answers answers
  have hmapping : w₁.engine.mapping? target.name = w.engine.mapping? target.name :=
    engine_of_answers answers id
  have hlookup : Account NoDrop [] [] [⟨.call (.database (.definitions solutionId
      (.str target.entityName) target.entityType)), reply, w, w₁⟩] := .idle rfl rfl rfl
  rcases r with f | schema
  · exact ⟨hmemory, hlookup.quiet, nofun⟩
  obtain ⟨rows, rfl, hschema⟩ := hrows schema rfl
  refine (told_bind _ _ _ _).mpr ((told_orFail _ _ _).mpr ?_)
  rcases hd : (IndexDescriptor.build target.name schema.extraFields).checked.orInvalid with f | d
  · exact ⟨hmemory, hlookup.quiet, nofun⟩
  have hname : d.indexName = target.name := by
    obtain ⟨rfl, -⟩ := checked_eq_ok hd
    rfl
  refine (told_bind _ _ _ _).mpr (hasIndex_told.mono ?_)
  rintro r _ w₂ ⟨replyHas, rfl, answersHas, htruth⟩
  have hmemory₂ : w₂.memory = w.memory := (memory_of_answers answersHas).trans hmemory
  have hasked : Account NoDrop [] []
      [⟨.call (.engine (.hasIndex target.name)), replyHas, w₁, w₂⟩] := .idle rfl rfl rfl
  have hbegun := hlookup.andThen hasked
  rcases r with f | existed
  · exact ⟨hmemory₂, hbegun.quiet, nofun⟩
  have htruth := htruth existed rfl
  rw [hmapping] at htruth
  have hdescribed : Described solutionId target
      ([⟨.call (.database (.definitions solutionId (.str target.entityName) target.entityType)),
        .ok rows, w, w₁⟩] ++ [⟨.call (.engine (.hasIndex target.name)), replyHas, w₁, w₂⟩]) :=
    ⟨rows, w, w₁, schema, d, List.mem_cons_self, hschema, hd⟩
  refine (renew_told hname existed).mono ?_
  rintro r heard w' ⟨hmemory₃, haccount, hmade⟩
  refine ⟨hmemory₃.trans hmemory₂, ?_, fun made hr => (hmade made hr).trans htruth⟩
  have hdrops (index : String) (past : List Exchange) (hindex : index = target.name) :
      MayReplace solutionId target index (_ ++ past) :=
    ⟨hindex, hdescribed.mono (List.subset_append_left _ past)⟩
  simpa using haccount.after hbegun hdrops

/-! ## Creating an index anew -/

/-- Whatever becomes of the job, asking for it is all that happens. -/
theorem backfill_told (solutionId : Json) (target : IndexTarget) :
    (Index.backfill solutionId target).Told w fun r heard w' => r = .ok () ∧
      w'.memory = w.memory ∧ Account NoDrop [] (if w.circumstances.backfills then
        [jobOf w.circumstances solutionId target.entityName] else []) heard := by
  unfold Index.backfill
  refine (told_bind _ _ _ _).mpr ((told_ask_own _ (s := .look) (fun _ => nofun) _).mpr ?_)
  have hlook : Account NoDrop [] [] [⟨.look, w.circumstances, w, w⟩] := .idle rfl rfl rfl
  dsimp only [World.answer]
  by_cases hbackfills : w.circumstances.backfills = true
  · rw [if_pos hbackfills, if_pos hbackfills]
    refine (told_bind _ _ _ _).mpr ((told_ask_call _ _ _).mpr fun reply w' answers => ?_)
    refine (told_pure _ _ _).mpr ⟨rfl, memory_of_answers answers, ?_⟩
    let e : Exchange := ⟨.call (.queue (.enqueue
      (jobOf w.circumstances solutionId target.entityName))), reply, w, w'⟩
    have hqueue : Account NoDrop e.created?.toList e.queued?.toList [e] := .single nofun
    exact hlook.andThen hqueue
  · rw [if_neg hbackfills, if_neg hbackfills]
    exact (told_pure _ _ _).mpr ⟨rfl, rfl, hlook⟩

/-- The end of a creation: the job is asked for if there was an index before. -/
theorem refill_told (solutionId : Json) (target : IndexTarget) (d : IndexDescriptor)
    (existed : Bool) :
    (do
      if existed then Index.backfill solutionId target
      pure d : Service IndexDescriptor).Told w fun r heard w' => r = .ok d ∧
        w'.memory = w.memory ∧ Account NoDrop [] (if existed && w.circumstances.backfills then
          [jobOf w.circumstances solutionId target.entityName] else []) heard := by
  cases existed with
  | false => exact (told_pure _ _ _).mpr ⟨rfl, rfl, .nil⟩
  | true =>
    refine (told_bind _ _ _ _).mpr ((backfill_told solutionId target).mono ?_)
    rintro r heard w' ⟨rfl, hmemory, haccount⟩
    refine (told_pure _ _ _).mpr ⟨rfl, hmemory, ?_⟩
    rwa [List.append_nil, Bool.true_and]

/-- An index is created anew. It is known if that works out, and then the job that
fills it again is queued; nothing is known of it otherwise. -/
theorem recreate_told (solutionId : Json) (target : IndexTarget) :
    (Index.recreate solutionId target).Told w fun r heard w' =>
      Account (MayReplace solutionId target) (ifOk r [target.name])
        (ifOk r (w.refills solutionId target)) heard ∧
      Settled w'.memory target.name r := by
  unfold Index.recreate
  refine (told_bind _ _ _ _).mpr ((told_change _ _).mpr ?_)
  refine (told_bind _ _ _ _).mpr ((told_change _ _).mpr ?_)
  let w₁ : World := (w.changed (.mark target.name .creating)).changed (.forget target.name)
  have hforgot : w₁.memory.knows target.name = false := by
    have hknows := IndexMemory.knows_forget (w.changed (.mark target.name .creating)).memory
      target.name target.name
    rwa [bne_self_eq_false, Bool.false_and] at hknows
  have hbegun := (Account.change w (.mark target.name .creating)).andThen
    (Account.change (w.changed (.mark target.name .creating)) (.forget target.name))
  refine (told_bind _ _ _ _).mpr ((told_attempt _ _ _).mpr ((replace_told _ _).steady.mono ?_))
  rintro r heard w₂ ⟨hcircumstances, hmemory, haccount, hmade⟩
  have hwhole := haccount.after hbegun fun _ _ hpast =>
    hpast.mono (List.subset_append_right _ _)
  dsimp only
  rcases r with f | ⟨d, existed⟩
  · refine (told_bind _ _ _ _).mpr ((told_change _ _).mpr ((told_throw _ _ _).mpr ⟨?_, ?_⟩))
    · simpa using hwhole.andThen (Account.change w₂ (.mark target.name .unknown))
    · exact settled_of_forgotten (hmemory ▸ hforgot) f
  · refine (told_bind _ _ _ _).mpr ((told_change _ _).mpr ?_)
    refine (told_bind _ _ _ _).mpr ((told_change _ _).mpr ?_)
    let w₃ : World := (w₂.changed (.remember target.name)).changed (.mark target.name .good)
    have hdone := (hwhole.andThen (Account.change w₂ (.remember target.name))).andThen
      (Account.change (w₂.changed (.remember target.name)) (.mark target.name .good))
    have hhere : w₃.circumstances = w.circumstances := hcircumstances
    obtain rfl : existed = (w.engine.mapping? target.name).isSome := hmade _ rfl
    refine (refill_told (w := w₃) solutionId target d _).mono ?_
    rintro r more w₄ ⟨rfl, hmemory₄, hrefill⟩
    rw [hhere] at hrefill
    refine ⟨?_, ?_⟩
    · simpa [World.refills] using hdone.andThen hrefill
    · change w₄.memory.knows target.name = true
      rw [hmemory₄]
      exact w₂.memory.knows_of_remember target.name

/-! ## Making sure of one index -/

/-- What is heard while one index is made sure of. -/
structure Handled (solutionId : Json) (force : Bool) (target : IndexTarget) (w : World)
    (r : Except Failure Bool) (heard : List Exchange) (w' : World) : Prop where
  account : Account (MayDrop solutionId force w target)
    (ifCreated r [target.name]) (ifCreated r (w.refills solutionId target)) heard
  settled : Settled w'.memory target.name r

/-- The lock adds nothing to the account. -/
theorem Handled.locked {solutionId : Json} {force : Bool} {target : IndexTarget} {w' : World}
    {r : Except Failure Bool} {heard : List Exchange}
    (h : Handled solutionId force target w r heard w') :
    Handled solutionId force target w r
      (⟨.acquire target.name, (), w, w⟩ :: (heard ++ [⟨.release target.name, (), w', w'⟩])) w' := by
  refine ⟨?_, h.settled⟩
  have htaken : Account NoDrop [] [] [⟨.acquire target.name, (), w, w⟩] := .idle rfl rfl rfl
  have hreturned : Account NoDrop [] [] [⟨.release target.name, (), w', w'⟩] := .idle rfl rfl rfl
  have hwhole := (h.account.after htaken fun _ _ hpast =>
    hpast.mono (List.subset_append_right _ _)).andThen hreturned
  simpa using hwhole

theorem recreateDue_told (solutionId : Json) (target : IndexTarget) :
    (do let _ ← Index.recreate solutionId target; pure true : Service Bool).Told w
      fun r heard w' =>
        Account (MayReplace solutionId target)
          (ifCreated r [target.name]) (ifCreated r (w.refills solutionId target)) heard ∧
        Settled w'.memory target.name r := by
  refine (told_bind _ _ _ _).mpr ((recreate_told _ _).mono ?_)
  rintro r heard w' ⟨haccount, hsettled⟩
  rcases r with f | d
  · exact ⟨haccount, hsettled⟩
  · refine (told_pure _ _ _).mpr ⟨?_, hsettled⟩
    rwa [List.append_nil]

theorem ensureOne_told (solutionId : Json) (force : Bool) (target : IndexTarget) :
    (Index.ensureOne solutionId force target).Told w (Handled solutionId force target w) := by
  unfold Index.ensureOne
  refine (told_locked _ _).mpr (Told.mono ?_ fun _ _ _ => Handled.locked)
  cases force with
  | true =>
    refine (told_bind _ _ _ _).mpr ((told_pure _ _ _).mpr ((recreateDue_told _ _).mono ?_))
    rintro r heard w' ⟨haccount, hsettled⟩
    exact ⟨haccount.mono fun _ _ hpast => ⟨hpast, Or.inl rfl⟩, hsettled⟩
  | false =>
    refine (told_bind _ _ _ _).mpr ?_
    simp only [map_eq_pure_bind]
    refine (told_bind _ _ _ _).mpr (isGood_told.steady.mono ?_)
    rintro r looks w₁ ⟨hcircumstances, good, rfl, hlooked⟩
    refine (told_pure _ _ _).mpr ?_
    cases good with
    | true =>
      refine (told_pure _ _ _).mpr ⟨?_, hlooked.known rfl⟩
      have hquiet : Account (MayDrop solutionId false w target) [] [] looks :=
        hlooked.account.quiet
      simpa using hquiet
    | false =>
      refine (recreateDue_told _ _).mono ?_
      rintro r heard w' ⟨haccount, hsettled⟩
      obtain ⟨hunknown, hdoubted⟩ := hlooked.doubted rfl
      refine ⟨?_, hsettled⟩
      have hrefills : w₁.refills solutionId target = w.refills solutionId target := by
        unfold World.refills
        rw [hlooked.mapping, hcircumstances]
      rw [hrefills] at haccount
      have hdrops (index : String) (past : List Exchange)
          (hpast : MayReplace solutionId target index past) :
          MayDrop solutionId false w target index (looks ++ past) := by
        obtain rfl := hpast.name
        exact ⟨hpast.mono (List.subset_append_right looks past),
          Or.inr ⟨hunknown, hdoubted.mono (List.subset_append_left looks past)⟩⟩
      simpa using haccount.after hlooked.account hdrops

end

end TenantSearch
