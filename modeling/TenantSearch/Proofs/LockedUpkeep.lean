-- What the upkeep of an index comes to under the lock of the index, while others
-- look after other indices: what it gives, and the trace that it leaves.
import TenantSearch.Proofs.IndexTraces

namespace TenantSearch

/-! ## Services and their traces -/

namespace Service

variable {α β : Type} {index : String} {w : World}

/-- Whatever others do to other indices, the service ends with this outcome and leaves
this trace on its index. -/
def Gives (index : String) (x : Service α) (w : World) (outcome : Except Failure α)
    (trace : IndexTrace) : Prop :=
  x.EndsIn (World.AmidOthers index) w fun r _ w' => r = outcome ∧ w'.trace index = trace

theorem gives_orFail (outcome : Except Failure α) :
    (orFail outcome).Gives index w outcome (w.trace index) :=
  (endsIn_orFail _ _ _ _).mpr ⟨rfl, rfl⟩

theorem gives_pure (a : α) : (pure a : Service α).Gives index w (.ok a) (w.trace index) :=
  gives_orFail (.ok a)

theorem Gives.bind {x : Service α} {f : α → Service β} {a : α} {outcome : Except Failure β}
    {trace trace' : IndexTrace} (h : x.Gives index w (.ok a) trace)
    (hf : ∀ v : World, v.trace index = trace → (f a).Gives index v outcome trace') :
    (x >>= f).Gives index w outcome trace' := by
  refine (endsIn_bind _ _ _ _ _).mpr (h.mono ?_)
  rintro _ _ v ⟨rfl, hv⟩
  exact hf v hv

theorem Gives.attempt {x : Service α} {outcome : Except Failure α} {trace : IndexTrace}
    (h : x.Gives index w outcome trace) : (attempt x).Gives index w (.ok outcome) trace := by
  refine (endsIn_attempt _ _ _ _).mpr (h.mono ?_)
  rintro _ _ v ⟨rfl, hv⟩
  exact ⟨rfl, hv⟩

/-- A step whose answer and trace are sure. -/
theorem gives_ask {s : Step} {r : s.Reply} {trace : IndexTrace}
    (h : ∀ r' w', w.AmidOthers index s r' w' → r' = r ∧ w'.trace index = trace) :
    (ask s).Gives index w (.ok r) trace := by
  refine (endsIn_ask _ _ _ _).mpr fun r' w' hmeets => ?_
  obtain ⟨rfl, htrace⟩ := h r' w' hmeets
  exact ⟨rfl, htrace⟩

theorem gives_call {c : Call} {r : c.Reply} {blame : Outage → Failure} {trace : IndexTrace}
    (h : ∀ r' w', w.AmidOthers index (.call c) r' w' → r' = .ok r ∧ w'.trace index = trace) :
    (call c blame).Gives index w (.ok r) trace :=
  (gives_ask h).bind fun _ hv => hv ▸ gives_pure r

/-- A change that settles whether the index is known. -/
theorem gives_change {m : MemoryChange} {known : Bool}
    (hknown : ∀ v : World, v.trace index = w.trace index →
      (v.memory.change m).knows index = known) :
    (change m).Gives index w (.ok ()) ((w.trace index).knowing known) :=
  gives_ask fun _ _ h => ⟨rfl, h.change hknown⟩

theorem gives_mark (state : IndexState) :
    (change (.mark index state)).Gives index w (.ok ()) (w.trace index) :=
  gives_change fun _ hv => congrArg IndexTrace.known hv

theorem gives_remember :
    (change (.remember index)).Gives index w (.ok ()) ((w.trace index).knowing true) := by
  refine gives_change fun v _ => ?_
  rw [IndexMemory.knows_remember, beq_self_eq_true, Bool.true_or]

theorem gives_forget :
    (change (.forget index)).Gives index w (.ok ()) ((w.trace index).knowing false) := by
  refine gives_change fun v _ => ?_
  rw [IndexMemory.knows_forget, bne_self_eq_false, Bool.false_and]

end Service

open Service

/-! ## Looking at an index -/

namespace IndexTrace

/-- Whether an index is good, from memory or by a look at it. -/
def isGood (t : IndexTrace) : Bool := t.known || isSound t.mapping

/-- The trace of a look at an index, which there is only where it is not known. -/
def looked (t : IndexTrace) (index : String) : IndexTrace :=
  if t.known then t else (t.noting (.mapping index)).knowing (isSound t.mapping)

end IndexTrace

section

variable {index : String} {w : World}

theorem liveSchema_gives : (Engine.liveSchema index).Gives index w
    (match (w.trace index).mapping with
      | some mapping => some <$> (Engine.fieldTypes mapping).mapError .broken
      | none => .ok none) ((w.trace index).noting (.mapping index)) := by
  refine (gives_ask fun _ _ h => h.mapping).bind fun v hv => ?_
  rw [← hv]
  rcases (w.trace index).mapping with _ | mapping
  · exact gives_pure none
  · dsimp only
    rcases Engine.fieldTypes mapping with b | types
    · exact gives_orFail (.error (.broken b))
    · exact gives_pure (some types)

theorem checkLive_gives : (Index.checkLive index).Gives index w
    (.ok (isSound (w.trace index).mapping)) ((w.trace index).noting (.mapping index)) := by
  refine liveSchema_gives.attempt.bind fun v hv => ?_
  rw [← hv]
  rcases (w.trace index).mapping with _ | mapping
  · exact gives_pure false
  · dsimp only [isSound]
    rcases Engine.fieldTypes mapping with b | types
    · exact gives_pure false
    · exact gives_pure (Index.isCompatible types)

theorem isGood_gives : (Index.isGood index).Gives index w (.ok (w.trace index).isGood)
    ((w.trace index).looked index) := by
  unfold Index.isGood IndexTrace.isGood IndexTrace.looked
  refine (endsIn_bind _ _ _ _ _).mpr ((endsIn_ask _ _ _ _).mpr fun m v h => ?_)
  obtain ⟨hknows, hv⟩ := h.recalled
  dsimp only
  rw [hknows, ← hv]
  rcases hknown : (v.trace index).known with _ | _
  · rw [if_neg Bool.false_ne_true, if_neg Bool.false_ne_true, Bool.false_or]
    refine (gives_mark .checking).bind fun v₁ hv₁ => ?_
    rw [← hv₁] at hknown ⊢
    refine checkLive_gives.bind fun v₂ hv₂ => ?_
    rw [← hv₂]
    rcases hsound : isSound (v₁.trace index).mapping with _ | _
    · have hunknown : (v₂.trace index).knowing false = v₂.trace index := by
        rw [hv₂]
        unfold IndexTrace.knowing IndexTrace.noting
        rw [← hknown]
      rw [if_neg Bool.false_ne_true, hunknown]
      exact (gives_mark .missing).bind fun v₃ hv₃ => hv₃ ▸ gives_pure false
    · rw [if_pos rfl]
      refine gives_remember.bind fun v₃ hv₃ => ?_
      rw [← hv₃]
      exact (gives_mark .good).bind fun v₄ hv₄ => hv₄ ▸ gives_pure true
  · rw [if_pos rfl, if_pos rfl, Bool.true_or]
    exact gives_pure true

/-! ## Creating an index anew -/

/-- The trace of an index that is replaced: it is dropped if it is there, and created. -/
def IndexTrace.replaced (t : IndexTrace) (index : String) (d : IndexDescriptor) : IndexTrace :=
  (((if t.mapping.isSome then
      ((t.noting (.hasIndex index)).noting (.drop index)).mapped none
    else t.noting (.hasIndex index)).noting (.create d)).mapped (some d.mappings))

theorem hasIndex_gives : (Engine.hasIndex index).Gives index w
    (.ok (w.trace index).mapping.isSome) ((w.trace index).noting (.hasIndex index)) :=
  gives_call fun _ _ h => h.hasIndex

theorem dropIndex_gives {old : Json} (hsome : (w.trace index).mapping = some old) :
    (Engine.dropIndex index).Gives index w (.ok ())
      (((w.trace index).noting (.drop index)).mapped none) := by
  refine (endsIn_bind _ _ _ _ _).mpr ((endsIn_ask _ _ _ _).mpr fun r v h => ?_)
  obtain ⟨rfl | rfl, hv⟩ := h.drop hsome
  · exact hv ▸ gives_pure ()
  · exact hv ▸ gives_pure ()

theorem createIndex_gives {d : IndexDescriptor} (hindex : d.indexName = index)
    (hnone : (w.trace index).mapping = none) : (Engine.createIndex d).Gives index w (.ok ())
      (((w.trace index).noting (.create d)).mapped (some d.mappings)) :=
  gives_call fun _ _ h => h.create hindex hnone

theorem lookUpSchema_gives (index : String) (w : World) (solutionId entityName entityType : Json) :
    (lookUpSchema solutionId entityName entityType).Gives index w
      (schemaFor (w.trace index).definitions solutionId entityName entityType)
      (w.trace index) := by
  unfold lookUpSchema
  refine (endsIn_bind _ _ _ _ _).mpr ((endsIn_call _ _ _ _ _).mpr fun r v h => ?_)
  obtain ⟨rfl, hv⟩ := h.definitions
  unfold schemaFor
  rcases EntityDefinition.rowsFor (w.trace index).definitions solutionId entityName entityType with
    o | rows
  · exact ⟨rfl, hv⟩
  · exact (endsIn_orBroken _ _ _ _).mpr ⟨rfl, hv⟩

theorem replace_gives {solutionId : Json} {target : IndexTarget} (hname : target.name = index)
    {d : IndexDescriptor}
    (hd : descriptorFor (w.trace index).definitions solutionId target = .ok d) :
    (Index.replace solutionId target).Gives index w (.ok (d, (w.trace index).mapping.isSome))
      ((w.trace index).replaced index d) := by
  obtain ⟨hindex, -⟩ := descriptorFor_eq_ok hd
  rw [hname] at hindex
  unfold descriptorFor at hd
  obtain ⟨schema, hschema, hchecked⟩ := bind_eq_ok.mp hd
  unfold Index.replace
  have hlookUp := lookUpSchema_gives index w solutionId (.str target.entityName)
    target.entityType
  rw [hschema] at hlookUp
  refine hlookUp.bind fun v hv => ?_
  rw [← hv]
  dsimp only
  rw [hchecked]
  refine (gives_orFail (.ok d)).bind fun v₁ hv₁ => ?_
  rw [← hv₁, hname]
  refine hasIndex_gives.bind fun v₂ hv₂ => ?_
  unfold IndexTrace.replaced
  rw [← hv₂]
  rcases hmapping : (v₁.trace index).mapping with _ | old
  · have hnone : (v₂.trace index).mapping = none := by
      rw [hv₂]
      exact hmapping
    simp only [Option.isSome_none, Bool.false_eq_true, if_false]
    exact (createIndex_gives hindex hnone).bind fun _ hv₄ => hv₄ ▸ gives_pure _
  · have hsome : (v₂.trace index).mapping = some old := by
      rw [hv₂]
      exact hmapping
    simp only [Option.isSome_some, if_true]
    refine (dropIndex_gives hsome).bind fun v₃ hv₃ => ?_
    have hnone : (v₃.trace index).mapping = none := by
      rw [hv₃]
      rfl
    rw [← hv₃]
    exact (createIndex_gives hindex hnone).bind fun _ hv₄ => hv₄ ▸ gives_pure _

/-- An index without a descriptor is left alone. -/
theorem replace_fails {solutionId : Json} {target : IndexTarget} {f : Failure}
    (hf : descriptorFor (w.trace index).definitions solutionId target = .error f) :
    (Index.replace solutionId target).Gives index w (.error f) (w.trace index) := by
  have hlookUp := lookUpSchema_gives index w solutionId (.str target.entityName)
    target.entityType
  unfold descriptorFor at hf
  unfold Index.replace
  rcases hschema : schemaFor (w.trace index).definitions solutionId (.str target.entityName)
    target.entityType with f' | schema
  · rw [hschema] at hf hlookUp
    cases hf
    refine (endsIn_bind _ _ _ _ _).mpr (hlookUp.mono ?_)
    rintro _ _ v ⟨rfl, hv⟩
    exact ⟨rfl, hv⟩
  · rw [hschema, ok_bind] at hf
    rw [hschema] at hlookUp
    refine hlookUp.bind fun v hv => ?_
    rw [← hv]
    dsimp only
    rw [hf]
    exact (endsIn_bind _ _ _ _ _).mpr ((endsIn_orFail _ _ _ _).mpr ⟨rfl, rfl⟩)

/-- Whether a job is queued or not, it leaves no trace. -/
theorem backfill_gives (solutionId : Json) (target : IndexTarget) :
    (Index.backfill solutionId target).Gives index w (.ok ()) (w.trace index) := by
  refine (endsIn_bind _ _ _ _ _).mpr ((endsIn_ask _ _ _ _).mpr fun here v h => ?_)
  have hv := h.avoiding ⟨id, nofun⟩
  dsimp only
  split
  · refine (endsIn_bind _ _ _ _ _).mpr ((endsIn_ask _ _ _ _).mpr fun _ v₁ h₁ => ?_)
    have hv₁ := (h₁.avoiding ⟨id, nofun⟩).trans hv
    exact hv₁ ▸ gives_pure ()
  · exact hv ▸ gives_pure ()

theorem recreate_gives {solutionId : Json} {target : IndexTarget} (hname : target.name = index)
    {d : IndexDescriptor}
    (hd : descriptorFor (w.trace index).definitions solutionId target = .ok d) :
    (Index.recreate solutionId target).Gives index w (.ok d)
      ((((w.trace index).knowing false).replaced index d).knowing true) := by
  unfold Index.recreate
  rw [hname]
  refine (gives_mark .creating).bind fun v hv => ?_
  rw [← hv] at hd ⊢
  refine gives_forget.bind fun v₁ hv₁ => ?_
  have hdefinitions : (v₁.trace index).definitions = (v.trace index).definitions := by
    rw [hv₁]
    rfl
  rw [← hv₁]
  refine (replace_gives hname (hdefinitions ▸ hd)).attempt.bind fun v₂ hv₂ => ?_
  rw [← hv₂]
  refine gives_remember.bind fun v₃ hv₃ => ?_
  rw [← hv₃]
  refine (gives_mark .good).bind fun v₄ hv₄ => ?_
  rw [← hv₄]
  split
  · exact (backfill_gives solutionId target).bind fun _ hv₅ => hv₅ ▸ gives_pure d
  · exact gives_pure d

theorem recreate_fails {solutionId : Json} {target : IndexTarget} (hname : target.name = index)
    {f : Failure} (hf : descriptorFor (w.trace index).definitions solutionId target = .error f) :
    (Index.recreate solutionId target).Gives index w (.error f)
      ((w.trace index).knowing false) := by
  unfold Index.recreate
  rw [hname]
  refine (gives_mark .creating).bind fun v hv => ?_
  rw [← hv] at hf ⊢
  refine gives_forget.bind fun v₁ hv₁ => ?_
  have hdefinitions : (v₁.trace index).definitions = (v.trace index).definitions := by
    rw [hv₁]
    rfl
  rw [← hv₁]
  refine (replace_fails (hdefinitions ▸ hf)).attempt.bind fun v₂ hv₂ => ?_
  rw [← hv₂]
  exact (gives_mark .unknown).bind fun v₃ hv₃ => hv₃ ▸ gives_orFail (.error f)

/-! ## Making sure of an index -/

/-- What is done under the lock to make sure of an index whose replacement is not
forced. -/
def Index.ensuring (solutionId : Json) (target : IndexTarget) : Service Bool := do
  let due ← (! ·) <$> Index.isGood target.name
  if due then let _ ← Index.recreate solutionId target
  pure due

theorem ensureOne_eq (solutionId : Json) (target : IndexTarget) :
    Index.ensureOne solutionId false target = locked target.name (Index.ensuring solutionId target) :=
  rfl

namespace IndexTrace

/-- What becomes of making sure of an index, by its descriptor or the failure to make
one. Only an index that is not good needs it. -/
def verdict (t : IndexTrace) (shape : Except Failure IndexDescriptor) : Except Failure Bool :=
  if t.isGood then .ok false else shape.map fun _ => true

/-- The trace of an index that somebody made sure of, or failed to. -/
def visited (t : IndexTrace) (index : String) (shape : Except Failure IndexDescriptor) :
    IndexTrace :=
  if t.isGood then t.looked index
  else match shape with
    | .ok d => (((t.looked index).knowing false).replaced index d).knowing true
    | .error _ => (t.looked index).knowing false

end IndexTrace

/-- An index that is not good is created anew if it has a descriptor, and a good one left
alone. -/
theorem ensuring_gives {solutionId : Json} {target : IndexTarget} (hname : target.name = index) :
    (Index.ensuring solutionId target).Gives index w
      ((w.trace index).verdict (descriptorFor (w.trace index).definitions solutionId target))
      ((w.trace index).visited index
        (descriptorFor (w.trace index).definitions solutionId target)) := by
  unfold Index.ensuring IndexTrace.verdict IndexTrace.visited
  rw [map_eq_pure_bind, hname]
  have hlook : (Index.isGood index >>= fun good => pure !good : Service Bool).Gives index w
      (.ok !(w.trace index).isGood) ((w.trace index).looked index) :=
    isGood_gives.bind fun _ hv => hv ▸ gives_pure _
  refine hlook.bind fun v hv => ?_
  have hdefinitions : (v.trace index).definitions = (w.trace index).definitions := by
    rw [hv]
    unfold IndexTrace.looked
    split
    · rfl
    · rfl
  rw [← hv, ← hdefinitions]
  rcases (w.trace index).isGood with _ | _
  · rw [if_neg Bool.false_ne_true, if_neg Bool.false_ne_true]
    rcases hshape : descriptorFor (v.trace index).definitions solutionId target with f | d
    · refine (endsIn_bind _ _ _ _ _).mpr ((recreate_fails hname hshape).mono ?_)
      rintro _ _ v₁ ⟨rfl, hv₁⟩
      exact ⟨rfl, hv₁⟩
    · refine (recreate_gives hname hshape).bind fun v₁ hv₁ => ?_
      dsimp only
      rw [← hv₁]
      exact gives_pure true
  · exact gives_pure false

end

/-! ## Steps for one index -/

/-- Every step of the program is allowed, whatever is answered. -/
def Prog.Takes {α : Type} (allows : Step → Prop) : Prog α → Prop
  | .done _ => True
  | .step s next => allows s ∧ ∀ r, (next r).Takes allows

theorem Prog.Takes.bind {α β : Type} {allows : Step → Prop} {p : Prog α} {f : α → Prog β}
    (hp : p.Takes allows) (hf : ∀ a, (f a).Takes allows) : (p.bind f).Takes allows := by
  induction p with
  | done a => exact hf a
  | step s next ih => exact ⟨hp.1, fun r => ih r (hp.2 r)⟩

namespace Service

variable {α β : Type} {allows : Step → Prop}

def Takes (allows : Step → Prop) (x : Service α) : Prop := Prog.Takes allows x.run

theorem takes_orFail (outcome : Except Failure α) : (orFail outcome).Takes allows := trivial

theorem takes_pure (a : α) : (pure a : Service α).Takes allows := trivial

theorem Takes.bind {x : Service α} {f : α → Service β} (hx : x.Takes allows)
    (hf : ∀ a, (f a).Takes allows) : (x >>= f).Takes allows := by
  unfold Takes
  rw [ExceptT.run_bind]
  refine Prog.Takes.bind hx fun r => ?_
  rcases r with e | a
  · trivial
  · exact hf a

theorem Takes.attempt {x : Service α} (hx : x.Takes allows) : (attempt x).Takes allows :=
  Prog.Takes.bind hx fun _ => trivial

/-- A failure ends a service, so it goes on with a value only. -/
theorem takes_orFail_bind {outcome : Except Failure α} {f : α → Service β}
    (hf : ∀ a, outcome = .ok a → (f a).Takes allows) : (orFail outcome >>= f).Takes allows := by
  rcases outcome with e | a
  · trivial
  · exact hf a rfl

theorem takes_ask {s : Step} (h : allows s) : (ask s).Takes allows := ⟨h, fun _ => trivial⟩

theorem takes_call {c : Call} {blame : Outage → Failure} (h : allows (.call c)) :
    (call c blame).Takes allows := by
  refine (takes_ask h).bind fun r => ?_
  rcases r with o | v
  · trivial
  · trivial

end Service

/-- A step that takes no lock, gives none back and leaves a trace on one index at
most. -/
structure Step.IsFor (index : String) (s : Step) : Prop where
  plain : ¬ s.IsLocking
  avoids : ∀ other, other ≠ index → s.Avoids other

section

variable {index : String}

theorem isFor_engine {c : EngineCall} (habout : c.index? = some index)
    (htouches : ∀ other, (Step.call (.engine c)).Touches other → other = index) :
    (Step.call (.engine c)).IsFor index := by
  refine ⟨id, fun other hother => ⟨fun ht => hother (htouches other ht), ?_⟩⟩
  intro c' hc' hsame
  cases hc'
  rw [habout] at hsame
  exact hother (Option.some.inj hsame).symm

theorem isFor_database (c : DatabaseCall) : (Step.call (.database c)).IsFor index :=
  ⟨id, fun _ _ => ⟨id, nofun⟩⟩

theorem isFor_queue (c : QueueCall) : (Step.call (.queue c)).IsFor index :=
  ⟨id, fun _ _ => ⟨id, nofun⟩⟩

theorem isFor_mark (state : IndexState) : (Step.change (.mark index state)).IsFor index :=
  ⟨id, fun _ hother => ⟨fun ht => hother ht.symm, nofun⟩⟩

theorem isFor_remember : (Step.change (.remember index)).IsFor index :=
  ⟨id, fun _ hother => ⟨fun ht => hother ht.symm, nofun⟩⟩

theorem isFor_forget : (Step.change (.forget index)).IsFor index :=
  ⟨id, fun _ hother => ⟨fun ht => hother ht.symm, nofun⟩⟩

theorem isFor_mapping : (Step.call (.engine (.mapping index))).IsFor index :=
  isFor_engine rfl fun _ ht => False.elim ht

theorem isFor_hasIndex : (Step.call (.engine (.hasIndex index))).IsFor index :=
  isFor_engine rfl fun _ ht => False.elim ht

theorem isFor_drop : (Step.call (.engine (.drop index))).IsFor index :=
  isFor_engine rfl fun _ ht => Eq.symm ht

theorem isFor_create {d : IndexDescriptor} (hindex : d.indexName = index) :
    (Step.call (.engine (.create d))).IsFor index :=
  isFor_engine (congrArg some hindex) fun _ ht => (Eq.symm ht).trans hindex

theorem isFor_recall : Step.recall.IsFor index := ⟨id, fun _ _ => ⟨id, nofun⟩⟩

theorem isFor_look : Step.look.IsFor index := ⟨id, fun _ _ => ⟨id, nofun⟩⟩

theorem checkLive_takes : (Index.checkLive index).Takes (Step.IsFor index) := by
  have hlive : (Engine.liveSchema index).Takes (Step.IsFor index) := by
    refine (takes_ask isFor_mapping).bind fun r => ?_
    rcases r with o | mapping
    · cases o with
      | _ => trivial
    · exact (takes_orFail _).bind fun _ => takes_pure _
  refine hlive.attempt.bind fun r => ?_
  rcases r with f | types
  · trivial
  · rcases types with _ | types
    · trivial
    · trivial

theorem isGood_takes : (Index.isGood index).Takes (Step.IsFor index) := by
  refine (takes_ask isFor_recall).bind fun m => ?_
  split
  · exact takes_pure true
  · refine (takes_ask (isFor_mark _)).bind fun _ => checkLive_takes.bind fun good => ?_
    split
    · refine (takes_ask isFor_remember).bind fun _ => ?_
      exact (takes_ask (isFor_mark _)).bind fun _ => takes_pure _
    · exact (takes_ask (isFor_mark _)).bind fun _ => takes_pure _

theorem dropIndex_takes : (Engine.dropIndex index).Takes (Step.IsFor index) := by
  refine (takes_ask isFor_drop).bind fun r => ?_
  rcases r with o | _
  · cases o with
    | _ => trivial
  · trivial

theorem lookUpSchema_takes (solutionId entityName entityType : Json) :
    (lookUpSchema solutionId entityName entityType).Takes (Step.IsFor index) :=
  (takes_call (isFor_database _)).bind fun _ => takes_orFail _

theorem replace_takes (solutionId : Json) {target : IndexTarget} (hname : target.name = index) :
    (Index.replace solutionId target).Takes (Step.IsFor index) := by
  unfold Index.replace
  rw [hname]
  refine (lookUpSchema_takes _ _ _).bind fun schema => ?_
  have hindex : (IndexDescriptor.build index schema.extraFields).indexName = index := rfl
  dsimp only
  generalize IndexDescriptor.build index schema.extraFields = built at hindex ⊢
  refine takes_orFail_bind fun d hd => ?_
  obtain ⟨rfl, -⟩ := checked_eq_ok hd
  have hcreate (existed : Bool) : (do
      Engine.createIndex d
      pure (d, existed) : Service (IndexDescriptor × Bool)).Takes (Step.IsFor index) :=
    (takes_call (isFor_create hindex)).bind fun _ => takes_pure _
  refine (takes_call isFor_hasIndex).bind fun existed => ?_
  split
  · exact dropIndex_takes.bind fun _ => hcreate existed
  · exact hcreate existed

theorem recreate_takes (solutionId : Json) {target : IndexTarget} (hname : target.name = index) :
    (Index.recreate solutionId target).Takes (Step.IsFor index) := by
  have hbackfill : (Index.backfill solutionId target).Takes (Step.IsFor index) := by
    refine (takes_ask isFor_look).bind fun here => ?_
    split
    · exact (takes_ask (isFor_queue _)).bind fun _ => takes_pure _
    · exact takes_pure ()
  unfold Index.recreate
  rw [hname]
  refine (takes_ask (isFor_mark _)).bind fun _ => (takes_ask isFor_forget).bind fun _ => ?_
  refine (replace_takes solutionId hname).attempt.bind fun r => ?_
  rcases r with f | ⟨d, existed⟩
  · exact (takes_ask (isFor_mark _)).bind fun _ => trivial
  · refine (takes_ask isFor_remember).bind fun _ => (takes_ask (isFor_mark _)).bind fun _ => ?_
    split
    · exact hbackfill.bind fun _ => takes_pure d
    · exact takes_pure d

theorem ensuring_takes (solutionId : Json) (target : IndexTarget) :
    (Index.ensuring solutionId target).Takes (Step.IsFor target.name) := by
  unfold Index.ensuring
  rw [map_eq_pure_bind]
  refine (isGood_takes.bind fun _ => takes_pure _).bind fun due => ?_
  split
  · exact (recreate_takes solutionId rfl).bind fun _ => takes_pure due
  · exact takes_pure due

end

end TenantSearch
