-- Who looks after indices under their locks: what the holder of a lock has in hand, what it
-- may do with it, and what it is sure of once the lock is given back. Upserts and requests
-- for indices keep to that.
import TenantSearch.Proofs.Courses
import TenantSearch.Proofs.GuardedUpkeep
import TenantSearch.Proofs.IndexTraces

namespace TenantSearch

open Service

/-! ## Who holds a lock -/

/-- What the holder of a lock has in hand: the index of the lock, whether that was sound
when the lock was taken, its mapping, and whether it is known. -/
structure Hand where
  index : String
  whole : Bool
  mapping : Option Json
  known : Bool

namespace Hand

/-- In this world the index looks as the holder has it in hand. -/
structure Agrees (h : Hand) (w : World) : Prop where
  mapping : w.engine.mapping? h.index = h.mapping
  known : w.memory.knows h.index = h.known

/-- The index as it looks in a world. -/
def now (h : Hand) (w : World) : Hand :=
  { h with mapping := w.engine.mapping? h.index, known := w.memory.knows h.index }

theorem agrees_now (h : Hand) (w : World) : (h.now w).Agrees w := ⟨rfl, rfl⟩

/-- What somebody has in hand who takes the lock of an index. -/
def taken (index : String) (w : World) : Hand where
  index := index
  whole := isSound (w.engine.mapping? index)
  mapping := w.engine.mapping? index
  known := w.memory.knows index

/-- The index was sound when the lock was taken, and it is not now. -/
def Owes (h : Hand) : Prop := h.whole = true ∧ isSound h.mapping = false

/-- An index that is known is sound, and so is one that was when the lock was taken. -/
structure Sound (h : Hand) : Prop where
  known : h.known = true → isSound h.mapping = true
  whole : h.whole = true → isSound h.mapping = true

/-- What the holder of a lock may do: it leaves other indices alone, it creates its own only
where there is none, and remembers it only where it is sound. -/
def allows (h : Hand) : Step → Prop
  | .acquire _ => False
  | .release index => index = h.index
  | .call (.engine (.put ..)) => False
  | .call (.engine (.create d)) => d.indexName = h.index ∧ h.mapping = none ∧ h.known = false
  | .call (.engine (.drop index)) => index = h.index ∧ h.known = false
  | .change (.remember index) => index = h.index ∧ isSound h.mapping = true
  | .change (.forget index) => index = h.index
  | .change (.mark index _) => index = h.index
  | .change .forgetAll => False
  | _ => True

/-- It touches no index but the one in hand. -/
theorem index_of_touches {h : Hand} {s : Step} (allowed : h.allows s) {index : String}
    (touches : s.Touches index) : index = h.index := by
  cases s with
  | call c =>
    cases c with
    | engine c =>
      cases c with
      | create d => exact touches.symm.trans allowed.1
      | drop name => exact touches.symm.trans allowed.1
      | _ => exact absurd touches id
    | _ => exact absurd touches id
  | change c =>
    cases c with
    | remember name => exact touches.symm.trans allowed.1
    | forget name => exact touches.symm.trans allowed
    | mark name state => exact touches.symm.trans allowed
    | forgetAll => exact absurd allowed id
  | _ => exact absurd touches id

end Hand

/-- Somebody who looks after indices: those that it has made sure of, and what it has in
hand. -/
structure Tender where
  sure : List String := []
  hand : Option Hand := none

/-- What may be done without a lock: documents are put into indices that were made sure
of. -/
def Tender.allowsFree (sure : List String) : Step → Prop
  | .release _ => False
  | .call (.engine (.put index _ _)) => index ∈ sure
  | .call (.engine (.create _)) => False
  | .call (.engine (.drop _)) => False
  | .change _ => False
  | _ => True

theorem Tender.not_touches_of_allowsFree {sure : List String} {s : Step}
    (allowed : Tender.allowsFree sure s) {index : String} : ¬ s.Touches index := by
  intro touches
  cases s with
  | call c =>
    cases c with
    | engine c =>
      cases c with
      | create d => exact allowed
      | drop name => exact allowed
      | _ => exact touches
    | _ => exact touches
  | change c => exact allowed
  | _ => exact touches

/-- Indices are looked after under their locks. One that was sound when its lock was taken
is created at once after it was dropped, and whoever gives back the lock of a sound index is
sure of it. -/
def tending : Discipline Tender where
  allows
    | ⟨_, some h⟩, s => h.allows s ∧ (h.Owes → ∃ d, s = .call (.engine (.create d)))
    | ⟨sure, none⟩, s => Tender.allowsFree sure s
  passes
    | ⟨sure, some h⟩, .release _, _, x' =>
      x' = ⟨if isSound h.mapping then h.index :: sure else sure, none⟩
    | ⟨sure, some h⟩, s, r, x' =>
      ∃ w w', h.Agrees w ∧ w.Meets noCall s r w' ∧ x' = ⟨sure, some (h.now w')⟩
    | ⟨sure, none⟩, .acquire index, _, x' =>
      ∃ h : Hand, h.index = index ∧ h.Sound ∧ x' = ⟨sure, some h⟩
    | x, _, _, x' => x' = x

section

variable {sure : List String} {h : Hand} {α : Type}

/-! ## Steps under a lock -/

theorem Hand.Agrees.now_eq {w : World} (agrees : h.Agrees w) : h.now w = h := by
  unfold Hand.now
  rw [agrees.mapping, agrees.known]

/-- A step that does not touch an index leaves its mapping and whether it is known. -/
theorem World.Meets.looks_of_not_touches {w w' : World} {s : Step} {r : s.Reply} {index : String}
    (meets : w.Meets noCall s r w') (untouched : ¬ s.Touches index) :
    w'.engine.mapping? index = w.engine.mapping? index ∧
      w'.memory.knows index = w.memory.knows index := by
  have hview := meets.view_of_not_touches untouched []
  exact ⟨congrArg IndexView.mapping hview, congrArg IndexView.known hview⟩

/-- A step that does not touch the index in hand leaves it as it looks. -/
theorem Hand.Agrees.now_of_not_touches {w w' : World} {s : Step} {r : s.Reply}
    (agrees : h.Agrees w) (meets : w.Meets noCall s r w') (untouched : ¬ s.Touches h.index) :
    h.now w' = h := by
  obtain ⟨hmapping, hknown⟩ := meets.looks_of_not_touches untouched
  refine Eq.trans ?_ agrees.now_eq
  unfold Hand.now
  rw [hmapping, hknown]

theorem Hand.Sound.not_owes (hsound : h.Sound) : ¬ h.Owes :=
  fun ⟨hwhole, hunsound⟩ => absurd ((hsound.whole hwhole).symm.trans hunsound) (by decide)

/-- A step of the holder of a lock that is not about locks. -/
theorem obeys_ask_held {s : Step} (plain : ¬ s.IsLocking) (allowed : h.allows s)
    (prompt : h.Owes → ∃ d, s = .call (.engine (.create d)))
    {post : Except Failure s.Reply → Tender → Prop}
    (hpost : ∀ w r w', h.Agrees w → w.Meets noCall s r w' → post (.ok r) ⟨sure, some (h.now w')⟩) :
    (ask s).Obeys tending ⟨sure, some h⟩ post := by
  refine (obeys_ask _ _ _).mpr ⟨⟨allowed, prompt⟩, fun r x' hpasses => ?_⟩
  have hmoved : ∃ w w', h.Agrees w ∧ w.Meets noCall s r w' ∧ x' = ⟨sure, some (h.now w')⟩ := by
    cases s with
    | release index => exact absurd trivial plain
    | _ => exact hpasses
  obtain ⟨w, w', agrees, meets, rfl⟩ := hmoved
  exact hpost w r w' agrees meets

/-- A step of the holder of a lock that leaves its index as it is. -/
theorem obeys_ask_still (hsound : h.Sound) {s : Step} (plain : ¬ s.IsLocking)
    (allowed : h.allows s) (still : ¬ s.Touches h.index)
    {post : Except Failure s.Reply → Tender → Prop}
    (hpost : ∀ w r w', h.Agrees w → w.Meets noCall s r w' → post (.ok r) ⟨sure, some h⟩) :
    (ask s).Obeys tending ⟨sure, some h⟩ post := by
  refine obeys_ask_held plain allowed (fun howes => absurd howes hsound.not_owes) ?_
  intro w r w' agrees meets
  rw [agrees.now_of_not_touches meets still]
  exact hpost w r w' agrees meets

/-- A call of the holder of a lock. -/
theorem obeys_call_held {c : Call} (blame : Outage → Failure) (allowed : h.allows (.call c))
    (prompt : h.Owes → ∃ d, Step.call c = .call (.engine (.create d)))
    {post : Except Failure c.Reply → Tender → Prop}
    (hpost : ∀ w r w', h.Agrees w → w.Meets noCall (.call c) r w' →
      post (r.mapError blame) ⟨sure, some (h.now w')⟩) :
    (call c blame).Obeys tending ⟨sure, some h⟩ post := by
  unfold call
  rw [obeys_bind]
  refine obeys_ask_held id allowed prompt fun w r w' agrees meets => ?_
  have hr := hpost w r w' agrees meets
  rcases r with o | v
  · exact hr
  · exact hr

theorem obeys_call_still (hsound : h.Sound) {c : Call} (blame : Outage → Failure)
    (allowed : h.allows (.call c)) (still : ¬ (Step.call c).Touches h.index)
    {post : Except Failure c.Reply → Tender → Prop}
    (hpost : ∀ w r w', h.Agrees w → w.Meets noCall (.call c) r w' →
      post (r.mapError blame) ⟨sure, some h⟩) :
    (call c blame).Obeys tending ⟨sure, some h⟩ post := by
  refine obeys_call_held blame allowed (fun howes => absurd howes hsound.not_owes) ?_
  intro w r w' agrees meets
  rw [agrees.now_of_not_touches meets still]
  exact hpost w r w' agrees meets

/-- A change of what is remembered, and then the rest. -/
theorem obeys_change_held {c : MemoryChange} (allowed : h.allows (.change c)) (hsound : h.Sound)
    (known : Bool) (hknown : ∀ m : IndexMemory, m.knows h.index = h.known →
      (m.change c).knows h.index = known)
    {rest : Service α} {post : Except Failure α → Tender → Prop}
    (hrest : rest.Obeys tending ⟨sure, some { h with known }⟩ post) :
    (do change c; rest : Service α).Obeys tending ⟨sure, some h⟩ post := by
  refine (obeys_bind _ _ _ _).mpr ?_
  refine obeys_ask_held id allowed (fun howes => absurd howes hsound.not_owes) ?_
  intro w r w' agrees meets
  cases meets with
  | own own =>
    have hnow : h.now (w.answer (.change c)).2 = { h with known } := by
      unfold Hand.now
      have hmapping : (w.answer (.change c)).2.engine.mapping? h.index = h.mapping := agrees.mapping
      have hmemory : (w.answer (.change c)).2.memory.knows h.index = known :=
        hknown w.memory agrees.known
      rw [hmapping, hmemory]
    rw [hnow]
    exact hrest

theorem obeys_mark (hsound : h.Sound) (state : IndexState) {rest : Service α}
    {post : Except Failure α → Tender → Prop}
    (hrest : rest.Obeys tending ⟨sure, some h⟩ post) :
    (do change (.mark h.index state); rest : Service α).Obeys tending ⟨sure, some h⟩ post :=
  obeys_change_held (by exact rfl) hsound h.known (fun (m : IndexMemory) hm => by exact hm) hrest

theorem obeys_remember (hsound : h.Sound) (hlive : isSound h.mapping = true) {rest : Service α}
    {post : Except Failure α → Tender → Prop}
    (hrest : rest.Obeys tending ⟨sure, some { h with known := true }⟩ post) :
    (do change (.remember h.index); rest : Service α).Obeys tending ⟨sure, some h⟩ post := by
  refine obeys_change_held (by exact ⟨rfl, hlive⟩) hsound true (fun m _ => ?_) hrest
  rw [IndexMemory.knows_remember, beq_self_eq_true, Bool.true_or]

theorem obeys_forget (hsound : h.Sound) {rest : Service α}
    {post : Except Failure α → Tender → Prop}
    (hrest : rest.Obeys tending ⟨sure, some { h with known := false }⟩ post) :
    (do change (.forget h.index); rest : Service α).Obeys tending ⟨sure, some h⟩ post := by
  refine obeys_change_held (by exact rfl) hsound false (fun m _ => ?_) hrest
  rw [IndexMemory.knows_forget, bne_self_eq_false, Bool.false_and]

/-! ## Upkeep under a lock -/

/-- A look at the index in hand tells whether it is sound. -/
theorem checkLive_tended (hsound : h.Sound) :
    (Index.checkLive h.index).Obeys tending ⟨sure, some h⟩ fun r x' =>
      r = .ok (isSound h.mapping) ∧ x' = ⟨sure, some h⟩ := by
  unfold Index.checkLive Engine.liveSchema
  rw [obeys_bind, obeys_attempt, obeys_bind]
  refine obeys_ask_still hsound id (by exact trivial) id fun w r w' agrees meets => ?_
  have hmapping := (World.AmidOthers.mapping (.met rfl meets)).1
  have hlive : (w.trace h.index).mapping = h.mapping := agrees.mapping
  rw [hlive] at hmapping
  rcases hnone : h.mapping with _ | mapping
  · rw [hnone] at hmapping
    subst hmapping
    exact ⟨rfl, rfl⟩
  · rw [hnone] at hmapping
    subst hmapping
    unfold isSound
    dsimp only
    rcases Engine.fieldTypes mapping with b | types
    · exact ⟨rfl, rfl⟩
    · exact ⟨rfl, rfl⟩

/-- What somebody who looked after the index in hand leaves: it is sound if that worked out,
and if it was sound before. -/
def Hand.Leaves (h : Hand) (sure : List String) (r : Except Failure α) (x : Tender) : Prop :=
  ∃ h' : Hand, x = ⟨sure, some h'⟩ ∧ h'.index = h.index ∧ h'.Sound ∧
    ∀ a, r = .ok a → isSound h'.mapping = true

/-- What holds of the index in hand when it is known or not. -/
theorem Hand.Sound.with_known (hsound : h.Sound) {known : Bool}
    (hknown : known = true → isSound h.mapping = true) : Hand.Sound { h with known } :=
  ⟨hknown, hsound.whole⟩

theorem isGood_tended (hsound : h.Sound) :
    (Index.isGood h.index).Obeys tending ⟨sure, some h⟩ fun r x' => ∃ good known,
      r = .ok good ∧ x' = ⟨sure, some { h with known }⟩ ∧
        (good = true → isSound h.mapping = true) ∧ (known = true → isSound h.mapping = true) := by
  unfold Index.isGood
  rw [obeys_bind]
  refine obeys_ask_still (s := .recall) hsound id trivial id fun w m w' agrees meets => ?_
  have hm : m.knows h.index = h.known := by
    cases meets with
    | own own => exact agrees.known
  dsimp only
  rw [hm]
  by_cases hknown : h.known = true
  · rw [if_pos hknown]
    exact ⟨true, h.known, rfl, rfl, fun _ => hsound.known hknown, hsound.known⟩
  · rw [if_neg hknown]
    refine obeys_mark hsound .checking ?_
    rw [obeys_bind]
    refine (checkLive_tended hsound).mono ?_
    rintro _ _ ⟨rfl, rfl⟩
    dsimp only
    by_cases hgood : isSound h.mapping = true
    · rw [if_pos hgood]
      refine obeys_remember hsound hgood ?_
      refine obeys_mark (hsound.with_known fun _ => hgood) .good ?_
      exact ⟨_, true, rfl, rfl, id, fun _ => hgood⟩
    · rw [if_neg hgood]
      refine obeys_mark hsound .missing ?_
      exact ⟨_, h.known, rfl, rfl, id, hsound.known⟩

/-- What is in hand after a step that gave the index a mapping or took it away. -/
theorem Hand.Agrees.now_of_mapped {w w' : World} (agrees : h.Agrees w) {c : EngineCall}
    {mapping : Option Json}
    (htrace : w'.trace h.index = ((w.trace h.index).noting c).mapped mapping) :
    h.now w' = { h with mapping } := by
  have hmapping : w'.engine.mapping? h.index = mapping := congrArg IndexTrace.mapping htrace
  have hknown : w'.memory.knows h.index = w.memory.knows h.index :=
    congrArg IndexTrace.known htrace
  unfold Hand.now
  rw [hmapping, hknown, agrees.known]

/-- An index that is there is dropped. -/
theorem dropIndex_tended (hsound : h.Sound) (unknown : h.known = false) {mapping : Json}
    (there : h.mapping = some mapping) :
    (Engine.dropIndex h.index).Obeys tending ⟨sure, some h⟩ fun r x' =>
      r = .ok () ∧ x' = ⟨sure, some { h with mapping := none }⟩ := by
  unfold Engine.dropIndex Engine.removal
  rw [obeys_bind]
  refine obeys_ask_held id (by exact ⟨rfl, unknown⟩)
    (fun howes => absurd howes hsound.not_owes) fun w r w' agrees meets => ?_
  obtain ⟨hr, htrace⟩ := World.AmidOthers.drop (agrees.mapping.trans there) (.met rfl meets)
  rw [agrees.now_of_mapped htrace]
  rcases hr with rfl | rfl
  · exact ⟨rfl, rfl⟩
  · exact ⟨rfl, rfl⟩

/-- An index is created where there is none, as the one who has it in hand owes it. -/
theorem createIndex_tended (unknown : h.known = false) (gone : h.mapping = none)
    {d : IndexDescriptor} (hname : d.indexName = h.index)
    (hlive : isSound (some d.mappings) = true) (existed : Bool) :
    (do Engine.createIndex d; pure (d, existed) : Service _).Obeys tending ⟨sure, some h⟩
      fun r x' => h.Leaves sure r x' := by
  rw [obeys_bind]
  refine obeys_call_held _ (by exact ⟨hname, gone, unknown⟩) (fun _ => ⟨d, rfl⟩)
    fun w r w' agrees meets => ?_
  obtain ⟨rfl, htrace⟩ := World.AmidOthers.create hname (agrees.mapping.trans gone) (.met rfl meets)
  rw [agrees.now_of_mapped htrace]
  refine ⟨_, rfl, rfl, ⟨fun hknown => ?_, fun _ => hlive⟩, fun _ _ => hlive⟩
  exact absurd (hknown.symm.trans unknown) (by decide)

/-- An index that is not known is dropped if it is there, and created: it is sound then, or
nothing was done to it. -/
theorem replace_tended (solutionId : Json) {target : IndexTarget} (hindex : target.name = h.index)
    (hsound : h.Sound) (unknown : h.known = false) :
    (Index.replace solutionId target).Obeys tending ⟨sure, some h⟩ fun r x' =>
      h.Leaves sure r x' := by
  have hfailed {f : Failure} : h.Leaves sure (.error f : Except Failure (IndexDescriptor × Bool))
      ⟨sure, some h⟩ := ⟨h, rfl, rfl, hsound, nofun⟩
  unfold Index.replace lookUpSchema
  rw [obeys_bind, obeys_bind]
  refine obeys_call_still hsound _ (by exact trivial) id fun w r w' agrees meets => ?_
  rcases r with o | rows
  · exact hfailed
  refine (obeys_orBroken _ _ _).mpr ?_
  rcases EntityDefinition.choose rows with b | schema
  · exact hfailed
  dsimp only [Except.mapError]
  rw [obeys_bind, obeys_orFail]
  rcases hchecked : (IndexDescriptor.build target.name schema.extraFields).checked.orInvalid
    with f | d
  · exact hfailed
  have hname : d.indexName = h.index := by
    rw [(checked_eq_ok hchecked).1]
    exact hindex
  have hlive : isSound (some d.mappings) = true := isSound_of_checked hchecked
  dsimp only
  rw [hindex, obeys_bind]
  unfold Engine.hasIndex Engine.call
  refine obeys_call_still hsound _ (by exact trivial) id fun w r w' agrees meets => ?_
  have hexists := (World.AmidOthers.hasIndex (.met rfl meets)).1
  have hmapping : (w.trace h.index).mapping = h.mapping := agrees.mapping
  rw [hmapping] at hexists
  subst hexists
  rcases there : h.mapping with _ | mapping
  · exact createIndex_tended unknown there hname hlive false
  · refine (obeys_bind _ _ _ _).mpr ((dropIndex_tended hsound unknown there).mono ?_)
    rintro _ _ ⟨rfl, rfl⟩
    exact createIndex_tended (h := { h with mapping := none }) unknown rfl hname hlive true

/-- An index is forgotten, replaced and remembered. If that does not work out, nothing was
done to it. -/
theorem recreate_tended (solutionId : Json) {target : IndexTarget} (hindex : target.name = h.index)
    (hsound : h.Sound) :
    (Index.recreate solutionId target).Obeys tending ⟨sure, some h⟩ fun r x' =>
      h.Leaves sure r x' := by
  unfold Index.recreate
  dsimp only
  rw [hindex]
  have hforgotten : Hand.Sound { h with known := false } := hsound.with_known nofun
  refine obeys_mark hsound .creating (obeys_forget hsound ?_)
  rw [obeys_bind, obeys_attempt]
  refine (replace_tended (h := { h with known := false }) solutionId hindex hforgotten rfl).mono ?_
  rintro r _ ⟨h', rfl, hindex', hsound', hlive⟩
  have hsame : h'.index = h.index := hindex'
  dsimp only
  rw [← hsame]
  rcases r with f | ⟨d, existed⟩
  · exact obeys_mark hsound' .unknown ⟨h', rfl, hsame, hsound', nofun⟩
  · have hgood := hlive _ rfl
    have hknown : Hand.Sound { h' with known := true } := hsound'.with_known fun _ => hgood
    refine obeys_remember hsound' hgood (obeys_mark hknown .good ?_)
    have hleft {r : Except Failure IndexDescriptor} :
        h.Leaves sure r ⟨sure, some { h' with known := true }⟩ :=
      ⟨_, rfl, hsame, hknown, fun _ _ => hgood⟩
    cases existed with
    | false => exact hleft
    | true =>
      refine (obeys_bind _ _ _ _).mpr ?_
      unfold Index.backfill
      rw [obeys_bind]
      refine obeys_ask_still (s := .look) hknown id trivial id fun w here w' _ _ => ?_
      dsimp only
      split
      · rw [obeys_bind]
        refine obeys_ask_still hknown id (by exact trivial) id fun w r w' _ _ => ?_
        exact hleft
      · exact hleft

/-! ## Upkeep -/

/-- What somebody who looked after indices is sure of afterwards: of all of them if that
worked out, and of what it was sure of before. -/
def MadeSure (sure indices : List String) (r : Except Failure α) (x : Tender) : Prop :=
  ∃ sure', x = ⟨sure', none⟩ ∧ (∀ i ∈ sure, i ∈ sure') ∧ ∀ a, r = .ok a → ∀ i ∈ indices, i ∈ sure'

theorem MadeSure.of_error {sure' indices : List String} {f : Failure}
    (hsub : ∀ i ∈ sure, i ∈ sure') :
    MadeSure sure indices (.error f : Except Failure α) ⟨sure', none⟩ :=
  ⟨sure', rfl, hsub, fun _ hok => by cases hok⟩

theorem locked_tended {index : String} {x : Service α}
    (hx : ∀ h : Hand, h.index = index → h.Sound →
      x.Obeys tending ⟨sure, some h⟩ fun r x' => h.Leaves sure r x') :
    (locked index x).Obeys tending ⟨sure, none⟩ fun r x' => MadeSure sure [index] r x' := by
  rw [obeys_locked]
  refine ⟨trivial, ?_⟩
  rintro _ _ ⟨h, hindex, hsound, rfl⟩
  refine (hx h hindex hsound).mono ?_
  rintro r _ ⟨h', rfl, hsame, hsound', hlive⟩
  refine ⟨⟨(hsame.trans hindex).symm, fun howes => absurd howes hsound'.not_owes⟩, ?_⟩
  rintro _ _ rfl
  refine ⟨_, rfl, fun i hi => ?_, fun a ha i hi => ?_⟩
  · split
    · exact List.mem_cons_of_mem _ hi
    · exact hi
  · obtain rfl := List.mem_singleton.mp hi
    rw [if_pos (hlive a ha), ← hindex, ← hsame]
    exact List.mem_cons_self

theorem ensureOne_tended (solutionId : Json) (force : Bool) (target : IndexTarget) :
    (Index.ensureOne solutionId force target).Obeys tending ⟨sure, none⟩ fun r x' =>
      MadeSure sure [target.name] r x' := by
  refine locked_tended fun h hindex hsound => ?_
  have hrecreate (k : Hand) (hk : k.index = h.index) (hksound : k.Sound) :
      (do let _ ← Index.recreate solutionId target; pure true : Service Bool).Obeys tending
        ⟨sure, some k⟩ fun r x' => h.Leaves sure r x' := by
    rw [obeys_bind]
    refine (recreate_tended solutionId (hindex.symm.trans hk.symm) hksound).mono ?_
    rintro r _ ⟨h', rfl, hsame, hsound', hlive⟩
    rcases r with f | d
    · exact ⟨h', rfl, hsame.trans hk, hsound', nofun⟩
    · exact ⟨h', rfl, hsame.trans hk, hsound', fun _ _ => hlive d rfl⟩
  dsimp only
  cases force with
  | true => exact hrecreate h rfl hsound
  | false =>
    rw [if_neg Bool.false_ne_true, map_eq_pure_bind, obeys_bind, obeys_bind, ← hindex]
    refine (isGood_tended hsound).mono ?_
    rintro _ _ ⟨good, known, rfl, rfl, hlive, hknown⟩
    cases good with
    | true => exact ⟨_, rfl, rfl, hsound.with_known hknown, fun _ _ => hlive rfl⟩
    | false => exact hrecreate _ rfl (hsound.with_known hknown)

theorem ensureEach_tended (solutionId : Json) (force : Bool) (targets : List IndexTarget) :
    (Index.ensureEach solutionId force targets).Obeys tending ⟨sure, none⟩ fun r x' =>
      MadeSure sure (targets.map (·.name)) r x' := by
  induction targets generalizing sure with
  | nil => exact ⟨sure, rfl, fun _ h => h, fun _ _ i hi => absurd hi List.not_mem_nil⟩
  | cons target rest ih =>
    unfold Index.ensureEach
    rw [obeys_bind]
    refine (ensureOne_tended solutionId force target).mono ?_
    rintro r _ ⟨sure₁, rfl, hsub₁, hall₁⟩
    rcases r with f | created
    · exact .of_error hsub₁
    · dsimp only
      rw [obeys_bind]
      refine ih.mono ?_
      rintro r _ ⟨sure₂, rfl, hsub₂, hall₂⟩
      rcases r with f | others
      · exact .of_error fun i hi => hsub₂ i (hsub₁ i hi)
      · refine ⟨sure₂, rfl, fun i hi => hsub₂ i (hsub₁ i hi), fun _ _ i hi => ?_⟩
        rcases List.mem_cons.mp hi with rfl | hi
        · exact hsub₂ _ (hall₁ created rfl _ (List.mem_singleton_self _))
        · exact hall₂ others rfl i hi

/-! ## Upserts -/

theorem putEach_tended {fields : Fields} {targets : List IndexTarget}
    (hsure : ∀ t ∈ targets, t.name ∈ sure) :
    (Indexing.putEach fields targets).Obeys tending ⟨sure, none⟩ fun _ x' => x'.hand = none := by
  induction targets with
  | nil => rfl
  | cons target rest ih =>
    have hrest := ih fun t ht => hsure t (List.mem_cons_of_mem _ ht)
    unfold Indexing.putEach Engine.putDocument
    rw [obeys_bind]
    split
    · next key hkey =>
      refine (obeys_call _ _ _ _).mpr ⟨hsure target List.mem_cons_self, ?_⟩
      rintro r _ rfl
      rcases r with o | _
      · rfl
      · refine (obeys_bind _ _ _ _).mpr (hrest.mono ?_)
        rintro r x' hfree
        rcases r with f | names
        · exact hfree
        · exact hfree
    · rfl

theorem upsert_tended (document : Fields) :
    (Indexing.upsert document).Obeys tending {} fun _ x' => x'.hand = none := by
  unfold Indexing.upsert
  rw [obeys_bind, obeys_orFail]
  rcases Indexing.subject document with f | s
  · rfl
  dsimp only
  rw [obeys_bind, obeys_orBroken]
  rcases Indexing.isReserved s.entityName with b | reserved
  · rfl
  cases reserved with
  | true => rfl
  | false =>
    have hcompleted (entityType : Json) :
        (Indexing.completed document s.entityName entityType).Obeys tending {} fun _ x' =>
          x' = {} := by
      unfold Indexing.completed
      split
      · rfl
      · unfold lookUpSchema
        rw [obeys_bind, obeys_bind, obeys_call]
        refine ⟨trivial, ?_⟩
        rintro r _ rfl
        rcases r with o | rows
        · rfl
        · refine (obeys_orBroken _ _ _).mpr ?_
          rcases EntityDefinition.choose rows with b | schema
          · rfl
          · rfl
    dsimp only [Except.mapError]
    rw [if_neg (by simp), obeys_bind]
    refine (hcompleted _).mono ?_
    rintro r _ rfl
    rcases r with f | completed
    · rfl
    dsimp only
    unfold Index.ensure
    rw [obeys_bind, obeys_bind, obeys_orFail]
    rcases hname : Index.entityNameOf s.entityName with f | name
    · rfl
    dsimp only
    refine (ensureEach_tended _ false _).mono ?_
    rintro r _ ⟨sure, rfl, -, hsure⟩
    rcases r with f | created
    · rfl
    dsimp only
    rw [obeys_bind, obeys_orFail]
    exact putEach_tended fun t ht => hsure created rfl _ (List.mem_map_of_mem ht)

end

/-! ## Requests -/

theorem IndexRequest.program_tended (c : IndexRequest) :
    c.program.Obeys tending (fun _ x => x.hand = none) {} := by
  cases c with
  | create solutionId target =>
    refine (Prog.obeys_bind _ _ _ _).mpr (Prog.Obeys.mono (locked_tended fun h hindex hsound =>
      recreate_tended solutionId hindex.symm hsound) ?_)
    rintro r _ ⟨sure, rfl, -, -⟩
    rfl
  | ensure solutionId entityName entityType force =>
    have hensure : (Index.ensure solutionId (.str entityName) entityType force).Obeys tending {}
        fun _ x => x.hand = none := by
      unfold Index.ensure
      rw [obeys_bind, obeys_orFail]
      rcases Index.entityNameOf (.str entityName) with f | name
      · rfl
      refine (ensureEach_tended solutionId force _).mono ?_
      rintro r _ ⟨sure, rfl, -, -⟩
      rfl
    exact (Prog.obeys_bind _ _ _ _).mpr hensure

end TenantSearch
