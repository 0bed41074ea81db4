-- Upserts beside recreations of their indices. An upsert makes sure of its indices under
-- their locks, but it puts its document after it gave them back. So a recreation can come
-- in between, and the document finds the index deleted and not created yet.
import TenantSearch.Proofs.LatePushes
import TenantSearch.Proofs.TendedIndices

namespace TenantSearch

/-! ## All together -/

/-- What holds while programs look after indices side by side: an index that is known is
sound, everybody sees the index in hand as it is, and nobody has the same one in hand as
another. An index that somebody is sure of is sound unless its lock is held, and it was sound
when that was taken. -/
structure Tended (size : Nat) (held : List String) (w : World) (tenders : Nat → Tender) : Prop where
  known : ∀ index, w.memory.knows index = true → isSound (w.engine.mapping? index) = true
  hands : ∀ number, ∀ h ∈ (tenders number).hand, h.index ∈ held ∧ h.Agrees w
  apart : ∀ number other, ∀ h ∈ (tenders number).hand, ∀ k ∈ (tenders other).hand,
    h.index = k.index → number = other
  holders : ∀ index ∈ held, ∃ number < size, ∃ h ∈ (tenders number).hand, h.index = index
  nodup : held.Nodup
  sure : ∀ number, ∀ index ∈ (tenders number).sure,
    (index ∉ held → isSound (w.engine.mapping? index) = true) ∧
      ∀ other, ∀ h ∈ (tenders other).hand, h.index = index → h.whole = true

/-- What holds of somebody after one of them came to something else. -/
theorem of_update {tenders : Nat → Tender} {number other : Nat} {x : Tender} {p : Tender → Prop}
    (h : p (Function.update tenders number x other)) :
    other = number ∧ p x ∨ other ≠ number ∧ p (tenders other) := by
  by_cases hsame : other = number
  · subst hsame
    rw [Function.update_self] at h
    exact Or.inl ⟨rfl, h⟩
  · rw [Function.update_of_ne hsame] at h
    exact Or.inr ⟨hsame, h⟩

theorem mem_hand_update {tenders : Nat → Tender} {number other : Nat} {x : Tender} {h : Hand}
    (hh : h ∈ (Function.update tenders number x other).hand) :
    other = number ∧ h ∈ x.hand ∨ other ≠ number ∧ h ∈ (tenders other).hand :=
  of_update (p := fun x => h ∈ x.hand) hh

theorem mem_sure_update {tenders : Nat → Tender} {number other : Nat} {x : Tender}
    {index : String} (hindex : index ∈ (Function.update tenders number x other).sure) :
    other = number ∧ index ∈ x.sure ∨ other ≠ number ∧ index ∈ (tenders other).sure :=
  of_update (p := fun x => index ∈ x.sure) hindex

namespace Tended

variable {size : Nat} {held : List String} {w w' : World} {tenders : Nat → Tender} {number : Nat}
  {sure : List String}

/-- A step that touches no index changes nothing. -/
theorem idle (t : Tended size held w tenders)
    (same : ∀ index, w'.engine.mapping? index = w.engine.mapping? index ∧
      w'.memory.knows index = w.memory.knows index) :
    Tended size held w' (Function.update tenders number (tenders number)) := by
  rw [Function.update_eq_self]
  refine ⟨fun index hknown => ?_, fun other h hh => ?_, t.apart, t.holders, t.nodup,
    fun other index hindex => ?_⟩
  · rw [(same index).2] at hknown
    rw [(same index).1]
    exact t.known index hknown
  · obtain ⟨hheld, agrees⟩ := t.hands other h hh
    exact ⟨hheld, (same _).1.trans agrees.mapping, (same _).2.trans agrees.known⟩
  · rw [(same index).1]
    exact t.sure other index hindex

/-- Who takes a lock sees the index as it is. -/
theorem acquire (t : Tended size held w tenders) (hlt : number < size)
    (hfree : tenders number = ⟨sure, none⟩) {index : String} (free : index ∉ held) :
    Tended size (index :: held) w
      (Function.update tenders number ⟨sure, some (.taken index w)⟩) := by
  have hother {other : Nat} {h : Hand} (hh : h ∈ (tenders other).hand) : other ≠ number := by
    rintro rfl
    rw [hfree] at hh
    cases hh
  refine ⟨t.known, fun other h hh => ?_, fun other third h hh k hk hindex => ?_,
    fun i hi => ?_, List.nodup_cons.mpr ⟨free, t.nodup⟩, fun other i hi => ?_⟩
  · rcases mem_hand_update hh with ⟨-, hh⟩ | ⟨-, hh⟩
    · obtain rfl := Option.some.inj hh
      exact ⟨List.mem_cons_self, rfl, rfl⟩
    · obtain ⟨hheld, agrees⟩ := t.hands other h hh
      exact ⟨List.mem_cons_of_mem _ hheld, agrees⟩
  · rcases mem_hand_update hh with ⟨rfl, hnew⟩ | ⟨-, hold⟩
    · obtain rfl := Option.some.inj hnew
      rcases mem_hand_update hk with ⟨rfl, -⟩ | ⟨-, hk⟩
      · rfl
      · have hsame : index = k.index := hindex
        exact absurd (hsame ▸ (t.hands third k hk).1) free
    · rcases mem_hand_update hk with ⟨rfl, hnew⟩ | ⟨-, hk⟩
      · obtain rfl := Option.some.inj hnew
        have hsame : h.index = index := hindex
        exact absurd (hsame ▸ (t.hands other h hold).1) free
      · exact t.apart other third h hold k hk hindex
  · rcases List.mem_cons.mp hi with rfl | hi
    · exact ⟨number, hlt, _, by rw [Function.update_self]; rfl, rfl⟩
    · obtain ⟨other, hlt', h, hh, hindex⟩ := t.holders i hi
      exact ⟨other, hlt', h, by rwa [Function.update_of_ne (hother hh)], hindex⟩
  · have hsure : i ∈ (tenders other).sure := by
      rcases mem_sure_update hi with ⟨rfl, hkept⟩ | ⟨-, hkept⟩
      · exact hfree ▸ hkept
      · exact hkept
    obtain ⟨hsound, hwhole⟩ := t.sure other i hsure
    refine ⟨fun hi => hsound fun h => hi (List.mem_cons_of_mem _ h), fun third k hk hindex => ?_⟩
    rcases mem_hand_update hk with ⟨-, hk⟩ | ⟨-, hk⟩
    · obtain rfl := Option.some.inj hk
      obtain rfl : index = i := hindex
      exact hsound free
    · exact hwhole third k hk hindex

/-- Whoever else has something in hand has another index in hand. -/
theorem elsewhere (t : Tended size held w tenders) {h : Hand}
    (hhand : tenders number = ⟨sure, some h⟩) {other : Nat} (hother : other ≠ number) {k : Hand}
    (hk : k ∈ (tenders other).hand) : k.index ≠ h.index :=
  fun hindex => hother (t.apart other number k hk h (hhand ▸ rfl) hindex)

/-- Who holds a lock changes nothing but the index in hand, and sees what became of it. -/
theorem hold (t : Tended size held w tenders) {h : Hand} (hhand : tenders number = ⟨sure, some h⟩)
    (same : ∀ index, index ≠ h.index → w'.engine.mapping? index = w.engine.mapping? index ∧
      w'.memory.knows index = w.memory.knows index)
    (honest : w'.memory.knows h.index = true → isSound (w'.engine.mapping? h.index) = true) :
    Tended size held w' (Function.update tenders number ⟨sure, some (h.now w')⟩) := by
  have hmem : h ∈ (tenders number).hand := hhand ▸ rfl
  have hheld := (t.hands number h hmem).1
  refine ⟨fun index hknown => ?_, fun other k hk => ?_, fun other third k hk l hl hindex => ?_,
    fun index hindex => ?_, t.nodup, fun other index hindex => ?_⟩
  · by_cases hindex : index = h.index
    · subst hindex
      exact honest hknown
    · obtain ⟨hmapping, hknows⟩ := same index hindex
      rw [hknows] at hknown
      rw [hmapping]
      exact t.known index hknown
  · rcases mem_hand_update hk with ⟨-, hk⟩ | ⟨hother, hk⟩
    · obtain rfl := Option.some.inj hk
      exact ⟨hheld, h.agrees_now w'⟩
    · obtain ⟨hheld', agrees⟩ := t.hands other k hk
      obtain ⟨hmapping, hknows⟩ := same _ (t.elsewhere hhand hother hk)
      exact ⟨hheld', hmapping.trans agrees.mapping, hknows.trans agrees.known⟩
  · rcases mem_hand_update hk with ⟨rfl, hnew⟩ | ⟨hother, hold⟩
    · obtain rfl := Option.some.inj hnew
      rcases mem_hand_update hl with ⟨rfl, -⟩ | ⟨hother, hl⟩
      · rfl
      · exact absurd hindex.symm (t.elsewhere hhand hother hl)
    · rcases mem_hand_update hl with ⟨rfl, hnew⟩ | ⟨-, hl⟩
      · obtain rfl := Option.some.inj hnew
        exact absurd hindex (t.elsewhere hhand hother hold)
      · exact t.apart other third k hold l hl hindex
  · obtain ⟨other, hlt, k, hk, rfl⟩ := t.holders index hindex
    by_cases hsame : other = number
    · subst hsame
      obtain rfl : h = k := Option.some.inj ((congrArg Tender.hand hhand).symm.trans hk)
      exact ⟨other, hlt, h.now w', by rw [Function.update_self]; rfl, rfl⟩
    · exact ⟨other, hlt, k, by rwa [Function.update_of_ne hsame], rfl⟩
  · have hsure : index ∈ (tenders other).sure := by
      rcases mem_sure_update hindex with ⟨rfl, hkept⟩ | ⟨-, hkept⟩
      · exact hhand ▸ hkept
      · exact hkept
    obtain ⟨hsound, hwhole⟩ := t.sure other index hsure
    refine ⟨fun hfree => ?_, fun third k hk hname => ?_⟩
    · have hne : index ≠ h.index := fun hname => hfree (hname ▸ hheld)
      rw [(same index hne).1]
      exact hsound hfree
    · rcases mem_hand_update hk with ⟨-, hk⟩ | ⟨-, hk⟩
      · obtain rfl := Option.some.inj hk
        exact hwhole number h hmem hname
      · exact hwhole third k hk hname

/-- Who gives back a lock is sure of the index if it is sound, and owes nothing. -/
theorem release (t : Tended size held w tenders) {h : Hand}
    (hhand : tenders number = ⟨sure, some h⟩) (settled : ¬ h.Owes) :
    Tended size (held.erase h.index) w (Function.update tenders number
      ⟨if isSound h.mapping then h.index :: sure else sure, none⟩) := by
  have hmem : h ∈ (tenders number).hand := hhand ▸ rfl
  have hagrees := (t.hands number h hmem).2
  have hcases {other : Nat} {k : Hand} (hk : k ∈ (Function.update tenders number
      ⟨if isSound h.mapping then h.index :: sure else sure, none⟩ other).hand) :
      k ∈ (tenders other).hand ∧ k.index ≠ h.index := by
    rcases mem_hand_update hk with ⟨-, hk⟩ | ⟨hother, hk⟩
    · cases hk
    · exact ⟨hk, t.elsewhere hhand hother hk⟩
  refine ⟨t.known, fun other k hk => ?_, fun other third k hk l hl hindex => ?_,
    fun index hindex => ?_, t.nodup.erase _, fun other index hindex => ?_⟩
  · obtain ⟨hk, hne⟩ := hcases hk
    obtain ⟨hheld, agrees⟩ := t.hands other k hk
    exact ⟨(List.mem_erase_of_ne hne).mpr hheld, agrees⟩
  · exact t.apart other third k (hcases hk).1 l (hcases hl).1 hindex
  · obtain ⟨hne, hheld⟩ := t.nodup.mem_erase_iff.mp hindex
    obtain ⟨other, hlt, k, hk, rfl⟩ := t.holders index hheld
    have hother : other ≠ number := by
      rintro rfl
      obtain rfl : h = k := Option.some.inj ((congrArg Tender.hand hhand).symm.trans hk)
      exact hne rfl
    exact ⟨other, hlt, k, by rwa [Function.update_of_ne hother], rfl⟩
  · have hcame : index ∈ (tenders other).sure ∨ index = h.index ∧ isSound h.mapping = true := by
      rcases mem_sure_update hindex with ⟨rfl, hnew⟩ | ⟨-, hkept⟩
      · rw [hhand]
        dsimp only at hnew
        split at hnew
        · next hsound => exact (List.mem_cons.mp hnew).symm.imp_right fun hi => ⟨hi, hsound⟩
        · exact Or.inl hnew
      · exact Or.inl hkept
    by_cases hname : index = h.index
    · subst hname
      refine ⟨fun _ => ?_, fun third k hk hindex => absurd hindex (hcases hk).2⟩
      rw [hagrees.mapping]
      rcases hcame with hsure | ⟨-, hsound⟩
      · have hwhole := (t.sure other _ hsure).2 number h hmem rfl
        by_contra hunsound
        exact settled ⟨hwhole, Bool.eq_false_iff.mpr hunsound⟩
      · exact hsound
    · obtain ⟨hsound, hwhole⟩ := t.sure other index (hcame.resolve_right fun hi => hname hi.1)
      refine ⟨fun hfree => hsound fun hheld => hfree ((List.mem_erase_of_ne hname).mpr hheld), ?_⟩
      exact fun third k hk hindex => hwhole third k (hcases hk).1 hindex

/-- Whatever its holder is allowed, an index that is known is sound. -/
theorem known_of_allows (t : Tended size held w tenders) {h : Hand} (agrees : h.Agrees w)
    {s : Step} {r : s.Reply} (allows : h.allows s) (meets : w.Meets noCall s r w') :
    w'.memory.knows h.index = true → isSound (w'.engine.mapping? h.index) = true := by
  by_cases touches : s.Touches h.index
  · cases meets with
    | @call c _ _ answers =>
      obtain ⟨plans, engine, responses, records, rfl⟩ := answers.frame
      have unknown : h.known = false := by
        cases c with
        | engine c =>
          cases c with
          | create d => exact allows.2.2
          | drop index => exact allows.2
          | _ => exact absurd touches id
        | _ => exact absurd touches id
      intro hknown
      exact absurd ((agrees.known.symm.trans hknown).symm.trans unknown) (by decide)
    | own own =>
      cases s with
      | change c =>
        cases c with
        | remember index =>
          intro _
          refine Eq.trans (congrArg isSound ?_) allows.2
          exact agrees.mapping
        | forget index =>
          obtain rfl : index = h.index := touches
          have hmemory : (w.answer (.change (.forget h.index))).2.memory.knows h.index = false := by
            refine (IndexMemory.knows_forget w.memory _ _).trans ?_
            rw [bne_self_eq_false, Bool.false_and]
          intro hknown
          exact absurd (hknown.symm.trans hmemory) (by decide)
        | mark index state => exact t.known h.index
        | forgetAll => exact absurd allows id
      | call c => exact absurd rfl (own c)
      | _ => exact absurd touches id
  · obtain ⟨hmapping, hknown⟩ := meets.looks_of_not_touches touches
    rw [hmapping, hknown]
    exact t.known h.index

/-- A step that is allowed keeps all of that. -/
theorem step (t : Tended size held w tenders) (hlt : number < size) {s : Step} {r : s.Reply}
    {held' : List String} (allows : tending.allows (tenders number) s)
    (locks : Locks s held held') (meets : w.Meets noCall s r w') :
    ∃ after, tending.passes (tenders number) s r after ∧
      Tended size held' w' (Function.update tenders number after) := by
  rcases hstate : tenders number with ⟨sure, _ | h⟩
  · rw [hstate] at allows
    cases locks with
    | acquire free =>
      cases meets with
      | own own => exact ⟨_, ⟨_, rfl, ⟨t.known _, id⟩, rfl⟩, t.acquire hlt hstate free⟩
    | release => exact absurd allows id
    | plain plain =>
      refine ⟨⟨sure, none⟩, ?_, hstate ▸ t.idle fun index =>
        meets.looks_of_not_touches (Tender.not_touches_of_allowsFree allows)⟩
      cases s with
      | acquire index => exact absurd trivial plain
      | _ => rfl
  · rw [hstate] at allows
    obtain ⟨allowed, prompt⟩ := allows
    have agrees := (t.hands number h (hstate ▸ rfl)).2
    cases locks with
    | acquire free => exact absurd allowed id
    | release =>
      obtain rfl := allowed
      cases meets with
      | own own =>
        refine ⟨_, rfl, t.release hstate fun howes => ?_⟩
        obtain ⟨d, hd⟩ := prompt howes
        cases hd
    | plain plain =>
      have elsewhere (index : String) (hne : index ≠ h.index) : ¬ s.Touches index :=
        fun touches => hne (Hand.index_of_touches allowed touches)
      refine ⟨⟨sure, some (h.now w')⟩, ?_, t.hold hstate
        (fun index hne => meets.looks_of_not_touches (elsewhere index hne))
        (t.known_of_allows agrees allowed meets)⟩
      cases s with
      | release index => exact absurd trivial plain
      | _ => exact ⟨w, w', agrees, meets, rfl⟩

end Tended

namespace Crew

variable {documents : List Fields} {requests : List IndexRequest} {w : World} {u : Crew}
  {acts : List Act}

/-- Upserts of documents and requests for indices, none of which has begun. -/
def upkeep (documents : List Fields) (requests : List IndexRequest) (w : World) : Crew :=
  begin ((documents.map IndexingCall.upsert).map (·.program) ++ requests.map (·.program)) w

/-- One of the programs makes this call next. -/
def Faces (c : Crew) (call : Call) : Prop :=
  ∃ next : Step.Reply (.call call) → Prog Unit, .step (.call call) next ∈ c.programs

/-- One of the programs creates this index next. -/
def Creates (c : Crew) (index : String) : Prop :=
  ∃ d : IndexDescriptor, d.indexName = index ∧ c.Faces (.engine (.create d))

/-- Upserts and requests look after indices on every course. -/
theorem Course.tended (h : (upkeep documents requests w).Course (World.Meets noCall) acts u)
    (honest : w.Honest) : ∃ tenders, Tended u.programs.length u.held u.world tenders ∧
      ∀ number (p : Prog Unit), u.programs[number]? = some p →
        p.Obeys tending (fun _ x => x.hand = none) (tenders number) := by
  rw [h.length]
  refine h.obeys (fun _ held w' tenders => Tended (upkeep documents requests w).programs.length
      held w' tenders) (fun _ => {}) (fun number p hp => ?_) ?_
    fun hlt t hallows locks meets => t.step hlt hallows locks meets
  · rcases List.mem_append.mp (List.mem_of_getElem? hp) with hp | hp
    · rw [List.map_map] at hp
      obtain ⟨document, -, rfl⟩ := List.mem_map.mp hp
      exact (Prog.obeys_bind _ _ _ _).mpr (upsert_tended document)
    · obtain ⟨c, -, rfl⟩ := List.mem_map.mp hp
      exact c.program_tended
  · exact ⟨fun index => (honest index).live, nofun, nofun, nofun, List.nodup_nil, nofun⟩

end Crew

/-! ## What a put finds -/

/-- While no call fails, a document that is about to be put into an index finds it sound,
just when none of the others has yet to create it. Who has to create it holds its lock and
left nothing of it. -/
theorem a_put_finds_a_good_index_iff {documents : List Fields} {requests : List IndexRequest}
    {w : World} (honest : w.Honest) {acts : List Act} {u : Crew}
    (course : (Crew.upkeep documents requests w).Course (World.Meets noCall) acts u)
    {index : String} {id : Json} {fields : Fields}
    (puts : u.Faces (.engine (.put index id fields))) :
    (isSound (u.world.engine.mapping? index) = true ↔ ¬ u.Creates index) ∧
      (u.Creates index → index ∈ u.held ∧ u.world.engine.mapping? index = none) := by
  obtain ⟨tenders, t, hprograms⟩ := course.tended honest
  have hgone (creates : u.Creates index) :
      index ∈ u.held ∧ u.world.engine.mapping? index = none := by
    obtain ⟨d, rfl, next, hnext⟩ := creates
    obtain ⟨number, turn⟩ := List.getElem?_of_mem hnext
    have hallows := (hprograms number _ turn).1
    rcases hstate : tenders number with ⟨sure, _ | h⟩
    · rw [hstate] at hallows
      exact absurd hallows not_false
    · rw [hstate] at hallows
      obtain ⟨⟨hname, hnone, -⟩, -⟩ := hallows
      obtain ⟨hheld, agrees⟩ := t.hands number h (hstate ▸ rfl)
      rw [hname]
      exact ⟨hheld, agrees.mapping.trans hnone⟩
  refine ⟨⟨fun hsound creates => ?_, fun hcreates => ?_⟩, hgone⟩
  · rw [(hgone creates).2] at hsound
    cases hsound
  obtain ⟨next, hnext⟩ := puts
  obtain ⟨number, turn⟩ := List.getElem?_of_mem hnext
  have hallows := (hprograms number _ turn).1
  have hsure : index ∈ (tenders number).sure := by
    rcases hstate : tenders number with ⟨sure, _ | h⟩
    · rw [hstate] at hallows
      exact hallows
    · rw [hstate] at hallows
      exact absurd hallows.1 not_false
  obtain ⟨hfree, hwhole⟩ := t.sure number index hsure
  by_contra hunsound
  obtain ⟨other, hlt, h, hhand, rfl⟩ := t.holders index (by_contra fun hheld =>
    hunsound (hfree hheld))
  have howes : h.Owes := by
    refine ⟨hwhole other h hhand rfl, ?_⟩
    rw [← (t.hands other h hhand).2.mapping]
    exact Bool.eq_false_iff.mpr hunsound
  have hobeys := hprograms other _ (List.getElem?_eq_getElem hlt)
  rcases hstate : tenders other with ⟨sure, hand⟩
  rw [hstate] at hhand hobeys
  obtain rfl : hand = some h := hhand
  rcases hprogram : u.programs[other] with a | ⟨s, next'⟩
  · rw [hprogram] at hobeys
    cases hobeys
  · rw [hprogram] at hobeys
    obtain ⟨hallowed, hprompt⟩ := hobeys.1
    obtain ⟨d, rfl⟩ := hprompt howes
    exact hcreates ⟨d, hallowed.1, next', hprogram ▸ List.getElem_mem hlt⟩

/-! ## A recreation in between -/

/-- The event is upserted while its index is created anew. -/
def upsertAndForce : Crew :=
  .upkeep [eventInOslo] [.ensure (.str "sol-1") "Event" .null true]
    { World.empty morning with engine := eventEngine }

/-- The first program puts a document into the index of events next. -/
def putsEvent (c : Crew) : Bool :=
  match c.programs with
  | .step (.call (.engine (.put index _ _))) _ :: _ => index == "event"
  | _ => false

theorem faces_of_putsEvent {c : Crew} (h : putsEvent c = true) :
    ∃ id fields, c.Faces (.engine (.put "event" id fields)) := by
  unfold putsEvent at h
  split at h
  · next index id fields next rest hprograms =>
    obtain rfl := eq_of_beq h
    exact ⟨id, fields, next, hprograms ▸ List.mem_cons_self⟩
  · cases h

/-- The upsert makes sure of the index and gives back its lock. -/
def madeSure : List Nat := List.replicate 7 0

/-- Then the other takes the lock and drops the index. -/
def thenDropped : List Nat := madeSure ++ List.replicate 6 1

theorem exists_madeSure (frail : Call → Prop) : ∃ acts u,
    upsertAndForce.Course (World.Meets frail) acts u ∧ putsEvent u = true :=
  Crew.exists_course madeSure (fun _ hc => absurd hc List.not_mem_nil) (by decide +kernel)

theorem exists_thenDropped (frail : Call → Prop) : ∃ acts u,
    upsertAndForce.Course (World.Meets frail) acts u ∧
      (putsEvent u && (u.world.engine.mapping? "event").isNone) = true :=
  Crew.exists_course thenDropped (fun _ hc => absurd hc List.not_mem_nil) (by decide +kernel)

/-- No call failed, the index was good, and the upsert had made sure of it; but the document
is about to be put where there is no index. -/
theorem a_put_finds_no_index : ∃ acts u,
    upsertAndForce.Course (World.Meets noCall) acts u ∧
      ∃ id fields, u.Faces (.engine (.put "event" id fields)) ∧
        u.world.engine.mapping? "event" = none := by
  obtain ⟨acts, u, hcourse, hcheck⟩ := exists_thenDropped noCall
  obtain ⟨hputs, hnone⟩ := (Bool.and_eq_true _ _).mp hcheck
  obtain ⟨id, fields, hfaces⟩ := faces_of_putsEvent hputs
  exact ⟨acts, u, hcourse, id, fields, hfaces, Option.isNone_iff_eq_none.mp hnone⟩

/-- Right after the upsert made sure of it the index is good. -/
theorem an_upsert_finds_its_good_index : upsertAndForce.world.Honest ∧ ∃ acts u,
    upsertAndForce.Course (World.Meets noCall) acts u ∧
      ∃ id fields, u.Faces (.engine (.put "event" id fields)) ∧
        (isSound (u.world.engine.mapping? "event") = true ↔ ¬ u.Creates "event") ∧
        (u.Creates "event" → "event" ∈ u.held ∧ u.world.engine.mapping? "event" = none) := by
  have honest : upsertAndForce.world.Honest := World.honest_of_fresh rfl
  obtain ⟨acts, u, hcourse, hputs⟩ := exists_madeSure noCall
  obtain ⟨id, fields, hfaces⟩ := faces_of_putsEvent hputs
  exact ⟨honest, acts, u, hcourse, id, fields, hfaces,
    a_put_finds_a_good_index_iff honest hcourse hfaces⟩

end TenantSearch
