-- What recreating indices does to one of them in a world without outages: if
-- it was dropped, it is empty and sound afterwards, and a job is queued that
-- fills it again.
import TenantSearch.Proofs.CalmUpkeep
import TenantSearch.Proofs.DocumentWrites

namespace TenantSearch

/-! ## Empty indices -/

namespace SearchEngine

/-- No index is mapped to null. -/
def Mapped (e : SearchEngine) : Prop := ∀ index, e.mapping? index ≠ some .null

/-- An index without copies, and compatible if it is there. -/
structure EmptyAt (e : SearchEngine) (index : String) : Prop where
  sound : e.SoundAt index
  copies : ∀ key, e.copy? index key = none

theorem EmptyAt.holds {e : SearchEngine} {index : String} (h : e.EmptyAt index) (key : Json.Key) :
    e.holds index key = false := by
  rw [holds_eq, h.copies]
  rfl

theorem ne_null_of_isSound {mapping : Json} (h : isSound (some mapping) = true) :
    mapping ≠ .null := by
  rintro rfl
  cases h

theorem Mapped.renewed {e : SearchEngine} (h : e.Mapped) {mapping : Json}
    (hmapping : isSound (some mapping) = true) (index : String) :
    (e.renewed index mapping).Mapped := by
  intro i
  rw [mapping?_renewed]
  split
  · exact fun heq => ne_null_of_isSound hmapping (Option.some.inj heq)
  · exact h i

/-- An empty index stays empty when an index is created anew. -/
theorem EmptyAt.renewed {e : SearchEngine} {i : String} (h : e.EmptyAt i) {mapping : Json}
    (hmapping : isSound (some mapping) = true) (index : String) :
    (e.renewed index mapping).EmptyAt i := by
  refine ⟨.renewed (fun _ => h.sound) hmapping, fun key => ?_⟩
  by_cases hi : i = index
  · unfold SearchEngine.renewed
    rw [copy?_setMapping]
    rcases e.mapping? index with _ | old
    · exact h.copies key
    · cases old with
      | null => exact (copy?_dropMapping e index i key).trans (h.copies key)
      | _ => exact (copy?_drop e index i key).trans (if_pos hi)
  · rw [copy?_renewed_of_ne _ _ hi, h.copies]

/-- An index that was there is empty when it is created anew. -/
theorem emptyAt_renewed {e : SearchEngine} (h : e.Mapped) {index : String}
    (hthere : (e.mapping? index).isSome = true) {mapping : Json}
    (hmapping : isSound (some mapping) = true) : (e.renewed index mapping).EmptyAt index := by
  refine ⟨.renewed (fun hne => absurd rfl hne) hmapping, fun key => ?_⟩
  have hnull := h index
  unfold renewed
  rw [copy?_setMapping]
  rcases hold : e.mapping? index with _ | old
  · rw [hold] at hthere
    cases hthere
  · cases old with
    | null => exact absurd hold hnull
    | _ => exact (copy?_drop e index index key).trans (if_pos rfl)

end SearchEngine

/-! ## Recreation as one index sees it -/

/-- Indices were made sure of: an empty index stays empty, the one job is
queued at most, and an index that was dropped is empty and to be filled again
by the job. -/
structure World.Recreated (w w' : World) (index : String) (job : BackfillJob) : Prop where
  beside : w.Beside w'
  mapped : w'.engine.Mapped
  empty : w.engine.EmptyAt index → w'.engine.EmptyAt index
  events : ∃ events, w.Logs w' events ∧ (∀ other, .queued other ∈ events → other = job) ∧
    (.dropped index ∈ events → .queued job ∈ events ∧ w'.engine.EmptyAt index)

theorem World.Recreated.of_engine {w w' : World} {index : String} {job : BackfillJob}
    (hmapped : w.engine.Mapped) (hbeside : w.Beside w') (hengine : w'.engine = w.engine)
    (hlogs : w.Logs w' []) : w.Recreated w' index job :=
  ⟨hbeside, hengine ▸ hmapped, fun h => hengine ▸ h, [], hlogs,
    fun _ h => absurd h List.not_mem_nil, fun h => absurd h List.not_mem_nil⟩

theorem World.Recreated.trans {w w' w'' : World} {index : String} {job : BackfillJob}
    (h : w.Recreated w' index job) (h' : w'.Recreated w'' index job) :
    w.Recreated w'' index job := by
  obtain ⟨events, hlogs, hjobs, hdropped⟩ := h.events
  obtain ⟨events', hlogs', hjobs', hdropped'⟩ := h'.events
  refine ⟨h.beside.trans h'.beside, h'.mapped, fun hempty => h'.empty (h.empty hempty),
    events ++ events', hlogs.trans hlogs', fun other hother => ?_, fun hmem => ?_⟩
  · exact (List.mem_append.mp hother).elim (hjobs other) (hjobs' other)
  · rcases List.mem_append.mp hmem with hmem | hmem
    · obtain ⟨hqueued, hempty⟩ := hdropped hmem
      exact ⟨List.mem_append_left _ hqueued, h'.empty hempty⟩
    · obtain ⟨hqueued, hempty⟩ := hdropped' hmem
      exact ⟨List.mem_append_right _ hqueued, hempty⟩

section

variable {w w' : World} {solutionId : Json} {target : IndexTarget} {index : String}

theorem Recreation.recreates {r : Except Failure IndexDescriptor}
    (h : Recreation w solutionId target r w') (hbeside : w.Beside w') (hmapped : w.engine.Mapped)
    (hqueue : w.circumstances.backfills = true) :
    w.Recreated w' index (jobOf w.circumstances solutionId target.entityName) := by
  cases h with
  | refused _ engine logs => exact .of_engine hmapped hbeside engine logs
  | done descriptor engine logs =>
    obtain ⟨-, hsound⟩ := descriptorFor_eq_ok descriptor
    refine ⟨hbeside, engine ▸ hmapped.renewed hsound _, fun h => engine ▸ h.renewed hsound _, _,
      logs, fun other hother => ?_, fun hdropped => ?_⟩
    · split at hother
      · simpa [recreationEvents, hqueue] using hother
      · cases hother
    · split at hdropped
      · next hthere =>
        have hindex : index = target.name := by simpa [recreationEvents, hqueue] using hdropped
        rw [if_pos hthere, hindex, engine]
        exact ⟨by simp [recreationEvents, hqueue], SearchEngine.emptyAt_renewed hmapped hthere hsound⟩
      · cases hdropped

theorem Upkeep.recreates {r : Except Failure Bool} {force : Bool}
    (h : Upkeep w solutionId force target r w') (hbeside : w.Beside w') (hmapped : w.engine.Mapped)
    (hqueue : w.circumstances.backfills = true) :
    w.Recreated w' index (jobOf w.circumstances solutionId target.entityName) := by
  cases h with
  | spared _ engine logs => exact .of_engine hmapped hbeside engine logs
  | recreated _ recreation => exact recreation.recreates hbeside hmapped hqueue

end

open Service

theorem ensureEach_recreates (solutionId : Json) (force : Bool) {targets : List IndexTarget}
    {entityName : String} (htargets : ∀ t ∈ targets, t.entityName = entityName) {w : World}
    (hcalm : w.Calm) (hmapped : w.engine.Mapped) (hqueue : w.circumstances.backfills = true)
    (index : String) :
    (Index.ensureEach solutionId force targets).Leads w fun _ w' =>
      w.Recreated w' index (jobOf w.circumstances solutionId entityName) := by
  induction targets generalizing w with
  | nil => exact .of_engine hmapped (.refl w) rfl (.refl w)
  | cons target rest ih =>
    unfold Index.ensureEach
    rw [leads_bind]
    refine (ensureOne_leads hcalm solutionId force target).mono ?_
    rintro r w₁ ⟨hbeside, hupkeep⟩
    have hfirst : w.Recreated w₁ index (jobOf w.circumstances solutionId entityName) :=
      htargets target List.mem_cons_self ▸ hupkeep.recreates hbeside hmapped hqueue
    rcases r with f | created
    · exact hfirst
    · dsimp only
      rw [leads_bind]
      have hrest := ih (fun t ht => htargets t (List.mem_cons_of_mem _ ht)) (hbeside.calm hcalm)
        hfirst.mapped (hbeside.circumstances ▸ hqueue)
      rw [hbeside.circumstances] at hrest
      refine hrest.mono ?_
      rintro r w₂ hrecreated
      rcases r with f | names
      · exact hfirst.trans hrecreated
      · exact hfirst.trans hrecreated

/-! ## Requests -/

/-- A request that may drop an index: to make sure of the indices of an entity,
or to create one anew. -/
inductive IndexRequest where
  | ensure (solutionId : Json) (entityName : String) (entityType : Json) (force : Bool)
  | create (solutionId : Json) (target : IndexTarget)

namespace IndexRequest

def solutionId : IndexRequest → Json
  | .ensure solutionId .. => solutionId
  | .create solutionId _ => solutionId

def entityName : IndexRequest → String
  | .ensure _ entityName .. => entityName
  | .create _ target => target.entityName

/-- The world after a request. -/
def runIn (w : World) : IndexRequest → World
  | .ensure solutionId entityName entityType force =>
    ((Index.ensure solutionId (.str entityName) entityType force).runIn w).2
  | .create solutionId target => ((Index.create solutionId target).runIn w).2

/-- The job that a request queues for each index that it drops. -/
def job (c : IndexRequest) (here : Circumstances) : BackfillJob :=
  jobOf here c.solutionId c.entityName

/-- An index that a request drops is empty afterwards, and the job of the
request is queued, which is the only one. -/
theorem recreates (c : IndexRequest) {w : World} (hcalm : w.Calm) (hmapped : w.engine.Mapped)
    (hqueue : w.circumstances.backfills = true) (index : String) :
    w.Recreated (c.runIn w) index (c.job w.circumstances) := by
  cases c with
  | create solutionId target =>
    have hcreate : (Index.create solutionId target).Leads w fun _ w' =>
        w.Recreated w' index (jobOf w.circumstances solutionId target.entityName) := by
      unfold Index.create
      rw [leads_locked]
      refine (recreate_leads hcalm solutionId target).mono ?_
      rintro r w' ⟨hbeside, hrecreation⟩
      exact hrecreation.recreates hbeside hmapped hqueue
    exact hcreate
  | ensure solutionId entityName entityType force =>
    have hensure : (Index.ensure solutionId (.str entityName) entityType force).Leads w fun _ w' =>
        w.Recreated w' index (jobOf w.circumstances solutionId entityName) := by
      unfold Index.ensure
      rw [leads_bind, leads_orFail]
      rcases hname : Index.entityNameOf (.str entityName) with f | name
      · exact .of_engine hmapped (.refl w) rfl (.refl w)
      · cases entityNameOf_eq_ok hname
        refine ensureEach_recreates solutionId force (fun t ht => ?_) hcalm hmapped hqueue index
        unfold IndexTarget.writeTargets at ht
        split at ht
        · rcases List.mem_cons.mp ht with rfl | ht
          · rfl
          · cases List.mem_singleton.mp ht
            rfl
        · cases List.mem_singleton.mp ht
          rfl
    exact hensure

end IndexRequest

end TenantSearch
