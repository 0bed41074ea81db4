-- A job that fills a recreated index again is queued and forgotten: making sure of
-- indices comes to the same, whatever becomes of the jobs that it queues.
import Mathlib.Data.List.Forall2
import TenantSearch.Proofs.HeardUpkeep

namespace TenantSearch

/-- The same exchange, but for what was answered to a job that was to be queued. -/
inductive Exchange.Alike : Exchange → Exchange → Prop
  | same (e : Exchange) : Alike e e
  | job (job : BackfillJob) (reply reply' : Except Outage Unit) (before after : World) :
      Alike ⟨.call (.queue (.enqueue job)), reply, before, after⟩
        ⟨.call (.queue (.enqueue job)), reply', before, after⟩

/-- Where no job is queued, exchanges that are alike are the same. -/
theorem Exchange.eq_of_alike {heard heard' : List Exchange}
    (hidle : heard.filterMap (·.queued?) = []) (h : List.Forall₂ Exchange.Alike heard' heard) :
    heard' = heard := by
  induction h with
  | nil => rfl
  | @cons e e' first second halike _ ih =>
    obtain ⟨hhead, htail⟩ := List.forall_mem_cons.mp (List.filterMap_eq_nil_iff.mp hidle)
    rw [ih (List.filterMap_eq_nil_iff.mpr htail)]
    cases halike with
    | same => rfl
    | job => cases hhead

/-- Whatever is answered to a job, the world is the same afterwards. -/
theorem World.Answers.of_enqueue {w w' : World} {job : BackfillJob} {r : Except Outage Unit}
    (h : w.Answers World.anyCall (.queue (.enqueue job)) r w') (r' : Except Outage Unit) :
    w.Answers World.anyCall (.queue (.enqueue job)) r' w' := by
  obtain ⟨plans, rfl⟩ : ∃ plans, w' = w.calling (.queue (.enqueue job)) plans := by
    obtain ⟨plans, hsame | heffect⟩ := h.world
    · exact ⟨plans, hsame⟩
    · exact ⟨plans, heffect⟩
  rcases r' with o | ⟨⟩
  · exact .failed o plans trivial
  · exact .answered plans

namespace Service

variable {α β : Type}

/-- Whatever is answered to the jobs that it queues, the service has the same other
exchanges, and comes to the same outcome in the same world. -/
def IgnoresJobs (x : Service α) : Prop :=
  ∀ w heard r w' heard', x.Hears w heard r w' → List.Forall₂ Exchange.Alike heard' heard →
    x.Hears w heard' r w'

theorem ignoresJobs_of_idle {x : Service α}
    (h : ∀ w, x.Told w fun _ heard _ => heard.filterMap (·.queued?) = []) : x.IgnoresJobs := by
  intro w heard r w' heard' hheard halike
  rw [Exchange.eq_of_alike (h w r heard w' hheard) halike]
  exact hheard

theorem ignoresJobs_orFail (outcome : Except Failure α) : (orFail outcome).IgnoresJobs :=
  ignoresJobs_of_idle fun w => (told_orFail w outcome _).mpr rfl

theorem ignoresJobs_pure (a : α) : (pure a : Service α).IgnoresJobs := ignoresJobs_orFail (.ok a)

theorem ignoresJobs_change (m : MemoryChange) : (change m).IgnoresJobs :=
  ignoresJobs_of_idle fun _ => (told_change m _).mpr rfl

theorem IgnoresJobs.bind {x : Service α} {f : α → Service β} (hx : x.IgnoresJobs)
    (hf : ∀ a, (f a).IgnoresJobs) : (x >>= f).IgnoresJobs := by
  intro w heard r w' heard' hheard halike
  rcases hears_bind_iff.mp hheard with ⟨e, hfirst, rfl⟩ |
    ⟨first, a, w₁, second, hfirst, hsecond, rfl⟩
  · exact hears_bind_iff.mpr (Or.inl ⟨e, hx _ _ _ _ _ hfirst halike, rfl⟩)
  · have hleft := hx _ _ _ _ _ hfirst (List.forall₂_take_append heard' first second halike)
    have hright := hf a _ _ _ _ _ hsecond (List.forall₂_drop_append heard' first second halike)
    exact hears_bind_iff.mpr
      (Or.inr ⟨_, a, w₁, _, hleft, hright, (List.take_append_drop _ _).symm⟩)

theorem IgnoresJobs.attempt {x : Service α} (hx : x.IgnoresJobs) : (attempt x).IgnoresJobs := by
  intro w heard r w' heard' hheard halike
  obtain ⟨outcome, rfl, houtcome⟩ := hears_attempt_iff.mp hheard
  exact hears_attempt_iff.mpr ⟨outcome, rfl, hx _ _ _ _ _ houtcome halike⟩

theorem IgnoresJobs.locked {index : String} {x : Service Bool} (hx : x.IgnoresJobs) :
    (locked index x).IgnoresJobs := by
  have hacquire : (ask (.acquire index)).IgnoresJobs := ignoresJobs_of_idle fun w =>
    (told_ask_own w (s := .acquire index) (fun _ => nofun) _).mpr rfl
  have hrelease : (ask (.release index)).IgnoresJobs := ignoresJobs_of_idle fun w =>
    (told_ask_own w (s := .release index) (fun _ => nofun) _).mpr rfl
  exact hacquire.bind fun _ => hx.attempt.bind fun r => hrelease.bind fun _ => ignoresJobs_orFail r

end Service

open Service

/-- A job is asked for, and the answer is dropped. -/
theorem enqueue_ignoresJobs (job : BackfillJob) :
    (do let _ ← ask (.call (.queue (.enqueue job))); pure () : Service Unit).IgnoresJobs := by
  intro w heard r w' heard' hheard halike
  obtain ⟨reply, w₁, rest, meets, hrest, rfl⟩ := Prog.hears_step_iff.mp hheard
  cases hrest
  obtain ⟨e, nothing, hlike, hnothing, rfl⟩ := List.forall₂_cons_right_iff.mp halike
  obtain rfl := List.forall₂_nil_right_iff.mp hnothing
  cases hlike with
  | same => exact hheard
  | job _ reply' =>
    cases meets with
    | own own => exact absurd rfl (own _)
    | call answers => exact .step (.call (answers.of_enqueue reply')) (.done (Except.ok ()) _)

theorem backfill_ignoresJobs (solutionId : Json) (target : IndexTarget) :
    (Index.backfill solutionId target).IgnoresJobs := by
  have hlook : circumstances.IgnoresJobs := ignoresJobs_of_idle fun w =>
    (told_ask_own w (s := .look) (fun _ => nofun) _).mpr rfl
  refine hlook.bind fun here => ?_
  split
  · exact enqueue_ignoresJobs _
  · exact ignoresJobs_pure ()

theorem recreate_ignoresJobs (solutionId : Json) (target : IndexTarget) :
    (Index.recreate solutionId target).IgnoresJobs := by
  have hreplace : (Index.replace solutionId target).IgnoresJobs := ignoresJobs_of_idle fun w =>
    (replace_told solutionId target).mono fun _ _ _ h => h.2.1.queued
  refine (ignoresJobs_change _).bind fun _ => (ignoresJobs_change _).bind fun _ => ?_
  refine hreplace.attempt.bind fun r => ?_
  rcases r with f | ⟨d, existed⟩
  · exact (ignoresJobs_change _).bind fun _ => ignoresJobs_orFail (.error f)
  · refine (ignoresJobs_change _).bind fun _ => (ignoresJobs_change _).bind fun _ => ?_
    split
    · exact (backfill_ignoresJobs solutionId target).bind fun _ => ignoresJobs_pure d
    · exact ignoresJobs_pure d

theorem ensureOne_ignoresJobs (solutionId : Json) (force : Bool) (target : IndexTarget) :
    (Index.ensureOne solutionId force target).IgnoresJobs := by
  have hlook : (Index.isGood target.name).IgnoresJobs := ignoresJobs_of_idle fun _ =>
    isGood_told.mono fun _ _ _ ⟨_, _, h⟩ => h.account.queued
  have hrecreate := recreate_ignoresJobs solutionId target
  refine IgnoresJobs.locked ?_
  cases force with
  | true => exact hrecreate.bind fun _ => ignoresJobs_pure true
  | false =>
    have hdue : ((! ·) <$> Index.isGood target.name).IgnoresJobs := by
      rw [map_eq_pure_bind]
      exact hlook.bind fun _ => ignoresJobs_pure _
    refine hdue.bind fun due => ?_
    dsimp only
    split
    · exact hrecreate.bind fun _ => ignoresJobs_pure due
    · exact ignoresJobs_pure due

/-- Making sure of indices comes to the same whatever becomes of the jobs. -/
theorem ensureEach_ignoresJobs (solutionId : Json) (force : Bool) (targets : List IndexTarget) :
    (Index.ensureEach solutionId force targets).IgnoresJobs := by
  induction targets with
  | nil => exact ignoresJobs_pure []
  | cons target rest ih =>
    refine (ensureOne_ignoresJobs solutionId force target).bind fun created => ?_
    exact ih.bind fun others => ignoresJobs_pure _

end TenantSearch
