-- What is in an index again once the jobs have run that were queued when it
-- was dropped. A job is for one solution and one spelling of the entity name,
-- while the index is for all of them.
import TenantSearch.Proofs.ReachableWorlds
import TenantSearch.Proofs.StaleScans

namespace TenantSearch

open Service

/-! ## Runs of jobs -/

namespace IndexEvent

def index? : IndexEvent → Option String
  | .dropped index => some index
  | .queued _ => none

def job? : IndexEvent → Option BackfillJob
  | .dropped _ => none
  | .queued job => some job

end IndexEvent

namespace World

/-- What became of indices between two worlds of a run. -/
def eventsSince (w w' : World) : List IndexEvent := (w.callsSince w').filterMap Call.event?

/-- The indices dropped between two worlds of a run. -/
def droppedSince (w w' : World) : List String := (w.eventsSince w').filterMap IndexEvent.index?

/-- The jobs queued between two worlds of a run. -/
def jobsSince (w w' : World) : List BackfillJob := (w.eventsSince w').filterMap IndexEvent.job?

theorem Logs.eventsSince {w w' : World} {events : List IndexEvent} (h : w.Logs w' events) :
    w.eventsSince w' = events := by
  obtain ⟨calls, hlog, rfl⟩ := h
  unfold World.eventsSince callsSince
  rw [hlog, List.drop_left]

theorem Logs.mem_droppedSince {w w' : World} {events : List IndexEvent} (h : w.Logs w' events)
    {index : String} : index ∈ w.droppedSince w' ↔ .dropped index ∈ events := by
  unfold droppedSince
  rw [h.eventsSince, List.mem_filterMap]
  constructor
  · rintro ⟨event, hevent, hindex⟩
    cases event with
    | dropped other =>
      cases hindex
      exact hevent
    | queued job => cases hindex
  · exact fun hmem => ⟨_, hmem, rfl⟩

theorem Logs.mem_jobsSince {w w' : World} {events : List IndexEvent} (h : w.Logs w' events)
    {job : BackfillJob} : job ∈ w.jobsSince w' ↔ .queued job ∈ events := by
  unfold jobsSince
  rw [h.eventsSince, List.mem_filterMap]
  constructor
  · rintro ⟨event, hevent, hjob⟩
    cases event with
    | dropped index => cases hjob
    | queued other =>
      cases hjob
      exact hevent
  · exact fun hmem => ⟨_, hmem, rfl⟩

end World

/-- A worker ran jobs one after the other, without outages: each of them in a
world of its own that has the rows, the definitions and the indices as the job
before left them. -/
inductive Backfilled : List BackfillJob → World → World → Prop
  | none {w : World} : Backfilled [] w w
  | next {job : BackfillJob} {rest : List BackfillJob} {w v w' : World} {size : Nat}
      (records : v.records = w.records) (definitions : v.definitions = w.definitions)
      (engine : v.engine = w.engine) (calm : v.Calm)
      (pages : v.circumstances.settings.reindexPage = .int size)
      (pageSize : Store.IsPageSize size) (clock : v.circumstances.now.micros < Timestamp.limit)
      (later : Backfilled rest (job.program.runIn v).2 w') : Backfilled (job :: rest) w w'

/-- A job that runs once, under circumstances of its own. -/
theorem Backfilled.once {job : BackfillJob} {w : World} {here : Circumstances} {size : Nat}
    (calm : w.Calm) (pages : here.settings.reindexPage = .int size)
    (pageSize : Store.IsPageSize size) (clock : here.now.micros < Timestamp.limit) :
    Backfilled [job] w (job.program.runIn { w with circumstances := here }).2 :=
  @Backfilled.next _ _ _ { w with circumstances := here } _ _ rfl rfl rfl calm pages pageSize clock
    .none

/-- What runs of one job leave of an index: the copies stay, and those that
come are of rows that the job finds. -/
structure World.Refilled (w w' : World) (job : BackfillJob) (index : String) : Prop where
  kept : ∀ key, w.engine.holds index key = true → w'.engine.holds index key = true
  only : ∀ key, w'.engine.holds index key = true → w.engine.holds index key = true ∨
    ∃ r ∈ w.records, key = .text r.id ∧ job.Finds r ∧ r.entityName ∉ reservedEntities

/-- Runs of one job fill an index from the rows that the job finds, and one run
is enough to bring back those that can be reindexed. -/
theorem Backfilled.refilled {jobs : List BackfillJob} {w w' : World} (h : Backfilled jobs w w')
    {job : BackfillJob} (hjobs : ∀ other ∈ jobs, other = job)
    (hcutoff : job.cutoff.micros < Timestamp.limit) (htable : w.records.Sound) {index : String}
    (hsound : w.engine.SoundAt index) :
    w.Refilled w' job index ∧ (jobs ≠ [] → ∀ r ∈ w.records, job.Finds r →
      r.Refreshable w.definitions → r.entityName ∉ reservedEntities → index ∈ r.indices →
        w'.engine.holds index (.text r.id) = true) := by
  induction h with
  | none => exact ⟨⟨fun _ h => h, fun _ h => Or.inl h⟩, fun hne => absurd rfl hne⟩
  | @next head rest w v w' size records definitions engine calm pages pageSize clock later ih =>
    have hhead : head = job := hjobs head List.mem_cons_self
    subst hhead
    have hsound' : v.engine.SoundAt index := engine ▸ hsound
    obtain ⟨rows, hswept, hrows⟩ := head.program_leads hcutoff pages pageSize calm
      (records ▸ htable) hsound' clock
    obtain ⟨hrest, -⟩ := ih (fun other h => hjobs other (List.mem_cons_of_mem _ h))
      hswept.table hswept.sound
    rw [records] at hrows
    refine ⟨⟨fun key hkey => hrest.kept key (hswept.kept key (engine ▸ hkey)), fun key hkey => ?_⟩,
      fun _ r hr hfinds hrow hunreserved hindex => hrest.kept _ ?_⟩
    · rcases hrest.only key hkey with hkey | ⟨r', hr', rfl, hfinds, hunreserved⟩
      · rcases hswept.only key hkey with hkey | ⟨r, hr, hrest⟩
        · exact Or.inl (engine ▸ hkey)
        · exact Or.inr ⟨r, ((hrows r).mp hr).1, hrest.1, ((hrows r).mp hr).2, hrest.2⟩
      · obtain ⟨r, hr, hnames, hsame⟩ := hswept.origin r' hr'
        rw [records] at hr
        rcases hsame with rfl | ⟨v, hv, hid⟩
        · exact Or.inr ⟨r', hr, rfl, hfinds, hunreserved⟩
        · obtain ⟨hmem, hfound⟩ := (hrows v).mp hv
          cases htable.eq_of_id hmem hr hid.symm
          exact Or.inr ⟨_, hr, by rw [hnames.id], hfound, hnames.entityName ▸ hunreserved⟩
    · exact hswept.back r ((hrows r).mpr ⟨hr, hfinds⟩) (definitions ▸ hrow) hunreserved hindex

/-! ## Records that come back -/

/-- Every record that goes to an index and was in it is in it again. -/
def AllComeBack (w w' : World) (index : String) : Prop :=
  ∀ r ∈ w.records, index ∈ r.indices → w.engine.holds index (.text r.id) = true →
    w'.engine.holds index (.text r.id) = true

/-- In any world that can be reached, an index that is dropped on request is
filled again by the job of the request, however often it is queued. The records
that come back are those that the job finds: the ones of its solution and of its
spelling of the entity name that were not pushed since the drop. So all come
back just when the job finds all that were there, if they can be reindexed. -/
theorem records_come_back_iff_the_job_finds_them {w w' : World} (hreachable : Reachable w)
    (hcalm : w.Calm) (hqueue : w.circumstances.backfills = true)
    (hnow : w.circumstances.now.micros < Timestamp.limit) (c : IndexRequest) {index : String}
    (hdropped : index ∈ w.droppedSince (c.runIn w))
    (hran : Backfilled (w.jobsSince (c.runIn w)) (c.runIn w) w') :
    (∀ r ∈ w.records, (w'.engine.holds index (.text r.id) = true →
        (c.job w.circumstances).Finds r ∧ r.entityName ∉ reservedEntities) ∧
      (index ∈ r.indices → r.Refreshable w.definitions → (c.job w.circumstances).Finds r →
        r.entityName ∉ reservedEntities → w'.engine.holds index (.text r.id) = true)) ∧
    ((∀ r ∈ w.records, index ∈ r.indices → w.engine.holds index (.text r.id) = true →
        r.Refreshable w.definitions) →
      (AllComeBack w w' index ↔
        ∀ r ∈ w.records, index ∈ r.indices → w.engine.holds index (.text r.id) = true →
          (c.job w.circumstances).Finds r ∧ r.entityName ∉ reservedEntities)) := by
  obtain ⟨hrecords, hmapped⟩ := hreachable.sound
  obtain ⟨hbeside, -, -, events, hlogs, hjobs, hfate⟩ := c.recreates hcalm hmapped hqueue index
  obtain ⟨hqueued, hempty⟩ := hfate (hlogs.mem_droppedSince.mp hdropped)
  have hsame : ∀ other ∈ w.jobsSince (c.runIn w), other = c.job w.circumstances :=
    fun other h => hjobs other (hlogs.mem_jobsSince.mp h)
  obtain ⟨hrefilled, hback⟩ := hran.refilled hsame hnow (hbeside.records ▸ hrecords) hempty.sound
  have hsome := hback (List.ne_nil_of_mem (hlogs.mem_jobsSince.mpr hqueued))
  rw [hbeside.records, hbeside.definitions] at hsome
  have honly {r : Record} (hr : r ∈ w.records) (hholds : w'.engine.holds index (.text r.id) = true) :
      (c.job w.circumstances).Finds r ∧ r.entityName ∉ reservedEntities := by
    rcases hrefilled.only _ hholds with hleft | ⟨v, hv, hkey, hfound⟩
    · rw [hempty.holds] at hleft
      cases hleft
    · rw [hbeside.records] at hv
      cases hrecords.eq_of_id hv hr (Json.Key.text.inj hkey)
      exact hfound
  refine ⟨fun r hr => ⟨honly hr, fun hindex hrow hfinds hunreserved =>
    hsome r hr hfinds hrow hunreserved hindex⟩, fun hrows => ?_⟩
  constructor
  · exact fun hall r hr hindex hheld => honly hr (hall r hr hindex hheld)
  · intro hfound r hr hindex hheld
    obtain ⟨hfinds, hunreserved⟩ := hfound r hr hindex hheld
    exact hsome r hr hfinds (hrows r hr hindex hheld) hunreserved hindex

/-- The circumstances in which jobs can be queued. -/
def evening : Circumstances := { morning with backfills := true }

/-- The circumstances a little later. -/
def later : Circumstances := { evening with now := ⟨1⟩ }

/-- An event of a solution. -/
def eventOf (id solutionId : String) : Fields :=
  [("id", .str id), ("entityName", .str "Event"), ("solutionId", .str solutionId)]

/-- A world in which two solutions have an event each. -/
def sharedWorld : World :=
  Operation.runIn
    (Operation.runIn (.empty evening) (.indexing (.write (eventOf "e-1" "sol-1"))))
    (.indexing (.write (eventOf "e-2" "sol-2")))

/-- A request of the first solution that its events be indexed anew. -/
def renewal : IndexRequest := .ensure (.str "sol-1") "Event" .null true

/-- The job of the request. -/
def renewalJob : BackfillJob := renewal.job sharedWorld.circumstances

/-- The world after the request. -/
def renewedWorld : World := renewal.runIn sharedWorld

/-- The world after the job of the request as well, which runs a little later. -/
def refilledWorld : World :=
  (renewalJob.program.runIn { renewedWorld with circumstances := later }).2

/-- What happens in the shared world: the index of the events is dropped, and
the job of the request runs. -/
theorem refilledWorld_run :
    Reachable sharedWorld ∧ sharedWorld.Calm ∧ sharedWorld.circumstances.backfills = true ∧
      sharedWorld.circumstances.now.micros < Timestamp.limit ∧
      sharedWorld.droppedSince renewedWorld = ["event"] ∧
      Backfilled (sharedWorld.jobsSince renewedWorld) renewedWorld refilledWorld := by
  have htests : sharedWorld.plans.isEmpty = true ∧ renewedWorld.plans.isEmpty = true ∧
      sharedWorld.circumstances.backfills = true ∧
      sharedWorld.circumstances.now.micros < Timestamp.limit ∧
      later.now.micros < Timestamp.limit ∧
      sharedWorld.droppedSince renewedWorld = ["event"] ∧
      (sharedWorld.jobsSince renewedWorld).length = 1 := by decide +kernel
  obtain ⟨hplans, hplans', hqueue, hnow, hlater, hdropped, hlength⟩ := htests
  have hreachable : Reachable sharedWorld := .ran (.ran (.start rfl rfl) _) _
  have hcalm : sharedWorld.Calm := List.isEmpty_iff.mp hplans
  have hcalm' : renewedWorld.Calm := List.isEmpty_iff.mp hplans'
  have hpages : later.settings.reindexPage = .int (100 : Nat) := rfl
  refine ⟨hreachable, hcalm, hqueue, hnow, hdropped, ?_⟩
  obtain ⟨job, hjob⟩ := List.length_eq_one_iff.mp hlength
  obtain ⟨-, -, -, events, hlogs, hjobs, -⟩ :=
    renewal.recreates hcalm hreachable.sound.mapped hqueue "event"
  have hmem : job ∈ sharedWorld.jobsSince renewedWorld := hjob ▸ List.mem_singleton_self job
  have hsame : job = renewalJob := hjobs job (hlogs.mem_jobsSince.mp hmem)
  rw [hjob, hsame]
  exact .once hcalm' hpages ⟨by decide, by decide⟩ hlater

/-- The event of the solution that asked is in the index again. -/
theorem the_event_of_the_same_solution_comes_back :
    Reachable sharedWorld ∧ sharedWorld.Calm ∧ sharedWorld.circumstances.backfills = true ∧
      sharedWorld.circumstances.now.micros < Timestamp.limit ∧
      "event" ∈ sharedWorld.droppedSince (renewal.runIn sharedWorld) ∧
      Backfilled (sharedWorld.jobsSince (renewal.runIn sharedWorld)) (renewal.runIn sharedWorld)
        refilledWorld ∧
      ∃ r ∈ sharedWorld.records, r.id = "e-1" ∧
        refilledWorld.engine.holds "event" (.text r.id) = true := by
  obtain ⟨hreachable, hcalm, hqueue, hnow, hdropped, hran⟩ := refilledWorld_run
  have hmem : "event" ∈ sharedWorld.droppedSince renewedWorld :=
    hdropped ▸ List.mem_singleton_self _
  have hrow : ∃ r ∈ sharedWorld.records, r.id = "e-1" ∧ "event" ∈ r.indices ∧
      r.Refreshable sharedWorld.definitions ∧ renewalJob.Finds r ∧
      r.entityName ∉ reservedEntities := by decide +kernel
  obtain ⟨r, hr, hid, hindex, hrefreshable, hfinds, hunreserved⟩ := hrow
  obtain ⟨hrows, -⟩ := records_come_back_iff_the_job_finds_them hreachable hcalm hqueue hnow
    renewal hmem hran
  exact ⟨hreachable, hcalm, hqueue, hnow, hmem, hran, r, hr, hid,
    (hrows r hr).2 hindex hrefreshable hfinds hunreserved⟩

/-- The event of the other solution was in the index too, and stays away. -/
theorem the_event_of_another_solution_stays_away :
    Reachable sharedWorld ∧ sharedWorld.Calm ∧ sharedWorld.circumstances.backfills = true ∧
      "event" ∈ sharedWorld.droppedSince (renewal.runIn sharedWorld) ∧
      Backfilled (sharedWorld.jobsSince (renewal.runIn sharedWorld)) (renewal.runIn sharedWorld)
        refilledWorld ∧
      ¬ AllComeBack sharedWorld refilledWorld "event" := by
  obtain ⟨hreachable, hcalm, hqueue, -, hdropped, hran⟩ := refilledWorld_run
  have hlost : ∃ r ∈ sharedWorld.records, "event" ∈ r.indices ∧
      sharedWorld.engine.holds "event" (.text r.id) = true ∧
      refilledWorld.engine.holds "event" (.text r.id) = false := by decide +kernel
  refine ⟨hreachable, hcalm, hqueue, hdropped ▸ List.mem_singleton_self _, hran, fun hall => ?_⟩
  obtain ⟨r, hr, hindex, hheld, hgone⟩ := hlost
  rw [hall r hr hindex hheld] at hgone
  cases hgone

end TenantSearch
