-- What reindexing stamps and counts while the search engine fails in any
-- pattern. A record is stamped before it goes to its indices, and whether it gets
-- there changes neither the stamp nor the count.
import TenantSearch.Proofs.FailingIndexing
import TenantSearch.Proofs.ReindexedRows

namespace TenantSearch

open Service

/-! ## Reindexing a record -/

theorem lookUpSchema_ends (solutionId entityName entityType : Json) (w : World)
    (post : Except Failure EntitySchema → List Moment → World → Prop) :
    (lookUpSchema solutionId entityName entityType).Ends besidesStore w post ↔
      let call : Call := .database (.definitions solutionId entityName entityType)
      ∀ plans, post (schemaFor w.definitions solutionId entityName entityType)
        [⟨.call call, w, w.calling call plans⟩] (w.calling call plans) := by
  unfold lookUpSchema
  rw [ends_bind, ends_call_firm id]
  refine forall_congr' fun plans => ?_
  have hanswer : (w.calling (.database (.definitions solutionId entityName entityType)) plans).effect
      (.database (.definitions solutionId entityName entityType)) =
        (EntityDefinition.rowsFor w.definitions solutionId entityName entityType,
          w.calling (.database (.definitions solutionId entityName entityType)) plans) := rfl
  rw [hanswer]
  unfold schemaFor
  rcases EntityDefinition.rowsFor w.definitions solutionId entityName entityType with o | rows
  · rfl
  · exact ends_orBroken _ _ _ _

namespace Reindex

/-- What the store makes of a record that is reindexed. -/
def restamped (definitions : List EntityDefinition) (now : Timestamp) (table : RecordTable)
    (document : Fields) : Except Failure (Fields × RecordTable) := do
  let schema ← schemaFor definitions (document.look "solutionId") (document.look "entityName")
    (document.look "entityType")
  let updated ← (refreshed schema.merged now document).mapError .broken
  Store.written table updated

theorem record_ends (document : Fields) (w : World) :
    (record document).Ends besidesStore w (Store.Writes
      (restamped w.definitions w.circumstances.now w.records document) w) := by
  unfold record restamped
  refine (ends_bind _ _ _ _ _).mpr ((lookUpSchema_ends _ _ _ _ _).mpr fun plans => ?_)
  rcases schemaFor w.definitions (document.look "solutionId") (document.look "entityName")
    (document.look "entityType") with f | schema
  · exact ⟨rfl, rfl⟩
  refine (ends_bind _ _ _ _ _).mpr ((ends_circumstances _ _ _).mpr ?_)
  refine (ends_bind _ _ _ _ _).mpr ((ends_orBroken _ _ _ _).mpr ?_)
  rw [ok_bind]
  have hnow : (w.calling (.database (.definitions (document.look "solutionId")
    (document.look "entityName") (document.look "entityType"))) plans).circumstances =
      w.circumstances := rfl
  simp only [hnow]
  rcases refreshed schema.merged w.circumstances.now document with b | updated
  · exact ⟨rfl, rfl⟩
  · refine (Store.write_ends updated _).mono fun r moments w' h => ?_
    have hlook : Store.Writes _ _ r (⟨.look, _, _⟩ :: moments) w' := h.cons nofun rfl rfl
    exact hlook.cons nofun rfl rfl

/-- What is saved of a record that is reindexed has its texts, keeps its entity and
leaves a row that is stamped now. -/
theorem restamped_spec {definitions : List EntityDefinition} {now : Timestamp}
    {table table' : RecordTable} {document version : Fields}
    (h : restamped definitions now table document = .ok (version, table'))
    (hnow : now.micros < Timestamp.limit) :
    Projection.hasTexts version = true ∧ isReserved version = isReserved document ∧
      ∃ row ∈ table', Record.columnText (version.look "id") = .ok (some row.id) ∧
        row.reindexedOn = some now := by
  obtain ⟨schema, -, h⟩ := bind_eq_ok.mp h
  obtain ⟨updated, hupdated, h⟩ := bind_eq_ok.mp h
  obtain ⟨stamp, hstamp, h⟩ := bind_eq_ok.mp h
  rw [mapError_eq_ok] at hupdated h
  have hstamped := stampOf_eq_ok_iff.mp hstamp
  obtain rfl : stamp = some now :=
    Except.ok.inj (hstamped.stamp.symm.trans (ofValue_refreshed hupdated hnow))
  obtain ⟨id, row, hkept, rfl, hcases⟩ := RecordTable.save_eq_ok h
  have hrow := hkept.columns
  have hreserved : isReserved updated = isReserved document := by
    unfold isReserved
    rw [look_refreshed hupdated (by decide)]
  have hlook {name : String} (hname : name ≠ reindexedField) :
      (Record.savedDocument updated (some now)).look name = updated.look name :=
    look_savedDocument _ _ hname
  rcases hcases with ⟨rfl, rfl⟩ | ⟨r, -, rfl, rfl⟩
  · refine ⟨hasTexts_savedDocument hupdated _, ?_, row, RecordTable.mem_put_self _ _, ?_, hrow.reindexedOn⟩
    · rw [← hreserved]
      unfold isReserved
      rw [hlook (by decide)]
    · rw [hlook (by decide)]
      exact hrow.id
  · refine ⟨(hasTexts_set_id _ _).trans (hasTexts_savedDocument hupdated _), ?_, row,
      RecordTable.mem_put_self _ _, ?_, hrow.reindexedOn⟩
    · rw [← hreserved]
      unfold isReserved
      rw [Fields.look_set, if_neg (by decide), hlook (by decide)]
    · rw [Fields.look_set, if_pos rfl]
      exact hrow.id

/-! ## Turns -/

/-- The turn of a record in a run of reindexing, from the world before to the world
after it. -/
structure Round where
  document : Fields
  before : World
  moments : List Moment
  after : World

namespace Round

/-- The version that is saved in a turn and the table with it, unless the record is
reserved or cannot be saved. -/
def saved? (round : Round) : Option (Fields × RecordTable) :=
  if isReserved round.document then none
  else
    match restamped round.before.definitions round.before.circumstances.now round.before.records
      round.document with
    | .ok made => some made
    | .error _ => none

/-- The counts after a turn: a record is counted if a version of it is saved. -/
def count (counts : BucketCounts) (round : Round) : BucketCounts :=
  if round.saved?.isSome then counts.count (bucketOf round.document) else counts

/-- How a turn ends: the table is what the store made of the record, and a version
that was saved was indexed, with whatever outcome. -/
def Settled (round : Round) : Prop :=
  match round.saved? with
  | none => round.after.records = round.before.records
  | some (version, table) => round.after.records = table ∧
      ∃ outcome, Store.Follows round.before version outcome round.moments round.after

end Round

theorem visit_ends (counts : BucketCounts) (document : Fields) (w : World) :
    (visit counts document).Ends besidesStore w fun r moments w' =>
      r = .ok (Round.count counts ⟨document, w, moments, w'⟩) ∧
        Round.Settled ⟨document, w, moments, w'⟩ := by
  unfold visit Round.count Round.Settled Round.saved?
  dsimp only
  split
  · exact (ends_pure _ _ _ _).mpr ⟨rfl, rfl⟩
  refine (ends_bind _ _ _ _ _).mpr ((ends_attempt _ _ _ _).mpr ((record_ends document w).mono ?_))
  intro r moments w' h
  rcases hmade : restamped w.definitions w.circumstances.now w.records document with f | ⟨version, table⟩
  · rw [hmade] at h
    obtain ⟨rfl, hrecords⟩ := h
    refine (ends_pure _ _ _ _).mpr ?_
    rw [List.append_nil]
    exact ⟨rfl, hrecords⟩
  · rw [hmade] at h
    obtain ⟨rfl, htable, hfollows⟩ := h
    refine (ends_pure _ _ _ _).mpr ?_
    rw [List.append_nil]
    exact ⟨rfl, htable, hfollows⟩

/-- Turns one after the other, with steps in between that leave the engine and the
records alone. -/
inductive Rounds : World → List Moment → List Round → World → Prop
  | none (w : World) : Rounds w [] [] w
  | between {s : Step} {r : s.Reply} {w w' w'' : World} {moments : List Moment}
      {rounds : List Round} (meets : w.Meets besidesStore s r w')
      (engine : w'.engine = w.engine) (records : w'.records = w.records)
      (later : Rounds w' moments rounds w'') : Rounds w (⟨s, w, w'⟩ :: moments) rounds w''
  | turn {document : Fields} {counts counts' : BucketCounts} {w w' w'' : World}
      {moments more : List Moment} {rounds : List Round}
      (runs : (visit counts document).run.Runs besidesStore w moments (.ok counts') w')
      (later : Rounds w' more rounds w'') :
      Rounds w (moments ++ more) (⟨document, w, moments, w'⟩ :: rounds) w''

theorem Rounds.append {w w' w'' : World} {first second : List Moment} {rounds more : List Round}
    (h : Rounds w first rounds w') (h' : Rounds w' second more w'') :
    Rounds w (first ++ second) (rounds ++ more) w'' := by
  induction h with
  | none w => exact h'
  | between meets engine records _ ih => exact .between meets engine records (ih h')
  | turn runs _ ih =>
    rw [List.append_assoc]
    exact .turn runs (ih h')

/-- Every turn of a run is settled, and the clock stands still. -/
theorem Rounds.settled {w w' : World} {moments : List Moment} {rounds : List Round}
    (h : Rounds w moments rounds w') :
    ∀ round ∈ rounds, round.Settled ∧ round.before.circumstances = w.circumstances := by
  induction h with
  | none w => exact fun round hround => absurd hround List.not_mem_nil
  | between meets _ _ _ ih =>
    intro round hround
    rw [← meets.circumstances]
    exact ih round hround
  | @turn document counts counts' w w' w'' moments more rounds runs _ ih =>
    intro round hround
    rcases List.mem_cons.mp hround with rfl | hround
    · exact ⟨(visit_ends counts document w _ _ _ runs).2, rfl⟩
    · rw [← runs.goes.circumstances]
      exact ih round hround

/-- The turns that a program goes through, and the counts that it gives. -/
def Tallies (counts : BucketCounts) (w : World) (r : Except Failure BucketCounts)
    (moments : List Moment) (w' : World) : Prop :=
  ∃ rounds, Rounds w moments rounds w' ∧
    ∀ counts', r = .ok counts' → counts' = rounds.foldl Round.count counts

theorem visitAll_ends (counts : BucketCounts) (documents : List Fields) (w : World) :
    (visitAll counts documents).Ends besidesStore w (Tallies counts w) := by
  induction documents generalizing counts w with
  | nil =>
    refine (ends_pure _ _ _ _).mpr ⟨[], .none w, fun counts' h => ?_⟩
    cases h
    rfl
  | cons document rest ih =>
    unfold visitAll
    refine (ends_bind _ _ _ _ _).mpr fun r first w₁ hruns => ?_
    obtain ⟨rfl, -⟩ := visit_ends counts document w _ _ _ hruns
    refine (ih _ w₁).mono ?_
    rintro r second w' ⟨rounds, hrounds, hcounts⟩
    exact ⟨_ :: rounds, .turn hruns hrounds, hcounts⟩

theorem Tallies.after {counts : BucketCounts} {w w₁ w' : World} {first second : List Moment}
    {rounds : List Round} {r : Except Failure BucketCounts} (hfirst : Rounds w first rounds w₁)
    (h : Tallies (rounds.foldl Round.count counts) w₁ r second w') :
    Tallies counts w r (first ++ second) w' := by
  obtain ⟨more, hmore, hcounts⟩ := h
  exact ⟨rounds ++ more, hfirst.append hmore, fun counts' h => by
    rw [hcounts counts' h, List.foldl_append]⟩

theorem Tallies.done {counts : BucketCounts} (w : World) : Tallies counts w (.ok counts) [] w :=
  ⟨[], .none w, fun _ h => (Except.ok.inj h).symm⟩

theorem Tallies.failed {counts : BucketCounts} {w w' : World} {moments : List Moment}
    {rounds : List Round} (h : Rounds w moments rounds w') (f : Failure) :
    Tallies counts w (.error f) moments w' := ⟨rounds, h, nofun⟩

/-- No record has a turn while a page is read. -/
theorem page_ends (s : Store.Scan) (after : String) (w : World) :
    (s.page after).Ends besidesStore w fun _ moments w' => Rounds w moments [] w' := by
  unfold Store.Scan.page
  refine (ends_bind _ _ _ _ _).mpr ((ends_orBroken _ _ _ _).mpr ?_)
  rcases Store.limitOf s.pageSize with b | limit
  · exact .none w
  · refine (ends_call_firm id _ _ _).mpr fun plans => ?_
    exact .between (.call (.answered plans)) rfl rfl (.none _)

theorem foldFrom_ends (s : Store.Scan) (fuel : Nat) (after : String) (counts : BucketCounts)
    (w : World) : (s.foldFrom visitAll fuel after counts).Ends besidesStore w (Tallies counts w) := by
  induction fuel generalizing after counts w with
  | zero => exact (ends_pure _ _ _ _).mpr (.done w)
  | succ fuel ih =>
    unfold Store.Scan.foldFrom
    refine (ends_bind _ _ _ _ _).mpr ((page_ends s after w).mono ?_)
    rintro r first w₁ hpage
    rcases r with f | rows
    · exact .failed hpage f
    dsimp only
    rcases rows.getLast? with _ | last
    · exact (ends_pure _ _ _ _).mpr (.after hpage (.done w₁))
    refine (ends_bind _ _ _ _ _).mpr ((visitAll_ends counts _ w₁).mono ?_)
    rintro r second w₂ ⟨rounds, hrounds, hcounts⟩
    rcases r with f | counts'
    · exact .failed (hpage.append hrounds) f
    obtain rfl := hcounts _ rfl
    refine (ends_bind _ _ _ _ _).mpr ((ends_orBroken _ _ _ _).mpr ?_)
    rcases Store.isShort rows.length s.pageSize with b | _ | _
    · exact .after hpage (.after hrounds (.failed (.none w₂) _))
    · refine (ih last.id _ w₂).mono fun r third w' h => ?_
      exact .after hpage (.after hrounds h)
    · exact (ends_pure _ _ _ _).mpr (.after hpage (.after hrounds (.done w₂)))

theorem run_ends (s : Store.Scan) (w : World) :
    (run s).Ends besidesStore w (Tallies [] w) := by
  have own (c : Call) : Step.rowBound ≠ .call c := nofun
  refine (ends_bind _ _ _ _ _).mpr ((ends_ask_own _ own _ _).mpr ?_)
  refine (foldFrom_ends s _ "" [] _).mono fun r moments w' h => ?_
  exact .after (.between (.own own) rfl rfl (.none _)) h

theorem usualCutoff_ends (w : World) :
    usualCutoff.Ends besidesStore w fun _ moments w' => Rounds w moments [] w' := by
  have own (c : Call) : Step.look ≠ .call c := nofun
  have hlook : Rounds w [⟨.look, w, w⟩] [] w := .between (.own own) rfl rfl (.none w)
  unfold usualCutoff
  refine (ends_bind _ _ _ _ _).mpr ((ends_circumstances _ _ _).mpr ?_)
  refine (ends_bind _ _ _ _ _).mpr ((ends_orBroken _ _ _ _).mpr ?_)
  rcases Duration.ofNumber Duration.microsPerMinute w.circumstances.settings.cutoffMinutes with b | age
  · exact hlook
  dsimp only [Except.mapError]
  rcases w.circumstances.now.shift? (-age) with _ | t
  · exact (ends_throw _ _ _ _).mpr hlook
  · exact (ends_pure _ _ _ _).mpr hlook

theorem stale_ends (solutionId entityName pageSize : Json) (cutoff : Option Timestamp)
    (w : World) :
    (stale solutionId entityName pageSize cutoff).Ends besidesStore w (Tallies [] w) := by
  unfold stale
  rcases cutoff with _ | t
  · refine (ends_bind _ _ _ _ _).mpr ((usualCutoff_ends w).mono ?_)
    rintro r first w₁ hfirst
    rcases r with f | t
    · exact .failed hfirst f
    · exact (run_ends _ w₁).mono fun r second w' h => .after hfirst h
  · exact (ends_bind _ _ _ _ _).mpr ((ends_pure _ _ _ _).mpr (run_ends _ w))

/-! ## Stamps and copies -/

namespace Round

/-- The indices of a version that is saved in a turn hold it after the turn. -/
def IsIndexed (round : Round) : Prop :=
  ∀ version table, round.saved? = some (version, table) →
    ∀ index ∈ ownIndices version, round.after.HoldsCopy version index

/-- A version that is saved in a turn gets into its indices in that turn, or it was
there all along. -/
def GetsThrough (round : Round) : Prop :=
  ∀ version table, round.saved? = some (version, table) →
    ∀ index ∈ ownIndices version, Reaches version index round.before round.moments

/-- A turn in which a version of the record is saved: its row is stamped now, and
it is indexed with an outcome that is left open. -/
structure Stamps (round : Round) (version : Fields) (table : RecordTable) (now : Timestamp) :
    Prop where
  records : round.after.records = table
  row : ∃ row ∈ table, Record.columnText (version.look "id") = .ok (some row.id) ∧
    row.reindexedOn = some now
  indexing : ∃ outcome, Store.Follows round.before version outcome round.moments round.after ∧
    ((∃ names, outcome = .ok names) → round.GetsThrough)

/-- The store alone decides a turn: the row is stamped just when a version of the
record can be saved, and the records are left alone otherwise. -/
structure DecidedByStore (round : Round) (now : Timestamp) : Prop where
  passed : round.saved? = none → round.after.records = round.before.records
  stamped : ∀ version table, round.saved? = some (version, table) →
    round.Stamps version table now

theorem restamped_of_saved? {round : Round} {version : Fields} {table : RecordTable}
    (h : round.saved? = some (version, table)) :
    isReserved round.document = false ∧
      restamped round.before.definitions round.before.circumstances.now round.before.records
        round.document = .ok (version, table) := by
  unfold saved? at h
  split at h
  · cases h
  · next hunreserved =>
    refine ⟨Bool.eq_false_iff.mpr hunreserved, ?_⟩
    split at h
    · next made hmade =>
      cases h
      exact hmade
    · cases h

theorem Settled.follows {round : Round} (h : round.Settled) {version : Fields}
    {table : RecordTable} (hsaved : round.saved? = some (version, table)) :
    round.after.records = table ∧
      ∃ outcome, Store.Follows round.before version outcome round.moments round.after := by
  unfold Settled at h
  rwa [hsaved] at h

variable {round : Round} (clock : round.before.circumstances.now.micros < Timestamp.limit)

include clock

theorem Settled.isIndexed_iff (h : round.Settled) : round.IsIndexed ↔ round.GetsThrough := by
  refine forall_congr' fun version => forall_congr' fun table => forall_congr' fun hsaved =>
    forall_congr' fun index => forall_congr' fun _ => ?_
  obtain ⟨-, outcome, hfollows⟩ := h.follows hsaved
  obtain ⟨htexts, -, -⟩ := restamped_spec (restamped_of_saved? hsaved).2 clock
  exact (hfollows.spec htexts).1 index

theorem Settled.decidedByStore (h : round.Settled) :
    round.DecidedByStore round.before.circumstances.now where
  passed hnone := by
    unfold Settled at h
    rwa [hnone] at h
  stamped version table hsaved := by
    obtain ⟨hrecords, outcome, hfollows⟩ := h.follows hsaved
    obtain ⟨hunreserved, hmade⟩ := restamped_of_saved? hsaved
    obtain ⟨htexts, hreserved, hrow⟩ := restamped_spec hmade clock
    refine ⟨hrecords, hrow, outcome, hfollows, fun hok => ?_⟩
    refine (h.isIndexed_iff clock).mp fun other _ hother => ?_
    rw [hsaved] at hother
    cases hother
    exact (hfollows.spec htexts).2 (hreserved.trans hunreserved) hok

end Round

/-- The records that are counted in these turns. -/
def tally (rounds : List Round) : BucketCounts := rounds.foldl Round.count []

/-- Whatever the search engine does, a run of reindexing is one turn after the other,
and the store alone decides which records are stamped and counted: how the
indexing ends matters to neither. The indices of a record that is stamped hold
what search is given of it just when it got there in its turn, or was there all
along; it does if the indexing works out. -/
theorem stamped_records_are_indexed_iff {solutionId entityName pageSize : Json}
    {cutoff : Option Timestamp} {w w' : World} {moments : List Moment}
    {outcome : Except Failure BucketCounts}
    (clock : w.circumstances.now.micros < Timestamp.limit)
    (runs : (stale solutionId entityName pageSize cutoff).run.Runs besidesStore w moments
      outcome w') :
    ∃ rounds, Rounds w moments rounds w' ∧
      (∀ counts, outcome = .ok counts → counts = tally rounds) ∧
      ∀ round ∈ rounds, round.DecidedByStore w.circumstances.now ∧
        (round.IsIndexed ↔ round.GetsThrough) := by
  obtain ⟨rounds, hrounds, hcounts⟩ := stale_ends solutionId entityName pageSize cutoff w _ _ _ runs
  refine ⟨rounds, hrounds, hcounts, fun round hround => ?_⟩
  obtain ⟨hsettled, hclock⟩ := hrounds.settled round hround
  rw [← hclock] at clock ⊢
  exact ⟨hsettled.decidedByStore clock, hsettled.isIndexed_iff clock⟩

/-! ## A record that does not get into its index -/

/-- An event that was never pushed to search. -/
def newEvent : Record := { id := "e-1", entityName := "Event", solutionId := "sol-1" }

def waitingEvent : World where
  circumstances := morning
  records := [newEvent]

/-- No document gets into the search engine. -/
def closedIndices : World :=
  { waitingEvent with plans := [⟨"index", .transport, 0, none⟩] }

/-- A run for all records of the solution. -/
def catchUp : Service BucketCounts := stale (.str "sol-1") .null (.int 100) (some ⟨0⟩)

/-- The page that has the event. -/
def eventPage : Call := .database (.page ⟨.str "sol-1", ⟨0⟩, .null, "", some 100⟩)

/-- The turn of the event in a run that starts in a world. -/
def eventTurn (w : World) : Round where
  document := newEvent.document
  before := (w.answer (.call eventPage)).2
  moments := (visit [] newEvent.document).run.moments (w.answer (.call eventPage)).2
  after := ((visit [] newEvent.document).run.run (w.answer (.call eventPage)).2).2

theorem plans_closedIndices : closedIndices.Plans besidesStore := by
  intro c hc
  cases c with
  | database c =>
    have hname : (Call.database c).name = "db" ∨ (Call.database c).name = "db.commit" := by
      cases c with
      | commit found document stamp => exact Or.inr rfl
      | _ => exact Or.inl rfl
    rcases hname with hname | hname
    · rw [hname] at hc
      exact absurd hc (by decide)
    · rw [hname] at hc
      exact absurd hc (by decide)
  | _ => trivial

theorem runs_catchUp {w : World} (h : w.Plans besidesStore)
    (hcounted : (catchUp.run.run w).1.toOption = some [("Event", 1)]) :
    catchUp.run.Runs besidesStore w (catchUp.run.moments w) (.ok [("Event", 1)])
      (catchUp.run.run w).2 := by
  have hruns := catchUp.run.runs_run_of_plans h
  rcases hr : (catchUp.run.run w).1 with f | counts
  · rw [hr] at hcounted
    cases hcounted
  · rw [hr] at hcounted hruns
    cases hcounted
    exact hruns

/-- While the engine works, the event is counted and gets into its index. -/
theorem a_waiting_event_gets_into_its_index :
    waitingEvent.circumstances.now.micros < Timestamp.limit ∧
      catchUp.run.Runs besidesStore waitingEvent (catchUp.run.moments waitingEvent)
        (.ok [("Event", 1)]) (catchUp.run.run waitingEvent).2 ∧
      (catchUp.run.run waitingEvent).2.engine.holds "event" (.text "e-1") = true ∧
      ∃ rounds, Rounds waitingEvent (catchUp.run.moments waitingEvent) rounds
          (catchUp.run.run waitingEvent).2 ∧
        tally rounds = [("Event", 1)] ∧
        ∀ round ∈ rounds, round.DecidedByStore ⟨0⟩ ∧ (round.IsIndexed ↔ round.GetsThrough) := by
  have hruns := runs_catchUp (w := waitingEvent) (fun _ h => absurd h List.not_mem_nil)
    (by decide +kernel)
  obtain ⟨rounds, hrounds, hcounts, hdecided⟩ :=
    stamped_records_are_indexed_iff (w := waitingEvent) (by decide) hruns
  exact ⟨by decide, hruns, by decide +kernel, rounds, hrounds, (hcounts _ rfl).symm, hdecided⟩

theorem rounds_eventTurn {w : World} (h : w.Plans besidesStore) :
    Rounds (eventTurn w).before ((eventTurn w).moments ++ []) [eventTurn w] (eventTurn w).after := by
  have hturn := (visit [] newEvent.document).run.runs_run_of_plans (h.answer (.call eventPage))
  rw [(visit_ends [] newEvent.document _ _ _ _ hturn).1] at hturn
  exact .turn hturn (.none _)

set_option maxRecDepth 4096 in
theorem moments_closedIndices : catchUp.run.moments closedIndices =
    ⟨.rowBound, closedIndices, closedIndices⟩ ::
      ⟨.call eventPage, closedIndices, (closedIndices.answer (.call eventPage)).2⟩ ::
        ((eventTurn closedIndices).moments ++ []) := by
  rfl

set_option maxRecDepth 4096 in
theorem run_closedIndices :
    (catchUp.run.run closedIndices).2 = (eventTurn closedIndices).after := by
  rfl

theorem rounds_closedIndices : Rounds closedIndices (catchUp.run.moments closedIndices)
    [eventTurn closedIndices] (catchUp.run.run closedIndices).2 := by
  have own (c : Call) : Step.rowBound ≠ .call c := nofun
  rw [moments_closedIndices, run_closedIndices]
  refine .between (.own own) rfl rfl (.between (plans_closedIndices.meets _) rfl rfl ?_)
  exact rounds_eventTurn plans_closedIndices

/-- While no document gets into the engine, the event is stamped and counted all the
same. -/
theorem an_event_beside_its_index_is_counted :
    catchUp.run.Runs besidesStore closedIndices (catchUp.run.moments closedIndices)
        (.ok [("Event", 1)]) (catchUp.run.run closedIndices).2 ∧
      Rounds closedIndices (catchUp.run.moments closedIndices) [eventTurn closedIndices]
        (catchUp.run.run closedIndices).2 ∧
      (catchUp.run.run closedIndices).2.records.map (·.reindexedOn) = [some ⟨0⟩] ∧
      ¬ (eventTurn closedIndices).IsIndexed := by
  refine ⟨runs_catchUp plans_closedIndices (by decide +kernel), rounds_closedIndices,
    by decide +kernel, fun h => ?_⟩
  have hown : (eventTurn closedIndices).saved?.map (ownIndices ·.1) = some ["event"] := by
    decide +kernel
  have hempty : (eventTurn closedIndices).after.engine.documents.isEmpty = true := by decide +kernel
  obtain ⟨⟨version, table⟩, hsaved, hindices⟩ := Option.map_eq_some_iff.mp hown
  have hindex : "event" ∈ ownIndices version := by
    dsimp only at hindices
    rw [hindices]
    exact List.mem_singleton_self _
  obtain ⟨key, -, hcopy⟩ := h version table hsaved "event" hindex
  rw [SearchEngine.copy?, SearchEngine.stored, List.isEmpty_iff.mp hempty] at hcopy
  cases hcopy

end Reindex

end TenantSearch
