-- The worlds that the gateway and its worker come to. Whatever they did and
-- whichever calls failed, the rows of the table are sound and in order, and no
-- index is mapped to null.
import TenantSearch.Jobs.Worker
import TenantSearch.Proofs.DroppedIndices

namespace TenantSearch

open Service

/-! ## Operations -/

/-- What the gateway and its worker do to documents and indices. -/
inductive Operation where
  | indexing (c : IndexingCall)
  | remove (document : Fields)
  | request (c : IndexRequest)
  | backfill (solutionId entityName cutoff : Json)
  | scheduled

/-- The world after an operation. -/
def Operation.runIn (w : World) : Operation → World
  | .indexing c => c.after w
  | .remove document => ((Indexing.remove document).runIn w).2
  | .request c => c.runIn w
  | .backfill solutionId entityName cutoff =>
    ((Worker.backfill solutionId entityName cutoff).runIn w).2
  | .scheduled => (Worker.scheduled.runIn w).2

/-- The worlds that come about from an empty table and an empty engine. -/
inductive Reachable : World → Prop
  | start {w : World} (records : w.records = []) (engine : w.engine = {}) : Reachable w
  | ran {w : World} (before : Reachable w) (o : Operation) : Reachable (o.runIn w)
  /-- Between operations everything may change but the rows: the clock, the
  settings, the definitions, the outages to come, what the process remembers,
  and indices by other hands, which map none of them to null. -/
  | between {w w' : World} (before : Reachable w) (records : w'.records = w.records)
      (mapped : w'.engine.Mapped) : Reachable w'

/-! ## Sound worlds -/

/-- Indices are created compatible, and only documents that were checked are
saved. -/
def checkedWrites : Contract := .only fun
  | .engine (.create d) => isSound (some d.mappings) = true
  | .database (.commit _ document stamp) => IsStamped document stamp
  | _ => True

theorem checkedWrites_admits : checkedWrites.Admits fun _ => True where
  free := by
    refine ⟨fun c hc => ?_, fun _ h => h⟩
    cases c with
    | engine c =>
      cases c with
      | create d => cases hc
      | _ => trivial
    | queue c => trivial
    | database c =>
      cases c with
      | commit found document stamp => cases hc
      | _ => trivial
  put _ _ _ _ _ _ := trivial
  save _ _ _ _ h _ := h
  saved _ _ _ _ _ _ _ := trivial
  page _ _ _ _ _ _ _ _ _ := trivial

/-- A world with sound rows, in order, and no index that is mapped to null. -/
structure World.Sound (w : World) : Prop where
  records : w.records.Sound
  mapped : w.engine.Mapped

theorem checkedWrites_upheld : checkedWrites.Upholds World.Sound where
  call w c hw hc := by
    refine ⟨fun _ _ => trivial, ?_, fun index hnull => ?_⟩
    · rcases World.records_answerCall w c with
        hsame | ⟨found, document, stamp, saved, rfl, hcommit⟩
      · rw [hsame]
        exact hw.records
      · exact hw.records.commit hc hcommit
    · rcases (World.engine_answerCall w c).mapping hnull with hold | ⟨d, rfl, hmapping⟩
      · exact hw.mapped index hold
      · exact SearchEngine.ne_null_of_isSound hc hmapping
  memory _ _ h := ⟨h.records, h.mapped⟩
  supply _ _ h := ⟨h.records, h.mapped⟩

/-! ## All operations -/

section

variable {k : Contract} {kind : Fields → Prop}

theorem create_within (hfree : k.Frees) (solutionId : Json) (target : IndexTarget) :
    (Index.create solutionId target).Within k :=
  (recreate_within hfree solutionId target).locked _

theorem Worker.backfill_within (hk : k.Admits kind) (solutionId entityName cutoff : Json) :
    (Worker.backfill solutionId entityName cutoff).Within k :=
  (keeps_ask (by simp)).within.bind fun _ => (within_orFail _).bind fun _ =>
    stale_within hk _ _ _ _

theorem Worker.reindexEach_within (hk : k.Admits kind) (pageSize : Json) (cutoff : Timestamp)
    (solutions : List String) : (Worker.reindexEach pageSize cutoff solutions).Within k := by
  induction solutions with
  | nil => exact within_pure _
  | cons solution rest ih =>
    refine (stale_within hk _ _ _ _).attempt.within.bind fun outcome => ?_
    exact ih.bind fun _ => within_pure _

theorem Worker.scheduled_within (hk : k.Admits kind) : Worker.scheduled.Within k := by
  refine usualCutoff_within.bind fun cutoff => (keeps_ask (by simp)).within.bind fun here => ?_
  refine Within.bind ?_ fun solutions => Worker.reindexEach_within hk _ _ _
  refine (within_call (hk.free.other _ rfl) _).attempt.within.bind fun r => ?_
  rcases r with _ | _
  · exact within_pure _
  · exact within_pure _

end

/-- A fact that lasts under a contract that admits all documents lasts through every
operation. -/
theorem Operation.upheld {k : Contract} {fact : World → Prop} (hk : k.Admits fun _ => True)
    (hup : k.Upholds fact) {w : World} (h : fact w) (o : Operation) : fact (o.runIn w) := by
  have hrun {α : Type} {x : Service α} (hx : x.Within k) : fact (x.runIn w).2 :=
    (hx.leads hup h).2
  cases o with
  | indexing c => exact IndexingCall.after_of_admits hk hup (fun _ _ => trivial) h
  | remove document => exact hrun (remove_within hk.free document)
  | request c =>
    cases c with
    | ensure solutionId entityName entityType force => exact hrun (ensure_within hk.free _ _ _ _)
    | create solutionId target => exact hrun (create_within hk.free _ _)
  | backfill solutionId entityName cutoff => exact hrun (Worker.backfill_within hk _ _ _)
  | scheduled => exact hrun (Worker.scheduled_within hk)

theorem Operation.sound {w : World} (h : w.Sound) (o : Operation) : (o.runIn w).Sound :=
  o.upheld checkedWrites_admits checkedWrites_upheld h

theorem Reachable.sound {w : World} (h : Reachable w) : w.Sound := by
  induction h with
  | start records engine =>
    refine ⟨records ▸ .empty, fun index => ?_⟩
    rw [engine]
    exact nofun
  | ran _ o ih => exact o.sound ih
  | between _ records mapped ih => exact ⟨records ▸ ih.records, mapped⟩

end TenantSearch
