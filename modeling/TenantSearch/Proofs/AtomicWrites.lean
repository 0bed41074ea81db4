-- What a write leaves behind when any call on its way may fail: all of it or
-- nothing. Whatever raises does so before the commit takes effect, and nothing
-- that comes after the commit raises.
import TenantSearch.Proofs.HeardAnswers
import TenantSearch.Proofs.ReservedIndices
import TenantSearch.Proofs.UndoneWrites

namespace TenantSearch

open Service

/-! ## The pure model -/

/-- The document that was saved, if the exchange is a commit that was answered. -/
def Exchange.saved? (e : Exchange) : Option Fields :=
  match e.step, e.reply with
  | .call (.database (.commit _ _ _)), answer => Except.toOption answer
  | _, _ => none

/-- The calls of a log to the search engine and to the queue. -/
def loggedCalls (log : List Call) : List Call :=
  log.filter fun
    | .database _ => false
    | _ => true

/-- Nobody can tell that something happened: the rows, the indices, what is known of them and
the calls to them are as before. -/
structure World.Untouched (w w' : World) : Prop where
  records : w'.records = w.records
  engine : w'.engine = w.engine
  memory : w'.memory = w.memory
  calls : loggedCalls w'.log = loggedCalls w.log

theorem World.Untouched.refl (w : World) : w.Untouched w := ⟨rfl, rfl, rfl, rfl⟩

theorem World.Untouched.trans {w w' w'' : World} (h : w.Untouched w') (h' : w'.Untouched w'') :
    w.Untouched w'' :=
  ⟨h'.records.trans h.records, h'.engine.trans h.engine, h'.memory.trans h.memory,
    h'.calls.trans h.calls⟩

/-- An exchange saves nothing if its step is no commit. -/
theorem Exchange.saved?_eq_none {e : Exchange} (h : e.step.saves? = none) : e.saved? = none := by
  unfold saved?
  split
  · next hstep _ =>
    rw [hstep] at h
    cases h
  · rfl

/-! ## The lookup and the commit -/

namespace World

variable {frail : Call → Prop} {w w' : World} {document : Fields} {stamp : Option Timestamp}

theorem untouched_calling (w : World) (c : DatabaseCall) (plans : List OutagePlan) :
    w.Untouched (w.calling (.database c) plans) where
  records := rfl
  engine := rfl
  memory := rfl
  calls := by
    unfold loggedCalls calling
    rw [List.filter_append]
    exact List.append_nil _

/-- Whatever outages are planned, the answers of the world itself are among those that may
come. -/
theorem Undoes.of_answer (w : World) (s : Step) :
    w.Undoes anyCall s (w.answer s).1 (w.answer s).2 := by
  cases s with
  | call c =>
    have hanswer : w.answer (.call c) = w.answerCall c := rfl
    have hnoted : w.noted c = w.calling c (w.meeting c).2 := rfl
    rw [hanswer, answerCall_eq, hnoted]
    rcases (w.meeting c).1 with _ | o
    · exact .met (.call (.answered _))
    · exact .undone o _ trivial
  | _ => exact .met (.own fun c h => nomatch h)

/-- A lookup leaves no trace, and what it finds is the row of the identifier. -/
theorem Undoes.lookUp_cases {id : Json} {r : (Step.call (.database (.lookUp id))).Reply}
    (h : w.Undoes frail (.call (.database (.lookUp id))) r w') :
    w.Untouched w' ∧ ((∃ o, r = .error o) ∨ r = w.records.rowOf id) := by
  refine ⟨?_, h.lookUp_answer.symm.imp_left And.left⟩
  cases h with
  | undone o plans may => exact untouched_calling w _ plans
  | met meets =>
    cases meets with
    | own own => exact absurd rfl (own _)
    | call answers =>
      cases answers with
      | answered plans => exact untouched_calling w _ plans
      | failed o plans may => exact untouched_calling w _ plans
      | lost o plans may => exact untouched_calling w _ plans

/-- A commit fails and leaves no trace, or it is answered and changes the table. -/
theorem Undoes.commit_cases {found : Option Record}
    {r : (Step.call (.database (.commit found document stamp))).Reply}
    (h : w.Undoes frail (.call (.database (.commit found document stamp))) r w') :
    (∃ o, r = .error o ∧ w.Untouched w') ∨
      ∃ saved, r = .ok saved ∧
        w.records.commit found document stamp = .ok (saved, w'.records) := by
  cases h with
  | undone o plans may => exact Or.inl ⟨o, rfl, untouched_calling w _ plans⟩
  | met meets =>
    cases meets with
    | own own => exact absurd rfl (own _)
    | call answers =>
      cases answers with
      | failed o plans may => cases may.2
      | lost o plans may => cases may.2
      | answered plans =>
        have heffect : (w.calling (.database (.commit found document stamp)) plans).effect
            (.database (.commit found document stamp)) =
              (w.calling (.database (.commit found document stamp)) plans).answerDatabase
                (.commit found document stamp) := rfl
        have hrecords : (w.calling (.database (.commit found document stamp)) plans).records =
            w.records := rfl
        rw [heffect, answerDatabase_commit, hrecords]
        rcases hcommit : w.records.commit found document stamp with o | ⟨saved, records⟩
        · exact Or.inl ⟨o, rfl, untouched_calling w _ plans⟩
        · exact Or.inr ⟨saved, rfl, rfl⟩

end World

/-! ## The write -/

/-- What becomes of an indexing is nobody else's concern: the saved document is given all the
same. -/
theorem run_follow (saved : Fields) :
    ExceptT.run (Indexing.follow saved >>= fun _ => pure saved) =
      (ExceptT.run (Indexing.upsert saved)).bind fun _ => .done (.ok saved) := by
  have hattempt : ExceptT.run (attempt (Indexing.upsert saved)) =
      (ExceptT.run (Indexing.upsert saved)).bind fun r => .done (.ok r) := rfl
  unfold Indexing.follow
  rw [bind_assoc, ExceptT.run_bind, hattempt]
  exact Prog.bind_assoc _ _ _

/-- What is left of a write once the row of its document was looked up. -/
def writeFrom (document : Fields) (stamp : Option Timestamp) (found : Option Record) :
    Prog (Except Failure Fields) :=
  .step (.call (.database (.commit found document stamp))) fun answer =>
    match answer with
    | .ok saved => (ExceptT.run (Indexing.upsert saved)).bind fun _ => .done (.ok saved)
    | .error o => .done (.error (writeFailure document o))

/-- A write that is not refused looks its row up and commits, and ends with an error if either
fails. -/
theorem run_write {document : Fields} {stamp : Option Timestamp}
    (hstamp : Store.stampOf document = .ok stamp) :
    ExceptT.run (Store.write document) =
      .step (.call (.database (.lookUp (document.look "id")))) fun answer =>
        match answer with
        | .ok found => writeFrom document stamp found
        | .error o => .done (.error (writeFailure document o)) := by
  unfold Store.write
  rw [hstamp]
  refine congrArg (Prog.step (.call (.database (.lookUp (document.look "id")))))
    (funext fun answer => ?_)
  cases answer with
  | error o => rfl
  | ok found =>
    refine congrArg (Prog.step (.call (.database (.commit found document stamp))))
      (funext fun answer => ?_)
    cases answer with
    | error o => rfl
    | ok saved => exact run_follow saved

/-- Indexing saves nothing, whatever it hears. -/
theorem upsert_hears {frail : Call → Prop} {saved : Fields} {w w' : World} {heard : List Exchange}
    {r : Except Failure (List String)}
    (h : Prog.Hears (World.Undoes frail) (ExceptT.run (Indexing.upsert saved)) w heard r w') :
    w'.records = w.records ∧ ∀ e ∈ heard, e.saved? = none := by
  have hidle : w.Idle w' (heard.map (·.moment)) :=
    upsert_endsIn saved w _ _ _ (Prog.through_iff_exists_hears.mpr ⟨heard, rfl, h⟩)
  refine ⟨hidle.records, fun e he => Exchange.saved?_eq_none ?_⟩
  have hsaves := hidle.saves
  unfold savedIds at hsaves
  have hnone := List.filterMap_eq_nil_iff.mp hsaves _ (List.mem_map_of_mem he)
  exact Option.map_eq_none_iff.mp hnone

/-- A write as others see it: it raises only if there is no trace of it, and once a commit was
answered it gives the saved document. -/
structure IsAllOrNothing (document : Fields) (w : World) (heard : List Exchange)
    (r : Except Failure Fields) (w' : World) : Prop where
  nothing : ∀ f, r = .error f → w.Untouched w'
  saved : ∀ e ∈ heard, ∀ saved, e.saved? = some saved →
    r = .ok saved ∧ w'.records = e.after.records
  all : ∀ saved, r = .ok saved → ∃ stamp, Store.stampOf document = .ok stamp ∧
    w.records.save document stamp = .ok (saved, w'.records)

theorem isAllOrNothing_of_untouched {document : Fields} {w w' : World} {heard : List Exchange}
    {f : Failure} (huntouched : w.Untouched w') (hheard : ∀ e ∈ heard, e.saved? = none) :
    IsAllOrNothing document w heard (.error f) w' where
  nothing _ _ := huntouched
  saved e he saved hsaved := by
    rw [hheard e he] at hsaved
    cases hsaved
  all _ hr := by cases hr

/-- What is left of a write is all or nothing of the write. -/
theorem isAllOrNothing_writeFrom {document : Fields} {stamp : Option Timestamp}
    (hstamp : Store.stampOf document = .ok stamp) {found : Option Record} {w w' : World}
    (hfound : w.records.rowOf (document.look "id") = .ok found) {heard : List Exchange}
    {r : Except Failure Fields}
    (h : Prog.Hears (World.Undoes World.anyCall) (writeFrom document stamp found) w heard r w') :
    IsAllOrNothing document w heard r w' := by
  obtain ⟨answer, w₁, rest, meets, hrest, rfl⟩ := Prog.hears_step_iff.mp h
  rcases meets.commit_cases with ⟨o, rfl, huntouched⟩ | ⟨saved, rfl, hcommit⟩
  · cases hrest
    exact isAllOrNothing_of_untouched huntouched fun e he => by
      rw [List.mem_singleton.mp he]
      rfl
  · obtain ⟨first, outcome, w₂, second, hupsert, hsecond, rfl⟩ := Prog.hears_bind_iff.mp hrest
    cases hsecond
    obtain ⟨hrecords, hnone⟩ := upsert_hears hupsert
    refine ⟨fun f hr => ?_, fun e he saved' hsaved => ?_, fun saved' hr => ?_⟩
    · cases hr
    · rw [List.append_nil] at he
      rcases List.mem_cons.mp he with rfl | he
      · cases hsaved
        exact ⟨rfl, hrecords⟩
      · rw [hnone e he] at hsaved
        cases hsaved
    · cases hr
      exact ⟨stamp, hstamp, (RecordTable.save_of_rowOf hfound stamp).trans (hrecords ▸ hcommit)⟩

/-- A write of which any call may fail, before or after it takes effect: where a commit that fails
is undone, the write raises only if there is no trace of it, and once a commit was answered it
gives the saved document, whatever becomes of the indexing after it. -/
theorem a_write_is_saved_and_returns_or_leaves_no_trace (document : Fields) {w w' : World}
    {heard : List Exchange} {r : Except Failure Fields}
    (h : Prog.Hears (World.Undoes World.anyCall) (ExceptT.run (Store.write document)) w heard r
      w') :
    (∀ f, r = .error f → w.Untouched w') ∧
      (∀ e ∈ heard, ∀ saved, e.saved? = some saved →
        r = .ok saved ∧ w'.records = e.after.records) ∧
      ∀ saved, r = .ok saved → ∃ stamp, Store.stampOf document = .ok stamp ∧
        w.records.save document stamp = .ok (saved, w'.records) := by
  suffices hwhole : IsAllOrNothing document w heard r w' from
    ⟨hwhole.nothing, hwhole.saved, hwhole.all⟩
  rcases hstamp : Store.stampOf document with f | stamp
  · have hrun : ExceptT.run (Store.write document) = .done (.error f) := by
      unfold Store.write
      rw [hstamp]
      rfl
    rw [hrun] at h
    cases h
    exact isAllOrNothing_of_untouched (.refl w) fun e he => absurd he List.not_mem_nil
  rw [run_write hstamp] at h
  obtain ⟨answer, w₁, rest, meets, hrest, rfl⟩ := Prog.hears_step_iff.mp h
  obtain ⟨huntouched, hanswer⟩ := meets.lookUp_cases
  rcases answer with o | found
  · cases hrest
    exact isAllOrNothing_of_untouched huntouched fun e he => by
      rw [List.mem_singleton.mp he]
      rfl
  · obtain hfound : .ok found = w.records.rowOf (document.look "id") :=
      hanswer.resolve_left fun ⟨_, h⟩ => nomatch h
    have hwhole := isAllOrNothing_writeFrom hstamp (huntouched.records ▸ hfound.symm) hrest
    refine ⟨fun f hr => huntouched.trans (hwhole.nothing f hr), fun e he saved hsaved => ?_,
      fun saved hr => huntouched.records ▸ hwhole.all saved hr⟩
    rcases List.mem_cons.mp he with rfl | he
    · cases hsaved
    · exact hwhole.saved e he saved hsaved

/-! ## A store that is down, and an engine that is down -/

/-- No call to the database works. -/
def closedStore : World := { World.empty morning with plans := [⟨"db", .operational, 0, none⟩] }

/-- No index can be asked for. -/
def closedEngine : World :=
  { World.empty morning with plans := [⟨"indices.exists", .transport, 0, none⟩] }

/-- With the store down a concert leaves no trace; with the engine down it is saved. -/
theorem a_concert_leaves_no_trace_or_is_saved :
    ((∃ f, ((Store.write concert).runIn closedStore).1 = .error f) ∧
      closedStore.Untouched ((Store.write concert).runIn closedStore).2) ∧
    ∃ saved stamp, ((Store.write concert).runIn closedEngine).1 = .ok saved ∧
      closedEngine.records.save concert stamp =
        .ok (saved, ((Store.write concert).runIn closedEngine).2.records) := by
  have hstore := hears_runIn World.Undoes.of_answer (Store.write concert) closedStore
  have hengine := hears_runIn World.Undoes.of_answer (Store.write concert) closedEngine
  have herror : ∃ f, ((Store.write concert).runIn closedStore).1 = .error f :=
    isOk_eq_false_iff.mp (by decide +kernel)
  have hok : ∃ saved, ((Store.write concert).runIn closedEngine).1 = .ok saved :=
    isOk_iff.mp (by decide +kernel)
  obtain ⟨f, hf⟩ := herror
  obtain ⟨saved, hsaved⟩ := hok
  obtain ⟨stamp, -, hsave⟩ :=
    (a_write_is_saved_and_returns_or_leaves_no_trace concert hengine).2.2 saved hsaved
  exact ⟨⟨⟨f, hf⟩, (a_write_is_saved_and_returns_or_leaves_no_trace concert hstore).1 f hf⟩,
    saved, stamp, hsaved, hsave⟩

end TenantSearch
