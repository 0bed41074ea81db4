-- Which documents reach the search engine and the record table. Whatever the
-- outside world answers, writing a document or reindexing stale ones puts
-- nothing but projections of those documents into their own indices.
import TenantSearch.Document.Reindex
import TenantSearch.Proofs.Contracts
import TenantSearch.Proofs.SoundMappings
import TenantSearch.Proofs.StoredRows

namespace TenantSearch

/-! ## What may be written -/

/-- Whether a call writes something: a document, to the search engine or to the
record table, or the mapping of a new index. -/
def Call.writes : Call → Bool
  | .engine (.put ..) => true
  | .engine (.create _) => true
  | .database (.commit ..) => true
  | _ => false

/-- A contract under which indices may be looked after: the calls that write
nothing are allowed, and so is the creation of compatible indices. -/
structure Contract.Frees (k : Contract) : Prop where
  other : ∀ c : Call, c.writes = false → k.allows c
  create : ∀ d : IndexDescriptor, isSound (some d.mappings) = true →
    k.allows (.engine (.create d))

/-- A document may be stored in an index under an identifier: the document is
a projection, the identifier is its own, and the index is one of those that it
goes to. Documents of reserved entities go nowhere. -/
structure IsPlaced (document : Fields) (index : String) (id : Json) (fields : Fields) : Prop where
  projection : IsProjection document fields
  ownId : fields.get? "id" = some id
  target : ∃ entityName, document.look "entityName" = .str entityName ∧
    entityName ∉ reservedEntities ∧
    ∃ t ∈ IndexTarget.writeTargets entityName (document.look "entityType").orNull, t.name = index

/-- A contract under which documents of a kind may be written. What is read
back from the record table is of that kind as well, also after its texts were
merged anew. -/
structure Contract.Admits (k : Contract) (kind : Fields → Prop) : Prop where
  free : k.Frees
  put : ∀ document index id fields, kind document → IsPlaced document index id fields →
    k.allows (.engine (.put index id fields))
  save : ∀ found document stamp, kind document → IsStamped document stamp →
    k.promises (.database (.lookUp (document.look "id"))) found →
    k.allows (.database (.commit found document stamp))
  saved : ∀ found document stamp reply, kind document →
    k.promises (.database (.lookUp (document.look "id"))) found →
    k.promises (.database (.commit found document stamp)) reply → kind reply
  page : ∀ p (rows : List Record), k.promises (.database (.page p)) rows → ∀ r ∈ rows,
    ∀ merged now refreshed, Reindex.refreshed merged now r.document = .ok refreshed → kind refreshed

namespace Service

variable {α β : Type} {k : Contract}

/-- The service keeps the contract, whatever value it gives. -/
def Within (k : Contract) (x : Service α) : Prop := x.Keeps k fun _ => True

theorem Keeps.within {post : α → Prop} {x : Service α} (hx : x.Keeps k post) : x.Within k :=
  hx.mono fun _ _ => trivial

theorem Within.bind {x : Service α} {f : α → Service β} (hx : x.Within k)
    (hf : ∀ a, (f a).Within k) : (x >>= f).Within k := Keeps.bind hx fun a _ => hf a

theorem within_pure (a : α) : (pure a : Service α).Within k := keeps_pure trivial

theorem within_orFail (x : Except Failure α) : (orFail x).Within k := keeps_orFail fun _ _ => trivial

theorem within_orBroken (x : Except Breakage α) : (orBroken x).Within k :=
  keeps_orBroken fun _ _ => trivial

theorem within_call {c : Call} (h : k.allows c) (blame : Outage → Failure) :
    (call c blame).Within k := (keeps_call h blame).within

theorem within_askCall {c : Call} (h : k.allows c) : (ask (.call c)).Within k :=
  (keeps_askCall h).within

end Service

open Service

variable {k : Contract}

/-! ## Single steps -/

theorem removal_within {c : EngineCall} (h : k.allows (.engine c)) (cause : Cause)
    (index : String) : (Engine.removal c cause index).Within k := by
  refine (within_askCall h).bind fun r => ?_
  rcases r with o | _
  · cases o with
    | notFound => exact within_pure _
    | _ => exact keeps_throw _
  · exact within_pure _

theorem putDocument_within {index : String} {fields : Fields}
    (h : ∀ id, fields.get? "id" = some id → k.allows (.engine (.put index id fields))) :
    (Engine.putDocument index fields).Within k := by
  unfold Engine.putDocument
  split
  · next id hid => exact within_call (h id hid) _
  · exact keeps_throw _

theorem putEach_within {fields : Fields} {targets : List IndexTarget}
    (h : ∀ t ∈ targets, ∀ id, fields.get? "id" = some id →
      k.allows (.engine (.put t.name id fields))) :
    (Indexing.putEach fields targets).Within k := by
  induction targets with
  | nil => exact within_pure _
  | cons target rest ih =>
    refine (putDocument_within (h target List.mem_cons_self)).bind fun _ => ?_
    refine (ih fun t ht => h t (List.mem_cons_of_mem _ ht)).bind fun _ => ?_
    exact within_pure _

theorem not_mem_of_isReserved {entityName : String}
    (h : Indexing.isReserved (.str entityName) = .ok false) : entityName ∉ reservedEntities := by
  unfold Indexing.isReserved at h
  simpa using h

theorem entityNameOf_eq_ok {v : Json} {name : String} (h : Index.entityNameOf v = .ok name) :
    v = .str name := by
  unfold Index.entityNameOf at h
  split at h
  · cases h
  · cases v with
    | str s =>
      dsimp only at h
      split at h
      · cases h
      · cases h
        rfl
    | _ => cases h

theorem subject_eq_ok {document : Fields} {s : Indexing.Subject}
    (h : Indexing.subject document = .ok s) :
    s.entityName = document.look "entityName" ∧ s.id = document.look "id" := by
  unfold Indexing.subject at h
  dsimp only at h
  split at h
  · cases h
  · split at h
    · cases h
    · cases h
      exact ⟨rfl, rfl⟩

/-! ## Index upkeep -/

section

variable (hfree : k.Frees)

include hfree

theorem lookUpSchema_within (solutionId entityName entityType : Json) :
    (lookUpSchema solutionId entityName entityType).Within k :=
  (within_call (hfree.other _ rfl) _).bind fun _ => within_orBroken _

theorem liveSchema_within (index : String) :
    (Engine.liveSchema index).Within k := by
  refine (within_askCall (hfree.other _ rfl)).bind fun r => ?_
  rcases r with o | mappings
  · cases o with
    | notFound => exact within_pure _
    | _ => exact keeps_throw _
  · exact (within_orBroken _).bind fun _ => within_pure _

theorem isGood_within (index : String) :
    (Index.isGood index).Within k := by
  refine (keeps_ask (by simp)).within.bind fun memory => ?_
  split
  · exact within_pure _
  · refine (keeps_ask (by simp)).within.bind fun _ => ?_
    have hlive : (Index.checkLive index).Within k := by
      refine (liveSchema_within hfree index).attempt.within.bind fun r => ?_
      rcases r with _ | _ | _
      · exact within_pure _
      · exact within_pure _
      · exact within_pure _
    refine hlive.bind fun good => ?_
    split
    · refine (keeps_ask (by simp)).within.bind fun _ => ?_
      exact (keeps_ask (by simp)).within.bind fun _ => within_pure _
    · exact (keeps_ask (by simp)).within.bind fun _ => within_pure _

theorem replace_within (solutionId : Json)
    (target : IndexTarget) : (Index.replace solutionId target).Within k := by
  refine (lookUpSchema_within hfree _ _ _).bind fun schema => ?_
  refine (keeps_orFail fun d h => isSound_of_checked h).bind fun descriptor hsound => ?_
  have hexists : (Engine.hasIndex target.name).Within k := within_call (hfree.other _ rfl) _
  have hcreate : (Engine.createIndex descriptor).Within k :=
    within_call (hfree.create descriptor hsound) _
  refine Keeps.bind hexists fun existed _ => ?_
  split
  · refine (removal_within (hfree.other _ rfl) _ _).bind fun _ => ?_
    exact hcreate.bind fun _ => within_pure _
  · exact hcreate.bind fun _ => within_pure _

theorem backfill_within (solutionId : Json)
    (target : IndexTarget) : (Index.backfill solutionId target).Within k := by
  refine (keeps_ask (by simp)).within.bind fun here => ?_
  split
  · exact (within_askCall (hfree.other _ rfl)).bind fun _ => within_pure _
  · exact within_pure _

theorem recreate_within (solutionId : Json)
    (target : IndexTarget) : (Index.recreate solutionId target).Within k := by
  refine (keeps_ask (by simp)).within.bind fun _ => ?_
  refine (keeps_ask (by simp)).within.bind fun _ => ?_
  refine (replace_within hfree _ _).attempt.within.bind fun r => ?_
  rcases r with f | ⟨descriptor, existed⟩
  · exact (keeps_ask (by simp)).within.bind fun _ => keeps_throw _
  · refine (keeps_ask (by simp)).within.bind fun _ => ?_
    refine (keeps_ask (by simp)).within.bind fun _ => ?_
    split
    · exact (backfill_within hfree _ _).bind fun _ => within_pure _
    · exact within_pure _

theorem ensureOne_within (solutionId : Json)
    (force : Bool) (target : IndexTarget) :
    (Index.ensureOne solutionId force target).Within k := by
  have hdone (due : Bool) : (do
      if due then let _ ← Index.recreate solutionId target
      pure due : Service Bool).Within k := by
    cases due with
    | true => exact (recreate_within hfree _ _).bind fun _ => within_pure _
    | false => exact within_pure _
  refine Keeps.locked ?_ _
  cases force with
  | true => exact hdone true
  | false =>
    refine Within.bind ?_ hdone
    rw [map_eq_pure_bind]
    exact (isGood_within hfree _).bind fun _ => within_pure _

theorem ensureEach_within (solutionId : Json)
    (force : Bool) (targets : List IndexTarget) :
    (Index.ensureEach solutionId force targets).Within k := by
  induction targets with
  | nil => exact within_pure _
  | cons target rest ih =>
    refine (ensureOne_within hfree _ _ _).bind fun _ => ?_
    exact ih.bind fun _ => within_pure _

theorem ensure_within (solutionId entityName entityType : Json) (force : Bool) :
    (Index.ensure solutionId entityName entityType force).Within k :=
  (within_orFail _).bind fun _ => ensureEach_within hfree _ _ _

/-! ## Documents -/

theorem completed_keeps (document : Fields)
    (entityName entityType : Json) :
    (Indexing.completed document entityName entityType).Keeps k fun completed =>
      IsProjection document (Projection.strip completed) := by
  unfold Indexing.completed
  split
  · next h => exact keeps_pure (isProjection_of_hasTexts h)
  · refine Keeps.bind (lookUpSchema_within hfree _ _ _) fun schema _ => ?_
    exact keeps_orBroken fun fields h => isProjection_of_withTexts h

/-- Whatever is answered, indexing a document puts its projections into its
own indices and nothing else anywhere. -/
theorem upsert_within {document : Fields}
    (hput : ∀ index id fields, IsPlaced document index id fields →
      k.allows (.engine (.put index id fields))) : (Indexing.upsert document).Within k := by
  refine (keeps_orFail fun s h => subject_eq_ok h).bind fun subject hsubject => ?_
  obtain ⟨hname, -⟩ := hsubject
  refine (keeps_orBroken fun b h => h).bind fun reserved hreserved => ?_
  cases reserved with
  | true => exact within_pure _
  | false =>
    refine (completed_keeps hfree document _ _).bind fun completed hcompleted => ?_
    refine Keeps.bind (ensure_within hfree _ _ _ _) fun _ _ => ?_
    refine (keeps_orFail fun name h => entityNameOf_eq_ok h).bind fun name hstr => ?_
    rw [hstr] at hreserved hname
    refine putEach_within fun t ht id hid => hput _ _ _ ⟨hcompleted, hid, name, hname.symm, ?_⟩
    exact ⟨not_mem_of_isReserved hreserved, t, ht, rfl⟩

end

theorem write_within {kind : Fields → Prop} (hk : k.Admits kind) {document : Fields}
    (hdocument : kind document) : (Store.write document).Within k := by
  refine (keeps_orFail fun stamp h => stampOf_eq_ok_iff.mp h).bind fun stamp hstamp => ?_
  have hlookUp : k.allows (.database (.lookUp (document.look "id"))) := hk.free.other _ rfl
  refine Keeps.bind (keeps_call hlookUp _) fun found hfound => ?_
  refine Keeps.bind (keeps_call (hk.save found document stamp hdocument hstamp hfound) _)
    fun saved hsaved => ?_
  have hkind := hk.saved _ _ _ _ hdocument hfound hsaved
  have hupsert : (Indexing.upsert saved).Within k :=
    upsert_within hk.free fun index id fields h => hk.put _ _ _ _ hkind h
  have hfollow : (Indexing.follow saved).Within k :=
    hupsert.attempt.within.bind fun _ => within_pure _
  exact hfollow.bind fun _ => within_pure _

/-- What a write fails with when one of its calls to the database does. -/
def writeFailure (document : Fields) : Outage → Failure :=
  Outage.blame Outage.ofDatabase
    (.ofEntity (.recordWrite (document.look "id")) (document.look "entityName"))

/-- A write that is not refused leads where its lookup, its commit and then the indexing lead,
however the indexing ends; and it ends with a lookup or a commit that fails. -/
theorem write_leads_iff (document : Fields) (w : World)
    (post : Except Failure Fields → World → Prop) :
    (Store.write document).Leads w post ↔
      match Store.stampOf document with
      | .error f => post (.error f) w
      | .ok stamp =>
        match w.answerCall (.database (.lookUp (document.look "id"))) with
        | (.error o, w₁) => post (.error (writeFailure document o)) w₁
        | (.ok found, w₁) =>
          match w₁.answerCall (.database (.commit found document stamp)) with
          | (.error o, w₂) => post (.error (writeFailure document o)) w₂
          | (.ok saved, w₂) =>
            (Indexing.upsert saved).Leads w₂ fun _ w' => post (.ok saved) w' := by
  unfold Store.write
  rw [leads_bind, leads_orFail]
  rcases Store.stampOf document with f | stamp
  · rfl
  · dsimp only
    rw [leads_bind]
    refine (leads_call _ _ _ _).trans ?_
    rcases w.answerCall (.database (.lookUp (document.look "id"))) with ⟨o | found, w₁⟩
    · rfl
    · refine (leads_bind _ _ _ _).trans ((leads_call _ _ _ _).trans ?_)
      dsimp only
      rcases w₁.answerCall (.database (.commit found document stamp)) with ⟨o | saved, w₂⟩
      · rfl
      · exact (leads_bind _ _ _ _).trans ((leads_bind _ _ _ _).trans (leads_attempt _ _ _))

theorem removeEach_within (hfree : k.Frees) (id : Json) (targets : List IndexTarget) :
    (Indexing.removeEach id targets).Within k := by
  induction targets with
  | nil => exact within_pure _
  | cons target rest ih => exact (removal_within (hfree.other _ rfl) _ _).bind fun _ => ih

theorem remove_within (hfree : k.Frees) (document : Fields) : (Indexing.remove document).Within k :=
  (within_orFail _).bind fun _ => (within_orFail _).bind fun _ =>
    (removeEach_within hfree _ _).bind fun _ => within_pure _

/-! ## Stale records -/

theorem visit_within {kind : Fields → Prop} (hk : k.Admits kind) {document : Fields}
    (hdocument : ∀ merged now refreshed,
      Reindex.refreshed merged now document = .ok refreshed → kind refreshed)
    (counts : BucketCounts) : (Reindex.visit counts document).Within k := by
  unfold Reindex.visit
  split
  · exact within_pure _
  · have hrecord : (Reindex.record document).Within k := by
      refine (lookUpSchema_within hk.free _ _ _).bind fun schema => ?_
      refine (keeps_ask (by simp)).within.bind fun here => ?_
      refine Keeps.bind (keeps_orBroken fun d h => hdocument _ _ d h) fun refreshed h => ?_
      exact write_within hk h
    refine hrecord.attempt.within.bind fun r => ?_
    rcases r with _ | _
    · exact within_pure _
    · exact within_pure _

theorem visitAll_within {kind : Fields → Prop} (hk : k.Admits kind) {documents : List Fields}
    (hdocuments : ∀ document ∈ documents, ∀ merged now refreshed,
      Reindex.refreshed merged now document = .ok refreshed → kind refreshed)
    (counts : BucketCounts) : (Reindex.visitAll counts documents).Within k := by
  induction documents generalizing counts with
  | nil => exact within_pure _
  | cons document rest ih =>
    refine (visit_within hk (hdocuments document List.mem_cons_self) counts).bind fun counts => ?_
    exact ih (fun d hd => hdocuments d (List.mem_cons_of_mem _ hd)) counts

theorem foldFrom_within {kind : Fields → Prop} (hk : k.Admits kind) (s : Store.Scan) (fuel : Nat)
    (after : String) (counts : BucketCounts) :
    (s.foldFrom Reindex.visitAll fuel after counts).Within k := by
  induction fuel generalizing after counts with
  | zero => exact within_pure _
  | succ fuel ih =>
    have hpage : (s.page after).Keeps k fun rows => ∀ r ∈ rows, ∀ merged now refreshed,
        Reindex.refreshed merged now r.document = .ok refreshed → kind refreshed := by
      refine Keeps.bind (within_orBroken _) fun limit _ => ?_
      have hcall (p : StalePage) : (Store.call (.page p) .staleScan s.entityName).Keeps k
          (k.promises (.database (.page p))) := keeps_call (hk.free.other _ rfl) _
      exact (hcall _).mono fun rows h => hk.page _ rows h
    refine Keeps.bind hpage fun rows hrows => ?_
    split
    · exact within_pure _
    · refine (visitAll_within hk (fun d hd => ?_) counts).bind fun counts => ?_
      · obtain ⟨r, hr, rfl⟩ := List.mem_map.mp hd
        exact hrows r hr
      · refine (within_orBroken _).bind fun short => ?_
        split
        · exact within_pure _
        · exact ih _ _

theorem usualCutoff_within : Reindex.usualCutoff.Within k := by
  refine (keeps_ask (by simp)).within.bind fun here => ?_
  refine (within_orBroken _).bind fun age => ?_
  split
  · exact within_pure _
  · exact keeps_throw _

theorem stale_within {kind : Fields → Prop} (hk : k.Admits kind)
    (solutionId entityName pageSize : Json) (cutoff : Option Timestamp) :
    (Reindex.stale solutionId entityName pageSize cutoff).Within k := by
  have hrun (cutoff : Timestamp) :
      (Reindex.run { solutionId, cutoff, entityName, pageSize }).Within k :=
    (keeps_ask (by simp)).within.bind fun rows => foldFrom_within hk _ _ _ _
  cases cutoff with
  | some cutoff => exact hrun cutoff
  | none => exact usualCutoff_within.bind hrun

/-! ## Calls that write -/

/-- A call that may write documents to search. -/
inductive IndexingCall where
  | upsert (document : Fields)
  | write (document : Fields)
  | reindex (solutionId entityName pageSize : Json) (cutoff : Option Timestamp)

namespace IndexingCall

/-- The document that a call is about, if it is given one. -/
def document? : IndexingCall → Option Fields
  | .upsert document => some document
  | .write document => some document
  | .reindex .. => none

/-- The world after a call. -/
def after (w : World) : IndexingCall → World
  | .upsert document => ((Indexing.upsert document).runIn w).2
  | .write document => ((Store.write document).runIn w).2
  | .reindex solutionId entityName pageSize cutoff =>
    ((Reindex.stale solutionId entityName pageSize cutoff).runIn w).2

/-- The world after several calls, each of them under circumstances of its
own. -/
def afterAll (w : World) (calls : List (Circumstances × IndexingCall)) : World :=
  calls.foldl (fun w c => c.2.after { w with circumstances := c.1 }) w

/-- A fact lasts through calls that keep a contract. -/
theorem afterAll_induct (fact : World → Prop) {calls : List (Circumstances × IndexingCall)}
    (hcircumstances : ∀ w here, fact w → fact { w with circumstances := here })
    (hstep : ∀ c ∈ calls, ∀ w, fact w → fact (c.2.after w)) {w : World} (hw : fact w) :
    fact (afterAll w calls) := by
  induction calls generalizing w with
  | nil => exact hw
  | cons c rest ih =>
    have hnext := hstep c List.mem_cons_self _ (hcircumstances w c.1 hw)
    exact ih (fun c hc => hstep c (List.mem_cons_of_mem _ hc)) hnext

/-- Under a contract that admits the documents handed in, a call leaves a fact
in place that lasts under the contract. -/
theorem after_of_admits {k : Contract} {kind : Fields → Prop} {fact : World → Prop}
    (hk : k.Admits kind) (hup : k.Upholds fact) {c : IndexingCall}
    (hkind : ∀ d, c.document? = some d → kind d) {w : World} (hw : fact w) : fact (c.after w) := by
  cases c with
  | upsert document =>
    have h := upsert_within hk.free fun index id fields => hk.put _ _ _ _ (hkind document rfl)
    exact (h.leads hup hw).2
  | write document => exact ((write_within hk (hkind document rfl)).leads hup hw).2
  | reindex solutionId entityName pageSize cutoff =>
    exact ((stale_within hk solutionId entityName pageSize cutoff).leads hup hw).2

end IndexingCall

end TenantSearch
