-- Where the copies in the search engine come from. Each is what search was
-- given of some version of a document that was saved, whatever became of the
-- indexing of the other versions.
import TenantSearch.Proofs.CallEffects
import TenantSearch.Proofs.DocumentWrites

namespace TenantSearch

open Service

/-! ## One write -/

/-- Projections of one document may be put where they belong, and nothing may
be saved. -/
def placing (version : Fields) : Contract :=
  .only fun c => match c with
    | .engine (.put index id fields) => IsPlaced version index id fields
    | .database (.commit ..) => False
    | _ => True

theorem placing_frees (version : Fields) : (placing version).Frees := by
  refine ⟨fun c hc => ?_, fun _ _ => trivial⟩
  cases c with
  | engine c => cases c <;> trivial
  | queue c => trivial
  | database c => cases c <;> trivial

/-- Every copy that an engine holds is of some version. -/
def AreOf (versions : List Fields) (e : SearchEngine) : Prop :=
  ∀ index key fields, e.copy? index key = some fields → ∃ v ∈ versions, IsProjection v fields

theorem AreOf.cons {versions : List Fields} {e : SearchEngine} (h : AreOf versions e)
    (version : Fields) : AreOf (version :: versions) e := by
  intro index key fields hcopy
  obtain ⟨v, hv, hprojection⟩ := h index key fields hcopy
  exact ⟨v, List.mem_cons_of_mem _ hv, hprojection⟩

theorem placing_keeps_records (version : Fields) (records : RecordTable) :
    (placing version).Upholds fun w => w.records = records where
  call w c hw hc := by
    refine ⟨fun _ _ => trivial, ?_⟩
    rcases World.records_answerCall w c with hsame | ⟨found, document, stamp, saved, rfl, -⟩
    · exact hsame.trans hw
    · exact absurd hc id
  memory _ _ h := h
  supply _ _ h := h

theorem placing_upheld {version : Fields} {versions : List Fields}
    (hversion : version ∈ versions) :
    (placing version).Upholds fun w => AreOf versions w.engine where
  call w c hw hc := by
    refine ⟨fun _ _ => trivial, fun index key fields hcopy => ?_⟩
    rcases (World.engine_answerCall w c).copy hcopy with hheld | ⟨id, rfl, -⟩
    · exact hw index key fields hheld
    · exact ⟨version, hversion, IsPlaced.projection hc⟩
  memory _ _ h := h
  supply _ _ h := h

/-- A write as the table and the engine see it: it fails and leaves both alone, or the document
is saved and then indexed. -/
theorem write_cases (document : Fields) (w : World) :
    (Store.write document).Leads w fun r w' => match r with
      | .ok version => ∃ stamp w₁, IsStamped document stamp ∧
          w.records.save document stamp = .ok (version, w₁.records) ∧ w₁.engine = w.engine ∧
          w' = ((Indexing.upsert version).runIn w₁).2
      | .error _ => w'.records = w.records ∧ w'.engine = w.engine := by
  rw [write_leads_iff]
  rcases hstamp : Store.stampOf document with f | stamp
  · exact ⟨rfl, rfl⟩
  dsimp only
  obtain ⟨r, w₁, hlookUp, hrecords, hengine, hfound⟩ :=
    World.lookUp_cases w (document.look "id")
  rw [hlookUp]
  rcases r with o | found
  · exact ⟨hrecords, hengine⟩
  dsimp only
  rcases World.commit_cases w₁ found document stamp with
    ⟨o, w₂, hanswer, hsame, hquiet⟩ | ⟨version, w₂, hanswer, hcommit, hquiet⟩
  · rw [hanswer]
    exact ⟨hsame.trans hrecords, hquiet.trans hengine⟩
  · rw [hanswer]
    have hsave : w.records.save document stamp = .ok (version, w₂.records) :=
      (RecordTable.save_of_rowOf (hfound found rfl) stamp).trans (hrecords ▸ hcommit)
    exact ⟨stamp, w₂, stampOf_eq_ok_iff.mp hstamp, hsave, hquiet.trans hengine, rfl⟩

/-- What a write leaves of the table: the row of the document is in it, or all is as before. -/
theorem write_saves (document : Fields) (w : World) :
    (Store.write document).Leads w fun r w' => match r with
      | .ok version => ∃ stamp, IsStamped document stamp ∧
          w.records.save document stamp = .ok (version, w'.records)
      | .error _ => w'.records = w.records := by
  refine (write_cases document w).mono fun r w' h => ?_
  rcases r with f | version
  · exact h.1
  · obtain ⟨stamp, w₁, hstamp, hsave, -, rfl⟩ := h
    have hupsert : (Indexing.upsert version).Within (placing version) :=
      upsert_within (placing_frees version) fun _ _ _ h => h
    obtain ⟨-, hrecords⟩ := hupsert.leads (placing_keeps_records version w₁.records) (w := w₁) rfl
    exact ⟨stamp, hstamp, hsave.trans (congrArg (fun table => Except.ok (version, table))
      hrecords.symm)⟩

/-- What a write leaves in the engine: copies of the saved version next to those that were there.
A write that fails leaves the engine alone. -/
theorem write_copies {versions : List Fields} {w : World} (hcopies : AreOf versions w.engine)
    (document : Fields) :
    (Store.write document).Leads w fun r w' => match r with
      | .ok version => AreOf (version :: versions) w'.engine
      | .error _ => w'.engine = w.engine := by
  refine (write_cases document w).mono fun r w' h => ?_
  rcases r with f | version
  · exact h.2
  · obtain ⟨stamp, w₁, -, -, hengine, rfl⟩ := h
    have hupsert : (Indexing.upsert version).Within (placing version) :=
      upsert_within (placing_frees version) fun _ _ _ h => h
    have hupheld := placing_upheld (List.mem_cons_self (a := version) (l := versions))
    exact (hupsert.leads hupheld (hengine ▸ hcopies.cons version)).2

/-! ## All writes -/

/-- The worlds that writing documents leads to from an empty engine and an
empty record table, with the versions that were saved. Between two writes all
but the engine and the records may change. -/
inductive Written : List Fields → World → Prop
  | start {w : World} (engine : w.engine = {}) (records : w.records = []) : Written [] w
  | between {versions : List Fields} {w w' : World} (h : Written versions w)
      (engine : w'.engine = w.engine) (records : w'.records = w.records) : Written versions w'
  | saved {versions : List Fields} {w : World} {document version : Fields}
      (h : Written versions w) (outcome : ((Store.write document).runIn w).1 = .ok version) :
      Written (version :: versions) ((Store.write document).runIn w).2
  | refused {versions : List Fields} {w : World} {document : Fields} {f : Failure}
      (h : Written versions w) (outcome : ((Store.write document).runIn w).1 = .error f) :
      Written versions ((Store.write document).runIn w).2

/-- Whatever becomes of the indexing, every copy is of a version that was
saved, and the rows are sound. -/
theorem Written.spec {versions : List Fields} {w : World} (h : Written versions w) :
    AreOf versions w.engine ∧ w.records.Sound := by
  induction h with
  | start engine records =>
    rw [engine, records]
    exact ⟨fun _ _ _ h => (by cases h), .empty⟩
  | between _ engine records ih =>
    rw [engine, records]
    exact ih
  | @saved versions w document version _ outcome ih =>
    have hcopies := write_copies ih.1 document
    have hsaves := write_saves document w
    unfold Leads at hcopies hsaves
    rw [outcome] at hcopies hsaves
    obtain ⟨stamp, hstamp, hsave⟩ := hsaves
    exact ⟨hcopies, ih.2.save hstamp hsave⟩
  | @refused versions w document f _ outcome ih =>
    have hengine := write_copies ih.1 document
    have hrecords := write_saves document w
    unfold Leads at hengine hrecords
    rw [outcome] at hengine hrecords
    rw [hrecords, hengine]
    exact ih

end TenantSearch
