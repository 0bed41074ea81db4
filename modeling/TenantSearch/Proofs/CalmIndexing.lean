-- Indexing and removing documents in a world without outages. In a sound index
-- a document changes its own copy and no other.
import TenantSearch.Document.Indexing
import TenantSearch.Proofs.CalmUpkeep
import TenantSearch.Proofs.DocumentWrites

namespace TenantSearch

open Service

/-! ## Copies that change -/

/-- An engine in which an identifier stands for something else, or for nothing
any more, in some indices. -/
def SearchEngine.Rewritten (e e' : SearchEngine) (indices : List String) (key : Option Json.Key)
    (value : Option Fields) : Prop :=
  ∀ index k, e'.copy? index k = if index ∈ indices ∧ key = some k then value else e.copy? index k

theorem SearchEngine.Rewritten.of_same {e e' : SearchEngine}
    (h : ∀ index k, e'.copy? index k = e.copy? index k) (key : Option Json.Key)
    (value : Option Fields) : e.Rewritten e' [] key value :=
  fun index k => by rw [if_neg (fun h => List.not_mem_nil h.1), h]

theorem SearchEngine.Rewritten.cons {e e' e'' : SearchEngine} {index : String}
    {indices : List String} {key : Option Json.Key} {value : Option Fields}
    (h : e.Rewritten e' [index] key value) (h' : e'.Rewritten e'' indices key value) :
    e.Rewritten e'' (index :: indices) key value := by
  intro i k
  rw [h', h]
  by_cases hk : key = some k
  · by_cases hi : i ∈ indices
    · simp [hi, hk]
    · simp [hi, hk]
  · simp [hk]

/-- The two worlds differ in the copies of one identifier, and in the log. -/
structure World.RewrittenTo (w w' : World) (indices : List String) (key : Option Json.Key)
    (value : Option Fields) : Prop where
  beside : w.Beside w'
  mappings : ∀ index, w'.engine.mapping? index = w.engine.mapping? index
  copies : w.engine.Rewritten w'.engine indices key value

/-! ## Putting and removing -/

theorem putDocument_leads {w : World} (hcalm : w.Calm) (index : String) {fields : Fields}
    {id : Json} (hid : fields.get? "id" = some id) :
    (Engine.putDocument index fields).Leads w fun r w' =>
      w.RewrittenTo w' [index] id.key? (some fields) ∧
        (r = .ok () ∧ id.key?.isSome = true ∨ (∃ f, r = .error f) ∧ id.key? = none) := by
  unfold Engine.putDocument
  rw [hid]
  refine (leads_call_calm hcalm _ _ _).mpr ?_
  simp only [World.effect, World.answerEngine, World.logged_engine]
  rcases hengine : w.engine.put? index id fields with _ | engine
  · have hkey : id.key? = none := by
      unfold SearchEngine.put? at hengine
      exact Option.map_eq_none_iff.mp hengine
    rw [hkey]
    exact ⟨⟨⟨rfl, rfl, rfl, rfl⟩, fun _ => rfl, fun i k => by simp⟩,
      Or.inr ⟨⟨_, rfl⟩, rfl⟩⟩
  · have hkey : id.key?.isSome = true := by
      unfold SearchEngine.put? at hengine
      obtain ⟨key, hkey, -⟩ := Option.map_eq_some_iff.mp hengine
      rw [hkey]
      rfl
    refine ⟨⟨⟨rfl, rfl, rfl, rfl⟩, SearchEngine.mapping?_put hengine, fun i k => ?_⟩,
      Or.inl ⟨rfl, hkey⟩⟩
    simp only [List.mem_singleton]
    exact SearchEngine.copy?_put hengine i k

theorem removeDocument_leads {w : World} (hcalm : w.Calm) (index : String) (id : Json) :
    (Engine.removeDocument index id).Leads w fun r w' =>
      w.RewrittenTo w' [index] id.key? none ∧
        (r = .ok () ∧ id.key?.isSome = true ∨ (∃ f, r = .error f) ∧ id.key? = none) := by
  refine (leads_bind _ _ _ _).mpr ((leads_ask_calm hcalm _ _).mpr ?_)
  simp only [World.effect, World.answerEngine, World.logged_engine]
  rcases id.key? with _ | key
  · exact ⟨⟨⟨rfl, rfl, rfl, rfl⟩, fun _ => rfl, fun i k => by simp; rfl⟩,
      Or.inr ⟨⟨_, rfl⟩, rfl⟩⟩
  · cases hholds : w.engine.holds index key with
    | true =>
      simp only [hholds, if_true]
      refine ⟨⟨⟨rfl, rfl, rfl, rfl⟩, fun _ => rfl, fun i k => ?_⟩,
        Or.inl ⟨rfl, rfl⟩⟩
      refine (SearchEngine.copy?_remove w.engine index key i k).trans ?_
      simp only [List.mem_singleton, Option.some_inj, eq_comm]
    | false =>
      simp only [hholds, Bool.false_eq_true, if_false]
      refine ⟨⟨⟨rfl, rfl, rfl, rfl⟩, fun _ => rfl, fun i k => ?_⟩,
        Or.inl ⟨rfl, rfl⟩⟩
      rw [SearchEngine.holds_eq, Option.isSome_eq_false_iff, Option.isNone_iff_eq_none] at hholds
      simp only [List.mem_singleton, Option.some_inj]
      split
      · next h =>
        obtain ⟨rfl, rfl⟩ := h
        exact hholds
      · rfl

theorem World.RewrittenTo.refl (w : World) (key : Option Json.Key) (value : Option Fields) :
    w.RewrittenTo w [] key value :=
  ⟨.refl w, fun _ => rfl, .of_same (fun _ _ => rfl) key value⟩

theorem World.RewrittenTo.cons {w w' w'' : World} {index : String} {indices : List String}
    {key : Option Json.Key} {value : Option Fields} (h : w.RewrittenTo w' [index] key value)
    (h' : w'.RewrittenTo w'' indices key value) :
    w.RewrittenTo w'' (index :: indices) key value :=
  ⟨h.beside.trans h'.beside, fun i => (h'.mappings i).trans (h.mappings i),
    h.copies.cons h'.copies⟩

/-- Without a key nothing is rewritten. -/
theorem World.RewrittenTo.of_no_key {w w' : World} {indices : List String} {key : Option Json.Key}
    {value : Option Fields} (h : w.RewrittenTo w' indices key value) (hkey : key = none)
    (more : List String) : w.RewrittenTo w' more key value :=
  ⟨h.beside, h.mappings, fun i k => by rw [h.copies]; simp [hkey]⟩

theorem World.RewrittenTo.sound {w w' : World} {indices : List String} {key : Option Json.Key}
    {value : Option Fields} (h : w.RewrittenTo w' indices key value) {index : String}
    (hsound : w.engine.SoundAt index) : w'.engine.SoundAt index :=
  fun mapping hmapping => hsound mapping (h.mappings index ▸ hmapping)

/-- A document is put into several indices, or it has no identifier and is put
into none. -/
theorem putEach_leads {fields : Fields} {id : Json} (hid : fields.get? "id" = some id)
    (targets : List IndexTarget) {w : World} (hcalm : w.Calm) :
    (Indexing.putEach fields targets).Leads w fun r w' =>
      w.RewrittenTo w' (targets.map (·.name)) id.key? (some fields) ∧
        (r = .ok (targets.map (·.name)) ∧ (targets ≠ [] → id.key?.isSome = true) ∨
          (∃ f, r = .error f) ∧ id.key? = none) := by
  induction targets generalizing w with
  | nil => exact ⟨.refl w _ _, Or.inl ⟨rfl, fun h => absurd rfl h⟩⟩
  | cons target rest ih =>
    unfold Indexing.putEach
    rw [leads_bind]
    refine (putDocument_leads hcalm target.name hid).mono ?_
    rintro r w' ⟨hfirst, ⟨rfl, hkey⟩ | ⟨⟨f, rfl⟩, hkey⟩⟩
    · dsimp only
      rw [leads_bind]
      refine (ih (hfirst.beside.calm hcalm)).mono ?_
      rintro r w'' ⟨hrest, ⟨rfl, -⟩ | ⟨-, hnone⟩⟩
      · exact ⟨hfirst.cons hrest, Or.inl ⟨rfl, fun _ => hkey⟩⟩
      · rw [hnone] at hkey
        cases hkey
    · exact ⟨hfirst.of_no_key hkey _, Or.inr ⟨⟨f, rfl⟩, hkey⟩⟩

theorem removeEach_leads (id : Json) (targets : List IndexTarget) {w : World} (hcalm : w.Calm) :
    (Indexing.removeEach id targets).Leads w fun r w' =>
      w.RewrittenTo w' (targets.map (·.name)) id.key? none ∧
        (r = .ok () ∧ (targets ≠ [] → id.key?.isSome = true) ∨
          (∃ f, r = .error f) ∧ id.key? = none) := by
  induction targets generalizing w with
  | nil => exact ⟨.refl w _ _, Or.inl ⟨rfl, fun h => absurd rfl h⟩⟩
  | cons target rest ih =>
    unfold Indexing.removeEach
    rw [leads_bind]
    refine (removeDocument_leads hcalm target.name id).mono ?_
    rintro r w' ⟨hfirst, ⟨rfl, hkey⟩ | ⟨⟨f, rfl⟩, hkey⟩⟩
    · refine (ih (hfirst.beside.calm hcalm)).mono ?_
      rintro r w'' ⟨hrest, ⟨rfl, -⟩ | ⟨-, hnone⟩⟩
      · exact ⟨hfirst.cons hrest, Or.inl ⟨rfl, fun _ => hkey⟩⟩
      · rw [hnone] at hkey
        cases hkey
    · exact ⟨hfirst.of_no_key hkey _, Or.inr ⟨⟨f, rfl⟩, hkey⟩⟩

/-! ## Indexing a document -/

/-- The indices of a document, by what it says of itself. -/
def ownIndices (document : Fields) : List String :=
  match document.look "entityName" with
  | .str name => (IndexTarget.writeTargets name (document.look "entityType")).map (·.name)
  | _ => []

/-- A document that can be indexed: it names its entity and itself, its indices
can be created, and it has its texts or they can be merged. -/
structure Indexable (definitions : List EntityDefinition) (document : Fields) : Prop where
  entity : ∃ name, document.look "entityName" = .str name ∧ isBlankText name = false ∧
    ∀ t ∈ IndexTarget.writeTargets name (document.look "entityType"),
      ∃ d, descriptorFor definitions (document.look "solutionId") t = .ok d
  given : (document.look "id").given = true
  key : (document.look "id").key?.isSome = true
  texts : Projection.hasTexts document = true ∨ ∃ schema fields,
    schemaFor definitions (document.look "solutionId") (document.look "entityName")
      (document.look "entityType").orNull = .ok schema ∧
    Projection.withTexts schema.merged document = .ok fields

theorem writeTargets_orNull (name : String) (entityType : Json) :
    IndexTarget.writeTargets name entityType.orNull = IndexTarget.writeTargets name entityType := by
  unfold Json.orNull
  split
  · rfl
  · next h =>
    unfold IndexTarget.writeTargets
    rw [if_neg h]
    rfl

theorem completed_leads {w : World} (hcalm : w.Calm) {index : String}
    (hsound : w.engine.SoundAt index) (document : Fields) (entityName entityType : Json) :
    (Indexing.completed document entityName entityType).Leads w fun r w' => w.KeptTo w' index ∧
      (∀ fields, r = .ok fields → IsProjection document (Projection.strip fields)) ∧
      (∀ f, r = .error f → Projection.hasTexts document = false ∧
        ∀ schema, schemaFor w.definitions (document.look "solutionId") entityName entityType =
          .ok schema → ∀ fields, Projection.withTexts schema.merged document ≠ .ok fields) := by
  unfold Indexing.completed
  split
  · next h =>
    refine ⟨.of_engine hsound (.refl w) rfl, fun fields hfields => ?_, fun f hf => ?_⟩
    · cases hfields
      exact isProjection_of_hasTexts h
    · cases hf
  · next h =>
    rw [leads_bind, lookUpSchema_leads hcalm]
    have hkept : w.KeptTo (w.logged
        [.database (.definitions (document.look "solutionId") entityName entityType)]) index :=
      .of_engine hsound ⟨rfl, rfl, rfl, rfl⟩ rfl
    rcases schemaFor w.definitions (document.look "solutionId") entityName entityType with f | schema
    · exact ⟨hkept, fun _ hfields => (by cases hfields),
        fun _ _ => ⟨Bool.eq_false_iff.mpr h, fun _ hschema => (by cases hschema)⟩⟩
    · dsimp only
      rw [leads_orBroken]
      refine ⟨hkept, fun fields hfields => ?_, fun f hf => ⟨Bool.eq_false_iff.mpr h, ?_⟩⟩
      · rcases htexts : Projection.withTexts schema.merged document with b | completed
        · rw [htexts] at hfields
          cases hfields
        · rw [htexts] at hfields
          cases hfields
          exact isProjection_of_withTexts htexts
      · intro schema' hschema fields hfields
        cases hschema
        rw [hfields] at hf
        cases hf

/-- What becomes of a document that is to be indexed, in one index. -/
inductive Upserted (w : World) (document : Fields) (index : String) :
    Except Failure (List String) → World → Prop
  /-- It is refused, and no copy changes. -/
  | refused {f : Failure} {w' : World}
      (copies : ∀ key, w'.engine.copy? index key = w.engine.copy? index key) :
      Upserted w document index (.error f) w'
  /-- It is reserved, and no copy changes. -/
  | reserved {w' : World} (reserved : Reindex.isReserved document = true)
      (copies : ∀ key, w'.engine.copy? index key = w.engine.copy? index key) :
      Upserted w document index (.ok []) w'
  /-- It takes its place if the index is one of its own. -/
  | placed {fields : Fields} {w' : World} (unreserved : Reindex.isReserved document = false)
      (projection : IsProjection document fields)
      (copies : ∀ key, w'.engine.copy? index key =
        if index ∈ ownIndices document ∧ (document.look "id").key? = some key then some fields
        else w.engine.copy? index key) :
      Upserted w document index (.ok (ownIndices document)) w'

theorem isReserved_eq_ok {document : Fields} {reserved : Bool}
    (h : Indexing.isReserved (document.look "entityName") = .ok reserved) :
    Reindex.isReserved document = reserved := by
  unfold Reindex.isReserved
  unfold Indexing.isReserved at h
  generalize document.look "entityName" = name at h ⊢
  cases name with
  | arr items => cases h
  | obj fields => cases h
  | _ => exact Except.ok.inj h

theorem given_of_subject {document : Fields} {s : Indexing.Subject}
    (h : Indexing.subject document = .ok s) : (document.look "id").given = true := by
  unfold Indexing.subject at h
  dsimp only at h
  split at h
  · cases h
  · split at h
    · cases h
    · next hid => simpa using hid

theorem Upserted.after_upkeep {w w₁ w₂ : World} {document : Fields} {index : String}
    {r : Except Failure (List String)} (hkept : w.KeptTo w₁ index)
    (h : Upserted w₁ document index r w₂) : Upserted w document index r w₂ := by
  cases h with
  | refused copies => exact .refused fun k => (copies k).trans (hkept.copies k)
  | reserved reserved copies =>
    exact .reserved reserved fun k => (copies k).trans (hkept.copies k)
  | placed unreserved projection copies =>
    exact .placed unreserved projection fun k => by rw [copies, hkept.copies]

/-- A text that is not blank is given. -/
theorem given_of_not_blank {name : String} (h : isBlankText name = false) :
    (Json.str name).given = true := by
  unfold Json.given
  rw [Bool.not_eq_true', Bool.eq_false_iff]
  intro hempty
  rw [String.isEmpty_iff.mp hempty] at h
  cases h

theorem Indexable.entityNameOf {definitions : List EntityDefinition} {document : Fields}
    (h : Indexable definitions document) :
    ∃ name, Index.entityNameOf (document.look "entityName") = .ok name := by
  obtain ⟨name, hname, hblank, -⟩ := h.entity
  refine ⟨name, ?_⟩
  unfold Index.entityNameOf
  rw [hname, given_of_not_blank hblank]
  dsimp only
  rw [hblank]
  rfl

theorem Indexable.subject {definitions : List EntityDefinition} {document : Fields}
    (h : Indexable definitions document) : ∃ s, Indexing.subject document = .ok s := by
  obtain ⟨name, hname, hblank, -⟩ := h.entity
  refine ⟨⟨document.look "entityName", document.look "id"⟩, ?_⟩
  unfold Indexing.subject
  dsimp only
  rw [hname, given_of_not_blank hblank, h.given]
  rfl

/-- Making sure of the indices of a document, and putting it there. -/
theorem placing_leads {w : World} (hcalm : w.Calm) {index : String}
    (hsound : w.engine.SoundAt index) {document fields : Fields}
    (hunreserved : Reindex.isReserved document = false) (hprojection : IsProjection document fields)
    (hid : fields.get? "id" = some (document.look "id")) :
    (do
      let _ ← Index.ensure (document.look "solutionId") (document.look "entityName")
        (document.look "entityType").orNull false
      let name ← Service.orFail (Index.entityNameOf (document.look "entityName"))
      Indexing.putEach fields (IndexTarget.writeTargets name (document.look "entityType").orNull) :
        Service (List String)).Leads w fun r w' =>
      w.Beside w' ∧ w'.engine.SoundAt index ∧ Upserted w document index r w' ∧
        (Indexable w.definitions document → ∃ names, r = .ok names) := by
  unfold Index.ensure
  rw [leads_bind, leads_bind, leads_orFail]
  rcases hname : Index.entityNameOf (document.look "entityName") with f | name
  · refine ⟨.refl w, hsound, .refused fun _ => rfl, fun h => ?_⟩
    obtain ⟨_, hok⟩ := h.entityNameOf
    rw [hname] at hok
    cases hok
  · have hstr := entityNameOf_eq_ok hname
    dsimp only
    rw [writeTargets_orNull]
    refine (ensureEach_leads _ _ hcalm hsound).mono ?_
    rintro r w₁ ⟨hkept, hok⟩
    rcases r with f | names
    · refine ⟨hkept.beside, hkept.sound, .refused hkept.copies, fun h => ?_⟩
      obtain ⟨other, hother, -, htargets⟩ := h.entity
      rw [hstr] at hother
      cases hother
      obtain ⟨_, hnames⟩ := hok htargets
      cases hnames
    · dsimp only
      rw [leads_bind, leads_orFail]
      dsimp only
      refine (putEach_leads hid _ (hkept.beside.calm hcalm)).mono ?_
      rintro r w₂ ⟨hput, hcases⟩
      have hown : (IndexTarget.writeTargets name (document.look "entityType")).map (·.name) =
          ownIndices document := by
        unfold ownIndices
        rw [hstr]
      rw [writeTargets_orNull, hown] at hput hcases
      refine ⟨hkept.beside.trans hput.beside, hput.sound hkept.sound, ?_, ?_⟩
      · refine Upserted.after_upkeep hkept ?_
        rcases hcases with ⟨rfl, -⟩ | ⟨⟨f, rfl⟩, hkey⟩
        · exact .placed hunreserved hprojection (hput.copies index)
        · refine .refused fun k => ?_
          rw [hput.copies index k, hkey]
          simp
      · intro h
        rcases hcases with ⟨rfl, -⟩ | ⟨-, hkey⟩
        · exact ⟨_, rfl⟩
        · have hsome := h.key
          rw [hkey] at hsome
          cases hsome

/-- In a sound index, indexing a document changes the copy of the document at
most, and it works out for a document that can be indexed. -/
theorem upsert_leads {w : World} (hcalm : w.Calm) {index : String}
    (hsound : w.engine.SoundAt index) (document : Fields) :
    (Indexing.upsert document).Leads w fun r w' => w.Beside w' ∧ w'.engine.SoundAt index ∧
      Upserted w document index r w' ∧
        (Indexable w.definitions document → ∃ names, r = .ok names) := by
  unfold Indexing.upsert
  rw [leads_bind, leads_orFail]
  rcases hsubject : Indexing.subject document with f | s
  · refine ⟨.refl w, hsound, .refused fun _ => rfl, fun h => ?_⟩
    obtain ⟨_, hok⟩ := h.subject
    rw [hsubject] at hok
    cases hok
  · obtain ⟨hname, hid⟩ := subject_eq_ok hsubject
    dsimp only
    rw [hname, leads_bind, leads_orBroken]
    rcases hreserved : Indexing.isReserved (document.look "entityName") with b | reserved
    · refine ⟨.refl w, hsound, .refused fun _ => rfl, fun h => ?_⟩
      obtain ⟨name, hstr, -⟩ := h.entity
      rw [hstr] at hreserved
      cases hreserved
    · cases reserved with
      | true =>
        exact ⟨.refl w, hsound, .reserved (isReserved_eq_ok hreserved) fun _ => rfl,
          fun _ => ⟨[], rfl⟩⟩
      | false =>
        dsimp only [Except.mapError]
        rw [if_neg (by simp), leads_bind]
        refine (completed_leads hcalm hsound document _ _).mono ?_
        rintro r w₁ ⟨hkept, hprojection, htexts⟩
        rcases r with f | completed
        · refine ⟨hkept.beside, hkept.sound, .refused hkept.copies, fun h => ?_⟩
          obtain ⟨hnone, hunmerged⟩ := htexts f rfl
          rcases h.texts with hhas | ⟨schema, fields, hschema, hfields⟩
          · rw [hnone] at hhas
            cases hhas
          · exact absurd hfields (hunmerged schema hschema fields)
        · have hfields := hprojection completed rfl
          have hid' : (Projection.strip completed).get? "id" = some (document.look "id") := by
            rw [hfields.get? (by decide)]
            exact Fields.get?_of_given (given_of_subject hsubject)
          refine (placing_leads (hkept.beside.calm hcalm) hkept.sound
            (isReserved_eq_ok hreserved) hfields hid').mono ?_
          rintro r w₂ ⟨hbeside, hsound', hupserted, hok⟩
          rw [hkept.beside.definitions] at hok
          exact ⟨hkept.beside.trans hbeside, hsound', hupserted.after_upkeep hkept, hok⟩

/-! ## Removing a document -/

/-- A document that can be removed: it names its entity and itself. -/
structure Removable (document : Fields) : Prop where
  entity : ∃ name, document.look "entityName" = .str name ∧ name ≠ ""
  given : (document.look "id").given = true
  key : (document.look "id").key?.isSome = true

theorem Removable.subject {document : Fields} (h : Removable document) :
    ∃ s, Indexing.subject document = .ok s := by
  obtain ⟨name, hname, hne⟩ := h.entity
  have hgiven : (Json.str name).given = true := by simpa [Json.given] using hne
  refine ⟨⟨document.look "entityName", document.look "id"⟩, ?_⟩
  unfold Indexing.subject
  dsimp only
  rw [hname, hgiven, h.given]
  rfl

/-- What becomes of the copies of a document that is to be removed: they go
from the indices that it names now, or nothing changes. -/
theorem remove_leads {w : World} (hcalm : w.Calm) (document : Fields) :
    (Indexing.remove document).Leads w fun r w' =>
      r = .ok (ownIndices document) ∧
          w.RewrittenTo w' (ownIndices document) (document.look "id").key? none ∨
        (∃ f, r = .error f) ∧ ¬ Removable document ∧
          w.RewrittenTo w' [] (document.look "id").key? none := by
  unfold Indexing.remove
  rw [leads_bind, leads_orFail]
  rcases hsubject : Indexing.subject document with f | s
  · refine Or.inr ⟨⟨f, rfl⟩, fun h => ?_, .refl w _ _⟩
    obtain ⟨_, hok⟩ := h.subject
    rw [hsubject] at hok
    cases hok
  · obtain ⟨hname, hid⟩ := subject_eq_ok hsubject
    dsimp only
    rw [hname, hid, leads_bind, leads_orFail]
    rcases htargets : Indexing.targetsOf (document.look "entityName") (document.look "entityType")
      with f | targets
    · refine Or.inr ⟨⟨f, rfl⟩, fun h => ?_, .refl w _ _⟩
      obtain ⟨name, hstr, -⟩ := h.entity
      rw [hstr] at htargets
      cases htargets
    · have hown : targets.map (·.name) = ownIndices document := by
        unfold ownIndices
        unfold Indexing.targetsOf at htargets
        generalize document.look "entityName" = name at htargets ⊢
        cases name with
        | str name =>
          cases htargets
          rfl
        | _ => cases htargets
      dsimp only
      rw [leads_bind]
      refine (removeEach_leads (document.look "id") targets hcalm).mono ?_
      rintro r w' ⟨hrewritten, hcases⟩
      rw [hown] at hrewritten
      rcases hcases with ⟨rfl, -⟩ | ⟨⟨f, rfl⟩, hkey⟩
      · dsimp only
        rw [leads_pure, hown]
        exact Or.inl ⟨rfl, hrewritten⟩
      · refine Or.inr ⟨⟨f, rfl⟩, fun h => ?_, hrewritten.of_no_key hkey []⟩
        have hsome := h.key
        rw [hkey] at hsome
        cases hsome

end TenantSearch
