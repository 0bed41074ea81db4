-- What a write does step by step while the indices are good: it saves one version of the
-- document, and pushes to search what that is given of this version.
import TenantSearch.Proofs.CalmIndexing
import TenantSearch.Proofs.Courses

namespace TenantSearch

open Service

/-! ## What search is given of a version -/

/-- The document without what search has no use for, its texts merged by the definitions
where it does not carry them. -/
def projectionFor (definitions : List EntityDefinition) (document : Fields) :
    Except Failure Fields :=
  Projection.strip <$>
    if Projection.hasTexts document then .ok document
    else do
      let schema ← schemaFor definitions (document.look "solutionId") (document.look "entityName")
        (document.look "entityType").orNull
      (Projection.withTexts schema.merged document).mapError .broken

theorem isProjection_of_projectionFor {definitions : List EntityDefinition}
    {document fields : Fields} (h : projectionFor definitions document = .ok fields) :
    IsProjection document fields := by
  unfold projectionFor at h
  split at h
  · next htexts =>
    cases h
    exact isProjection_of_hasTexts htexts
  · rcases hschema : schemaFor definitions (document.look "solutionId")
      (document.look "entityName") (document.look "entityType").orNull with f | schema
    · rw [hschema] at h
      cases h
    · rw [hschema, ok_bind] at h
      rcases hmerged : Projection.withTexts schema.merged document with b | completed
      · rw [hmerged] at h
        cases h
      · rw [hmerged] at h
        cases h
        exact isProjection_of_withTexts hmerged

/-- A version that search takes, and as what: its entity has a name and is not reserved,
and it has its texts or they can be merged. -/
structure IsPushedAs (definitions : List EntityDefinition) (version fields : Fields) : Prop where
  entity : ∃ name, version.look "entityName" = .str name ∧ isBlankText name = false ∧
    name ∉ reservedEntities
  projection : projectionFor definitions version = .ok fields

/-! ## A write step by step -/

/-- How far a write has come: the version that it saved, and the indices that it has pushed
it to. -/
structure WriteStage where
  version : Option Fields := none
  pushed : List String := []

/-- Documents that are written under one identifier, to good indices only. -/
structure IsWrittenUnder (record : String) (good : String → Prop) (document : Fields) : Prop where
  id : document.look "id" = .str record
  indices : ∀ index ∈ ownIndices document, good index

section

variable (definitions : List EntityDefinition) (record : String) (good : String → Prop)

/-- A write saves one version and pushes what search is given of it. While indices are good,
it leaves them as they are. -/
def pushing : Discipline WriteStage where
  allows
    | x, .call (.engine (.put _ key fields)) => key = .str record ∧
      ∃ version, x.version = some version ∧ projectionFor definitions version = .ok fields
    | _, .call (.engine (.remove ..)) => False
    | _, .call (.engine (.create _)) => False
    | _, .call (.engine (.drop _)) => False
    | x, .call (.database (.commit found document stamp)) =>
      x = {} ∧ IsStamped document stamp ∧ IsWrittenUnder record good document ∧
        ∀ r, found = some r → r.id = record
    | _, _ => True
  passes
    | x, .call (.engine (.put index _ _)), r, x' =>
      r = .ok () ∧ x' = { x with pushed := index :: x.pushed }
    | x, .call (.engine (.mapping index)), r, x' =>
      (good index → ∃ mapping, r = .ok mapping ∧ isSound (some mapping) = true) ∧ x' = x
    | x, .call (.database (.lookUp id)), found, x' =>
      (id = .str record → ∀ r, found = .ok (some r) → r.id = record) ∧ x' = x
    | x, .call (.database (.commit _ _ _)), .ok version, x' =>
      (Json.str record).given = true ∧ IsWrittenUnder record good version ∧
        x' = { x with version := some version }
    | x, .call (.database (.definitions solutionId entityName entityType)), r, x' =>
      r = EntityDefinition.rowsFor definitions solutionId entityName entityType ∧ x' = x
    | x, _, _, x' => x' = x

variable {definitions record good} {x : WriteStage}

/-- A look at a good index finds it to be good. -/
theorem checkLive_obeys {index : String} (hgood : good index) :
    (Index.checkLive index).Obeys (pushing definitions record good) x fun r x' =>
      r = .ok true ∧ x' = x := by
  unfold Index.checkLive Engine.liveSchema
  rw [obeys_bind, obeys_attempt, obeys_bind, obeys_ask]
  refine ⟨trivial, ?_⟩
  rintro r x' ⟨hlive, rfl⟩
  obtain ⟨mapping, rfl, hsound⟩ := hlive hgood
  unfold isSound at hsound
  dsimp only at hsound ⊢
  rcases htypes : Engine.fieldTypes mapping with b | types
  · rw [htypes] at hsound
    cases hsound
  · rw [htypes] at hsound
    have hread : (some <$> orBroken (Except.ok types) : Service _).Obeys
        (pushing definitions record good) x' fun r after => r = .ok (some types) ∧ after = x' :=
      ⟨rfl, rfl⟩
    refine hread.mono ?_
    rintro _ after ⟨rfl, rfl⟩
    exact ⟨congrArg Except.ok hsound, rfl⟩

/-- A good index is found to be good, by memory or by a look at it. -/
theorem isGood_obeys {index : String} (hgood : good index) :
    (Index.isGood index).Obeys (pushing definitions record good) x fun r x' =>
      r = .ok true ∧ x' = x := by
  unfold Index.isGood
  rw [obeys_bind, obeys_memory]
  refine ⟨trivial, fun m x' hx => ?_⟩
  obtain rfl : x' = x := hx
  dsimp only
  split
  · exact ⟨rfl, rfl⟩
  have hchange {α : Type} {c : MemoryChange} {rest : Service α}
      {post : Except Failure α → WriteStage → Prop}
      (h : rest.Obeys (pushing definitions record good) x' post) :
      (do change c; rest : Service α).Obeys (pushing definitions record good) x' post := by
    rw [obeys_bind, obeys_change]
    refine ⟨trivial, fun _ after hafter => ?_⟩
    obtain rfl : after = x' := hafter
    exact h
  refine hchange ?_
  rw [obeys_bind]
  refine (checkLive_obeys hgood).mono ?_
  rintro _ after ⟨rfl, rfl⟩
  exact hchange (hchange ⟨rfl, rfl⟩)

theorem ensureEach_obeys (solutionId : Json) {targets : List IndexTarget}
    (hgood : ∀ t ∈ targets, good t.name) :
    (Index.ensureEach solutionId false targets).Obeys (pushing definitions record good) x
      fun r x' => (∃ names, r = .ok names) ∧ x' = x := by
  induction targets with
  | nil => exact ⟨⟨[], rfl⟩, rfl⟩
  | cons target rest ih =>
    have hone : (Index.ensureOne solutionId false target).Obeys (pushing definitions record good) x
        fun r x' => r = .ok false ∧ x' = x := by
      unfold Index.ensureOne
      rw [obeys_locked]
      refine ⟨trivial, fun _ entered hentered => ?_⟩
      obtain rfl : entered = x := hentered
      simp only [Bool.false_eq_true, if_false, map_eq_pure_bind, bind_assoc, pure_bind]
      rw [obeys_bind]
      refine (isGood_obeys (hgood target List.mem_cons_self)).mono ?_
      rintro _ left ⟨rfl, rfl⟩
      refine ⟨trivial, fun _ after hafter => ⟨rfl, hafter⟩⟩
    unfold Index.ensureEach
    rw [obeys_bind]
    refine hone.mono ?_
    rintro _ x' ⟨rfl, rfl⟩
    dsimp only
    rw [obeys_bind]
    refine (ih fun t ht => hgood t (List.mem_cons_of_mem _ ht)).mono ?_
    rintro _ x' ⟨⟨names, rfl⟩, rfl⟩
    exact ⟨⟨_, rfl⟩, rfl⟩

/-- The texts of a version are merged as the definitions say. -/
theorem completed_obeys (version : Fields) :
    (Indexing.completed version (version.look "entityName")
      (version.look "entityType").orNull).Obeys (pushing definitions record good) x fun r x' =>
        Projection.strip <$> r = projectionFor definitions version ∧ x' = x := by
  unfold Indexing.completed projectionFor
  split
  · exact ⟨rfl, rfl⟩
  · unfold lookUpSchema schemaFor
    rw [obeys_bind, obeys_bind, obeys_call]
    refine ⟨trivial, ?_⟩
    rintro _ x' ⟨rfl, rfl⟩
    rcases EntityDefinition.rowsFor definitions (version.look "solutionId")
      (version.look "entityName") (version.look "entityType").orNull with o | rows
    · exact ⟨rfl, rfl⟩
    · rcases hschema : EntityDefinition.choose rows with b | schema
      · refine (obeys_orBroken _ _ _).mpr ?_
        rw [hschema]
        exact ⟨by simp [Except.mapError, hschema, bind, Except.bind], rfl⟩
      · refine (obeys_orBroken _ _ _).mpr ?_
        rw [hschema]
        refine (obeys_orBroken _ _ _).mpr ⟨?_, rfl⟩
        simp [Except.mapError, hschema, bind, Except.bind]

/-- A version is pushed to all its indices. -/
theorem putEach_obeys {version fields : Fields} (hversion : x.version = some version)
    (hprojection : projectionFor definitions version = .ok fields)
    (hid : fields.get? "id" = some (.str record)) (targets : List IndexTarget) :
    (Indexing.putEach fields targets).Obeys (pushing definitions record good) x fun _ x' =>
      x'.version = some version ∧ (∀ t ∈ targets, t.name ∈ x'.pushed) ∧
        ∀ index ∈ x.pushed, index ∈ x'.pushed := by
  induction targets generalizing x with
  | nil => exact ⟨hversion, fun t ht => absurd ht List.not_mem_nil, fun _ h => h⟩
  | cons target rest ih =>
    unfold Indexing.putEach Engine.putDocument
    rw [obeys_bind, hid]
    refine (obeys_call _ _ _ _).mpr ⟨⟨rfl, version, hversion, hprojection⟩, ?_⟩
    rintro _ x' ⟨rfl, rfl⟩
    refine (obeys_bind _ _ _ _).mpr ((ih (x := { x with pushed := target.name :: x.pushed })
      hversion).mono ?_)
    rintro r x' ⟨hversion', hrest, hbefore⟩
    have hall : x'.version = some version ∧ (∀ t ∈ target :: rest, t.name ∈ x'.pushed) ∧
        ∀ index ∈ x.pushed, index ∈ x'.pushed := by
      refine ⟨hversion', fun t ht => ?_, fun index h => hbefore index (List.mem_cons_of_mem _ h)⟩
      rcases List.mem_cons.mp ht with rfl | ht
      · exact hbefore _ List.mem_cons_self
      · exact hrest t ht
    rcases r with f | names
    · exact hall
    · exact hall

/-- A write that is through: if search takes its version, all indices of it were given
it. -/
def WriteStage.Settled (definitions : List EntityDefinition) (x : WriteStage) : Prop :=
  ∀ version, x.version = some version → ∀ fields, IsPushedAs definitions version fields →
    ∀ index ∈ ownIndices version, index ∈ x.pushed

theorem upsert_obeys {version : Fields} (hgiven : (Json.str record).given = true)
    (hversion : IsWrittenUnder record good version) :
    (Indexing.upsert version).Obeys (pushing definitions record good) ⟨some version, []⟩ fun _ x' =>
      x'.Settled definitions := by
  have hrefused (h : ∀ fields, ¬ IsPushedAs definitions version fields) :
      WriteStage.Settled definitions ⟨some version, []⟩ := by
    rintro _ ⟨⟩ fields hfields
    exact absurd hfields (h fields)
  unfold Indexing.upsert
  rw [obeys_bind, obeys_orFail]
  rcases hsubject : Indexing.subject version with f | s
  · refine hrefused fun fields hfields => ?_
    obtain ⟨name, hname, hblank, -⟩ := hfields.entity
    unfold Indexing.subject at hsubject
    dsimp only at hsubject
    rw [hname, hversion.id, given_of_not_blank hblank, hgiven] at hsubject
    cases hsubject
  obtain ⟨hentity, -⟩ := subject_eq_ok hsubject
  dsimp only
  rw [hentity, obeys_bind, obeys_orBroken]
  rcases hreserved : Indexing.isReserved (version.look "entityName") with b | reserved
  · refine hrefused fun fields hfields => ?_
    obtain ⟨name, hname, -⟩ := hfields.entity
    rw [hname] at hreserved
    cases hreserved
  cases reserved with
  | true =>
    refine hrefused fun fields hfields => ?_
    obtain ⟨name, hname, -, hunreserved⟩ := hfields.entity
    rw [hname] at hreserved
    exact hunreserved (List.contains_iff_mem.mp (Except.ok.inj hreserved))
  | false =>
    dsimp only [Except.mapError]
    rw [if_neg (by simp), obeys_bind]
    refine (completed_obeys version).mono ?_
    rintro r x' ⟨hcompleted, rfl⟩
    rcases r with f | completed
    · refine hrefused fun fields hfields => ?_
      rw [hfields.projection] at hcompleted
      cases hcompleted
    have hprojection : projectionFor definitions version = .ok (Projection.strip completed) :=
      hcompleted.symm
    dsimp only
    unfold Index.ensure
    rw [obeys_bind, obeys_bind, obeys_orFail]
    rcases hname : Index.entityNameOf (version.look "entityName") with f | name
    · refine hrefused fun fields hfields => ?_
      obtain ⟨name, hstr, hblank, -⟩ := hfields.entity
      unfold Index.entityNameOf at hname
      rw [hstr, given_of_not_blank hblank] at hname
      dsimp only at hname
      rw [hblank] at hname
      cases hname
    have hown : ownIndices version =
        (IndexTarget.writeTargets name (version.look "entityType")).map (·.name) := by
      unfold ownIndices
      rw [entityNameOf_eq_ok hname]
    dsimp only
    rw [writeTargets_orNull]
    refine (ensureEach_obeys _ fun t ht => hversion.indices _ ?_).mono ?_
    · rw [hown]
      exact List.mem_map_of_mem ht
    rintro _ x' ⟨⟨names, rfl⟩, rfl⟩
    dsimp only
    rw [obeys_bind, obeys_orFail]
    have hid : (Projection.strip completed).get? "id" = some (.str record) := by
      rw [(isProjection_of_projectionFor hprojection).get? (by decide), ← hversion.id]
      exact Fields.get?_of_given (hversion.id ▸ hgiven)
    dsimp only
    rw [writeTargets_orNull]
    refine (putEach_obeys rfl hprojection hid _).mono ?_
    rintro r x' ⟨hsame, hpushed, -⟩ _ hversion' fields - index hindex
    cases hsame.symm.trans hversion'
    rw [hown] at hindex
    obtain ⟨t, ht, rfl⟩ := List.mem_map.mp hindex
    exact hpushed t ht

theorem write_obeys {document : Fields} (hdocument : IsWrittenUnder record good document) :
    (IndexingCall.write document).program.Obeys (pushing definitions record good)
      (fun _ x => x.Settled definitions) {} := by
  refine (Prog.obeys_bind _ _ _ _).mpr ?_
  have hwrite : (Store.write document).Obeys (pushing definitions record good) {} fun _ x =>
      x.Settled definitions := by
    have hnone : WriteStage.Settled definitions {} := nofun
    unfold Store.write
    rw [obeys_bind, obeys_orFail]
    rcases hstamp : Store.stampOf document with f | stamp
    · exact hnone
    dsimp only
    refine (obeys_bind _ _ _ _).mpr ((obeys_call _ _ _ _).mpr ⟨trivial, fun found x' hx => ?_⟩)
    obtain ⟨hfound, rfl⟩ := hx
    rcases found with o | found
    · exact hnone
    have hrecord : ∀ r, found = some r → r.id = record :=
      fun r hr => hfound hdocument.id r (congrArg Except.ok hr)
    refine (obeys_bind _ _ _ _).mpr ((obeys_call _ _ _ _).mpr
      ⟨⟨rfl, stampOf_eq_ok_iff.mp hstamp, hdocument, hrecord⟩, fun r x' hx => ?_⟩)
    rcases r with o | version
    · obtain rfl : x' = {} := hx
      exact hnone
    obtain ⟨hgiven, hversion, rfl⟩ := hx
    refine (obeys_bind _ _ _ _).mpr ((obeys_bind _ _ _ _).mpr ((obeys_attempt _ _ _).mpr ?_))
    exact upsert_obeys hgiven hversion
  exact hwrite

end

end TenantSearch
