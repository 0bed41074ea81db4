-- Writes of one record side by side. Each looks the record up, commits its version and pushes
-- it to search later, so an index holds the version that was pushed last, whichever was
-- committed last.
import TenantSearch.Proofs.IndexTraces
import TenantSearch.Proofs.PushedVersions
import TenantSearch.Proofs.RevertedEdits
import TenantSearch.Proofs.StoredDocuments

namespace TenantSearch

open Service

/-! ## Saving and pushing on a course -/

namespace Act

/-- The version that an act saves. -/
def saved? : Act → Option Fields
  | ⟨_, .call (.database (.commit _ _ _)), .ok saved, _, _⟩ => some saved
  | _ => none

def Saves (version : Fields) (a : Act) : Prop := a.saved? = some version

/-- A document that an act saves has this identifier, and so has the row that was found for it. -/
def Names (record : String) (a : Act) : Prop :=
  ∀ found document stamp, a.step = .call (.database (.commit found document stamp)) →
    document.look "id" = .str record ∧ ∀ v, found = some v → v.id = record

/-- The row that an act saves a document over takes the document as a whole. -/
def IsTakenWhole (a : Act) : Prop :=
  ∀ v document stamp, a.step = .call (.database (.commit (some v) document stamp)) →
    ∀ row, a.before.records.find? v.id = some row → row.TakesWhole v document stamp

/-- An act pushes something to an index under an identifier. -/
def Pushes (index record : String) : Act → Prop
  | ⟨_, .call (.engine (.put target key _)), _, _, _⟩ => target = index ∧ key = .str record
  | _ => False

end Act

theorem IsWrittenUnder.saved {record : String} {good : String → Prop} {document : Fields}
    (h : IsWrittenUnder record good document) (stamp : Option Timestamp) :
    IsWrittenUnder record good (Record.savedDocument document stamp) := by
  refine ⟨(look_savedDocument document stamp (by decide)).trans h.id, ?_⟩
  have hown : ownIndices (Record.savedDocument document stamp) = ownIndices document := by
    unfold ownIndices
    rw [look_savedDocument document stamp (by decide), look_savedDocument document stamp (by decide)]
  rw [hown]
  exact h.indices

/-- A step that may change the engine. -/
def Step.ChangesEngine : Step → Prop
  | .call (.engine (.put ..)) => True
  | .call (.engine (.remove ..)) => True
  | .call (.engine (.create _)) => True
  | .call (.engine (.drop _)) => True
  | _ => False

theorem World.Meets.engine_of_plain {frail : Call → Prop} {w w' : World} {s : Step} {r : s.Reply}
    (h : w.Meets frail s r w') (plain : ¬ s.ChangesEngine) : w'.engine = w.engine := by
  rcases h.engine with hsame | ⟨c, rfl, hchange⟩
  · exact hsame
  · generalize w'.engine = after at hchange
    cases hchange with
    | same => rfl
    | _ => exact absurd trivial plain

/-- What has come of the writes so far: the versions that they saved, and in each index the
one that was pushed last. -/
structure PushedSoFar (definitions : List EntityDefinition) (record : String) (good : String → Prop)
    (acts : List Act) (w : World) (stages : Nat → WriteStage) : Prop where
  defined : w.definitions = definitions
  sound : ∀ index, good index → isSound (w.engine.mapping? index) = true
  saved : ∀ number version, (stages number).version = some version →
    ∃ a ∈ acts, a.actor = number ∧ a.Saves version ∧ a.Names record
  saves : ∀ a ∈ acts, ∀ version, a.Saves version → (stages a.actor).version = some version
  pushed : ∀ number, ∀ index ∈ (stages number).pushed, ∃ a ∈ acts, a.Pushes index record
  copies : ∀ index a, Latest (Act.Pushes index record) acts a → ∃ version fields,
    (stages a.actor).version = some version ∧ projectionFor definitions version = .ok fields ∧
      w.engine.copy? index (.text record) = some fields

section

variable {definitions : List EntityDefinition} {record : String} {good : String → Prop}
  {acts : List Act} {w w' : World} {stages : Nat → WriteStage}

/-- An act that neither saves nor pushes changes nothing about that. -/
theorem PushedSoFar.idle (h : PushedSoFar definitions record good acts w stages) {a : Act}
    (hdefinitions : w'.definitions = w.definitions) (hengine : w'.engine = w.engine)
    (unsaved : ∀ version, ¬ a.Saves version) (unpushed : ∀ index, ¬ a.Pushes index record) :
    PushedSoFar definitions record good (acts ++ [a]) w'
      (Function.update stages a.actor (stages a.actor)) := by
  rw [Function.update_eq_self]
  refine ⟨hdefinitions.trans h.defined, fun index hindex => ?_, fun number version hversion => ?_,
    fun b hb version hsaves => ?_, fun number index hindex => ?_, fun index b hb => ?_⟩
  · rw [hengine]
    exact h.sound index hindex
  · obtain ⟨b, hb, hsaves⟩ := h.saved number version hversion
    exact ⟨b, List.mem_append_left _ hb, hsaves⟩
  · rcases List.mem_append.mp hb with hb | hb
    · exact h.saves b hb version hsaves
    · exact absurd (List.mem_singleton.mp hb ▸ hsaves) (unsaved version)
  · obtain ⟨b, hb, hpushes⟩ := h.pushed number index hindex
    exact ⟨b, List.mem_append_left _ hb, hpushes⟩
  · rw [hengine]
    rcases latest_snoc_iff.mp hb with ⟨hpushes, -⟩ | ⟨-, hb⟩
    · exact absurd hpushes (unpushed index)
    · exact h.copies index b hb

/-- A save changes what its writer has come to, and no copy. -/
theorem PushedSoFar.save (h : PushedSoFar definitions record good acts w stages) {number : Nat}
    (hfirst : stages number = {}) {found : Option Record} {document version : Fields}
    {stamp : Option Timestamp} (hid : document.look "id" = .str record)
    (hfound : ∀ v, found = some v → v.id = record)
    (meets : w.Meets noCall (.call (.database (.commit found document stamp)))
      (Except.ok version) w') :
    PushedSoFar definitions record good
      (acts ++ [⟨number, .call (.database (.commit found document stamp)), Except.ok version, w,
        w'⟩]) w' (Function.update stages number ⟨some version, []⟩) := by
  have hengine : w'.engine = w.engine := meets.engine_of_plain id
  have hother {other : Nat} {v : Fields} (hv : (stages other).version = some v) :
      other ≠ number := by
    rintro rfl
    rw [hfirst] at hv
    cases hv
  refine ⟨meets.definitions.trans h.defined, fun index hindex => ?_, fun other v hv => ?_,
    fun b hb v hsaves => ?_, fun other index hindex => ?_, fun index b hb => ?_⟩
  · rw [hengine]
    exact h.sound index hindex
  · by_cases hsame : other = number
    · subst hsame
      rw [Function.update_self] at hv
      refine ⟨_, List.mem_append_right _ List.mem_cons_self, rfl, hv, ?_⟩
      rintro _ _ _ ⟨⟩
      exact ⟨hid, hfound⟩
    · rw [Function.update_of_ne hsame] at hv
      obtain ⟨b, hb, hsaves⟩ := h.saved other v hv
      exact ⟨b, List.mem_append_left _ hb, hsaves⟩
  · rcases List.mem_append.mp hb with hb | hb
    · have hbefore := h.saves b hb v hsaves
      rw [Function.update_of_ne (hother hbefore)]
      exact hbefore
    · obtain rfl := List.mem_singleton.mp hb
      rw [Function.update_self]
      exact hsaves
  · by_cases hsame : other = number
    · subst hsame
      rw [Function.update_self] at hindex
      exact absurd hindex List.not_mem_nil
    · rw [Function.update_of_ne hsame] at hindex
      obtain ⟨b, hb, hpushes⟩ := h.pushed other index hindex
      exact ⟨b, List.mem_append_left _ hb, hpushes⟩
  · rcases latest_snoc_iff.mp hb with ⟨hpushes, -⟩ | ⟨-, hb⟩
    · exact absurd hpushes id
    · obtain ⟨v, fields, hv, hprojection, hcopy⟩ := h.copies index b hb
      rw [Function.update_of_ne (hother hv), hengine]
      exact ⟨v, fields, hv, hprojection, hcopy⟩

/-- A push works out, and its index holds what was pushed. -/
theorem PushedSoFar.push (h : PushedSoFar definitions record good acts w stages) {number : Nat}
    {version fields : Fields} (hversion : (stages number).version = some version)
    (hprojection : projectionFor definitions version = .ok fields) {index : String}
    {r : Except Outage Unit}
    (meets : w.Meets noCall (.call (.engine (.put index (.str record) fields))) r w') :
    r = .ok () ∧ PushedSoFar definitions record good
      (acts ++ [⟨number, .call (.engine (.put index (.str record) fields)), r, w, w'⟩]) w'
      (Function.update stages number
        { stages number with pushed := index :: (stages number).pushed }) := by
  obtain ⟨engine, hput, hr, hengine⟩ : ∃ engine,
      w.engine.put? index (.str record) fields = some engine ∧ r = .ok () ∧ w'.engine = engine := by
    obtain ⟨plans, hr, hw⟩ := meets.answered
    exact ⟨_, rfl, hr, hw ▸ rfl⟩
  have hstage (other : Nat) : (Function.update stages number { stages number with
      pushed := index :: (stages number).pushed } other).version = (stages other).version := by
    by_cases hsame : other = number
    · subst hsame
      rw [Function.update_self]
    · rw [Function.update_of_ne hsame]
  refine ⟨hr, meets.definitions.trans h.defined, fun i hi => ?_, fun other v hv => ?_,
    fun b hb v hsaves => ?_, fun other i hi => ?_, fun i b hb => ?_⟩
  · rw [hengine, SearchEngine.mapping?_put hput]
    exact h.sound i hi
  · obtain ⟨b, hb, hsaves⟩ := h.saved other v (hstage other ▸ hv)
    exact ⟨b, List.mem_append_left _ hb, hsaves⟩
  · rcases List.mem_append.mp hb with hb | hb
    · rw [hstage]
      exact h.saves b hb v hsaves
    · obtain rfl := List.mem_singleton.mp hb
      cases hsaves
  · by_cases hnew : i = index
    · exact ⟨_, List.mem_append_right _ List.mem_cons_self, hnew.symm, rfl⟩
    · have hold : i ∈ (stages other).pushed := by
        by_cases hsame : other = number
        · subst hsame
          rw [Function.update_self] at hi
          exact (List.mem_cons.mp hi).resolve_left hnew
        · rwa [Function.update_of_ne hsame] at hi
      obtain ⟨b, hb, hpushes⟩ := h.pushed other i hold
      exact ⟨b, List.mem_append_left _ hb, hpushes⟩
  · rw [hengine]
    rcases latest_snoc_iff.mp hb with ⟨⟨rfl, -⟩, rfl⟩ | ⟨hunpushed, hb⟩
    · rw [hstage, SearchEngine.copy?_put hput, if_pos ⟨rfl, rfl⟩]
      exact ⟨version, fields, hversion, hprojection, rfl⟩
    · have hother : i ≠ index := fun hi => hunpushed ⟨hi.symm, rfl⟩
      rw [hstage, SearchEngine.copy?_put hput, if_neg fun hi => hother hi.1]
      exact h.copies i b hb

/-- A step that the discipline allows passes, and what holds so far holds after it. -/
theorem PushedSoFar.step (h : PushedSoFar definitions record good acts w stages) {number : Nat}
    {s : Step} {r : s.Reply} (hallows : (pushing definitions record good).allows (stages number) s)
    (meets : w.Meets noCall s r w') : ∃ after,
      (pushing definitions record good).passes (stages number) s r after ∧
        PushedSoFar definitions record good (acts ++ [⟨number, s, r, w, w'⟩]) w'
          (Function.update stages number after) := by
  have hidle (hengine : w'.engine = w.engine) (unsaved : ∀ v, ¬ Act.Saves v ⟨number, s, r, w, w'⟩)
      (unpushed : ∀ index, ¬ Act.Pushes index record ⟨number, s, r, w, w'⟩) :=
    h.idle (a := ⟨number, s, r, w, w'⟩) meets.definitions hengine unsaved unpushed
  cases s with
  | call c =>
    cases c with
    | engine c =>
      cases c with
      | put index key fields =>
        obtain ⟨rfl, version, hversion, hprojection⟩ := hallows
        obtain ⟨hr, hafter⟩ := h.push hversion hprojection meets
        exact ⟨_, ⟨hr, rfl⟩, hafter⟩
      | mapping index =>
        refine ⟨_, ⟨fun hgood => ?_, rfl⟩, hidle (meets.engine_of_plain id) nofun fun _ => id⟩
        have hsound := h.sound index hgood
        have hmapping := World.AmidOthers.mapping (.met rfl meets)
        have hlive : (w.trace index).mapping = w.engine.mapping? index := rfl
        rw [hlive] at hmapping
        rcases hmapping? : w.engine.mapping? index with _ | mapping
        · rw [hmapping?] at hsound
          cases hsound
        · rw [hmapping?] at hmapping hsound
          exact ⟨mapping, hmapping.1, hsound⟩
      | remove index key => exact absurd hallows id
      | create d => exact absurd hallows id
      | drop index => exact absurd hallows id
      | _ => exact ⟨_, rfl, hidle (meets.engine_of_plain id) nofun fun _ => id⟩
    | queue c => exact ⟨_, rfl, hidle (meets.engine_of_plain id) nofun fun _ => id⟩
    | database c =>
      cases c with
      | lookUp id =>
        refine ⟨_, ⟨?_, rfl⟩, hidle (meets.engine_of_plain fun h => h) nofun fun _ h => h⟩
        rintro rfl v rfl
        exact RecordTable.id_of_rowOf (World.MeetsAmid.met meets).lookUp
      | commit found document stamp =>
        obtain ⟨hfirst, hstamped, hdocument, hfound⟩ := hallows
        rcases r with o | version
        · exact ⟨_, rfl, hidle (meets.engine_of_plain id) nofun fun _ => id⟩
        · have hversion := RecordTable.saved_eq_of_commit hdocument.id hfound
            (World.MeetsAmid.met meets).commit
          refine ⟨⟨some version, []⟩, ⟨hdocument.id ▸ hstamped.id,
            hversion ▸ hdocument.saved stamp, ?_⟩, h.save hfirst hdocument.id hfound meets⟩
          rw [hfirst]
      | definitions solutionId entityName entityType =>
        have hamid : w.AmidOthers "" _ r w' := .met rfl meets
        have hrows := hamid.definitions.1
        refine ⟨_, ⟨hrows.trans ?_, rfl⟩, hidle (meets.engine_of_plain id) nofun fun _ => id⟩
        exact congrArg (EntityDefinition.rowsFor · solutionId entityName entityType) h.defined
      | _ => exact ⟨_, rfl, hidle (meets.engine_of_plain id) nofun fun _ => id⟩
  | _ => exact ⟨_, rfl, hidle (meets.engine_of_plain id) nofun fun _ => id⟩

end

/-! ## The last push -/

/-- An act that saves a version puts its row into the table. -/
theorem Act.Saves.commit {frail : Call → Prop} {a : Act} {version : Fields} (h : a.Saves version)
    (meets : a.before.Meets frail a.step a.reply a.after) :
    ∃ found document stamp, a.step = .call (.database (.commit found document stamp)) ∧
      a.before.records.commit found document stamp = .ok (version, a.after.records) := by
  obtain ⟨actor, s, r, before, after⟩ := a
  unfold Act.Saves Act.saved? at h
  split at h
  · next found document stamp saved _ _ heq =>
    cases heq
    cases h
    exact ⟨found, document, stamp, rfl, (World.MeetsAmid.met meets).commit⟩
  · cases h

/-- Where no call fails, an act that saves no version leaves the table as it is. -/
theorem World.Meets.records_of_unsaved {w w' : World} {number : Nat} {s : Step} {r : s.Reply}
    (h : w.Meets noCall s r w') (unsaved : ¬ ∃ v, Act.Saves v ⟨number, s, r, w, w'⟩) :
    w'.records = w.records := by
  rcases h.committing with hsame | ⟨found, document, stamp, saved, rfl, hcommit⟩
  · exact hsame
  · obtain ⟨plans, rfl, -⟩ := h.answered
    refine absurd ⟨saved, ?_⟩ unsaved
    have hcalled : (w.calling (.database (.commit found document stamp)) plans).records =
        w.records := rfl
    have hanswer := answerDatabase_commit
      (w.calling (.database (.commit found document stamp)) plans) found document stamp
    rw [hcalled, hcommit] at hanswer
    have heffect : (w.calling (.database (.commit found document stamp)) plans).effect
        (.database (.commit found document stamp)) = _ := hanswer
    rw [heffect]
    rfl

namespace Crew

variable {documents : List Fields} {w : World} {u : Crew} {acts : List Act}

/-- Writes of documents, none of which has begun. -/
def writing (documents : List Fields) (w : World) : Crew :=
  begin ((documents.map IndexingCall.write).map (·.program)) w

/-- After the last save the table stays as it is. -/
theorem Course.records_of_latest {t : Crew} (h : t.Course (World.Meets noCall) acts u) {a : Act}
    (last : Latest (fun a => ∃ v, a.Saves v) acts a) : u.world.records = a.after.records := by
  induction h with
  | still => exact absurd last.mem.1 List.not_mem_nil
  | next course turn locks meets ih =>
    rcases latest_snoc_iff.mp last with ⟨-, rfl⟩ | ⟨hunsaved, last⟩
    · rfl
    · exact (meets.records_of_unsaved hunsaved).trans (ih last)

/-- While the indices of the documents are good, every write keeps to saving one version
and pushing what search is given of it. -/
theorem Course.pushed (h : (writing documents w).Course (World.Meets noCall) acts u)
    {record : String} (same : ∀ d ∈ documents, d.look "id" = .str record)
    (good : ∀ d ∈ documents, ∀ index ∈ ownIndices d, isSound (w.engine.mapping? index) = true) :
    ∃ stages, PushedSoFar w.definitions record
        (fun index => ∃ d ∈ documents, index ∈ ownIndices d) acts u.world stages ∧
      ∀ number (p : Prog Unit), u.programs[number]? = some p →
        p.Obeys (pushing w.definitions record fun index => ∃ d ∈ documents, index ∈ ownIndices d)
          (fun _ x => x.Settled w.definitions) (stages number) := by
  refine h.obeys (fun acts _ w' stages => PushedSoFar w.definitions record
      (fun index => ∃ d ∈ documents, index ∈ ownIndices d) acts w' stages)
    (fun _ => {}) (fun number p hp => ?_) ?_ fun _ hinv hallows _ meets => hinv.step hallows meets
  · have hmap : ((documents.map IndexingCall.write).map (·.program))[number]? = some p := hp
    rw [List.map_map, List.getElem?_map] at hmap
    obtain ⟨d, hd, rfl⟩ := Option.map_eq_some_iff.mp hmap
    have hmem := List.mem_of_getElem? hd
    exact write_obeys ⟨same d hmem, fun index hindex => ⟨d, hmem, hindex⟩⟩
  · refine ⟨rfl, ?_, nofun, ?_, ?_, ?_⟩
    · rintro index ⟨d, hd, hindex⟩
      exact good d hd index hindex
    · exact fun a ha => absurd ha List.not_mem_nil
    · exact fun _ _ hindex => absurd hindex List.not_mem_nil
    · exact fun _ _ hlast => absurd hlast.mem.1 List.not_mem_nil

end Crew

/-- While no call fails and the indices are good, writes of one record leave in every index
of a version that search takes what search is given of the version whose writer pushed
last. That is the record as it is stored in the end if its writer also saved last, over a row
that took the document as a whole. -/
theorem the_last_push_decides {documents : List Fields} {w : World} {record : String}
    (same : ∀ d ∈ documents, d.look "id" = .str record)
    (good : ∀ d ∈ documents, ∀ index ∈ ownIndices d, isSound (w.engine.mapping? index) = true)
    {acts : List Act} {u : Crew}
    (course : (Crew.writing documents w).Course (World.Meets noCall) acts u) (done : u.Done)
    {a : Act} (ha : a ∈ acts) {taken : Fields} (saves : a.Saves taken) {fields : Fields}
    (pushed : IsPushedAs w.definitions taken fields) {index : String}
    (hindex : index ∈ ownIndices taken) :
    ∃ b, Latest (Act.Pushes index record) acts b ∧ ∃ c ∈ acts, c.actor = b.actor ∧
      ∃ version copy, c.Saves version ∧ projectionFor w.definitions version = .ok copy ∧
        u.world.engine.copy? index (.text record) = some copy ∧
        (Latest (fun c => ∃ v, c.Saves v) acts c → ∃ r ∈ u.world.records, r.id = record ∧
          (c.IsTakenWhole → HasTextColumns version → r.document = version)) := by
  obtain ⟨stages, hso, hprograms⟩ := course.pushed same good
  have hsettled : (stages a.actor).Settled w.definitions := by
    have hlt := course.actor_lt a ha
    have hdone := done _ (List.getElem_mem hlt)
    have hobeys := hprograms a.actor _ (List.getElem?_eq_getElem hlt)
    rw [hdone] at hobeys
    exact hobeys
  obtain ⟨d, hd, hpushes⟩ := hso.pushed a.actor index
    (hsettled taken (hso.saves a ha taken saves) fields pushed index hindex)
  obtain ⟨b, hlast⟩ := exists_latest hd hpushes
  obtain ⟨version, copy, hversion, hprojection, hcopy⟩ := hso.copies index b hlast
  obtain ⟨c, hc, hactor, hsaves, hnames⟩ := hso.saved b.actor version hversion
  refine ⟨b, hlast, c, hc, hactor, version, copy, hsaves, hprojection, hcopy, fun hlatest => ?_⟩
  obtain ⟨found, document, stamp, hstep, hcommit⟩ := hsaves.commit (course.meets c hc)
  obtain ⟨hid, hfound⟩ := hnames found document stamp hstep
  obtain ⟨r, hr, hrecord, hdocument⟩ := RecordTable.document_of_commit hid hfound hcommit
  rw [course.records_of_latest hlatest]
  refine ⟨r, hr, hrecord, fun hwhole => hdocument fun v hv => ?_⟩
  exact hwhole v document stamp (hv ▸ hstep)

/-! ## A version that is pushed late -/

/-- An engine with a good index of events. -/
def eventEngine : SearchEngine where
  mappings := [("event", .obj [("properties", .obj [("id", .obj [("type", .str "keyword")])])])]

/-- Two versions of an event. -/
def eventVersions : List Fields := [eventInOslo.set "city" (.str "Rome"), eventInOslo]

def twoWrites : Crew := .writing eventVersions { World.empty morning with engine := eventEngine }

/-- Both versions are saved; then the second one is pushed, and then the first one. -/
def firstPushedLast : List Nat := [0, 0, 1, 1] ++ List.replicate 8 1 ++ List.replicate 4 0

/-- Whether search takes a version that has its texts, and in the index of events. -/
def isEventVersion (version : Fields) : Bool :=
  Projection.hasTexts version && (ownIndices version).contains "event" &&
    match version.look "entityName" with
    | .str name => !isBlankText name && !reservedEntities.contains name
    | _ => false

theorem isPushedAs_of_isEventVersion (definitions : List EntityDefinition) {version : Fields}
    (h : isEventVersion version = true) :
    ∃ fields, IsPushedAs definitions version fields ∧ "event" ∈ ownIndices version := by
  unfold isEventVersion at h
  simp only [Bool.and_eq_true] at h
  obtain ⟨⟨htexts, hindex⟩, hentity⟩ := h
  refine ⟨Projection.strip version, ⟨?_, ?_⟩, List.contains_iff_mem.mp hindex⟩
  · split at hentity
    · next name hname => exact ⟨name, hname, by simpa using hentity⟩
    · cases hentity
  · unfold projectionFor
    rw [if_pos htexts]
    rfl

/-- All is done, the event is in Oslo, and search still has it in Rome. -/
def leavesRome (acts : List Act) (u : Crew) : Bool :=
  u.isDone && cities u.world.records == [("e-1", some "Oslo")] &&
    (u.world.engine.copy? "event" (.text "e-1")).any (fun copy =>
      (copy.look "city").text == "Rome") &&
    (acts[1]?.bind Act.saved?).any isEventVersion

theorem leavesRome_firstPushedLast :
    ((twoWrites.playAll firstPushedLast).map fun played => leavesRome played.1 played.2) =
      some true := by
  decide +kernel

theorem eventVersions_same : ∀ d ∈ eventVersions, d.look "id" = .str "e-1" ∧
    d.look "entityName" = .str "Event" ∧ d.look "entityType" = .null := by
  intro d hd
  rcases List.mem_cons.mp hd with rfl | hd
  · exact ⟨rfl, rfl, rfl⟩
  · obtain rfl := List.mem_singleton.mp hd
    exact ⟨rfl, rfl, rfl⟩

theorem eventVersions_good : ∀ d ∈ eventVersions, ownIndices d = ["event"] ∧
    ∀ index ∈ ownIndices d, isSound (eventEngine.mapping? index) = true := by
  decide +kernel

theorem exists_firstPushedLast (frail : Call → Prop) :
    ∃ acts u, twoWrites.Course (World.Meets frail) acts u ∧ leavesRome acts u = true :=
  Crew.exists_course firstPushedLast (fun _ hc => absurd hc List.not_mem_nil)
    leavesRome_firstPushedLast

/-- Both writes are done, no call failed and the index was good; but search has the event
where it was before the last write. -/
theorem search_is_left_on_an_older_version :
    (∀ d ∈ eventVersions, d.look "id" = .str "e-1" ∧ d.look "entityName" = .str "Event" ∧
      d.look "entityType" = .null ∧ "event" ∈ ownIndices d ∧
        ∀ index ∈ ownIndices d, isSound (twoWrites.world.engine.mapping? index) = true) ∧
      ∃ acts u, twoWrites.Course (World.Meets noCall) acts u ∧ u.Done ∧
        ∃ r ∈ u.world.records, r.id = "e-1" ∧ ∃ copy,
          u.world.engine.copy? "event" (.text "e-1") = some copy ∧
            ¬ IsProjection r.document copy := by
  refine ⟨fun d hd => ?_, ?_⟩
  · obtain ⟨hid, hentity, htype⟩ := eventVersions_same d hd
    obtain ⟨hown, hgood⟩ := eventVersions_good d hd
    exact ⟨hid, hentity, htype, hown ▸ List.mem_cons_self, hgood⟩
  obtain ⟨acts, u, hcourse, hcheck⟩ := exists_firstPushedLast noCall
  unfold leavesRome at hcheck
  simp only [Bool.and_eq_true, beq_iff_eq] at hcheck
  obtain ⟨⟨⟨hdone, hoslo⟩, hrome⟩, -⟩ := hcheck
  obtain ⟨r, hr, hid, hcity⟩ := exists_of_cities hoslo
  rcases hcopy : u.world.engine.copy? "event" (.text "e-1") with _ | copy
  · rw [hcopy] at hrome
    cases hrome
  rw [hcopy, Option.any_some, beq_iff_eq] at hrome
  refine ⟨acts, u, hcourse, Crew.done_of_isDone hdone, r, hr ▸ List.mem_singleton_self r, hid,
    copy, hcopy, fun hprojection => ?_⟩
  rw [hprojection.look (by decide), hcity] at hrome
  revert hrome
  decide

/-- Search has the version that was pushed last. -/
theorem search_has_the_version_pushed_last :
    (∀ d ∈ eventVersions, d.look "id" = .str "e-1") ∧
      (∀ d ∈ eventVersions, ∀ index ∈ ownIndices d,
        isSound (twoWrites.world.engine.mapping? index) = true) ∧
      ∃ acts u, twoWrites.Course (World.Meets noCall) acts u ∧ u.Done ∧ ∃ a ∈ acts, ∃ taken fields,
        a.Saves taken ∧ IsPushedAs twoWrites.world.definitions taken fields ∧
          "event" ∈ ownIndices taken ∧
          ∃ b, Latest (Act.Pushes "event" "e-1") acts b ∧ ∃ c ∈ acts, c.actor = b.actor ∧
            ∃ version copy, c.Saves version ∧
              projectionFor twoWrites.world.definitions version = .ok copy ∧
              u.world.engine.copy? "event" (.text "e-1") = some copy ∧
              (Latest (fun c => ∃ v, c.Saves v) acts c → ∃ r ∈ u.world.records, r.id = "e-1" ∧
                (c.IsTakenWhole → HasTextColumns version → r.document = version)) := by
  have hsame (d : Fields) (hd : d ∈ eventVersions) := (eventVersions_same d hd).1
  have hgood (d : Fields) (hd : d ∈ eventVersions) := (eventVersions_good d hd).2
  obtain ⟨acts, u, hcourse, hcheck⟩ := exists_firstPushedLast noCall
  unfold leavesRome at hcheck
  simp only [Bool.and_eq_true] at hcheck
  obtain ⟨⟨⟨hdone, -⟩, -⟩, hfirst⟩ := hcheck
  obtain ⟨taken, hsaved, htaken⟩ := (Option.any_eq_true _ _).mp hfirst
  obtain ⟨a, ha, hsaves⟩ := Option.bind_eq_some_iff.mp hsaved
  obtain ⟨fields, hpushed, hindex⟩ := isPushedAs_of_isEventVersion [] htaken
  exact ⟨hsame, hgood, acts, u, hcourse, Crew.done_of_isDone hdone, a, List.mem_of_getElem? ha,
    taken, fields, hsaves, hpushed, hindex,
    the_last_push_decides hsame hgood hcourse (Crew.done_of_isDone hdone) (List.mem_of_getElem? ha)
      hsaves hpushed hindex⟩

end TenantSearch
