-- What a write leaves of the copies in the search engine where no call fails. A document that
-- can be placed comes to be in all of its indices, another one in none, and every other copy
-- stays as it is but in an index that is dropped on the way.
import TenantSearch.Proofs.FailingIndexing
import TenantSearch.Proofs.PushedVersions
import TenantSearch.Proofs.ReindexedRows
import TenantSearch.Proofs.SparedIndices

namespace TenantSearch

/-! ## The pure model -/

/-- A text of a copy is the one that the document carries. If it carries none, the text is
merged by the schema that the definitions have for its solution, entity and subtype. -/
def IsTextOf (definitions : List EntityDefinition) (document fields : Fields) (name : String)
    (merge : MergedText → Fields → Except Breakage String) : Prop :=
  if document.has name then fields.get? name = document.get? name
  else ∃ schema text, schemaFor definitions (document.look "solutionId")
      (document.look "entityName") (document.look "entityType").orNull = .ok schema ∧
    merge schema.merged document = .ok text ∧ fields.get? name = some (.str text)

/-- What search holds of a document: its fields without those of the store and those that are
merged, and the two texts. -/
structure IsCopyOf (definitions : List EntityDefinition) (document fields : Fields) : Prop where
  stripped : ∀ name ∈ storeFields ++ mergedFields, fields.get? name = none
  kept : ∀ name ∉ searchOnlyFields, fields.get? name = document.get? name
  display : IsTextOf definitions document fields "searchDisplay" MergedText.displayText
  content : IsTextOf definitions document fields "searchContent" MergedText.contentText

/-- A document that can be placed: it is of an entity that has a name and is not reserved, each
of its indices can hold it, and it has its texts or they can be merged. -/
structure World.CanPlace (w : World) (document : Fields) : Prop where
  entity : ∃ name, document.look "entityName" = .str name ∧ isBlankText name = false ∧
    name ∉ reservedEntities ∧ ∀ t ∈ IndexTarget.writeTargets name (document.look "entityType"),
      w.CanHold (document.look "solutionId") t
  texts : ∃ fields, projectionFor w.definitions document = .ok fields

/-- What becomes of the copies between two worlds when a document is taken in under a key. If
it can be placed, one copy of it is in each of its indices. Only indices of its own are dropped,
and only those that are there and not good. Whatever else was in the other indices stays. -/
structure World.TakesIn (w w' : World) (document : Fields) (key : Json.Key) : Prop where
  logged : w.log <+: w'.log
  placed : w.CanPlace document → ∃ fields, IsCopyOf w.definitions document fields ∧
    ∀ index ∈ ownIndices document, w'.engine.copy? index key = some fields
  dropped : ∀ index ∈ w.droppedSince w', index ∈ ownIndices document ∧
    w.spares index = false ∧ (w.engine.mapping? index).isSome = true
  others : ∀ index ∉ w.droppedSince w', ∀ k,
    ¬ (w.CanPlace document ∧ index ∈ ownIndices document ∧ k = key) →
      w'.engine.copy? index k = w.engine.copy? index k

/-! ## Copies of a document -/

theorem get?_strip {fields : Fields} {name : String} (h : name ∉ storeFields ++ mergedFields) :
    (Projection.strip fields).get? name = fields.get? name := by
  unfold Projection.strip
  rw [Fields.get?_without, if_neg h]

/-- The two texts of a copy where they are set by default. -/
theorem get?_defaults (document : Fields) (display content : String) :
    ((document.setDefault "searchDisplay" (.str display)).setDefault "searchContent"
        (.str content)).get? "searchDisplay" =
      (if document.has "searchDisplay" then document.get? "searchDisplay"
        else some (.str display)) ∧
    ((document.setDefault "searchDisplay" (.str display)).setDefault "searchContent"
        (.str content)).get? "searchContent" =
      if document.has "searchContent" then document.get? "searchContent"
        else some (.str content) := by
  have hcontent : (document.setDefault "searchDisplay" (.str display)).has "searchContent" =
      document.has "searchContent" := by
    unfold Fields.has
    rw [Fields.get?_setDefault, if_neg fun h => absurd h.1 (by decide)]
  constructor
  · rw [Fields.get?_setDefault, if_neg fun h => absurd h.1 (by decide), Fields.get?_setDefault]
    cases document.has "searchDisplay" with
    | true => rfl
    | false => rfl
  · have hdisplay : (document.setDefault "searchDisplay" (.str display)).get? "searchContent" =
        document.get? "searchContent" := by
      rw [Fields.get?_setDefault, if_neg fun h => absurd h.1 (by decide)]
    rw [Fields.get?_setDefault, hcontent, hdisplay]
    cases document.has "searchContent" with
    | true => rfl
    | false => rfl

/-- The two texts of a document that was stripped, as they are carried or merged. -/
theorem isTextOf_of_projectionFor {definitions : List EntityDefinition} {document fields : Fields}
    (h : projectionFor definitions document = .ok fields) :
    IsTextOf definitions document fields "searchDisplay" MergedText.displayText ∧
      IsTextOf definitions document fields "searchContent" MergedText.contentText := by
  unfold projectionFor at h
  split at h
  · next htexts =>
    obtain ⟨hdisplay, hcontent⟩ := Bool.and_eq_true_iff.mp htexts
    cases h
    unfold IsTextOf
    rw [if_pos hdisplay, if_pos hcontent, get?_strip (by decide), get?_strip (by decide)]
    exact ⟨rfl, rfl⟩
  · rcases hschema : schemaFor definitions (document.look "solutionId")
      (document.look "entityName") (document.look "entityType").orNull with f | schema
    · rw [hschema] at h
      cases h
    rw [hschema, ok_bind] at h
    unfold Projection.withTexts at h
    rcases hdisplay : schema.merged.displayText document with b | display
    · rw [hdisplay] at h
      cases h
    rcases hcontent : schema.merged.contentText document with b | content
    · rw [hdisplay, hcontent] at h
      cases h
    rw [hdisplay, hcontent] at h
    cases h
    obtain ⟨hfirst, hsecond⟩ := get?_defaults document display content
    unfold IsTextOf
    rw [get?_strip (by decide), get?_strip (by decide), hfirst, hsecond]
    constructor
    · split
      · rfl
      · exact ⟨schema, display, hschema, hdisplay, rfl⟩
    · split
      · rfl
      · exact ⟨schema, content, hschema, hcontent, rfl⟩

theorem isCopyOf_of_projectionFor {definitions : List EntityDefinition} {document fields : Fields}
    (h : projectionFor definitions document = .ok fields) :
    IsCopyOf definitions document fields where
  stripped name hname := by
    obtain ⟨display, content, rfl⟩ := isProjection_of_projectionFor h
    unfold Projection.strip
    rw [Fields.get?_without, if_pos hname]
  kept _ hname := (isProjection_of_projectionFor h).get? hname
  display := (isTextOf_of_projectionFor h).1
  content := (isTextOf_of_projectionFor h).2

/-! ## Placing a document -/

open Service

theorem not_blank_of_entityNameOf {v : Json} {name : String} (h : Index.entityNameOf v = .ok name) :
    isBlankText name = false := by
  have hstr := entityNameOf_eq_ok h
  rw [hstr] at h
  unfold Index.entityNameOf at h
  split at h
  · cases h
  · dsimp only at h
    split at h
    · cases h
    · next hblank => exact Bool.eq_false_iff.mpr hblank

/-- The indices and what is known of them are the same in both worlds, and none was
dropped. -/
structure World.SameIndices (w w' : World) : Prop where
  plans : w'.plans = w.plans
  definitions : w'.definitions = w.definitions
  engine : w'.engine = w.engine
  memory : w'.memory = w.memory
  logs : w.Logs w' []

namespace World

variable {w w₁ w' : World} {document : Fields} {key : Json.Key}

theorem SameIndices.refl (w : World) : w.SameIndices w := ⟨rfl, rfl, rfl, rfl, .refl w⟩

theorem SameIndices.spares (h : w.SameIndices w₁) (index : String) :
    w₁.spares index = w.spares index := by
  unfold World.spares
  rw [h.engine, h.memory]

theorem SameIndices.canPlace_iff (h : w.SameIndices w₁) :
    w₁.CanPlace document ↔ w.CanPlace document := by
  have hholds (t : IndexTarget) : w₁.CanHold (document.look "solutionId") t ↔
      w.CanHold (document.look "solutionId") t := by
    unfold CanHold
    rw [h.spares, h.definitions]
  constructor
  · rintro ⟨⟨name, hname, hblank, hunreserved, hindices⟩, htexts⟩
    exact ⟨⟨name, hname, hblank, hunreserved, fun t ht => (hholds t).mp (hindices t ht)⟩,
      h.definitions ▸ htexts⟩
  · rintro ⟨⟨name, hname, hblank, hunreserved, hindices⟩, htexts⟩
    exact ⟨⟨name, hname, hblank, hunreserved, fun t ht => (hholds t).mpr (hindices t ht)⟩,
      h.definitions ▸ htexts⟩

/-- A document that is not placed is taken in where nothing happens to the indices. -/
theorem SameIndices.takesIn (h : w.SameIndices w') (hnot : ¬ w.CanPlace document) :
    w.TakesIn w' document key :=
  ⟨h.logs.logged, fun hcan => absurd hcan hnot,
    fun index hindex => absurd hindex (h.logs.droppedSince_nil index),
    fun index _ k _ => by rw [h.engine]⟩

/-- What becomes of the copies afterwards becomes of them from before as well. -/
theorem TakesIn.after (h : w.SameIndices w₁) (htaken : w₁.TakesIn w' document key) :
    w.TakesIn w' document key := by
  have hdropped {index : String} : index ∈ w.droppedSince w' ↔ index ∈ w₁.droppedSince w' :=
    (mem_droppedSince_trans h.logs.logged htaken.logged index).trans
      (or_iff_right (h.logs.droppedSince_nil index))
  obtain ⟨hlogged, hplaced, hown, hothers⟩ := htaken
  simp only [h.canPlace_iff, h.definitions, h.spares, h.engine, ← hdropped] at hplaced hown hothers
  exact ⟨h.logs.logged.trans hlogged, hplaced, hown, hothers⟩

end World

/-- Putting a document says nothing about indices. -/
theorem putEach_logs (fields : Fields) (targets : List IndexTarget) (w : World) :
    (Indexing.putEach fields targets).Leads w fun _ w' => w.Logs w' [] := by
  have hwithin : (Indexing.putEach fields targets).Within (.only fun c => c.event? = none) :=
    putEach_within fun _ _ _ _ => rfl
  refine (hwithin.leads (World.made_upheld _ w) (.refl _ w)).mono ?_
  rintro _ w' ⟨-, hmade⟩
  obtain ⟨calls, hlog⟩ := hmade.logged
  refine ⟨calls, hlog.symm, List.filterMap_eq_nil_iff.mpr fun c hc => hmade.all c ?_⟩
  unfold World.callsSince
  rwa [← hlog, List.drop_left]

/-- The texts of a document are merged as the definitions say, and nothing changes. -/
theorem completed_projects {w : World} (hcalm : w.Calm) (document : Fields) :
    (Indexing.completed document (document.look "entityName")
      (document.look "entityType").orNull).Leads w fun r w' =>
        Projection.strip <$> r = projectionFor w.definitions document ∧
          w.SameIndices w' := by
  unfold Indexing.completed projectionFor
  split
  · exact ⟨rfl, rfl, rfl, rfl, rfl, .refl w⟩
  · rw [leads_bind, lookUpSchema_leads hcalm]
    rcases schemaFor w.definitions (document.look "solutionId") (document.look "entityName")
      (document.look "entityType").orNull with f | schema
    · exact ⟨rfl, rfl, rfl, rfl, rfl, [_], rfl, rfl⟩
    · exact ⟨rfl, rfl, rfl, rfl, rfl, [_], rfl, rfl⟩

section

variable {w : World} (hcalm : w.Calm) {document : Fields} {key : Json.Key}
  (hkey : (document.look "id").key? = some key)

include hcalm hkey

/-- Making sure of the indices of a document, and putting it there. -/
theorem placing_takesIn (hreserved : Indexing.isReserved (document.look "entityName") = .ok false)
    {fields : Fields} (hprojection : projectionFor w.definitions document = .ok fields)
    (hid : fields.get? "id" = some (document.look "id")) :
    (do
      let _ ← Index.ensure (document.look "solutionId") (document.look "entityName")
        (document.look "entityType").orNull false
      let name ← Service.orFail (Index.entityNameOf (document.look "entityName"))
      Indexing.putEach fields (IndexTarget.writeTargets name (document.look "entityType").orNull) :
        Service (List String)).Leads w fun _ w' => w.TakesIn w' document key := by
  unfold Index.ensure
  rw [leads_bind, leads_bind, leads_orFail]
  rcases hname : Index.entityNameOf (document.look "entityName") with f | name
  · refine World.SameIndices.takesIn (.refl w) ?_
    rintro ⟨⟨other, hstr, hblank, -⟩, -⟩
    unfold Index.entityNameOf at hname
    rw [hstr, given_of_not_blank hblank] at hname
    dsimp only at hname
    rw [hblank] at hname
    cases hname
  have hstr := entityNameOf_eq_ok hname
  have hown : ownIndices document =
      (IndexTarget.writeTargets name (document.look "entityType")).map (·.name) := by
    unfold ownIndices
    rw [hstr]
  rw [hstr] at hreserved
  dsimp only
  rw [writeTargets_orNull]
  refine (ensureEach_tends _ (nodup_writeTargets _ _) hcalm).mono ?_
  rintro r w₁ ⟨htended, hok⟩
  rw [← hown] at htended
  rcases r with f | created
  · have hnot : ¬ w.CanPlace document := by
      rintro ⟨⟨other, hother, -, -, hindices⟩, -⟩
      rw [hstr] at hother
      cases hother
      obtain ⟨_, hcreated⟩ := hok.mpr hindices
      cases hcreated
    exact ⟨htended.logged, fun hcan => absurd hcan hnot, htended.dropped,
      fun index hindex k _ => htended.kept index hindex k⟩
  · have hcan : w.CanPlace document :=
      ⟨⟨name, hstr, not_blank_of_entityNameOf hname, not_mem_of_isReserved hreserved,
        hok.mp ⟨created, rfl⟩⟩, fields, hprojection⟩
    dsimp only
    rw [leads_bind, leads_orFail]
    dsimp only
    rw [writeTargets_orNull]
    refine ((putEach_leads hid _ (htended.beside.calm hcalm)).and
      (putEach_logs fields _ w₁)).mono ?_
    rintro r w₂ ⟨⟨hput, -⟩, hlogs⟩
    rw [← hown, hkey] at hput
    have hdropped {index : String} : index ∈ w.droppedSince w₂ ↔ index ∈ w.droppedSince w₁ :=
      (World.mem_droppedSince_trans htended.logged hlogs.logged index).trans
        (or_iff_left (hlogs.droppedSince_nil index))
    refine ⟨htended.logged.trans hlogs.logged, fun _ => ⟨fields,
      isCopyOf_of_projectionFor hprojection, fun index hindex => ?_⟩,
      fun index hindex => htended.dropped index (hdropped.mp hindex),
      fun index hindex k hother => ?_⟩
    · rw [hput.copies, if_pos ⟨hindex, rfl⟩]
    · rw [hput.copies, if_neg fun h => hother ⟨hcan, h.1, (Option.some.inj h.2).symm⟩]
      exact htended.kept index (mt hdropped.mpr hindex) k

/-- In a calm world a document is indexed in all of its indices if it can be placed, and in
none if it cannot. -/
theorem upsert_takesIn (hgiven : (document.look "id").given = true) :
    (Indexing.upsert document).Leads w fun _ w' => w.TakesIn w' document key := by
  unfold Indexing.upsert
  rw [leads_bind, leads_orFail]
  rcases hsubject : Indexing.subject document with f | s
  · refine World.SameIndices.takesIn (.refl w) ?_
    rintro ⟨⟨name, hname, hblank, -⟩, -⟩
    unfold Indexing.subject at hsubject
    dsimp only at hsubject
    rw [hname, given_of_not_blank hblank, hgiven] at hsubject
    cases hsubject
  obtain ⟨hentity, -⟩ := subject_eq_ok hsubject
  dsimp only
  rw [hentity, leads_bind, leads_orBroken]
  rcases hreserved : Indexing.isReserved (document.look "entityName") with b | reserved
  · refine World.SameIndices.takesIn (.refl w) ?_
    rintro ⟨⟨name, hname, -⟩, -⟩
    rw [hname] at hreserved
    cases hreserved
  cases reserved with
  | true =>
    refine World.SameIndices.takesIn (.refl w) ?_
    rintro ⟨⟨name, hname, -, hunreserved, -⟩, -⟩
    rw [hname] at hreserved
    exact hunreserved (List.contains_iff_mem.mp (Except.ok.inj hreserved))
  | false =>
    dsimp only [Except.mapError]
    rw [if_neg (by simp), leads_bind]
    refine (completed_projects hcalm document).mono ?_
    rintro r w₁ ⟨hprojected, hsame⟩
    rcases r with f | completed
    · refine hsame.takesIn ?_
      rintro ⟨-, fields, hfields⟩
      rw [hfields] at hprojected
      cases hprojected
    have hprojection : projectionFor w.definitions document = .ok (Projection.strip completed) :=
      hprojected.symm
    have hid : (Projection.strip completed).get? "id" = some (document.look "id") := by
      rw [(isProjection_of_projectionFor hprojection).get? (by decide)]
      exact Fields.get?_of_given hgiven
    exact (placing_takesIn (hsame.plans.trans hcalm) hkey hreserved
      (hsame.definitions ▸ hprojection) hid).mono fun _ _ h => h.after hsame

end

/-! ## Writing a document -/

/-- What a column stores is no list and no object, so it has a key. -/
theorem exists_key_of_stored {v : Json} {text : Option String}
    (h : Record.columnText v = .ok text) : ∃ key, v.key? = some key := by
  cases v with
  | arr items => cases h
  | obj fields => cases h
  | _ => exact ⟨_, rfl⟩

/-- A saved document has an identifier that it can be indexed under. -/
theorem id_of_save {table table' : RecordTable} (htable : table.Sound) {document saved : Fields}
    {stamp : Option Timestamp} (hstamp : IsStamped document stamp)
    (h : table.save document stamp = .ok (saved, table')) :
    (saved.look "id").given = true ∧ ∃ key, (saved.look "id").key? = some key := by
  obtain ⟨id, row, hrow, -, ⟨rfl, rfl⟩ | ⟨r, hr, rfl, rfl⟩⟩ := RecordTable.save_eq_ok h
  · rw [look_savedDocument document stamp (by decide)]
    exact ⟨hstamp.id, exists_key_of_stored hrow.columns.id⟩
  · rw [Fields.look_set, if_pos rfl]
    exact ⟨given_str (htable.rows r hr).hasId, _, rfl⟩

/-- A document that can be saved is taken in as it is saved. -/
theorem write_takesIn {w : World} (hcalm : w.Calm) (htable : w.records.Sound)
    {document saved : Fields} {records : RecordTable}
    (hwritten : Store.written w.records document = .ok (saved, records)) :
    (Store.write document).Leads w fun r w' => r = .ok saved ∧
      ∃ key, (saved.look "id").key? = some key ∧ w.TakesIn w' saved key := by
  obtain ⟨stamp, hstamp, hsaved⟩ := bind_eq_ok.mp hwritten
  have hsave := mapError_eq_ok.mp hsaved
  obtain ⟨hgiven, key, hkey⟩ := id_of_save htable (stampOf_eq_ok_iff.mp hstamp) hsave
  have hsame : w.SameIndices (w.committed document stamp records) :=
    ⟨rfl, rfl, rfl, rfl, [_, _], List.append_assoc _ _ _, rfl⟩
  refine (write_leads_calm hcalm (stampOf_eq_ok_iff.mp hstamp) hsave _).mpr ?_
  refine (upsert_takesIn (hsame.plans.trans hcalm) hkey hgiven).mono fun _ w' htaken => ?_
  exact ⟨rfl, key, hkey, htaken.after hsame⟩

end TenantSearch
