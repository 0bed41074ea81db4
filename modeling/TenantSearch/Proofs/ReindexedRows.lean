-- What reindexing rows leaves of the table and of one sound index, in a world
-- without outages. Each row is written over itself under its own names, and
-- its copy comes back if its texts can be merged and its indices created.
import TenantSearch.Document.Reindex
import TenantSearch.Proofs.CalmIndexing
import TenantSearch.Proofs.StampedDocuments
import TenantSearch.Proofs.WrittenMoments

namespace TenantSearch

/-! ## Rows and their documents -/

namespace Record

/-- The indices that a row is written to. -/
def indices (r : Record) : List String :=
  (IndexTarget.writeTargets r.entityName (.ofText? r.entityType)).map (·.name)

/-- Two rows under the same identifier and of the same names. -/
structure SameNames (r r' : Record) : Prop where
  id : r'.id = r.id
  entityName : r'.entityName = r.entityName
  entityType : r'.entityType = r.entityType
  solutionId : r'.solutionId = r.solutionId

theorem SameNames.refl (r : Record) : r.SameNames r := ⟨rfl, rfl, rfl, rfl⟩

theorem SameNames.trans {r r' r'' : Record} (h : r.SameNames r') (h' : r'.SameNames r'') :
    r.SameNames r'' :=
  ⟨h'.id.trans h.id, h'.entityName.trans h.entityName, h'.entityType.trans h.entityType,
    h'.solutionId.trans h.solutionId⟩

/-- A row that can be reindexed: its entity has a name that is not blank, its
indices can be created and its texts merged. -/
structure Refreshable (definitions : List EntityDefinition) (r : Record) : Prop where
  named : isBlankText r.entityName = false
  described : ∀ t ∈ IndexTarget.writeTargets r.entityName (.ofText? r.entityType),
    ∃ d, descriptorFor definitions (.str r.solutionId) t = .ok d
  merged : ∃ schema display content,
    schemaFor definitions (.str r.solutionId) (.str r.entityName) (.ofText? r.entityType) =
      .ok schema ∧
    schema.merged.displayText r.document = .ok display ∧
    schema.merged.contentText r.document = .ok content

theorem refreshable_iff {definitions : List EntityDefinition} {r : Record} :
    r.Refreshable definitions ↔ isBlankText r.entityName = false ∧
      (∀ t ∈ IndexTarget.writeTargets r.entityName (.ofText? r.entityType),
        (descriptorFor definitions (.str r.solutionId) t).isOk = true) ∧
      ((schemaFor definitions (.str r.solutionId) (.str r.entityName)
          (.ofText? r.entityType)).toOption.any fun schema =>
        (schema.merged.displayText r.document).isOk &&
          (schema.merged.contentText r.document).isOk) = true := by
  have hmerged : (∃ schema display content,
      schemaFor definitions (.str r.solutionId) (.str r.entityName) (.ofText? r.entityType) =
        .ok schema ∧ schema.merged.displayText r.document = .ok display ∧
        schema.merged.contentText r.document = .ok content) ↔
      ((schemaFor definitions (.str r.solutionId) (.str r.entityName)
          (.ofText? r.entityType)).toOption.any fun schema =>
        (schema.merged.displayText r.document).isOk &&
          (schema.merged.contentText r.document).isOk) = true := by
    rcases schemaFor definitions (.str r.solutionId) (.str r.entityName) (.ofText? r.entityType) with
      f | schema
    · simp [Except.toOption]
    · simp [Except.toOption, isOk_iff]
  constructor
  · rintro ⟨hnamed, hdescribed, h⟩
    exact ⟨hnamed, fun t ht => isOk_iff.mpr (hdescribed t ht), hmerged.mp h⟩
  · rintro ⟨hnamed, hdescribed, h⟩
    exact ⟨hnamed, fun t ht => isOk_iff.mp (hdescribed t ht), hmerged.mpr h⟩

instance (definitions : List EntityDefinition) (r : Record) :
    Decidable (r.Refreshable definitions) := decidable_of_iff _ refreshable_iff.symm

/-- A document that names what the row names. -/
structure IsNamedBy (r : Record) (document : Fields) : Prop where
  id : document.look "id" = .str r.id
  entityName : document.look "entityName" = .str r.entityName
  entityType : document.look "entityType" = .ofText? r.entityType
  solutionId : document.look "solutionId" = .str r.solutionId

theorem isNamedBy_document (r : Record) : r.IsNamedBy r.document where
  id := look_document_column r (by simp [columns])
  entityName := look_document_column r (by simp [columns])
  entityType := look_document_column r (by simp [columns])
  solutionId := look_document_column r (by simp [columns])

theorem IsNamedBy.isReserved {r : Record} {document : Fields} (h : r.IsNamedBy document) :
    Reindex.isReserved document = reservedEntities.contains r.entityName := by
  unfold Reindex.isReserved
  rw [h.entityName]

theorem IsNamedBy.ownIndices {r : Record} {document : Fields} (h : r.IsNamedBy document) :
    TenantSearch.ownIndices document = r.indices := by
  unfold TenantSearch.ownIndices indices
  rw [h.entityName, h.entityType]

end Record

/-! ## Refreshed documents -/

section

variable {merged : MergedText} {now : Timestamp} {document refreshed : Fields}

/-- The stamp of a refreshed document is the time at which it was refreshed. -/
theorem ofValue_refreshed (hrefreshed : Reindex.refreshed merged now document = .ok refreshed)
    (hnow : now.micros < Timestamp.limit) :
    Timestamp.ofValue (refreshed.look reindexedField) = .ok (some now) := by
  have hstamp : refreshed.look reindexedField = .str now.isoUtc := by
    obtain ⟨display, content, -, -, rfl⟩ := refreshed_eq_ok_iff.mp hrefreshed
    unfold Fields.look
    rw [get?_stamped _ _ _ _ (by decide), if_pos rfl]
    rfl
  rw [hstamp]
  exact Timestamp.ofValue_of_ofText (Timestamp.ofText_isoUtc hnow)

/-- A refreshed document has its texts, also as it is saved. -/
theorem hasTexts_savedDocument
    (hrefreshed : Reindex.refreshed merged now document = .ok refreshed)
    (stamp : Option Timestamp) :
    Projection.hasTexts (Record.savedDocument refreshed stamp) = true := by
  have hget {name : String} (hname : name ≠ reindexedField ∧ name ∉ promotedFields) :
      (Record.savedDocument refreshed stamp).get? name = refreshed.get? name :=
    get?_savedDocument _ _ hname.1 hname.2
  obtain ⟨display, content, -, -, rfl⟩ := refreshed_eq_ok_iff.mp hrefreshed
  unfold Projection.hasTexts Fields.has
  rw [hget (by decide), hget (by decide), get?_stamped _ _ _ _ (by decide),
    get?_stamped _ _ _ _ (by decide)]
  rfl

theorem hasTexts_set_id (document : Fields) (id : Json) :
    Projection.hasTexts (document.set "id" id) = Projection.hasTexts document := by
  unfold Projection.hasTexts Fields.has
  rw [Fields.get?_set, Fields.get?_set, if_neg (by decide), if_neg (by decide)]

end

section

variable {r : Record} {merged : MergedText} {now : Timestamp} {refreshed : Fields}
  (hrefreshed : Reindex.refreshed merged now r.document = .ok refreshed)

include hrefreshed

theorem isNamedBy_refreshed : r.IsNamedBy refreshed where
  id := (look_refreshed hrefreshed (by decide)).trans r.isNamedBy_document.id
  entityName := (look_refreshed hrefreshed (by decide)).trans r.isNamedBy_document.entityName
  entityType := (look_refreshed hrefreshed (by decide)).trans r.isNamedBy_document.entityType
  solutionId := (look_refreshed hrefreshed (by decide)).trans r.isNamedBy_document.solutionId

theorem isStamped_refreshed (hsound : r.Sound) (hnow : now.micros < Timestamp.limit) :
    IsStamped refreshed (some now) := by
  have hnamed := isNamedBy_refreshed hrefreshed
  exact ⟨hnamed.id ▸ given_str hsound.hasId, hnamed.entityName ▸ given_str hsound.hasEntity,
    hnamed.solutionId ▸ given_str hsound.hasSolution, ofValue_refreshed hrefreshed hnow⟩

/-- A refreshed document as it is saved over its row. -/
theorem isNamedBy_saved (stamp : Option Timestamp) :
    r.IsNamedBy ((Record.savedDocument refreshed stamp).set "id" (.str r.id)) := by
  have hlook {name : String} (hname : name ≠ reindexedField) (hid : name ≠ "id") :
      ((Record.savedDocument refreshed stamp).set "id" (.str r.id)).look name =
        refreshed.look name := by
    rw [Fields.look_set, if_neg hid, look_savedDocument _ _ hname]
  have hnamed := isNamedBy_refreshed hrefreshed
  exact ⟨by rw [Fields.look_set, if_pos rfl], (hlook (by decide) (by decide)).trans hnamed.entityName,
    (hlook (by decide) (by decide)).trans hnamed.entityType,
    (hlook (by decide) (by decide)).trans hnamed.solutionId⟩

theorem hasTexts_saved (stamp : Option Timestamp) : Projection.hasTexts
    ((Record.savedDocument refreshed stamp).set "id" (.str r.id)) = true :=
  (hasTexts_set_id _ _).trans (hasTexts_savedDocument hrefreshed stamp)

theorem indexable_saved (hsound : r.Sound) {definitions : List EntityDefinition}
    (hrow : r.Refreshable definitions) (stamp : Option Timestamp) :
    Indexable definitions ((Record.savedDocument refreshed stamp).set "id" (.str r.id)) := by
  have hnamed := isNamedBy_saved hrefreshed stamp
  refine ⟨⟨r.entityName, hnamed.entityName, hrow.named, ?_⟩, ?_, ?_, Or.inl (hasTexts_saved hrefreshed stamp)⟩
  · rw [hnamed.entityType, hnamed.solutionId]
    exact hrow.described
  · rw [hnamed.id]
    exact given_str hsound.hasId
  · rw [hnamed.id]
    rfl

end

/-! ## Saving a row over itself -/

namespace RecordTable

theorem Sound.find? {table : RecordTable} (h : table.Sound) {r : Record} (hr : r ∈ table) :
    table.find? r.id = some r := by
  cases hfound : table.find? r.id with
  | none =>
    have hnone := List.find?_eq_none.mp hfound r hr
    exact absurd (beq_self_eq_true r.id) hnone
  | some r' =>
    obtain ⟨hr', hid⟩ := mem_of_find?_eq_some hfound
    rw [h.eq_of_id hr hr' hid]

theorem Sound.rowOf {table : RecordTable} (h : table.Sound) {r : Record} (hr : r ∈ table) :
    table.rowOf (.str r.id) = .ok (some r) := by
  have hsought : soughtId (.str r.id) = .ok (.str r.id) := rfl
  unfold RecordTable.rowOf
  rw [hsought, ok_bind]
  have hfound : (do let text ← Record.columnText (.str r.id); pure (text.bind table.find?)) =
      (.ok (some r) : Except Outage (Option Record)) := by
    rw [(h.rows r hr).id, ok_bind, Option.bind_some, h.find? hr]
    rfl
  simpa [canBeNew] using hfound

/-- A row that takes the place of another leaves the identifiers as they
are. -/
theorem map_id_put {table : RecordTable} (h : table.Pairwise (·.id < ·.id)) {row r : Record}
    (hr : r ∈ table) (hid : row.id = r.id) : (table.put row).map (·.id) = table.map (·.id) := by
  induction table with
  | nil => cases hr
  | cons head rest ih =>
    obtain ⟨hhead, hrest⟩ := List.pairwise_cons.mp h
    unfold put
    rcases List.mem_cons.mp hr with rfl | hr
    · rw [hid, if_neg (String.lt_irrefl _), if_pos (beq_self_eq_true _)]
      simp [hid]
    · have hlater := hhead r hr
      rw [hid, if_neg (String.lt_asymm hlater), if_neg]
      · rw [List.map_cons, ih hrest hr, List.map_cons]
      · intro heq
        rw [beq_iff_eq.mp heq] at hlater
        exact String.lt_irrefl _ hlater

/-- A document under the identifier of a row takes the place of that row, as long as its body is
not only alike to the one that is there. -/
theorem Sound.save_over {table : RecordTable} (h : table.Sound) {r : Record} (hr : r ∈ table)
    {document : Fields} (hid : document.look "id" = .str r.id) {stamp : Option Timestamp}
    {new : Record} (hnew : IsRowOf (.str r.id) document stamp new)
    (hdiscerned : (Json.obj (Record.bodyOf document)).Alike (.obj r.body) →
      r.body = Record.bodyOf document) : table.save document stamp =
      .ok ((Record.savedDocument document stamp).set "id" (.str r.id), table.put new) := by
  have hrevised : r.revised r new document = new := by
    rw [hnew.revised_self, hnew.body]
    split
    · next halike => rw [hdiscerned halike, ← hnew.body]
    · rw [← hnew.body]
  unfold RecordTable.save RecordTable.commit
  rw [hid, h.rowOf hr, ok_bind]
  dsimp only
  rw [ofDocument_eq_ok_iff.mpr hnew, ok_bind, h.find? hr]
  dsimp only
  rw [hrevised]
  rfl

/-- A document with the columns of a row is saved as the row with another body and another stamp. -/
theorem isRowOf_of_columns {r : Record} (hsound : r.Sound) {document : Fields}
    (hcolumns : ∀ name ∈ promotedFields, document.look name = r.document.look name)
    (stamp : Option Timestamp) : IsRowOf (.str r.id) document stamp
      { r with body := Record.bodyOf document, reindexedOn := stamp } := by
  have hcolumn {name : String} {value : Json} (hname : name ∈ promotedFields)
      (hvalue : (name, value) ∈ r.columns) : document.look name = value :=
    (hcolumns name hname).trans (look_document_column r hvalue)
  have hentity : document.look "entityName" = .str r.entityName :=
    hcolumn (by decide) (by simp [Record.columns])
  have htype : document.look "entityType" = .ofText? r.entityType :=
    hcolumn (by decide) (by simp [Record.columns])
  have hsolution : document.look "solutionId" = .str r.solutionId :=
    hcolumn (by decide) (by simp [Record.columns])
  have horganization : document.look "organizationId" = .ofText? r.organizationId :=
    hcolumn (by decide) (by simp [Record.columns])
  have howner : document.look "ownedBy" = .ofText? r.ownedBy :=
    hcolumn (by decide) (by simp [Record.columns])
  exact ⟨hsound.id, hentity ▸ hsound.entityName, htype ▸ hsound.entityType,
    hsolution ▸ hsound.solutionId, horganization ▸ hsound.organizationId, howner ▸ hsound.ownedBy,
    rfl, rfl⟩

/-- Refreshing leaves the columns as they are. -/
theorem isRowOf_refreshed {r : Record} (hsound : r.Sound) {merged : MergedText} {now : Timestamp}
    {refreshed : Fields} (hrefreshed : Reindex.refreshed merged now r.document = .ok refreshed)
    (stamp : Option Timestamp) : IsRowOf (.str r.id) refreshed stamp
      { r with body := Record.bodyOf refreshed, reindexedOn := stamp } := by
  have hunchanged : ∀ name ∈ promotedFields, name ∉ refreshedFields := by decide
  exact isRowOf_of_columns hsound
    (fun name hname => look_refreshed hrefreshed (hunchanged name hname)) stamp

theorem Sound.save_refreshed_row {table : RecordTable} (h : table.Sound) {r : Record}
    (hr : r ∈ table) {merged : MergedText} {now : Timestamp} {refreshed : Fields}
    (hrefreshed : Reindex.refreshed merged now r.document = .ok refreshed)
    (stamp : Option Timestamp) : table.save refreshed stamp =
      .ok ((Record.savedDocument refreshed stamp).set "id" (.str r.id),
        table.put { r with body := Record.bodyOf refreshed, reindexedOn := stamp }) := by
  refine h.save_over hr (isNamedBy_refreshed hrefreshed).id
    (isRowOf_refreshed (h.rows r hr) hrefreshed stamp) fun halike => ?_
  obtain ⟨display, content, -, -, rfl⟩ := refreshed_eq_ok_iff.mp hrefreshed
  exact (Record.body_of_alike_stamped halike).symm

/-- A refreshed document goes into the table in place of its row. -/
theorem Sound.save_refreshed {table : RecordTable} (h : table.Sound) {r : Record}
    (hr : r ∈ table) {merged : MergedText} {now : Timestamp} {refreshed : Fields}
    (hrefreshed : Reindex.refreshed merged now r.document = .ok refreshed)
    (stamp : Option Timestamp) :
    ∃ row, r.SameNames row ∧ table.save refreshed stamp =
      .ok ((Record.savedDocument refreshed stamp).set "id" (.str r.id), table.put row) :=
  ⟨{ r with body := Record.bodyOf refreshed, reindexedOn := stamp }, ⟨rfl, rfl, rfl, rfl⟩,
    h.save_refreshed_row hr hrefreshed stamp⟩

end RecordTable

/-! ## Rows that were swept -/

namespace World

/-- Rows were reindexed or passed over, as one sound index and the table see
it. -/
structure Swept (w w' : World) (rows : List Record) (index : String) : Prop where
  circumstances : w'.circumstances = w.circumstances
  definitions : w'.definitions = w.definitions
  calm : w'.Calm
  sound : w'.engine.SoundAt index
  table : w'.records.Sound
  ids : w'.records.map (·.id) = w.records.map (·.id)
  /-- All other rows are as they were. -/
  others : ∀ r ∈ w.records, (∀ v ∈ rows, v.id ≠ r.id) → r ∈ w'.records
  /-- Every row is an old one, or one of these rows under its own names. -/
  origin : ∀ r' ∈ w'.records, ∃ r ∈ w.records, r.SameNames r' ∧ (r' = r ∨ ∃ v ∈ rows, v.id = r.id)
  /-- Copies stay, -/
  kept : ∀ key, w.engine.holds index key = true → w'.engine.holds index key = true
  /-- and those that come are of these rows. -/
  only : ∀ key, w'.engine.holds index key = true → w.engine.holds index key = true ∨
    ∃ r ∈ rows, key = .text r.id ∧ r.entityName ∉ reservedEntities
  /-- Those of rows that can be reindexed do come. -/
  back : ∀ r ∈ rows, r.Refreshable w.definitions → r.entityName ∉ reservedEntities →
    index ∈ r.indices → w'.engine.holds index (.text r.id) = true

variable {w w' w'' : World} {index : String} {rows : List Record}

/-- Nothing changed, and none of the rows should have come. -/
theorem Swept.of_same (hcalm : w'.Calm) (hsound : w.engine.SoundAt index) (htable : w.records.Sound)
    (hcircumstances : w'.circumstances = w.circumstances)
    (hdefinitions : w'.definitions = w.definitions) (hrecords : w'.records = w.records)
    (hengine : w'.engine = w.engine)
    (hrows : ∀ r ∈ rows, r.Refreshable w.definitions → r.entityName ∈ reservedEntities) :
    w.Swept w' rows index where
  circumstances := hcircumstances
  definitions := hdefinitions
  calm := hcalm
  sound := hengine ▸ hsound
  table := hrecords ▸ htable
  ids := by rw [hrecords]
  others r hr _ := hrecords ▸ hr
  origin r hr := ⟨r, hrecords ▸ hr, .refl r, Or.inl rfl⟩
  kept _ h := hengine ▸ h
  only _ h := Or.inl (hengine ▸ h)
  back r hr hrow hunreserved := absurd (hrows r hr hrow) hunreserved

theorem Swept.refl (hcalm : w.Calm) (hsound : w.engine.SoundAt index) (htable : w.records.Sound) :
    w.Swept w [] index :=
  .of_same hcalm hsound htable rfl rfl rfl rfl fun _ h => absurd h List.not_mem_nil

theorem Swept.trans {more : List Record} (h : w.Swept w' rows index)
    (h' : w'.Swept w'' more index) : w.Swept w'' (rows ++ more) index where
  circumstances := h'.circumstances.trans h.circumstances
  definitions := h'.definitions.trans h.definitions
  calm := h'.calm
  sound := h'.sound
  table := h'.table
  ids := h'.ids.trans h.ids
  others r hr hother :=
    h'.others r (h.others r hr fun v hv => hother v (List.mem_append_left _ hv))
      fun v hv => hother v (List.mem_append_right _ hv)
  origin r'' hr'' := by
    obtain ⟨r', hr', hnames', hsame'⟩ := h'.origin r'' hr''
    obtain ⟨r, hr, hnames, hsame⟩ := h.origin r' hr'
    refine ⟨r, hr, hnames.trans hnames', ?_⟩
    rcases hsame' with rfl | ⟨v, hv, hid⟩
    · exact hsame.imp_right fun ⟨v, hv, hid⟩ => ⟨v, List.mem_append_left _ hv, hid⟩
    · exact Or.inr ⟨v, List.mem_append_right _ hv, hid.trans hnames.id⟩
  kept key hkey := h'.kept key (h.kept key hkey)
  only key hkey := by
    rcases h'.only key hkey with hkey | ⟨r, hr, hother⟩
    · rcases h.only key hkey with hkey | ⟨r, hr, hother⟩
      · exact Or.inl hkey
      · exact Or.inr ⟨r, List.mem_append_left _ hr, hother⟩
    · exact Or.inr ⟨r, List.mem_append_right _ hr, hother⟩
  back r hr hrow hunreserved hindex := by
    rcases List.mem_append.mp hr with hr | hr
    · exact h'.kept _ (h.back r hr hrow hunreserved hindex)
    · exact h'.back r hr (h.definitions ▸ hrow) hunreserved hindex

/-- Rows after those that were swept are the rows that were there before. -/
theorem Swept.mem_iff_of_later {w w' : World} {rows : List Record}
    {index : String} (h : w.Swept w' rows index) {last : String} (hrows : ∀ v ∈ rows, ¬ last < v.id)
    {r : Record} (hr : last < r.id) : r ∈ w'.records ↔ r ∈ w.records := by
  constructor
  · intro hmem
    obtain ⟨old, hold, hnames, rfl | ⟨v, hv, hid⟩⟩ := h.origin r hmem
    · exact hold
    · rw [hnames.id, ← hid] at hr
      exact absurd hr (hrows v hv)
  · intro hmem
    refine h.others r hmem fun v hv hid => hrows v hv ?_
    rwa [hid]

end World

open Service

/-- The copies in one index when the document of a row is indexed: each stays,
that of the row may come, and it does when the indexing works out. -/
theorem Upserted.of_row {w w' : World} {document : Fields} {index : String}
    {outcome : Except Failure (List String)} (h : Upserted w document index outcome w')
    {r : Record} (hnamed : r.IsNamedBy document) (hunreserved : r.entityName ∉ reservedEntities) :
    (∀ key, w.engine.holds index key = true → w'.engine.holds index key = true) ∧
      (∀ key, w'.engine.holds index key = true →
        w.engine.holds index key = true ∨ key = .text r.id) ∧
      (index ∈ r.indices → (∃ names, outcome = .ok names) →
        w'.engine.holds index (.text r.id) = true) := by
  have hkey : (document.look "id").key? = some (.text r.id) := by
    rw [hnamed.id]
    rfl
  cases h with
  | refused copies =>
    have hsame (key : Json.Key) : w'.engine.holds index key = w.engine.holds index key := by
      rw [SearchEngine.holds_eq, SearchEngine.holds_eq, copies]
    refine ⟨fun key h => (hsame key).trans h, fun key h => Or.inl ((hsame key).symm.trans h), ?_⟩
    rintro - ⟨_, hnames⟩
    cases hnames
  | reserved reserved =>
    rw [hnamed.isReserved, List.contains_iff_mem] at reserved
    exact absurd reserved hunreserved
  | placed _ _ copies =>
    rw [hnamed.ownIndices, hkey] at copies
    simp only [SearchEngine.holds_eq, copies]
    refine ⟨fun key h => ?_, fun key h => ?_, fun hindex _ => ?_⟩
    · split
      · rfl
      · exact h
    · split at h
      · next hat => exact Or.inr (Option.some.inj hat.2).symm
      · exact Or.inl h
    · rw [if_pos ⟨hindex, trivial⟩]
      rfl

/-- The row that is there for a document. -/
def RecordTable.found (table : RecordTable) (document : Fields) : Option Record :=
  (table.rowOf (document.look "id")).toOption.getD none

/-- The world after a document was committed to the table over the row that was found for it. -/
def World.committed (w : World) (document : Fields) (stamp : Option Timestamp)
    (records : RecordTable) : World :=
  { (w.logged [.database (.lookUp (document.look "id"))]).logged
      [.database (.commit (w.records.found document) document stamp)] with records }

/-- A document that can be saved is indexed as it was saved, and how that ends
is nobody's concern. -/
theorem write_leads_calm {w : World} (hcalm : w.Calm) {document saved : Fields}
    {stamp : Option Timestamp} {records : RecordTable} (hstamp : IsStamped document stamp)
    (hsave : w.records.save document stamp = .ok (saved, records))
    (post : Except Failure Fields → World → Prop) :
    (Store.write document).Leads w post ↔ (Indexing.upsert saved).Leads
      (w.committed document stamp records) fun _ w' => post (.ok saved) w' := by
  obtain ⟨found, hfound, hcommit⟩ := bind_eq_ok.mp hsave
  obtain rfl : w.records.found document = found := by
    unfold RecordTable.found
    rw [hfound]
    rfl
  have hlookUp : w.answerCall (.database (.lookUp (document.look "id"))) =
      (.ok (w.records.found document), w.logged [.database (.lookUp (document.look "id"))]) := by
    rw [hcalm.answerCall]
    exact Prod.ext hfound rfl
  have hcalm₁ : (w.logged [.database (.lookUp (document.look "id"))]).Calm := hcalm
  have hanswer : (w.logged [.database (.lookUp (document.look "id"))]).answerCall
      (.database (.commit (w.records.found document) document stamp)) =
        (.ok saved, w.committed document stamp records) := by
    rw [hcalm₁.answerCall]
    refine (World.answerDatabase_commit _ _ _ _).trans ?_
    have hrecords (calls : List Call) : ((w.logged [.database (.lookUp (document.look "id"))]).logged
        calls).records = w.records := rfl
    rw [hrecords, hcommit]
    rfl
  rw [write_leads_iff, stampOf_eq_ok_iff.mpr hstamp]
  dsimp only
  rw [hlookUp]
  dsimp only
  rw [hanswer]

/-- A refreshed document is saved over its row, and indexed. -/
theorem rewrite_leads {w : World} (hcalm : w.Calm) (htable : w.records.Sound) {index : String}
    (hsound : w.engine.SoundAt index) {now : Timestamp} (hnow : now.micros < Timestamp.limit)
    {r : Record} (hr : r ∈ w.records) (hunreserved : r.entityName ∉ reservedEntities)
    {merged : MergedText} {refreshed : Fields}
    (hrefreshed : Reindex.refreshed merged now r.document = .ok refreshed) :
    (Store.write refreshed).Leads w fun _ w' => w.Swept w' [r] index := by
  have hstamp := isStamped_refreshed hrefreshed (htable.rows r hr) hnow
  obtain ⟨row, hnames, hsave⟩ := htable.save_refreshed hr hrefreshed (some now)
  have hnamed := isNamedBy_saved hrefreshed (some now)
  have hindexable {definitions : List EntityDefinition} (hrow : r.Refreshable definitions) :=
    indexable_saved hrefreshed (htable.rows r hr) hrow (some now)
  refine (write_leads_calm hcalm hstamp hsave _).mpr ?_
  generalize (Record.savedDocument refreshed (some now)).set "id" (.str r.id) = saved at *
  generalize hw₁ : w.committed refreshed (some now) (w.records.put row) = w₁
  have hcalm₁ : w₁.Calm := hw₁ ▸ hcalm
  have hsound₁ : w₁.engine.SoundAt index := hw₁ ▸ hsound
  refine (upsert_leads hcalm₁ hsound₁ saved).mono ?_
  rintro outcome w' ⟨hbeside, hsound', hupserted, hok⟩
  have hrecords : w'.records = w.records.put row := hbeside.records.trans (hw₁ ▸ rfl)
  have hengine : w₁.engine = w.engine := hw₁ ▸ rfl
  have hdefinitions : w₁.definitions = w.definitions := hw₁ ▸ rfl
  obtain ⟨hkept, honly, hback⟩ := hupserted.of_row hnamed hunreserved
  rw [hengine] at hkept honly
  exact {
    circumstances := hbeside.circumstances.trans (hw₁ ▸ rfl)
    definitions := hbeside.definitions.trans hdefinitions
    calm := hbeside.calm hcalm₁
    sound := hsound'
    table := hrecords ▸ htable.save hstamp hsave
    ids := hrecords ▸ RecordTable.map_id_put htable.ordered hr hnames.id
    others := fun v hv hother => by
      rw [hrecords, RecordTable.mem_put_iff htable.ordered, hnames.id]
      exact Or.inr ⟨hv, (hother r List.mem_cons_self).symm⟩
    origin := fun v hv => by
      rw [hrecords, RecordTable.mem_put_iff htable.ordered] at hv
      rcases hv with rfl | ⟨hv, -⟩
      · exact ⟨r, hr, hnames, Or.inr ⟨r, List.mem_cons_self, rfl⟩⟩
      · exact ⟨v, hv, .refl v, Or.inl rfl⟩
    kept := hkept
    only := fun key h => (honly key h).imp_right fun hat => ⟨r, List.mem_cons_self, hat, hunreserved⟩
    back := fun v hv hrow _ hindex => by
      obtain rfl := List.mem_singleton.mp hv
      exact hback hindex (hok (hindexable (hdefinitions ▸ hrow))) }

/-- The world after the definitions of a row were looked up. -/
def World.lookedUp (w : World) (r : Record) : World :=
  w.logged [.database (.definitions (.str r.solutionId) (.str r.entityName) (.ofText? r.entityType))]

/-- A row whose texts can be merged is written refreshed. -/
theorem record_leads_iff {w : World} (hcalm : w.Calm) (r : Record)
    (post : Except Failure Fields → World → Prop) :
    (Reindex.record r.document).Leads w post ↔
      match schemaFor w.definitions (.str r.solutionId) (.str r.entityName)
        (.ofText? r.entityType) with
      | .error f => post (.error f) (w.lookedUp r)
      | .ok schema =>
        match Reindex.refreshed schema.merged w.circumstances.now r.document with
        | .error b => post (.error (.broken b)) (w.lookedUp r)
        | .ok refreshed => (Store.write refreshed).Leads (w.lookedUp r) post := by
  unfold Reindex.record World.lookedUp
  rw [r.isNamedBy_document.solutionId, r.isNamedBy_document.entityName,
    r.isNamedBy_document.entityType, leads_bind, lookUpSchema_leads hcalm]
  rcases schemaFor w.definitions (.str r.solutionId) (.str r.entityName) (.ofText? r.entityType) with
    f | schema
  · rfl
  · dsimp only
    rw [leads_bind, leads_circumstances]
    dsimp only
    rw [leads_bind, leads_orBroken]
    have hcircumstances (calls : List Call) : (w.logged calls).circumstances = w.circumstances := rfl
    rw [hcircumstances]
    rcases Reindex.refreshed schema.merged w.circumstances.now r.document with b | refreshed
    · rfl
    · rfl

theorem record_leads {w : World} (hcalm : w.Calm) (htable : w.records.Sound) {index : String}
    (hsound : w.engine.SoundAt index) (hnow : w.circumstances.now.micros < Timestamp.limit)
    {r : Record} (hr : r ∈ w.records) (hunreserved : r.entityName ∉ reservedEntities) :
    (Reindex.record r.document).Leads w fun _ w' => w.Swept w' [r] index := by
  refine (record_leads_iff hcalm r _).mpr ?_
  have hsame {rows : List Record} (hrows : ∀ v ∈ rows, ¬ v.Refreshable w.definitions) :
      w.Swept (w.lookedUp r) rows index :=
    .of_same hcalm hsound htable rfl rfl rfl rfl fun v hv hrow => absurd hrow (hrows v hv)
  rcases hschema : schemaFor w.definitions (.str r.solutionId) (.str r.entityName)
    (.ofText? r.entityType) with f | schema
  · refine hsame fun v hv hrow => ?_
    obtain ⟨_, _, _, hok, -⟩ := (List.mem_singleton.mp hv ▸ hrow).merged
    rw [hschema] at hok
    cases hok
  · dsimp only
    rcases hrefreshed : Reindex.refreshed schema.merged w.circumstances.now r.document with
      b | refreshed
    · refine hsame fun v hv hrow => ?_
      obtain ⟨_, display, content, hok, hdisplay, hcontent⟩ := (List.mem_singleton.mp hv ▸ hrow).merged
      rw [hschema] at hok
      cases hok
      have hdone : Reindex.refreshed schema.merged w.circumstances.now r.document = .ok _ :=
        refreshed_eq_ok_iff.mpr ⟨display, content, hdisplay, hcontent, rfl⟩
      rw [hrefreshed] at hdone
      cases hdone
    · have hquiet : w.Swept (w.lookedUp r) [] index := hsame fun v hv => absurd hv List.not_mem_nil
      refine (rewrite_leads hquiet.calm hquiet.table hquiet.sound hnow hr hunreserved
        hrefreshed).mono ?_
      exact fun _ _ hswept => hquiet.trans hswept

/-- A row of a page is reindexed or passed over. -/
theorem visit_leads {w : World} (hcalm : w.Calm) (htable : w.records.Sound) {index : String}
    (hsound : w.engine.SoundAt index) (hnow : w.circumstances.now.micros < Timestamp.limit)
    {r : Record} (hr : r ∈ w.records) (counts : BucketCounts) :
    (Reindex.visit counts r.document).Leads w fun outcome w' =>
      (∃ more, outcome = .ok more) ∧ w.Swept w' [r] index := by
  unfold Reindex.visit
  rw [r.isNamedBy_document.isReserved]
  split
  · next hreserved =>
    rw [List.contains_iff_mem] at hreserved
    refine ⟨⟨counts, rfl⟩, .of_same hcalm hsound htable rfl rfl rfl rfl fun v hv _ => ?_⟩
    rw [List.mem_singleton.mp hv]
    exact hreserved
  · next hunreserved =>
    rw [List.contains_iff_mem] at hunreserved
    rw [leads_bind, leads_attempt]
    refine (record_leads hcalm htable hsound hnow hr hunreserved).mono ?_
    rintro outcome w' hswept
    rcases outcome with f | saved
    · exact ⟨⟨counts, rfl⟩, hswept⟩
    · exact ⟨⟨_, rfl⟩, hswept⟩

/-- All rows of a page are. -/
theorem visitAll_leads {rows : List Record} (hrows : rows.Pairwise (·.id ≠ ·.id)) {w : World}
    (hcalm : w.Calm) (htable : w.records.Sound) {index : String}
    (hsound : w.engine.SoundAt index) (hnow : w.circumstances.now.micros < Timestamp.limit)
    (hmem : ∀ r ∈ rows, r ∈ w.records) (counts : BucketCounts) :
    (Reindex.visitAll counts (rows.map (·.document))).Leads w fun outcome w' =>
      (∃ more, outcome = .ok more) ∧ w.Swept w' rows index := by
  induction rows generalizing w counts with
  | nil => exact ⟨⟨counts, rfl⟩, .refl hcalm hsound htable⟩
  | cons r rest ih =>
    obtain ⟨hfirst, hrest⟩ := List.pairwise_cons.mp hrows
    rw [List.map_cons]
    unfold Reindex.visitAll
    rw [leads_bind]
    refine (visit_leads hcalm htable hsound hnow (hmem r List.mem_cons_self) counts).mono ?_
    rintro outcome w₁ ⟨⟨more, rfl⟩, hswept⟩
    have hlater : ∀ v ∈ rest, v ∈ w₁.records := fun v hv =>
      hswept.others v (hmem v (List.mem_cons_of_mem _ hv)) fun u hu =>
        List.mem_singleton.mp hu ▸ hfirst v hv
    refine (ih hrest hswept.calm hswept.table hswept.sound (hswept.circumstances ▸ hnow) hlater
      more).mono ?_
    rintro outcome w₂ ⟨hok, hswept'⟩
    exact ⟨hok, hswept.trans hswept'⟩

end TenantSearch
