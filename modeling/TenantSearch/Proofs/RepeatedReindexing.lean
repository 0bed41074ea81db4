-- Reindexing what was written. The texts that a write gives to search are those that reindexing
-- its row merges, and a row that was reindexed is reindexed again without any effect but another
-- stamp.
import TenantSearch.Proofs.RestingIndices
import TenantSearch.Proofs.SettledRows
import TenantSearch.Proofs.ShapedCopies

namespace TenantSearch

open Service

/-! ## Reindexing a row -/

section

variable {w : World} (hcalm : w.Calm) {r row : Record}

include hcalm

/-- A row that is reindexed can be rewritten. -/
theorem record_takes_rewriting : (Reindex.record r.document).Leads w fun answer _ =>
    ∀ reindexed, answer = .ok reindexed →
      ∃ row, r.rewritten? w.definitions w.circumstances.now = some row := by
  refine (record_leads_iff hcalm r _).mpr ?_
  rcases hschema : schemaFor w.definitions (.str r.solutionId) (.str r.entityName)
    (.ofText? r.entityType) with f | schema
  · exact fun _ h => by cases h
  dsimp only
  rcases hrefreshed : Reindex.refreshed schema.merged w.circumstances.now r.document with b | refreshed
  · exact fun _ h => by cases h
  · exact fun _ _ => ⟨_, Record.rewritten?_eq_some.mpr ⟨schema, refreshed, hschema, hrefreshed, rfl⟩⟩

variable (htable : w.records.Sound) (hr : r ∈ w.records)
  (hnow : w.circumstances.now.micros < Timestamp.limit)
  (hrow : r.rewritten? w.definitions w.circumstances.now = some row)

include htable hr hnow hrow

/-- A row that can be rewritten is saved rewritten, and indexed as it reads then. -/
theorem record_rewrites : ∃ w₁, w.SameIndices w₁ ∧ w₁.circumstances = w.circumstances ∧
    w₁.records = w.records.put row ∧
      ∀ post, (Reindex.record r.document).Leads w post ↔
        (Indexing.upsert row.document).Leads w₁ fun _ w' => post (.ok row.document) w' := by
  obtain ⟨schema, refreshed, hschema, hrefreshed, rfl⟩ := Record.rewritten?_eq_some.mp hrow
  have hstamp := isStamped_refreshed hrefreshed (htable.rows r hr) hnow
  have hsave := htable.save_refreshed_row hr hrefreshed (some w.circumstances.now)
  rw [Record.saved_refreshed_eq hrefreshed] at hsave
  refine ⟨(w.lookedUp r).committed refreshed (some w.circumstances.now) (w.records.put { r with
      body := Record.bodyOf refreshed, reindexedOn := some w.circumstances.now }),
    ⟨rfl, rfl, rfl, rfl, [_, _, _], (List.append_assoc ..).trans (List.append_assoc ..), rfl⟩,
    rfl, rfl, fun post => ?_⟩
  refine (record_leads_iff hcalm r post).trans ?_
  rw [hschema]
  dsimp only
  rw [hrefreshed]
  exact write_leads_calm (w := w.lookedUp r) hcalm hstamp hsave post

end

/-! ## Texts that are indexed -/

/-- Fields that have these two texts. -/
structure Carries (fields : Fields) (display content : String) : Prop where
  display : fields.get? "searchDisplay" = some (.str display)
  content : fields.get? "searchContent" = some (.str content)

/-- The copies of a document in its indices have these two texts. -/
def World.Shows (w : World) (document : Fields) (display content : String) : Prop :=
  ∀ index ∈ ownIndices document, ∃ key copy, (document.look "id").key? = some key ∧
    w.engine.copy? index key = some copy ∧ Carries copy display content

/-- A version, saved of a document, that search and its row have the same texts of. It carries
none, its subtype is one by its column just when it is one, what is merged of its columns reads as
they do, and the table keeps what is merged of the rest as it is. -/
structure IsMergedAlike (definitions : List EntityDefinition) (table : RecordTable)
    (document version : Fields) : Prop where
  bare : ∀ name ∈ searchTextFields, version.has name = false
  subtype : IsSubtype (version.look "entityType")
  alike : ∀ schema, schemaFor definitions (version.look "solutionId") (version.look "entityName")
    (version.look "entityType").orNull = .ok schema → schema.merged.ReadsAlike version ∧
      ∀ name, Json.str name ∈ schema.merged.display ++ schema.merged.content →
        table.KeepsAsIs document name

theorem Carries.hasTexts {fields : Fields} {display content : String}
    (h : Carries fields display content) : Projection.hasTexts fields = true := by
  unfold Projection.hasTexts Fields.has
  rw [h.display, h.content]
  rfl

namespace IsCopyOf

variable {definitions : List EntityDefinition} {document copy : Fields} {display content : String}

/-- A copy has the texts of the document. -/
theorem carries (h : IsCopyOf definitions document copy) (htexts : Carries document display content) :
    Carries copy display content := by
  obtain ⟨hdisplay, hcontent⟩ := Bool.and_eq_true_iff.mp htexts.hasTexts
  have hcopyDisplay := h.display
  have hcopyContent := h.content
  unfold IsTextOf at hcopyDisplay hcopyContent
  rw [if_pos hdisplay] at hcopyDisplay
  rw [if_pos hcontent] at hcopyContent
  exact ⟨hcopyDisplay.trans htexts.display, hcopyContent.trans htexts.content⟩

/-- The copy of a document without texts has those that are merged of it. -/
theorem carries_merged (h : IsCopyOf definitions document copy)
    (hbare : ∀ name ∈ searchTextFields, document.has name = false) :
    ∃ schema display content, schemaFor definitions (document.look "solutionId")
        (document.look "entityName") (document.look "entityType").orNull = .ok schema ∧
      schema.merged.displayText document = .ok display ∧
      schema.merged.contentText document = .ok content ∧ Carries copy display content := by
  have hdisplay := h.display
  have hcontent := h.content
  unfold IsTextOf at hdisplay hcontent
  rw [hbare "searchDisplay" (by decide), if_neg Bool.false_ne_true] at hdisplay
  rw [hbare "searchContent" (by decide), if_neg Bool.false_ne_true] at hcontent
  obtain ⟨schema, display, hschema, hmergedDisplay, hcopyDisplay⟩ := hdisplay
  obtain ⟨other, content, hother, hmergedContent, hcopyContent⟩ := hcontent
  obtain rfl : schema = other := Except.ok.inj (hschema.symm.trans hother)
  exact ⟨schema, display, content, hschema, hmergedDisplay, hmergedContent,
    hcopyDisplay, hcopyContent⟩

end IsCopyOf

/-- No text is merged for a row from what reindexing sets. -/
def Record.IsMergedApart (definitions : List EntityDefinition) (r : Record) : Prop :=
  ∀ schema, schemaFor definitions (.str r.solutionId) (.str r.entityName) (.ofText? r.entityType) =
    .ok schema → schema.merged.IsApartFrom refreshedFields

/-- A row is rewritten with the texts that are merged of it. -/
theorem Record.rewritten?_of_texts {definitions : List EntityDefinition} {r : Record}
    {schema : EntitySchema} {display content : String}
    (hschema : schemaFor definitions (.str r.solutionId) (.str r.entityName) (.ofText? r.entityType) =
      .ok schema) (hdisplay : schema.merged.displayText r.document = .ok display)
    (hcontent : schema.merged.contentText r.document = .ok content) (now : Timestamp) :
    ∃ row, r.rewritten? definitions now = some row ∧ Carries row.document display content := by
  have hrewritten : r.rewritten? definitions now = some _ :=
    rewritten?_eq_some.mpr ⟨schema, _, hschema,
      refreshed_eq_ok_iff.mpr ⟨display, content, hdisplay, hcontent, rfl⟩, rfl⟩
  obtain ⟨_, rowDisplay, rowContent, hsame, hrowDisplay, hrowContent, hget, hget'⟩ :=
    (isRewriting_of_rewritten? hrewritten).texts
  obtain rfl : schema = _ := Except.ok.inj (hschema.symm.trans hsame)
  obtain rfl : display = rowDisplay := Except.ok.inj (hdisplay.symm.trans hrowDisplay)
  obtain rfl : content = rowContent := Except.ok.inj (hcontent.symm.trans hrowContent)
  exact ⟨_, hrewritten, hget, hget'⟩

/-- The row of a version that was saved is rewritten with the texts that are merged of the
version. -/
theorem Record.rewritten?_of_version {definitions : List EntityDefinition} {r : Record}
    {table : RecordTable} {document version : Fields}
    (hrow : r.IsRowFor version (table.KeepsAsIs document))
    (halike : IsMergedAlike definitions table document version)
    (happart : r.IsMergedApart definitions) {schema : EntitySchema}
    (hschema : schemaFor definitions (version.look "solutionId") (version.look "entityName")
      (version.look "entityType").orNull = .ok schema) {display content : String}
    (hdisplay : schema.merged.displayText version = .ok display)
    (hcontent : schema.merged.contentText version = .ok content) (now : Timestamp) :
    ∃ row, r.rewritten? definitions now = some row ∧ Carries row.document display content := by
  have hnamed := r.isNamedBy_document
  have hrowSchema := hrow.schemaFor_eq halike.subtype definitions
  rw [hnamed.solutionId, hnamed.entityName, hnamed.entityType, hschema] at hrowSchema
  have hstamp : schema.merged.IsApartFrom [reindexedField] := fun name hname =>
    happart schema hrowSchema name (List.mem_singleton.mp hname ▸ List.mem_cons_self)
  obtain ⟨hreads, hkept⟩ := halike.alike schema hschema
  obtain ⟨hrowDisplay, hrowContent⟩ := hreads.texts_eq hrow hkept hstamp
  exact rewritten?_of_texts hrowSchema (hrowDisplay.trans hdisplay) (hrowContent.trans hcontent) now

section

variable {v : World} (hcalm : v.Calm) (htable : v.records.Sound) {r row : Record} (hr : r ∈ v.records)
  (hnow : v.circumstances.now.micros < Timestamp.limit)
  (hrow : r.rewritten? v.definitions v.circumstances.now = some row)

include hcalm htable hr hnow hrow

/-- A row that can be rewritten is indexed with the texts that it is rewritten with. -/
theorem record_shows {display content : String} (htexts : Carries row.document display content) :
    (Reindex.record r.document).Leads v fun answer v₁ => answer = .ok row.document ∧
      (v.CanPlace row.document → v₁.Shows row.document display content) := by
  obtain ⟨v₀, hsame, -, -, hrewrites⟩ := record_rewrites hcalm htable hr hnow hrow
  refine (hrewrites _).mpr ?_
  have hnamed := row.isNamedBy_document
  have hkey : (row.document.look "id").key? = some (.text row.id) := by
    rw [hnamed.id]
    rfl
  have hgiven : (row.document.look "id").given = true := by
    rw [hnamed.id]
    exact given_str ((htable.rows r hr).rewritten hrow).hasId
  refine (upsert_takesIn (hsame.plans.trans hcalm) hkey hgiven).mono fun _ v₁ htaken => ⟨rfl, ?_⟩
  intro hcan index hindex
  obtain ⟨copy, hcopy, hplaced⟩ := (htaken.after hsame).placed hcan
  exact ⟨_, copy, hkey, hplaced index hindex, hcopy.carries htexts⟩

end

/-! ## Reindexing again -/

/-- What becomes of a world in which a row is stamped anew and nothing else is done. -/
structure World.OnlyRestamps (w w' : World) (r : Record) (now : Timestamp) : Prop where
  records : w'.records =
    w.records.map fun v => if v.id = r.id then { v with reindexedOn := some now } else v
  mappings : ∀ index, w'.engine.mapping? index = w.engine.mapping? index
  /-- Copies come and go no more, and differ in the stamp at most. -/
  copies : ∀ index key, (w'.engine.copy? index key).map (·.without [reindexedField]) =
    (w.engine.copy? index key).map (·.without [reindexedField])

theorem Recopied.without_eq {r : Record} {stamp : Option Timestamp} {copy copy' : Option Fields}
    (h : Recopied r.document ({ r with reindexedOn := stamp } : Record).document copy copy') :
    copy'.map (·.without [reindexedField]) = copy.map (·.without [reindexedField]) := by
  rcases h with rfl | ⟨rfl, rfl⟩
  · rfl
  · unfold Projection.strip
    rw [Option.map_some, Option.map_some, Fields.without_comm, r.without_document,
      Fields.without_comm]

theorem Record.hasTexts_rewritten {definitions : List EntityDefinition} {now : Timestamp}
    {r row : Record} (h : r.rewritten? definitions now = some row) :
    Projection.hasTexts row.document = true := by
  obtain ⟨_, _, _, -, -, -, hdisplay, hcontent⟩ := (isRewriting_of_rewritten? h).texts
  exact Carries.hasTexts ⟨hdisplay, hcontent⟩

/-- A row that was reindexed is there rewritten, and reindexing it again at any time only stamps it
anew. -/
theorem record_again {v : World} (hcalm : v.Calm) (htable : v.records.Sound) {r : Record}
    (hr : r ∈ v.records) (hnow : v.circumstances.now.micros < Timestamp.limit)
    (happart : r.IsMergedApart v.definitions) {row : Record}
    (hrow : r.rewritten? v.definitions v.circumstances.now = some row) :
    (Reindex.record r.document).Leads v fun _ v₁ => row ∈ v₁.records ∧
      ∀ here : Circumstances, here.now.micros < Timestamp.limit →
        (Reindex.record row.document).Leads { v₁ with circumstances := here } fun answer v₂ =>
          answer = .ok { row with reindexedOn := some here.now : Record }.document ∧
            v₁.OnlyRestamps v₂ row here.now := by
  obtain ⟨v₀, hsame, -, hrecords, hrewrites⟩ := record_rewrites hcalm htable hr hnow hrow
  have hrowSound := (htable.rows r hr).rewritten hrow
  have hcalm₀ : v₀.Calm := hsame.plans.trans hcalm
  refine (hrewrites _).mpr ((upsert_again hcalm₀ hrowSound row.isNamedBy_document
    (Record.hasTexts_rewritten hrow)).mono ?_)
  rintro _ v₁ ⟨hbeside, hindexed⟩
  have hput : v₁.records = v.records.put row := hbeside.records.trans hrecords
  have htable₁ : v₁.records.Sound := hput ▸ htable.put hrowSound
  have hmem : row ∈ v₁.records := hput ▸ RecordTable.mem_put_self row v.records
  refine ⟨hmem, fun here hhere => ?_⟩
  have hnext : row.rewritten? v₁.definitions here.now =
      some { row with reindexedOn := some here.now } := by
    rw [hbeside.definitions, hsame.definitions]
    exact Record.rewritten?_again hrow happart
  obtain ⟨u, hlater, -, hrecords', hrewrites'⟩ := record_rewrites
    (w := { v₁ with circumstances := here }) (hbeside.calm hcalm₀) htable₁ hmem hhere hnext
  have hquiet : v₁.SameIndices u :=
    ⟨hlater.plans, hlater.definitions, hlater.engine, hlater.memory, hlater.logs⟩
  have hnamed := ({ row with reindexedOn := some here.now } : Record).isNamedBy_document
  refine (hrewrites' _).mpr ((hindexed u _ hquiet
    ⟨hnamed.id, hnamed.entityName, hnamed.entityType, hnamed.solutionId⟩
    (Record.hasTexts_rewritten hnext)).mono ?_)
  rintro _ v₂ ⟨hbeside₂, hmappings, hcopies⟩
  refine ⟨rfl, ?_, hmappings, fun index key => (hcopies index key).without_eq⟩
  rw [hbeside₂.records, hrecords']
  have hid : ({ row with reindexedOn := some here.now } : Record).id = row.id := rfl
  refine (RecordTable.put_eq_map htable₁.ordered hmem hid).trans
    (List.map_congr_left fun v hv => ?_)
  split
  · next hsameId => rw [htable₁.eq_of_id hmem hv hsameId]
  · rfl

/-! ## A write and what follows -/

/-- A version without texts is given to search with those that are merged of it, and has them in
its indices if it can be placed. -/
theorem write_shows {w : World} (hcalm : w.Calm) (htable : w.records.Sound)
    {document saved fields : Fields} {records : RecordTable}
    (hwritten : Store.written w.records document = .ok (saved, records))
    (hbare : ∀ name ∈ searchTextFields, saved.has name = false)
    (hfields : projectionFor w.definitions saved = .ok fields) :
    ∃ schema display content, schemaFor w.definitions (saved.look "solutionId")
        (saved.look "entityName") (saved.look "entityType").orNull = .ok schema ∧
      schema.merged.displayText saved = .ok display ∧ schema.merged.contentText saved = .ok content ∧
      Carries fields display content ∧ (Store.write document).Leads w fun answer w₁ =>
        answer = .ok saved ∧ (w.CanPlace saved → w₁.Shows saved display content) := by
  obtain ⟨schema, display, content, hschema, hdisplay, hcontent, hcarries⟩ :=
    (isCopyOf_of_projectionFor hfields).carries_merged hbare
  refine ⟨schema, display, content, hschema, hdisplay, hcontent, hcarries, ?_⟩
  refine (write_takesIn hcalm htable hwritten).mono ?_
  rintro answer w₁ ⟨hanswer, key, hkey, htaken⟩
  refine ⟨hanswer, fun hcan index hindex => ?_⟩
  obtain ⟨copy, hcopy, hplaced⟩ := htaken.placed hcan
  obtain ⟨other, display', content', hother, hdisplay', hcontent', hcarries'⟩ :=
    hcopy.carries_merged hbare
  obtain rfl : schema = other := Except.ok.inj (hschema.symm.trans hother)
  obtain rfl : display = display' := Except.ok.inj (hdisplay.symm.trans hdisplay')
  obtain rfl : content = content' := Except.ok.inj (hcontent.symm.trans hcontent')
  exact ⟨key, copy, hkey, hplaced index hindex, hcarries'⟩

/-- The row of a version that was saved. -/
theorem RecordTable.isRowFor_of_written {table records : RecordTable} (htable : table.Sound)
    {document saved : Fields} (hwritten : Store.written table document = .ok (saved, records))
    {r : Record} (hr : r ∈ records)
    (hid : Record.columnText (saved.look "id") = .ok (some r.id)) :
    r.IsRowFor saved (table.KeepsAsIs document) := by
  obtain ⟨stamp, hstamp, hsaved⟩ := bind_eq_ok.mp hwritten
  have hsave := mapError_eq_ok.mp hsaved
  obtain ⟨row, rfl, hrow⟩ := isRowFor_of_save hsave
  obtain ⟨text, htext, hlook⟩ := hrow.columns "id" (by decide)
  have hsame : row.id = r.id := by
    rw [hid] at htext
    cases htext
    rw [row.isNamedBy_document.id] at hlook
    exact Json.str.inj hlook
  have hsound := htable.save (stampOf_eq_ok_iff.mp hstamp) hsave
  obtain rfl := hsound.eq_of_id (mem_put_self row table) hr hsame.symm
  exact hrow

/-- A write of a document that can be saved ends in a calm world with that table, if it starts in a
calm one without indices. -/
theorem write_leaves {w : World} (hcalm : w.Calm) (hengine : w.engine = {}) {document saved : Fields}
    {records : RecordTable} (hwritten : Store.written w.records document = .ok (saved, records)) :
    (Store.write document).Leads w fun _ w₁ => w₁.Calm ∧ w₁.records = records ∧
      w₁.definitions = w.definitions ∧ w₁.circumstances = w.circumstances := by
  obtain ⟨stamp, hstamp, hsaved⟩ := bind_eq_ok.mp hwritten
  refine (write_leads_calm hcalm (stampOf_eq_ok_iff.mp hstamp) (mapError_eq_ok.mp hsaved) _).mpr ?_
  have hsound : w.engine.SoundAt "event" := by
    intro mapping hmapping
    rw [hengine] at hmapping
    cases hmapping
  refine (upsert_leads (w := w.committed document stamp records) hcalm hsound saved).mono ?_
  rintro _ w₁ ⟨hbeside, -⟩
  exact ⟨hbeside.calm hcalm, hbeside.records, hbeside.definitions, hbeside.circumstances⟩

/-- The clock and the settings may change at any time. -/
theorem Reachable.withCircumstances {w : World} (h : Reachable w) (here : Circumstances) :
    Reachable { w with circumstances := here } :=
  h.between rfl h.sound.mapped

/-- While no call fails, a record that is written without texts of its own is indexed with those
that reindexing its row gives later, in whatever state the indices are then, as long as it is read
like its row and kept as it is where texts are merged from, the definitions are the same and merge
nothing that reindexing sets. Every row that was reindexed under such definitions is left as it is
by another reindexing at any time, and so are the indices and the copies of all rows, but for its
stamp. -/
theorem reindexing_repeats_the_texts_and_only_stamps {v : World} (hv : Reachable v) (hcalm : v.Calm)
    (hnow : v.circumstances.now.micros < Timestamp.limit) {r : Record} (hr : r ∈ v.records)
    (happart : r.IsMergedApart v.definitions) :
    (∀ {w : World} {document saved fields : Fields} {records : RecordTable}, Reachable w → w.Calm →
      w.definitions = v.definitions → Store.written w.records document = .ok (saved, records) →
      r ∈ records → Record.columnText (saved.look "id") = .ok (some r.id) →
      IsMergedAlike w.definitions w.records document saved →
      projectionFor w.definitions saved = .ok fields →
      ∃ display content reindexed, Carries fields display content ∧
        ((Store.write document).Leads w fun answer w₁ =>
          answer = .ok saved ∧ (w.CanPlace saved → w₁.Shows saved display content)) ∧
        Carries reindexed display content ∧
        (Reindex.record r.document).Leads v fun answer v₁ => answer = .ok reindexed ∧
          (v.CanPlace reindexed → v₁.Shows reindexed display content)) ∧
    (Reindex.record r.document).Leads v fun answer v₁ => ∀ reindexed, answer = .ok reindexed →
      ∃ row ∈ v₁.records, row.id = r.id ∧ row.document = reindexed ∧
        ∀ here : Circumstances, here.now.micros < Timestamp.limit →
          (Reindex.record row.document).Leads { v₁ with circumstances := here } fun answer v₂ =>
            answer = .ok { row with reindexedOn := some here.now : Record }.document ∧
              v₁.OnlyRestamps v₂ row here.now := by
  have htable := hv.sound.records
  constructor
  · intro w document saved fields records hw hcalm' hdefinitions hwritten hmem hid halike hfields
    obtain ⟨schema, display, content, hschema, hdisplay, hcontent, hgiven, hshows⟩ :=
      write_shows hcalm' hw.sound.records hwritten halike.bare hfields
    have hrow := RecordTable.isRowFor_of_written hw.sound.records hwritten hmem hid
    obtain ⟨row, hrewritten, hcarries⟩ := Record.rewritten?_of_version hrow halike
      (hdefinitions ▸ happart) hschema hdisplay hcontent v.circumstances.now
    rw [hdefinitions] at hrewritten
    exact ⟨display, content, row.document, hgiven, hshows, hcarries,
      record_shows hcalm htable hr hnow hrewritten hcarries⟩
  · have htakes := record_takes_rewriting hcalm (r := r)
    intro reindexed hanswer
    obtain ⟨row, hrow⟩ := htakes reindexed hanswer
    obtain ⟨v₀, -, -, -, hrewrites⟩ := record_rewrites hcalm htable hr hnow hrow
    have hdocument : (Reindex.record r.document).Leads v fun answer _ => answer = .ok row.document :=
      (hrewrites _).mpr rfl
    obtain ⟨hmem, hagain⟩ := record_again hcalm htable hr hnow happart hrow
    refine ⟨row, hmem, Record.id_of_rewritten? hrow, ?_, hagain⟩
    exact Except.ok.inj (hdocument.symm.trans hanswer)

/-! ## A concert that is reindexed twice -/

/-- A concert with a number for a title. -/
def numberedConcert : Fields := concert ++ [("title", .int 1791)]

/-- The row of that concert. -/
def concertRow : Record :=
  { id := "e-1", entityName := "Event", entityType := some "Concert", solutionId := "sol-1",
    body := [("title", .int 1791)] }

/-- Nothing that reindexing sets is merged where no definition says what is. -/
theorem standard_isApart : (EntitySchema.merged {}).IsApartFrom refreshedFields := by
  simp [MergedText.IsApartFrom, MergedText.standard, refreshedFields, searchTextFields,
    reindexedField]

/-- The world after the concert was written, a little later. -/
def concertWorld : World :=
  { ((Store.write numberedConcert).runIn (.empty evening)).2 with circumstances := later }

/-- The concert is reindexed with the texts that it was indexed with, and once more without any
effect but another stamp. -/
theorem a_concert_is_reindexed_with_its_texts :
    Reachable concertWorld ∧ concertWorld.Calm ∧ concertRow ∈ concertWorld.records ∧
    ∃ saved display content reindexed row,
      ((Store.write numberedConcert).Leads (.empty evening) fun answer w₁ =>
        answer = .ok saved ∧ w₁.Shows saved display content) ∧
      Carries reindexed display content ∧ row.id = "e-1" ∧ row.document = reindexed ∧
      (Reindex.record concertRow.document).Leads concertWorld fun answer v₁ =>
        answer = .ok reindexed ∧ row ∈ v₁.records ∧
        (Reindex.record row.document).Leads { v₁ with circumstances := later } fun _ v₂ =>
          v₁.OnlyRestamps v₂ row later.now := by
  have hstart : Reachable (.empty evening) := .start rfl rfl
  have hwritten : Store.written (World.empty evening).records numberedConcert =
    .ok (Record.savedDocument numberedConcert none, [concertRow]) := rfl
  have hleaves := write_leaves (w := .empty evening) rfl rfl hwritten
  have hran : Reachable ((Store.write numberedConcert).runIn (.empty evening)).2 :=
    hstart.ran (.indexing (.write numberedConcert))
  obtain ⟨hreachable, hcalm, hrecords, hdefinitions, hcircumstances⟩ : Reachable concertWorld ∧
      concertWorld.Calm ∧ concertWorld.records = [concertRow] ∧ concertWorld.definitions = [] ∧
      concertWorld.circumstances = later := by
    unfold concertWorld
    unfold Leads at hleaves
    generalize ((Store.write numberedConcert).runIn (.empty evening)).2 = w₁ at hleaves hran ⊢
    obtain ⟨hcalm, hrecords, hdefinitions, -⟩ := hleaves
    exact ⟨hran.withCircumstances later, hcalm, hrecords, hdefinitions, rfl⟩
  have hr : concertRow ∈ concertWorld.records := hrecords ▸ List.mem_singleton_self _
  have happart : concertRow.IsMergedApart concertWorld.definitions := by
    intro schema hschema
    rw [hdefinitions] at hschema
    exact Except.ok.inj hschema ▸ standard_isApart
  have hclock : later.now.micros < Timestamp.limit := by decide
  obtain ⟨htexts, hstamps⟩ :=
    reindexing_repeats_the_texts_and_only_stamps hreachable hcalm (hcircumstances ▸ hclock) hr happart
  have halike : IsMergedAlike [] [] numberedConcert (Record.savedDocument numberedConcert none) := by
    refine ⟨by decide, Or.inl rfl, fun schema hschema => ⟨fun name hname hmem => ?_, fun _ _ => rfl⟩⟩
    obtain rfl : schema = {} := (Except.ok.inj hschema).symm
    simp only [promotedFields, List.mem_cons, List.not_mem_nil, or_false] at hname
    rcases hname with rfl | rfl | rfl | rfl | rfl | rfl
    all_goals simp [MergedText.standard] at hmem
  have hname : (Record.savedDocument numberedConcert none).look "entityName" = .str "Event" := rfl
  have hcan : (World.empty evening).CanPlace (Record.savedDocument numberedConcert none) :=
    canPlace_of_tests rfl hname (by decide) (by decide +kernel)
  obtain ⟨fields, hfields⟩ := hcan.texts
  obtain ⟨display, content, reindexed, -, hshows, hcarries, hreindexed⟩ :=
    htexts hstart rfl hdefinitions.symm hwritten (List.mem_singleton_self _) rfl halike hfields
  obtain ⟨row, hrow, hid, hdocument, hagain⟩ := hstamps reindexed hreindexed.1
  exact ⟨hreachable, hcalm, hr, _, display, content, reindexed, row, ⟨hshows.1, hshows.2 hcan⟩,
    hcarries, hid, hdocument, hreindexed.1, hrow, (hagain later hclock).2⟩

/-! ## Events that are reindexed with other texts -/

/-- A document without texts is written, placed and reindexed while no call fails, under definitions
that merge nothing that reindexing sets, and gets another text to display. -/
def IsReindexedOtherwise (w : World) (document : Fields) : Prop :=
  Reachable w ∧ w.Calm ∧ (∀ name ∈ searchTextFields, document.has name = false) ∧
    ∃ saved r display content reindexed display' content',
      Store.written w.records document = .ok (saved, [r]) ∧ r.IsMergedApart w.definitions ∧
      w.CanPlace saved ∧ (Store.write document).Leads w fun answer w₁ => answer = .ok saved ∧
        w₁.definitions = w.definitions ∧ w₁.records = [r] ∧ w₁.Shows saved display content ∧
        (Reindex.record r.document).Leads w₁ fun answer _ => answer = .ok reindexed ∧
          Carries reindexed display' content' ∧ display' ≠ display

/-- A world with these definitions and rows and nothing else. -/
def definedWorld (definitions : List EntityDefinition) (records : RecordTable) : World :=
  { World.empty morning with definitions, records }

section

variable {definitions : List EntityDefinition} {records : RecordTable} {document saved : Fields}
  {r : Record} {schema : EntitySchema} {display content : String}

/-- The text to display of a row is another one than that of the version. -/
theorem isReindexedOtherwise_of_texts (hreachable : Reachable (definedWorld definitions records))
    (hbare : ∀ name ∈ searchTextFields, document.has name = false ∧ saved.has name = false)
    (hwritten : Store.written records document = .ok (saved, [r]))
    (hcan : (definedWorld definitions records).CanPlace saved)
    (hschema : schemaFor definitions (.str r.solutionId) (.str r.entityName) (.ofText? r.entityType) =
      .ok schema) (happart : schema.merged.IsApartFrom refreshedFields)
    (hdisplay : schema.merged.displayText r.document = .ok display)
    (hcontent : schema.merged.contentText r.document = .ok content)
    (hother : ((schemaFor definitions (saved.look "solutionId") (saved.look "entityName")
      (saved.look "entityType").orNull).toOption.all fun other =>
        decide ((other.merged.displayText saved).toOption ≠ some display)) = true) :
    IsReindexedOtherwise (definedWorld definitions records) document := by
  have hcalm : (definedWorld definitions records).Calm := rfl
  obtain ⟨fields, hfields⟩ := hcan.texts
  obtain ⟨versionSchema, versionDisplay, versionContent, hversion, hmerged, -, -, hshows⟩ :=
    write_shows hcalm hreachable.sound.records hwritten (fun name hname => (hbare name hname).2) hfields
  obtain ⟨row, hrewritten, hcarries⟩ :=
    Record.rewritten?_of_texts hschema hdisplay hcontent morning.now
  change schemaFor definitions _ _ _ = _ at hversion
  rw [toOption_eq_some.mpr hversion, Option.all_some, decide_eq_true_iff, hmerged] at hother
  refine ⟨hreachable, hcalm, fun name hname => (hbare name hname).1, saved, r, versionDisplay,
    versionContent, row.document, display, content, hwritten, fun other hsame => ?_, hcan,
    (hshows.and (write_leaves hcalm rfl hwritten)).mono ?_⟩
  · exact Except.ok.inj (hschema.symm.trans hsame) ▸ happart
  · rintro answer w₁ ⟨⟨hanswer, hshown⟩, hcalm₁, hrecords, hdefinitions, hcircumstances⟩
    have hrewritten₁ : r.rewritten? w₁.definitions w₁.circumstances.now = some row := by
      rw [hdefinitions, hcircumstances]
      exact hrewritten
    obtain ⟨stamp, hstamp, hsaved⟩ := bind_eq_ok.mp hwritten
    have htable : w₁.records.Sound := by
      rw [hrecords]
      exact hreachable.sound.records.save (stampOf_eq_ok_iff.mp hstamp) (mapError_eq_ok.mp hsaved)
    have hclock : morning.now.micros < Timestamp.limit := by decide
    have hnow : w₁.circumstances.now.micros < Timestamp.limit := hcircumstances ▸ hclock
    have hr : r ∈ w₁.records := hrecords ▸ List.mem_singleton_self r
    refine ⟨hanswer, hdefinitions, hrecords, hshown hcan, ?_⟩
    refine (record_shows hcalm₁ htable hr hnow hrewritten₁ hcarries).mono ?_
    rintro answer _ ⟨rfl, -⟩
    exact ⟨rfl, hcarries, fun hsame => hother (congrArg some hsame.symm)⟩

end

/-- A definition under which events show their owner. -/
def shownOwner : EntityDefinition := ⟨"sol-1", "Event", none, .null, .arr [.str "ownedBy"], .null⟩

/-- A definition under which events of a subtype show their note. -/
def shownNote : EntityDefinition := ⟨"sol-1", "Event", some "0", .null, .arr [.str "note"], .null⟩

def ownedEvent (owner : Json) : Fields := eventOf "e-1" "sol-1" ++ [("ownedBy", owner)]

def notedEvent : Fields :=
  eventOf "e-1" "sol-1" ++ [("entityType", .int 0), ("note", .int 7)]

def titledEvent (title : Json) : Fields := eventOf "e-1" "sol-1" ++ [("title", title)]

/-- The row of an owned event. -/
def ownedRow (owner : String) : Record :=
  { id := "e-1", entityName := "Event", solutionId := "sol-1", ownedBy := some owner }

/-- The row of a titled event. -/
def titledRow (title : Json) : Record :=
  { id := "e-1", entityName := "Event", solutionId := "sol-1", body := [("title", title)] }

theorem PlainText.merge_singleton {document : Fields} {name text : String}
    (h : ofValue (document.look name) = .ok text) : merge document [.str name] =
      .ok (String.ofList ((join [text]).toList.take mostCharacters)) := by
  have hfield : ofField document (.str name) = .ok text := h
  unfold merge
  rw [List.mapM_cons, hfield]
  rfl

/-- An owner that is stored as a number is shown as that number. -/
theorem displayText_ownedRow {owner : String} (hnumber : IsNumberText owner.toList) :
    PlainText.merge (ownedRow owner).document [.str "ownedBy"] =
      .ok (String.ofList ((PlainText.join [owner]).toList.take PlainText.mostCharacters)) :=
  PlainText.merge_singleton (PlainText.ofText_of_isNumberText hnumber)

/-- An owner that is shown is a text once it is stored, so a truth value and a number that a column
spells otherwise are indexed as they are at first and as the column has them after reindexing. A
subtype of zero is none until it is stored. And where a title of one is overwritten with true, the
truth value is indexed, and the number stays and is reindexed. -/
theorem some_records_are_reindexed_otherwise :
    IsReindexedOtherwise (definedWorld [shownOwner] []) (ownedEvent (.bool true)) ∧
    IsReindexedOtherwise (definedWorld [shownOwner] []) (ownedEvent (.float ⟨0x4415AF1D78B58C40⟩)) ∧
    IsReindexedOtherwise (definedWorld [shownNote] []) notedEvent ∧
    IsReindexedOtherwise (definedWorld [] [titledRow (.int 1)]) (titledEvent (.bool true)) := by
  have hnamed (document : Fields) (h : document.look "entityName" = .str "Event") :
      (Record.savedDocument document none).look "entityName" = .str "Event" :=
    (look_savedDocument document none (by decide)).trans h
  have hstandard : ∀ name ∈ ["summary", "introduction", "abstract", "description", "note", "content",
      "tags"], name ∉ refreshedFields := by decide
  have hapart (name : String) (hname : name ∉ refreshedFields) :
      (⟨[.str name], MergedText.standard.content⟩ : MergedText).IsApartFrom refreshedFields := by
    intro other hother hmem
    rcases List.mem_append.mp hmem with hmem | hmem
    · rw [Json.str.inj (List.mem_singleton.mp hmem)] at hother
      exact hname hother
    · obtain ⟨field, hfield, heq⟩ := List.mem_map.mp hmem
      exact hstandard field hfield (Json.str.inj heq ▸ hother)
  refine ⟨?_, ?_, ?_, ?_⟩
  · have hsaved : Store.written [] (ownedEvent (.bool true)) =
      .ok (Record.savedDocument (ownedEvent (.bool true)) none, [ownedRow "1"]) := rfl
    exact isReindexedOtherwise_of_texts (.start rfl rfl) (by decide) hsaved
      (canPlace_of_tests rfl (hnamed _ rfl) (by decide) (by decide +kernel)) (Eq.refl _)
      (hapart "ownedBy" (by decide)) (displayText_ownedRow (by decide)) (Eq.refl _) (by decide +kernel)
  · have hsaved : Store.written [] (ownedEvent (.float ⟨0x4415AF1D78B58C40⟩)) =
      .ok (Record.savedDocument (ownedEvent (.float ⟨0x4415AF1D78B58C40⟩)) none,
        [ownedRow "1.0e+20"]) := rfl
    exact isReindexedOtherwise_of_texts (.start rfl rfl) (by decide) hsaved
      (canPlace_of_tests rfl (hnamed _ rfl) (by decide) (by decide +kernel)) (Eq.refl _)
      (hapart "ownedBy" (by decide)) (displayText_ownedRow (by decide)) (Eq.refl _) (by decide +kernel)
  · have hsaved : Store.written [] notedEvent = .ok (Record.savedDocument notedEvent none,
      [{ id := "e-1", entityName := "Event", entityType := some "0", solutionId := "sol-1",
         body := [("note", .int 7)] }]) := rfl
    exact isReindexedOtherwise_of_texts (.start rfl rfl) (by decide) hsaved
      (canPlace_of_tests rfl (hnamed _ rfl) (by decide) (by decide +kernel)) (Eq.refl _)
      (hapart "note" (by decide)) (Eq.refl _) (Eq.refl _) (by decide +kernel)
  · have hfirst : Store.written [] (titledEvent (.int 1)) =
      .ok (Record.savedDocument (titledEvent (.int 1)) none, [titledRow (.int 1)]) := rfl
    have hstart : Reachable (.empty morning) := .start rfl rfl
    have hran : Reachable ((Store.write (titledEvent (.int 1))).runIn (.empty morning)).2 :=
      hstart.ran (.indexing (.write (titledEvent (.int 1))))
    obtain ⟨-, hrecords, -⟩ := write_leaves (w := .empty morning) rfl rfl hfirst
    have hmapped : SearchEngine.Mapped {} := fun _ h => by cases h
    have hreachable : Reachable (definedWorld [] [titledRow (.int 1)]) :=
      hran.between hrecords.symm hmapped
    have hsaved : Store.written [titledRow (.int 1)] (titledEvent (.bool true)) =
      .ok (Record.savedDocument (titledEvent (.bool true)) none, [titledRow (.int 1)]) := rfl
    exact isReindexedOtherwise_of_texts hreachable (by decide) hsaved
      (canPlace_of_tests rfl (hnamed _ rfl) (by decide) (by decide +kernel)) (Eq.refl _)
      standard_isApart (Eq.refl _) (Eq.refl _) (by decide +kernel)

end TenantSearch
