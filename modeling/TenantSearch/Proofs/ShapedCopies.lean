-- What every indexed document is like, and what becomes of one that is written. A copy is
-- stored under its own identifier, with both texts and without what search has no use for,
-- whatever was done and whichever calls failed. A write that meets no fault places its
-- document, and leaves all others but those in an index that it creates anew.
import TenantSearch.Proofs.PlacedCopies
import TenantSearch.Proofs.ReservedIndices
import TenantSearch.Proofs.ScheduledReindexing

namespace TenantSearch

open Service

/-! ## The shape of a copy -/

/-- A document with both texts and without the fields of the store and those that are
merged. -/
structure IsShaped (fields : Fields) : Prop where
  texts : ∀ name ∈ searchTextFields, fields.has name = true
  stripped : ∀ name ∈ storeFields ++ mergedFields, fields.has name = false

/-- Every copy is stored under its own identifier and has its shape. -/
def SearchEngine.Shaped (e : SearchEngine) : Prop :=
  ∀ index key fields, e.copy? index key = some fields →
    (fields.look "id").key? = some key ∧ IsShaped fields

/-- The worlds that the gateway and its worker come to when nobody else puts a document. Between
operations everything may change but the rows and the indices. -/
inductive Grown : World → Prop
  | start {w : World} (records : w.records = []) (engine : w.engine = {}) : Grown w
  | ran {w : World} (before : Grown w) (o : Operation) : Grown (o.runIn w)
  | between {w w' : World} (before : Grown w) (records : w'.records = w.records)
      (engine : w'.engine = w.engine) : Grown w'

theorem IsProjection.isShaped {document fields : Fields} (h : IsProjection document fields) :
    IsShaped fields := by
  obtain ⟨display, content, rfl⟩ := h
  obtain ⟨hdisplay, hcontent⟩ := get?_defaults document display content
  have hsome (name text : String) : (if document.has name then document.get? name
      else some (.str text)).isSome = true := by
    split
    · next hhas => exact hhas
    · rfl
  refine ⟨fun name hname => ?_, fun name hname => ?_⟩
  · unfold Fields.has
    rcases List.mem_cons.mp hname with rfl | hname
    · rw [get?_strip (by decide), hdisplay]
      exact hsome _ _
    · rw [List.mem_singleton.mp hname, get?_strip (by decide), hcontent]
      exact hsome _ _
  · unfold Fields.has Projection.strip
    rw [Fields.get?_without, if_pos hname]
    rfl

/-- Whatever is put has its shape and is put under its own identifier. -/
def shapedPuts : Contract := .only fun
  | .engine (.put _ id fields) => fields.look "id" = id ∧ IsShaped fields
  | _ => True

theorem shapedPuts_admits : shapedPuts.Admits fun _ => True where
  free := by
    refine ⟨fun c hc => ?_, fun _ _ => trivial⟩
    cases c with
    | engine c => cases c <;> trivial
    | queue c => trivial
    | database c => trivial
  put document index id fields _ h := by
    refine ⟨?_, h.projection.isShaped⟩
    unfold Fields.look
    rw [h.ownId]
    rfl
  save _ _ _ _ _ _ := trivial
  saved _ _ _ _ _ _ _ := trivial
  page _ _ _ _ _ _ _ _ _ := trivial

theorem shapedPuts_upheld : shapedPuts.Upholds fun w => w.engine.Shaped where
  call w c hw hc := by
    refine ⟨fun _ _ => trivial, fun index key fields hcopy => ?_⟩
    rcases (World.engine_answerCall w c).copy hcopy with hheld | ⟨id, rfl, hkey⟩
    · exact hw index key fields hheld
    · obtain ⟨hid, hshaped⟩ := hc
      exact ⟨hid ▸ hkey, hshaped⟩
  memory _ _ h := h
  supply _ _ h := h

theorem Grown.shaped {w : World} (h : Grown w) : w.engine.Shaped := by
  induction h with
  | start _ engine =>
    rw [engine]
    exact nofun
  | ran _ o ih => exact o.upheld shapedPuts_admits shapedPuts_upheld ih
  | between _ _ engine ih => exact engine ▸ ih

/-! ## Copies that are written -/

/-- In every world that the gateway comes to, whatever failed, each indexed document is stored
under its own identifier, with both texts and without what search has no use for. A write that
meets no fault, in a world that others may have changed as well, is saved and leaves a copy of
what is saved in each index of the document, if the document can be placed; if it cannot, no
index gets it. All other copies stay, but for those in an index of the document that was not
good and is created anew. -/
theorem written_documents_are_placed :
    (∀ {w : World}, Grown w → w.engine.Shaped) ∧
    ∀ {w : World}, Reachable w → w.Calm → ∀ {document saved : Fields} {records : RecordTable},
      Store.written w.records document = .ok (saved, records) →
        (Store.write document).Leads w fun r w' => r = .ok saved ∧
          ∃ key, (saved.look "id").key? = some key ∧ w.TakesIn w' saved key :=
  ⟨Grown.shaped, fun hreachable hcalm _ _ _ hwritten =>
    write_takesIn hcalm hreachable.sound.records hwritten⟩

/-! ## A concert that is placed, and events that are not -/

/-- A concert as it is saved. -/
def savedConcert : Fields := Record.savedDocument concert none

/-- A world with an event that is indexed. -/
def eventfulWorld : World :=
  Operation.runIn (.empty morning) (.indexing (.upsert (eventOf "e-2" "sol-1")))

/-- A document can be placed if its indices can be created and its texts merged. -/
theorem canPlace_of_tests {w : World} {definitions : List EntityDefinition}
    (h : w.definitions = definitions) {document : Fields} {name : String}
    (hname : document.look "entityName" = .str name)
    (hentity : isBlankText name = false ∧ name ∉ reservedEntities)
    (htests : ((IndexTarget.writeTargets name (document.look "entityType")).all fun t =>
        (descriptorFor definitions (document.look "solutionId") t).isOk) = true ∧
      (projectionFor definitions document).isOk = true) : w.CanPlace document := by
  obtain ⟨hindices, htexts⟩ := htests
  subst h
  refine ⟨⟨name, hname, hentity.1, hentity.2, fun t ht => Or.inr ?_⟩, isOk_iff.mp htexts⟩
  exact isOk_iff.mp (List.all_eq_true.mp hindices t ht)

theorem canPlace_savedConcert {w : World} (h : w.definitions = []) : w.CanPlace savedConcert := by
  have hname : savedConcert.look "entityName" = .str "Event" := rfl
  exact canPlace_of_tests h hname (by decide) (by decide +kernel)

/-- A concert is placed in the index of events and in that of concerts, and the event that is
there stays. -/
theorem a_concert_is_placed_beside_an_event :
    Grown eventfulWorld ∧ eventfulWorld.engine.Shaped ∧ Reachable eventfulWorld ∧
      eventfulWorld.Calm ∧
      (∃ records, Store.written eventfulWorld.records concert = .ok (savedConcert, records)) ∧
      (Store.write concert).Leads eventfulWorld fun r w' => r = .ok savedConcert ∧
        (∃ fields, IsCopyOf eventfulWorld.definitions savedConcert fields ∧
          w'.engine.copy? "event" (.text "e-1") = some fields ∧
          w'.engine.copy? "event_concert" (.text "e-1") = some fields) ∧
        w'.engine.holds "event" (.text "e-2") = true := by
  have hgrown : Grown eventfulWorld := .ran (.start rfl rfl) _
  have hreachable : Reachable eventfulWorld := .ran (.start rfl rfl) _
  have htests : eventfulWorld.plans.isEmpty = true ∧ eventfulWorld.records.isEmpty = true ∧
      eventfulWorld.definitions.isEmpty = true ∧ eventfulWorld.spares "event" = true ∧
      eventfulWorld.engine.holds "event" (.text "e-2") = true := by decide +kernel
  obtain ⟨hplans, hrecords, hdefinitions, hspares, hheld⟩ := htests
  have hcalm : eventfulWorld.Calm := List.isEmpty_iff.mp hplans
  have hwritten : ∃ records,
      Store.written eventfulWorld.records concert = .ok (savedConcert, records) := by
    rw [List.isEmpty_iff.mp hrecords]
    exact ⟨_, rfl⟩
  obtain ⟨records, hsaved⟩ := hwritten
  refine ⟨hgrown, written_documents_are_placed.1 hgrown, hreachable, hcalm, ⟨records, hsaved⟩, ?_⟩
  refine (written_documents_are_placed.2 hreachable hcalm hsaved).mono ?_
  rintro r w' ⟨rfl, key, hkey, htaken⟩
  obtain rfl : key = .text "e-1" := (Option.some.inj hkey).symm
  have hindices : ownIndices savedConcert = ["event", "event_concert"] := by decide +kernel
  obtain ⟨fields, hcopy, hplaced⟩ :=
    htaken.placed (canPlace_savedConcert (List.isEmpty_iff.mp hdefinitions))
  rw [hindices] at hplaced
  refine ⟨rfl, ⟨fields, hcopy, hplaced _ List.mem_cons_self,
    hplaced _ (List.mem_cons_of_mem _ List.mem_cons_self)⟩, ?_⟩
  have hundropped : "event" ∉ eventfulWorld.droppedSince w' := by
    intro hdropped
    have hbad := (htaken.dropped _ hdropped).2.1
    rw [hspares] at hbad
    cases hbad
  have hkept := htaken.others _ hundropped (.text "e-2") fun h => absurd h.2.2 (by decide)
  rw [SearchEngine.holds_eq, hkept, ← SearchEngine.holds_eq]
  exact hheld

/-- A document that is written without a fault and saved, and that no index holds. -/
def IsNowhere (w : World) (document : Fields) : Prop :=
  Reachable w ∧ w.Calm ∧ ∃ saved records,
    Store.written w.records document = .ok (saved, records) ∧ ownIndices saved = ["event"] ∧
      (Store.write document).Leads w fun r w' => r = .ok saved ∧
        ∀ index key, w'.engine.copy? index key = none

/-- While there are no indices, a document that cannot be placed gets nowhere. -/
theorem isNowhere_of_not_canPlace {w : World} (hreachable : Reachable w) (hcalm : w.Calm)
    (hempty : w.engine = {}) {document saved : Fields} {records : RecordTable}
    (hwritten : Store.written w.records document = .ok (saved, records))
    (hindices : ownIndices saved = ["event"]) (hnot : ¬ w.CanPlace saved) :
    IsNowhere w document := by
  refine ⟨hreachable, hcalm, saved, records, hwritten, hindices, ?_⟩
  refine (write_takesIn hcalm hreachable.sound.records hwritten).mono ?_
  rintro r w' ⟨rfl, key, -, htaken⟩
  refine ⟨rfl, fun index k => ?_⟩
  have hundropped : index ∉ w.droppedSince w' := by
    intro hdropped
    have hthere := (htaken.dropped _ hdropped).2.2
    rw [hempty] at hthere
    cases hthere
  rw [htaken.others _ hundropped _ fun h => hnot h.1, hempty]
  rfl

/-- A definition under which an index has a field that is no mapping. -/
def misdefined : EntityDefinition :=
  ⟨"sol-1", "Event", none, .obj [("band", .str "keyword")], .null, .null⟩

/-- A world with that definition. -/
def misdefinedWorld : World := { World.empty morning with definitions := [misdefined] }

theorem not_canPlace_spoiledEvent :
    ¬ (World.empty morning).CanPlace (Record.savedDocument Worker.spoiledEvent none) := by
  rintro ⟨-, fields, hfields⟩
  have hmissing : (Record.savedDocument Worker.spoiledEvent none).has "searchDisplay" = false := rfl
  have hdisplay := (isCopyOf_of_projectionFor hfields).display
  unfold IsTextOf at hdisplay
  rw [hmissing, if_neg Bool.false_ne_true] at hdisplay
  obtain ⟨schema, text, hschema, htext, -⟩ := hdisplay
  obtain rfl : schema = {} := (Except.ok.inj hschema).symm
  have hmerged := PlainText.merge_isOk (Record.savedDocument Worker.spoiledEvent none)
    ["title", "name", "firstName", "lastName"]
  have htitle : (Record.savedDocument Worker.spoiledEvent none).look "title" =
      .str (String.ofList ('&' :: '#' :: List.replicate 4301 '1')) := rfl
  have hspoils : PlainText.spoils
      (.str (String.ofList ('&' :: '#' :: List.replicate 4301 '1'))) = true := by
    refine PlainText.spoils_of_digits (fun c hc => ?_) ?_
    · rw [List.eq_of_mem_replicate hc]
      decide
    · rw [List.length_replicate]
      decide
  rw [List.all_cons, htitle, hspoils, Bool.not_true, Bool.false_and] at hmerged
  exact absurd (isOk_iff.mpr ⟨text, htext⟩) (Bool.eq_false_iff.mp hmerged)

theorem not_canPlace_misdefined :
    ¬ misdefinedWorld.CanPlace (Record.savedDocument (eventOf "e-1" "sol-1") none) := by
  rintro ⟨⟨name, hname, -, -, hindices⟩, -⟩
  obtain rfl : name = "Event" := (Json.str.inj hname).symm
  have hrefused : (descriptorFor [misdefined] (.str "sol-1") ⟨"Event", .null⟩).isOk = false := by
    decide +kernel
  rcases hindices ⟨"Event", .null⟩ List.mem_cons_self with hspares | hdescriptor
  · cases hspares
  · exact absurd (isOk_iff.mpr hdescriptor) (Bool.eq_false_iff.mp hrefused)

/-- An event whose texts cannot be merged is saved and gets into no index, and neither does one
whose index cannot be created. -/
theorem events_that_cannot_be_placed_get_nowhere :
    IsNowhere (.empty morning) Worker.spoiledEvent ∧
      IsNowhere misdefinedWorld (eventOf "e-1" "sol-1") ∧
      isBlankText "Event" = false ∧ "Event" ∉ reservedEntities := by
  have hspoiled : Store.written [] Worker.spoiledEvent =
      .ok (Record.savedDocument Worker.spoiledEvent none, [Worker.spoiledRow]) := by
    have hstamp : Store.stampOf Worker.spoiledEvent = .ok none := rfl
    unfold Store.written
    rw [hstamp, ok_bind, Worker.save_spoiledEvent]
    rfl
  have hmisdefined : Store.written misdefinedWorld.records (eventOf "e-1" "sol-1") =
      .ok (Record.savedDocument (eventOf "e-1" "sol-1") none,
        [{ id := "e-1", entityName := "Event", solutionId := "sol-1" }]) := rfl
  refine ⟨?_, ?_, by decide, by decide⟩
  · exact isNowhere_of_not_canPlace (w := .empty morning) (.start rfl rfl) rfl rfl hspoiled
      (by decide +kernel) not_canPlace_spoiledEvent
  · exact isNowhere_of_not_canPlace (w := misdefinedWorld) (.start rfl rfl) rfl rfl hmisdefined
      (by decide +kernel) not_canPlace_misdefined

end TenantSearch
