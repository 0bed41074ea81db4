-- Documents that are stored and read back. What is read is the document in its
-- normal form, unless the body that was there compares equal to the new one and
-- stays. Writing back what is read leaves the table as it was, so reading and
-- writing a record again and again never changes it.
import TenantSearch.Proofs.ReachableWorlds
import TenantSearch.Proofs.ReservedIndices
import TenantSearch.Proofs.ServedRecords
import TenantSearch.Proofs.StoredDocuments

namespace TenantSearch

open Service

/-! ## Tidy rows -/

theorem checkedWrites_keep_rows_tidy : checkedWrites.Upholds fun w => ∀ r ∈ w.records, r.Tidy where
  call w c hw hc := by
    refine ⟨fun _ _ => trivial, ?_⟩
    rcases World.records_answerCall w c with hsame | ⟨found, document, stamp, saved, rfl, hcommit⟩
    · rw [hsame]
      exact hw
    · exact RecordTable.tidy_of_commit hw hc hcommit
  memory _ _ h := h
  supply _ _ h := h

theorem Reachable.tidy {w : World} (h : Reachable w) : ∀ r ∈ w.records, r.Tidy := by
  induction h with
  | start records engine =>
    rw [records]
    exact nofun
  | ran _ o ih => exact o.upheld checkedWrites_admits checkedWrites_keep_rows_tidy ih
  | between _ records mapped ih =>
    rw [records]
    exact ih

/-! ## Documents that are kept -/

/-- The table keeps a document under an identifier: it is what is fetched, and it may be written
back, which changes no row. -/
structure IsKeptAs (table : RecordTable) (id : String) (document : Fields) : Prop where
  fetched : ∀ w : World, w.Calm → w.records = table →
    ((Store.fetch (.arr [.str id]) .null).runIn w).1 = .ok [.obj document]
  accepted : ∀ w : World, w.Calm → w.records = table →
    ((Store.write document).runIn w).1 = .ok document
  /-- Also while calls fail. -/
  unchanged : ∀ w : World, w.records = table → ((Store.write document).runIn w).2.records = table

/-- A document in its normal form: all columns are there, null if they were not given; the time of
its last push is left out if it was null or empty, and else it is in UTC. -/
structure IsNormalFormOf (document normal : Fields) : Prop where
  columns : ∀ name ∈ promotedFields, normal.get? name = some (document.look name)
  stamp :
    (document.look reindexedField = .null ∨ document.look reindexedField = .str "") ∧
      normal.get? reindexedField = none ∨
    ∃ text t, document.look reindexedField = .str text ∧ text ≠ "" ∧
      Timestamp.ofText text = .ok t ∧ normal.get? reindexedField = some (.str t.isoUtc)
  others : ∀ name ∉ reindexedField :: promotedFields, normal.get? name = document.get? name

/-- What a stamp is read from. -/
theorem Timestamp.ofValue_eq_ok {v : Json} {stamp : Option Timestamp} (h : ofValue v = .ok stamp) :
    (v = .null ∨ v = .str "") ∧ stamp = none ∨
      ∃ text t, v = .str text ∧ text ≠ "" ∧ ofText text = .ok t ∧ stamp = some t := by
  cases v with
  | null =>
    cases h
    exact Or.inl ⟨Or.inl rfl, rfl⟩
  | str s =>
    dsimp only [ofValue] at h
    split at h
    · next hempty =>
      cases h
      rw [String.isEmpty_iff.mp hempty]
      exact Or.inl ⟨Or.inr rfl, rfl⟩
    · next hempty =>
      rw [String.isEmpty_iff] at hempty
      rcases hread : ofText s with f | t
      · rw [hread] at h
        cases h
      · rw [hread] at h
        cases h
        exact Or.inr ⟨s, t, rfl, hempty, hread, rfl⟩
  | _ => cases h

theorem isNormalFormOf_savedDocument {document : Fields} {stamp : Option Timestamp}
    (h : IsStamped document stamp) :
    IsNormalFormOf document (Record.savedDocument document stamp) where
  columns name hname := by
    have hstamp : name ≠ reindexedField := by
      rintro rfl
      exact absurd hname (by decide)
    unfold Record.savedDocument
    rw [get?_assemble _ _ _ hstamp, ← List.map_reverse, valueUnder_map_pair,
      if_pos (List.mem_reverse.mpr hname)]
    rfl
  stamp := by
    rw [Record.get?_savedDocument_stamp]
    rcases Timestamp.ofValue_eq_ok h.stamp with ⟨hnone, rfl⟩ | ⟨text, t, htext, hgiven, hread, rfl⟩
    · exact Or.inl ⟨hnone, rfl⟩
    · exact Or.inr ⟨text, t, htext, hgiven, hread, rfl⟩
  others name hname := by
    rw [List.mem_cons, not_or] at hname
    exact get?_savedDocument document stamp hname.1 hname.2

/-- A row of a sound table is kept. -/
theorem RecordTable.Sound.isKeptAs {table : RecordTable} (h : table.Sound) {r : Record}
    (hr : r ∈ table) (htidy : r.Tidy) : IsKeptAs table r.id r.document where
  fetched w hcalm hrecords := by
    subst hrecords
    exact (fetch_leads_calm hcalm h hr fun answer _ => answer = .ok [.obj r.document]).mpr rfl
  accepted w hcalm hrecords := by
    subst hrecords
    have hstamp := htidy.isStamped_document (h.rows r hr)
    refine (write_leads_calm hcalm hstamp (h.save_document hr htidy) fun answer _ =>
      answer = .ok r.document).mpr ?_
    exact rfl
  unchanged w hrecords := by
    subst hrecords
    have hsaves := write_saves r.document w
    unfold Leads at hsaves
    rcases houtcome : ((Store.write r.document).runIn w).1 with f | version
    · rw [houtcome] at hsaves
      exact hsaves
    · rw [houtcome] at hsaves
      obtain ⟨stamp, hstamped, hsave⟩ := hsaves
      have hstamp := htidy.isStamped_document (h.rows r hr)
      obtain rfl : stamp = r.reindexedOn :=
        Except.ok.inj (hstamped.stamp.symm.trans hstamp.stamp)
      rw [h.save_document hr htidy] at hsave
      exact (congrArg Prod.snd (Except.ok.inj hsave)).symm

/-! ## Reading and writing -/

theorem Reachable.isKeptAs {w : World} (hw : Reachable w) {r : Record} (hr : r ∈ w.records) :
    IsKeptAs w.records r.id r.document := hw.sound.records.isKeptAs hr (hw.tidy r hr)

/-- A document with texts for columns is kept as the table keeps its body. -/
theorem Reachable.isKeptAs_written {w : World} (hw : Reachable w) {document saved : Fields}
    (hcolumns : HasTextColumns document)
    (hsaved : ((Store.write document).runIn w).1 = .ok saved) :
    ∃ id stamp, document.look "id" = .str id ∧ IsStamped document stamp ∧
      saved = Record.savedDocument document stamp ∧
      IsKeptAs ((Store.write document).runIn w).2.records id
        (w.records.keptDocument document stamp) := by
  have hafter : Reachable ((Store.write document).runIn w).2 := hw.ran (.indexing (.write document))
  have hsaves := write_saves document w
  unfold Leads at hsaves
  rw [hsaved] at hsaves
  obtain ⟨stamp, hstamp, hsave⟩ := hsaves
  obtain ⟨id, hid⟩ : ∃ id, document.look "id" = .str id := by
    obtain ⟨text, htext⟩ := hcolumns "id" (by decide)
    have hgiven := hstamp.id
    rw [htext] at hgiven
    cases text with
    | none => cases hgiven
    | some id => exact ⟨id, htext⟩
  have heq := RecordTable.saved_eq_of_save hid hsave
  obtain ⟨r, hr, rfl, hread⟩ := RecordTable.document_of_save hid hsave
  have hlook : ∀ name ∈ promotedFields, saved.look name = document.look name := by
    intro name hname
    rw [heq]
    refine look_savedDocument document stamp ?_
    rintro rfl
    exact absurd hname (by decide)
  refine ⟨r.id, stamp, hid, hstamp, heq, ?_⟩
  rw [← hread fun name hname => hlook name hname ▸ hcolumns name hname]
  exact hafter.isKeptAs hr

/-- Every record that is stored may be read and written back any number of times. A write of a
document with texts for columns answers with its normal form, whatever the time of the last push is
written like. What is stored has alike values, so it may keep a number where a truth value was
written that compares equal; it is the normal form as it stands, which is what is read and may be
written back, just where the table discerns the document. -/
theorem what_is_read_may_be_written_back {w : World} (hw : Reachable w) :
    (∀ r ∈ w.records, IsKeptAs w.records r.id r.document) ∧
    ∀ document saved, HasTextColumns document →
      ((Store.write document).runIn w).1 = .ok saved →
      ∃ id stored, document.look "id" = .str id ∧ IsNormalFormOf document saved ∧
        IsKeptAs ((Store.write document).runIn w).2.records id stored ∧
        (∀ name, Json.AlikeUnder name stored saved) ∧
        (stored = saved ↔ w.records.Discerns document) := by
  refine ⟨fun r hr => hw.isKeptAs hr, fun document saved hcolumns hsaved => ?_⟩
  obtain ⟨id, stamp, hid, hstamp, rfl, hkept⟩ := hw.isKeptAs_written hcolumns hsaved
  exact ⟨id, _, hid, isNormalFormOf_savedDocument hstamp, hkept,
    w.records.alikeUnder_keptDocument document stamp, w.records.keptDocument_eq_iff document stamp⟩

/-- In a calm world a document that can be saved is. -/
theorem write_answers {w : World} (hcalm : w.Calm) {document saved : Fields}
    {stamp : Option Timestamp} {records : RecordTable} (hstamp : IsStamped document stamp)
    (hsave : w.records.save document stamp = .ok (saved, records)) :
    ((Store.write document).runIn w).1 = .ok saved ∧
      ((Store.write document).runIn w).2.records = records := by
  have hanswer : ((Store.write document).runIn w).1 = .ok saved :=
    (write_leads_calm hcalm hstamp hsave fun answer _ => answer = .ok saved).mpr rfl
  have hsaves := write_saves document w
  unfold Leads at hsaves
  rw [hanswer] at hsaves
  obtain ⟨stamp', hstamped, hsave'⟩ := hsaves
  obtain rfl : stamp' = stamp := Except.ok.inj (hstamped.stamp.symm.trans hstamp.stamp)
  exact ⟨hanswer, congrArg Prod.snd (Except.ok.inj (hsave'.symm.trans hsave))⟩

/-- A concert that was pushed at a quarter past noon, summer time. -/
def pushedConcert : Fields :=
  concert ++ [("title", .str "Requiem"), (reindexedField, .str "2024-05-01T12:15:00.250+02:00")]

theorem hasTextColumns_concert {others : Fields} (hothers : others.look "organizationId" = .null)
    (howner : others.look "ownedBy" = .null) : HasTextColumns (concert ++ others) := by
  intro name hname
  simp only [promotedFields, List.mem_cons, List.not_mem_nil, or_false] at hname
  rcases hname with rfl | rfl | rfl | rfl | rfl | rfl
  · exact ⟨some "e-1", rfl⟩
  · exact ⟨some "Event", rfl⟩
  · exact ⟨some "Concert", rfl⟩
  · exact ⟨some "sol-1", rfl⟩
  · exact ⟨none, hothers⟩
  · exact ⟨none, howner⟩

/-- It is stored, and read with its stamp in UTC. -/
theorem a_pushed_concert_may_be_written_back :
    HasTextColumns pushedConcert ∧ ∃ saved,
      ((Store.write pushedConcert).runIn (.empty morning)).1 = .ok saved ∧
      saved.get? reindexedField = some (.str "2024-05-01T10:15:00.250000Z") ∧
      IsKeptAs ((Store.write pushedConcert).runIn (.empty morning)).2.records "e-1" saved := by
  have hcolumns : HasTextColumns pushedConcert := hasTextColumns_concert rfl rfl
  obtain ⟨stamp, hstamp⟩ : ∃ stamp, Store.stampOf pushedConcert = .ok stamp :=
    isOk_iff.mp (by decide +kernel)
  have hsave : RecordTable.save [] pushedConcert stamp =
    .ok (Record.savedDocument pushedConcert stamp, _) := rfl
  have hcalm : (World.empty morning).Calm := rfl
  obtain ⟨hsaved, -⟩ := write_answers hcalm (stampOf_eq_ok_iff.mp hstamp) hsave
  obtain ⟨id, stored, hid, hnormal, hkept, -, hdiscerned⟩ :=
    (what_is_read_may_be_written_back (Reachable.start rfl rfl)).2 _ _ hcolumns hsaved
  obtain rfl : id = "e-1" := (Json.str.inj hid).symm
  obtain rfl := hdiscerned.mpr rfl
  refine ⟨hcolumns, _, hsaved, ?_, hkept⟩
  have hgiven : pushedConcert.look reindexedField = .str "2024-05-01T12:15:00.250+02:00" := rfl
  rcases hnormal.stamp with ⟨hnone, -⟩ | ⟨text, t, htext, -, hread, hstamp⟩
  · rw [hgiven] at hnone
    simp at hnone
  · rw [hgiven] at htext
    obtain rfl := Json.str.inj htext
    have hmoment : (Timestamp.ofText "2024-05-01T12:15:00.250+02:00").toOption.map
        Timestamp.isoUtc = some "2024-05-01T10:15:00.250000Z" := by decide +kernel
    rw [hread] at hmoment
    rw [hstamp]
    exact congrArg _ (congrArg _ (Option.some.inj hmoment))

/-- A concert with a title that is no text. -/
def oddConcert (title : Json) : Fields := concert ++ [("title", title)]

/-- A concert with the title one is written with the title true. It is answered that it was, but
what is fetched from then on is the number. -/
theorem a_number_stays_where_a_truth_value_is_written :
    let w := ((Store.write (oddConcert (.int 1))).runIn (.empty morning)).2
    let w' := ((Store.write (oddConcert (.bool true))).runIn w).2
    HasTextColumns (oddConcert (.bool true)) ∧ ∃ saved stored : Fields,
      ((Store.write (oddConcert (.bool true))).runIn w).1 = .ok saved ∧
      saved.get? "title" = some (.bool true) ∧
      ((Store.fetch (.arr [.str "e-1"]) .null).runIn w').1 = .ok [.obj stored] ∧
      stored.get? "title" = some (.int 1) := by
  intro w w'
  have hreachable : Reachable w :=
    (Reachable.start rfl rfl).ran (.indexing (.write (oddConcert (.int 1))))
  have hcalm : w.Calm := World.Calm.run _ rfl
  have hcalm' : w'.Calm := World.Calm.run _ hcalm
  have hcolumns (title : Json) : HasTextColumns (oddConcert title) :=
    hasTextColumns_concert rfl rfl
  have hstamp (title : Json) : IsStamped (oddConcert title) none := stampOf_eq_ok_iff.mp rfl
  have hfirst : RecordTable.save [] (oddConcert (.int 1)) none =
    .ok (Record.savedDocument (oddConcert (.int 1)) none, [_]) := rfl
  have hrecords : w.records = _ := (write_answers (w := .empty morning) rfl (hstamp _) hfirst).2
  have hsecond : w.records.save (oddConcert (.bool true)) none =
      .ok (Record.savedDocument (oddConcert (.bool true)) none, w.records) := by
    rw [hrecords]
    rfl
  obtain ⟨hsaved, -⟩ := write_answers hcalm (hstamp _) hsecond
  obtain ⟨id, stamp, hid, -, -, hkept⟩ := hreachable.isKeptAs_written (hcolumns _) hsaved
  obtain rfl : id = "e-1" := (Json.str.inj hid).symm
  refine ⟨hcolumns _, _, _, hsaved, rfl, hkept.fetched w' hcalm' rfl, ?_⟩
  rw [hrecords]
  exact get?_assemble _ _ _ (by decide)

end TenantSearch
