-- What a scan of stale rows yields while others write records. Its pages go up
-- the identifiers, and a row that matches whenever a page is read is in one of
-- them.
import TenantSearch.Proofs.FailingCalls
import TenantSearch.Proofs.StaleScans

namespace TenantSearch

open Service

/-! ## Readings -/

namespace Store

/-- The readings of a scan from an identifier on. Each is of the table as it then is.
After a full page the scan goes on from its last row, and a short page is the
last one. -/
inductive Scan.Reads (s : Scan) (size : Nat) : String → List Reading → Prop
  | short {after : String} {table : RecordTable} {rows : List Record}
      (page : table.page (s.query after size) = .ok rows) (short : rows.length < size) :
      Reads s size after [⟨table, rows⟩]
  | full {after : String} {table : RecordTable} {rows : List Record} {last : Record}
      {more : List Reading} (page : table.page (s.query after size) = .ok rows)
      (full : rows.length = size) (ends : rows.getLast? = some last)
      (later : Reads s size last.id more) : Reads s size after (⟨table, rows⟩ :: more)

/-- The database can take the page queries of a scan: their texts can be written, and a
machine word can count the rows of a page. -/
structure Scan.IsTaken (s : Scan) (size : Nat) : Prop where
  solution : ∃ text, Record.columnText s.solutionId = .ok text
  entity : s.entityName.given = true → ∃ text, Record.columnText s.entityName = .ok text
  size : (size : Int) < Check.wordLimit

theorem Scan.refused_iff (s : Scan) {size : Nat} (positive : 0 < size) :
    s.Refused size ↔ ¬ s.IsTaken size := by
  constructor
  · rintro hrefused ⟨⟨solutionId, hsolution⟩, hentity, hsize⟩
    have hsought : ∃ entityName, RecordTable.soughtEntity s.entityName = .ok entityName := by
      unfold RecordTable.soughtEntity
      split
      · next hgiven =>
        obtain ⟨text, htext⟩ := hentity hgiven
        rw [htext]
        exact ⟨_, rfl⟩
      · exact ⟨_, rfl⟩
    obtain ⟨entityName, hsought⟩ := hsought
    have hlimit : ∀ n, some (size : Int) = some n → ∃ text, Record.columnText (.int n) = .ok text := by
      intro n hn
      cases hn
      exact IsPageSize.columnText ⟨positive, hsize⟩
    obtain ⟨o, hfails⟩ := hrefused [] ""
    rw [RecordTable.page_eq_ok_iff.mpr ⟨_, _, hsolution, hsought, hlimit, rfl⟩] at hfails
    cases hfails
  · intro hout
    rcases s.refused_or size with hrefused | ⟨solutionId, entityName, hsolution, hsought, htaken⟩
    · exact hrefused
    · obtain ⟨_, _, -, -, hlimit, -⟩ := RecordTable.page_eq_ok_iff.mp (htaken [] "")
      refine absurd ⟨⟨_, hsolution⟩, fun hgiven => ?_, ?_⟩ hout
      · rcases RecordTable.soughtEntity_eq_ok hsought with ⟨_, -, hname, -⟩ | ⟨hnone, -⟩
        · exact ⟨_, hname⟩
        · rw [hnone] at hgiven
          cases hgiven
      · obtain ⟨text, htext⟩ := hlimit size rfl
        unfold Record.columnText at htext
        dsimp only at htext
        split at htext
        · next hfits => exact hfits.2
        · cases htext

/-! ## What the readings of a scan have -/

section

variable {s : Scan} {size : Nat} {after : String} {readings : List Reading}

/-- The rows that were read, in the order in which they were. -/
def rowsRead (readings : List Reading) : List Record := readings.flatMap (·.rows)

/-- Every reading has as many rows as a page may have at most, and they match the
scan and are in its table. -/
theorem Scan.Reads.matched (h : s.Reads size after readings)
    (hsound : ∀ g ∈ readings, g.table.Sound) :
    ∀ g ∈ readings, g.rows.length ≤ size ∧ ∀ r ∈ g.rows, r ∈ g.table ∧ s.Matches r := by
  have hpage {after : String} {g : Reading} (htable : g.table.Sound)
      (hpage : g.table.page (s.query after size) = .ok g.rows) :
      g.rows.length ≤ size ∧ ∀ r ∈ g.rows, r ∈ g.table ∧ s.Matches r := by
    obtain ⟨rest, hrows⟩ := Scan.isPage_of_page htable hpage
    refine ⟨hrows.bounded, fun r hr => ?_⟩
    obtain ⟨htable, hmatch, -⟩ := (hrows.all r).mp (List.mem_append_left _ hr)
    exact ⟨htable, hmatch⟩
  induction h with
  | short page _ =>
    intro g hg
    obtain rfl := List.mem_singleton.mp hg
    exact hpage (hsound _ hg) page
  | full page _ _ _ ih =>
    intro g hg
    rcases List.mem_cons.mp hg with rfl | hg
    · exact hpage (hsound _ List.mem_cons_self) page
    · exact ih (fun g hg => hsound g (List.mem_cons_of_mem _ hg)) g hg

/-- Rows are read in the order of their identifiers, all of them after the
first. -/
theorem Scan.Reads.increasing (h : s.Reads size after readings)
    (hsound : ∀ g ∈ readings, g.table.Sound) :
    (rowsRead readings).Pairwise (·.id < ·.id) ∧ ∀ r ∈ rowsRead readings, after < r.id := by
  induction h with
  | @short after table rows page _ =>
    obtain ⟨rest, hrows⟩ := Scan.isPage_of_page (hsound _ List.mem_cons_self) page
    rw [rowsRead, List.flatMap_cons, List.flatMap_nil, List.append_nil]
    refine ⟨(List.pairwise_append.mp hrows.ordered).1, fun r hr => ?_⟩
    exact ((hrows.all r).mp (List.mem_append_left _ hr)).2.2
  | @full after table rows last more page _ hlast _ ih =>
    obtain ⟨rest, hrows⟩ := Scan.isPage_of_page (hsound _ List.mem_cons_self) page
    obtain ⟨hmore, hlater⟩ := ih fun g hg => hsound g (List.mem_cons_of_mem _ hg)
    have hpage : rows.Pairwise (·.id < ·.id) := (List.pairwise_append.mp hrows.ordered).1
    have hafter (r : Record) (hr : r ∈ rows) : after < r.id :=
      ((hrows.all r).mp (List.mem_append_left _ hr)).2.2
    rw [rowsRead, List.flatMap_cons]
    constructor
    · refine List.pairwise_append.mpr ⟨hpage, hmore, fun r hr v hv => ?_⟩
      exact Std.lt_of_le_of_lt (String.not_lt.mp (not_last_lt hpage hlast hr)) (hlater v hv)
    · intro r hr
      rcases List.mem_append.mp hr with hr | hr
      · exact hafter r hr
      · exact String.lt_trans (hafter last (List.mem_of_getLast? hlast)) (hlater r hr)

/-- A row that matches in every table is read. -/
theorem Scan.Reads.complete (h : s.Reads size after readings)
    (hsound : ∀ g ∈ readings, g.table.Sound) {id : String} (hid : after < id)
    (hmatches : ∀ g ∈ readings, ∃ r ∈ g.table, r.id = id ∧ s.Matches r) :
    ∃ r ∈ rowsRead readings, r.id = id := by
  induction h with
  | @short after table rows page short =>
    obtain ⟨rest, hrows⟩ := Scan.isPage_of_page (hsound _ List.mem_cons_self) page
    obtain ⟨r, hr, rfl, hmatch⟩ := hmatches _ List.mem_cons_self
    have hmem := (hrows.all r).mpr ⟨hr, hmatch, hid⟩
    rw [hrows.short short, List.append_nil] at hmem
    exact ⟨r, List.mem_flatMap.mpr ⟨_, List.mem_cons_self, hmem⟩, rfl⟩
  | @full after table rows last more page full hlast _ ih =>
    obtain ⟨rest, hrows⟩ := Scan.isPage_of_page (hsound _ List.mem_cons_self) page
    obtain ⟨r, hr, rfl, hmatch⟩ := hmatches _ List.mem_cons_self
    have hmem := (hrows.all r).mpr ⟨hr, hmatch, hid⟩
    rcases List.mem_append.mp hmem with hmem | hmem
    · exact ⟨r, List.mem_flatMap.mpr ⟨_, List.mem_cons_self, hmem⟩, rfl⟩
    · have hlater : last.id < r.id := ((hrows.mem_rest_iff hlast r).mp hmem).2.2
      obtain ⟨v, hv, hsame⟩ := ih (fun g hg => hsound g (List.mem_cons_of_mem _ hg)) hlater
        fun g hg => hmatches g (List.mem_cons_of_mem _ hg)
      obtain ⟨g, hg, hv⟩ := List.mem_flatMap.mp hv
      exact ⟨v, List.mem_flatMap.mpr ⟨g, List.mem_cons_of_mem _ hg, hv⟩, hsame⟩

/-- The last reading comes short. -/
theorem Scan.Reads.ends (h : s.Reads size after readings) :
    ∃ g, readings.getLast? = some g ∧ g.rows.length < size := by
  induction h with
  | short _ short => exact ⟨_, rfl, short⟩
  | full _ _ _ _ ih =>
    obtain ⟨g, hlast, hshort⟩ := ih
    refine ⟨g, ?_, hshort⟩
    rw [List.getLast?_cons, hlast]
    rfl

end

end Store

/-! ## Others at work -/

namespace World

/-- A table that others may leave: it is sound, and its rows have these
identifiers. -/
structure MayHold (ids : List String) (table : RecordTable) : Prop where
  sound : table.Sound
  within : ∀ r ∈ table, r.id ∈ ids

theorem mayHold_iff {ids : List String} {table : RecordTable} :
    MayHold ids table ↔ table.Sound ∧ ∀ r ∈ table, r.id ∈ ids :=
  ⟨fun h => ⟨h.sound, h.within⟩, fun h => ⟨h.1, h.2⟩⟩

instance (ids : List String) (table : RecordTable) : Decidable (MayHold ids table) :=
  decidable_of_iff _ mayHold_iff.symm

/-- Others write records with these identifiers at any time. A step is answered, and
then any such table may stand in the place of the records. The rows are bounded by
a number that no such table exceeds. -/
inductive AmidWrites (ids : List String) (w : World) : (s : Step) → s.Reply → World → Prop
  | met {s : Step} {r : s.Reply} {w' : World} {table : RecordTable} (other : s ≠ .rowBound)
      (meets : w.Meets noCall s r w') (written : MayHold ids table) :
      AmidWrites ids w s r { w' with records := table }
  | bounded {bound : Nat} {table : RecordTable} (enough : ids.length ≤ bound)
      (written : MayHold ids table) : AmidWrites ids w .rowBound bound { w with records := table }

/-- A page query is answered from the records, and then others may have written
them. -/
theorem AmidWrites.page {ids : List String} {w w' : World} {query : StalePage}
    {r : (Step.call (.database (.page query))).Reply}
    (h : w.AmidWrites ids (.call (.database (.page query))) r w') :
    r = w.records.page query ∧ MayHold ids w'.records := by
  cases h with
  | met _ meets written =>
    refine ⟨?_, written⟩
    cases meets with
    | own own => exact absurd rfl (own _)
    | call answers =>
      cases answers with
      | answered plans => rfl
      | failed _ _ may => exact may.elim
      | lost _ _ may => exact may.elim

end World

/-- The page that is read in a moment, if one is. -/
def Moment.reading? (m : Moment) : Option Store.Reading :=
  match m.step with
  | .call (.database (.page query)) =>
    match m.before.records.page query with
    | .ok rows => some ⟨m.before.records, rows⟩
    | .error _ => none
  | _ => none

namespace Store

/-- The pages that are read in these moments. -/
def readings (moments : List Moment) : List Reading := moments.filterMap Moment.reading?

/-- A page of a scan is read from the table as it is. -/
theorem Scan.page_endsIn (s : Scan) {size : Nat} (hpages : s.pageSize = .int size)
    (ids : List String) (after : String) (w : World) :
    (s.page after).EndsIn (World.AmidWrites ids) w fun outcome moments w' =>
      World.MayHold ids w'.records ∧
        ((∃ o f, w.records.page (s.query after size) = .error o ∧ outcome = .error f) ∨
          ∃ rows, w.records.page (s.query after size) = .ok rows ∧ outcome = .ok rows ∧
            readings moments = [⟨w.records, rows⟩]) := by
  have hlimit : limitOf s.pageSize = .ok (some (size : Int)) := by
    rw [hpages]
    rfl
  unfold Scan.page
  refine (endsIn_bind _ _ _ _ _).mpr ((endsIn_orBroken _ _ _ _).mpr ?_)
  rw [hlimit]
  refine (endsIn_call _ _ _ _ _).mpr fun r w' h => ?_
  obtain ⟨rfl, written⟩ := h.page
  refine ⟨written, ?_⟩
  have hreading : Moment.reading? ⟨.call (.database (.page (s.query after size))), w, w'⟩ =
      match w.records.page (s.query after size) with
      | .ok rows => some ⟨w.records, rows⟩
      | .error _ => none := rfl
  unfold readings
  rcases hpage : w.records.page (s.query after size) with o | rows
  · exact Or.inl ⟨o, _, rfl, congrArg _ hpage⟩
  · refine Or.inr ⟨rows, rfl, congrArg _ hpage, ?_⟩
    rw [hpage] at hreading
    exact congrArg (·.toList) hreading

/-- The pages that a scan yields: those that have rows. -/
def pagesRead (readings : List Reading) : List (List Record) :=
  (readings.map (·.rows)).filter (!·.isEmpty)

/-- Pages as they are yielded. -/
def documentsOf (pages : List (List Record)) : List (List Fields) :=
  pages.map (·.map (·.document))

theorem documentsOf_pagesRead_cons {g : Reading} {last : Record} (h : g.rows.getLast? = some last)
    (more : List Reading) : documentsOf (pagesRead (g :: more)) =
      g.rows.map (·.document) :: documentsOf (pagesRead more) := by
  have hrows : (!g.rows.isEmpty) = true := by
    rcases hempty : g.rows with _ | ⟨r, rest⟩
    · rw [hempty] at h
      cases h
    · rfl
  unfold documentsOf pagesRead
  rw [List.map_cons, List.filter_cons, if_pos hrows, List.map_cons]

/-- A scan from an identifier on reads its pages to the end, if there is fuel for a
page more than there are identifiers to come. -/
theorem Scan.foldFrom_endsIn (s : Scan) {size : Nat} (hpages : s.pageSize = .int size)
    (positive : 0 < size) (ids : List String) (fuel : Nat) {after : String} {w : World}
    (held : World.MayHold ids w.records) (hfuel : (ids.filter (after < ·)).length < fuel)
    (pages : List (List Fields)) :
    (s.foldFrom (fun pages page => pure (pages ++ [page])) fuel after pages).EndsIn
      (World.AmidWrites ids) w fun outcome moments _ =>
        (∃ f, outcome = .error f) ∧ s.Refused size ∨
          s.Reads size after (readings moments) ∧
            (∀ g ∈ readings moments, World.MayHold ids g.table) ∧
            outcome = .ok (pages ++ documentsOf (pagesRead (readings moments))) := by
  induction fuel generalizing after w pages with
  | zero => exact absurd hfuel (Nat.not_lt_zero _)
  | succ fuel ih =>
    unfold Scan.foldFrom
    refine (endsIn_bind _ _ _ _ _).mpr ((s.page_endsIn hpages ids after w).mono ?_)
    rintro outcome first w₁ ⟨held₁, ⟨o, f, hpage, rfl⟩ | ⟨rows, hpage, rfl, hfirst⟩⟩
    · rcases s.refused_or size with hrefused | ⟨solutionId, entityName, -, -, htaken⟩
      · exact Or.inl ⟨⟨f, rfl⟩, hrefused⟩
      · rw [htaken] at hpage
        cases hpage
    dsimp only
    have hsingle : ∀ g ∈ ([⟨w.records, rows⟩] : List Reading), World.MayHold ids g.table := by
      intro g hg
      rw [List.mem_singleton.mp hg]
      exact held
    rcases hlast : rows.getLast? with _ | last
    · rw [List.getLast?_eq_none_iff.mp hlast] at hpage hfirst hsingle
      refine (endsIn_pure _ _ _ _).mpr (Or.inr ?_)
      rw [List.append_nil, hfirst]
      refine ⟨.short hpage positive, hsingle, ?_⟩
      exact congrArg Except.ok (List.append_nil pages).symm
    dsimp only
    refine (endsIn_bind _ _ _ _ _).mpr ((endsIn_pure _ _ _ _).mpr ?_)
    dsimp only
    rw [hpages, isShort_eq]
    refine (endsIn_bind _ _ _ _ _).mpr ((endsIn_orBroken _ _ _ _).mpr ?_)
    dsimp only [Except.mapError]
    obtain ⟨rest, hrows⟩ := Scan.isPage_of_page held.sound hpage
    by_cases hshort : rows.length < size
    · rw [if_pos (decide_eq_true hshort)]
      refine (endsIn_pure _ _ _ _).mpr (Or.inr ?_)
      simp only [List.append_nil]
      rw [hfirst, documentsOf_pagesRead_cons hlast]
      exact ⟨.short hpage hshort, hsingle, rfl⟩
    · rw [if_neg (by rwa [decide_eq_true_iff])]
      have hfull : rows.length = size := Nat.le_antisymm hrows.bounded (Nat.not_lt.mp hshort)
      obtain ⟨hrow, -, hlater⟩ :=
        (hrows.all last).mp (List.mem_append_left _ (List.mem_of_getLast? hlast))
      have hfewer := length_after_lt (held.within last hrow) hlater
      refine (ih held₁ (by omega) (pages ++ [rows.map (·.document)])).mono ?_
      rintro outcome second w' (⟨hfails, hrefused⟩ | ⟨hreads, hheld, rfl⟩)
      · exact Or.inl ⟨hfails, hrefused⟩
      · refine Or.inr ?_
        have hsecond : readings (first ++ ([] ++ ([] ++ second))) =
            ⟨w.records, rows⟩ :: readings second := by
          unfold readings at hfirst ⊢
          rw [List.filterMap_append, hfirst]
          rfl
        rw [hsecond, documentsOf_pagesRead_cons hlast]
        refine ⟨.full hpage hfull hlast hreads, ?_, ?_⟩
        · intro g hg
          rcases List.mem_cons.mp hg with rfl | hg
          · exact held
          · exact hheld g hg
        · rw [List.append_assoc]
          rfl

/-! ## What a scan yields amid writes -/

/-- What a scan yields that read these pages from these tables. -/
structure Scan.Yields (s : Scan) (size : Nat) (readings : List Reading)
    (pages : List (List Record)) : Prop where
  /-- It yields what it read, but for an empty page. -/
  read : pages = pagesRead readings
  /-- Identifiers go up, on a page and from page to page. -/
  increasing : pages.flatten.Pairwise (·.id < ·.id)
  sizes : ∀ page ∈ pages, 0 < page.length ∧ page.length ≤ size
  /-- A row matched when its page was read. -/
  matched : ∀ g ∈ readings, ∀ r ∈ g.rows, r ∈ g.table ∧ s.Matches r
  /-- A row that matched whenever a page was read is yielded once. -/
  complete : ∀ id, (∀ g ∈ readings, ∃ r ∈ g.table, r.id = id ∧ s.Matches r) →
    ∃ r, pages.flatten.filter (·.id == id) = [r]
  /-- The scan goes on until a page comes short. -/
  ends : ∃ g, readings.getLast? = some g ∧ g.rows.length < size

theorem flatten_pagesRead (readings : List Reading) :
    (pagesRead readings).flatten = rowsRead readings := by
  unfold pagesRead rowsRead
  rw [List.flatten_filter_not_isEmpty, List.flatMap_def]

theorem Scan.Reads.yields {s : Scan} {size : Nat} {readings : List Reading}
    (h : s.Reads size "" readings) (hsound : ∀ g ∈ readings, g.table.Sound) :
    s.Yields size readings (pagesRead readings) where
  read := rfl
  increasing := by
    rw [flatten_pagesRead]
    exact (h.increasing hsound).1
  sizes page hpage := by
    obtain ⟨hread, hrows⟩ := List.mem_filter.mp hpage
    obtain ⟨g, hg, rfl⟩ := List.mem_map.mp hread
    refine ⟨?_, (h.matched hsound g hg).1⟩
    apply List.length_pos_iff.mpr
    intro hempty
    rw [hempty] at hrows
    cases hrows
  matched g hg := (h.matched hsound g hg).2
  complete id hmatches := by
    obtain ⟨g, hlast, -⟩ := h.ends
    obtain ⟨r, hr, rfl, -⟩ := hmatches g (List.mem_of_getLast? hlast)
    have hid : r.id ≠ "" := ((hsound g (List.mem_of_getLast? hlast)).rows r hr).hasId
    obtain ⟨v, hv, hsame⟩ := h.complete hsound (after_empty hid) hmatches
    rw [flatten_pagesRead, ← hsame]
    exact ⟨v, RecordTable.filter_id (h.increasing hsound).1 hv⟩
  ends := h.ends

theorem Scan.Reads.taken {s : Scan} {size : Nat} {after : String} {readings : List Reading}
    (h : s.Reads size after readings) : ¬ s.Refused size := by
  intro hrefused
  cases h with
  | short page =>
    obtain ⟨o, hfails⟩ := hrefused _ after
    cases hfails.symm.trans page
  | full page =>
    obtain ⟨o, hfails⟩ := hrefused _ after
    cases hfails.symm.trans page

theorem Scan.pages_endsIn (s : Scan) {size : Nat} (hpages : s.pageSize = .int size)
    (positive : 0 < size) (ids : List String) (w : World) :
    s.pages.EndsIn (World.AmidWrites ids) w fun outcome moments _ =>
      (∃ f, outcome = .error f) ∧ s.Refused size ∨
        ¬ s.Refused size ∧
          ∃ pages, outcome = .ok (documentsOf pages) ∧ s.Yields size (readings moments) pages := by
  refine (endsIn_bind _ _ _ _ _).mpr ((endsIn_ask _ _ _ _).mpr fun bound w₁ h => ?_)
  cases h with
  | met other => exact absurd rfl other
  | bounded enough written =>
    have hfuel := Nat.lt_succ_of_le (Nat.le_trans (List.length_filter_le ("" < ·) ids) enough)
    refine (s.foldFrom_endsIn hpages positive ids _ written hfuel []).mono ?_
    rintro outcome second w₂ (hrefused | ⟨hreads, hheld, rfl⟩)
    · exact Or.inl hrefused
    · exact Or.inr ⟨hreads.taken, _, rfl, hreads.yields fun g hg => (hheld g hg).sound⟩

/-- While others write any records at any time, a scan reads its pages to the end, and
yields them. The identifiers go up from row to row, so no row is yielded twice, and
a row that matches whenever a page is read is not missed. Where the database cannot
take its queries the scan fails instead. -/
theorem a_scan_amid_writes_misses_no_lasting_row {s : Scan} {size : Nat}
    (hpages : s.pageSize = .int size) (positive : 0 < size) {ids : List String}
    {w w' : World} {moments : List Moment} {outcome : Except Failure (List (List Fields))}
    (runs : s.pages.run.Through (World.AmidWrites ids) w moments outcome w') :
    (s.IsTaken size →
      ∃ pages, outcome = .ok (documentsOf pages) ∧ s.Yields size (readings moments) pages) ∧
    (¬ s.IsTaken size → ∃ f, outcome = .error f) := by
  have hrefused := s.refused_iff positive
  rcases s.pages_endsIn hpages positive ids w _ _ _ runs with ⟨hfails, hout⟩ | ⟨htaken, hyields⟩
  · exact ⟨fun htaken => absurd htaken (hrefused.mp hout), fun _ => hfails⟩
  · exact ⟨fun _ => hyields, fun hout => absurd (hrefused.mpr hout) htaken⟩

/-! ## A row that comes while a scan is under way -/

/-- An event of the first solution, as it was last pushed to search. -/
def eventRow (id : String) (reindexedOn : Option Timestamp) : Record where
  id
  entityName := "Event"
  solutionId := "sol-1"
  reindexedOn

/-- A scan of the first solution, two rows at a time. -/
def pairScan : Scan := { solutionId := .str "sol-1", cutoff := ⟨5⟩, pageSize := .int 2 }

def eventIds : List String := ["e-1", "e-2", "e-3"]

/-- Two events that were never pushed to search. -/
def waitingPair : List Record := [eventRow "e-1" none, eventRow "e-3" none]

/-- The table after one of them was pushed to search and another event came. -/
def grownTable : RecordTable :=
  [eventRow "e-1" (some ⟨7⟩), eventRow "e-2" none, eventRow "e-3" none]

/-- A scan of the two events reads the first page, and then a last page that is empty,
while the table grows in between. -/
theorem pairScan_amid_writes : ∃ moments w', pairScan.pages.run.Through
    (World.AmidWrites eventIds) (.empty morning) moments (.ok (documentsOf [waitingPair])) w' := by
  have hwaiting : World.MayHold eventIds waitingPair := by decide +kernel
  have hgrown : World.MayHold eventIds grownTable := by decide +kernel
  refine Prog.exists_through_step (.bounded (Nat.le_refl _) hwaiting) ?_
  refine Prog.exists_through_step (.met nofun (.call (.answered [])) hgrown) ?_
  refine Prog.exists_through_step (.met nofun (.call (.answered [])) hgrown) ?_
  exact ⟨_, _, .done _ _⟩

theorem pairScan_isTaken : pairScan.IsTaken 2 where
  solution := isOk_iff.mp (by decide +kernel)
  entity := nofun
  size := by decide

/-- The scan yields the two events that were there all along, and not the one that
came behind them. -/
theorem the_lasting_events_are_yielded :
    pairScan.pageSize = .int (2 : Nat) ∧ 0 < 2 ∧ pairScan.IsTaken 2 ∧
      ∃ moments w', pairScan.pages.run.Through (World.AmidWrites eventIds) (.empty morning) moments
          (.ok (documentsOf [waitingPair])) w' ∧
        ∃ pages, documentsOf pages = documentsOf [waitingPair] ∧
          pairScan.Yields 2 (readings moments) pages := by
  obtain ⟨moments, w', hruns⟩ := pairScan_amid_writes
  have hpages : pairScan.pageSize = .int (2 : Nat) := rfl
  refine ⟨hpages, by decide, pairScan_isTaken, moments, w', hruns, ?_⟩
  obtain ⟨pages, hpages, hyields⟩ :=
    (a_scan_amid_writes_misses_no_lasting_row hpages (by decide) hruns).1 pairScan_isTaken
  exact ⟨pages, (Except.ok.inj hpages).symm, hyields⟩

/-! ## A scan that the database does not take -/

/-- A scan of the first solution with pages of more rows than a machine word can count. -/
def hugeScan : Scan :=
  { solutionId := .str "sol-1", cutoff := ⟨5⟩, pageSize := .int (2 ^ 63 : Nat) }

/-- The scan fails, although two rows match it that are there all along. -/
theorem a_huge_page_is_refused : ∃ f moments w',
    hugeScan.pages.run.Through (World.AmidWrites eventIds)
        { World.empty morning with records := waitingPair } moments (.error f) w' ∧
      ∀ r ∈ waitingPair, hugeScan.Matches r ∧ ∀ m ∈ moments, r ∈ m.before.records := by
  have hwaiting : World.MayHold eventIds waitingPair := by decide +kernel
  refine ⟨_, _, _, .step (.bounded (Nat.le_refl _) hwaiting)
    (.step (.met nofun (.call (.answered [])) hwaiting) (.done _ _)), fun r hr => ⟨?_, ?_⟩⟩
  · have hrow : r.solutionId = "sol-1" ∧ r.isStale hugeScan.cutoff = true := by
      revert r
      decide
    have hsolution := (hwaiting.sound.rows r hr).solutionId
    have hsame : hugeScan.solutionId = .str r.solutionId := by
      rw [hrow.1]
      rfl
    exact ⟨hsame ▸ hsolution, nofun, hrow.2⟩
  · intro m hm
    simp only [List.mem_cons, List.not_mem_nil, or_false] at hm
    rcases hm with rfl | rfl
    · exact hr
    · exact hr

end Store

end TenantSearch
