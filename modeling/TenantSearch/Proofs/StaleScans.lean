-- What a scan of stale rows reindexes: exactly the rows that match it, each
-- once. Rows that are rewritten between two pages do not hide the rows still to
-- come.
import TenantSearch.Jobs.Worker
import TenantSearch.Proofs.ReindexedRows

namespace TenantSearch

open Service

/-! ## Pages -/

namespace Store

/-- A row that a scan is for: of its solution and entity, and stale. -/
structure Scan.Matches (s : Scan) (r : Record) : Prop where
  solution : Record.columnText s.solutionId = .ok (some r.solutionId)
  entity : s.entityName.given = true → Record.columnText s.entityName = .ok (some r.entityName)
  stale : r.isStale s.cutoff = true

/-- The page of a scan after an identifier, with so many rows at most. -/
def Scan.query (s : Scan) (after : String) (size : Nat) : StalePage :=
  ⟨s.solutionId, s.cutoff, s.entityName, after, some size⟩

/-- How many rows a page may have: one at least, and as many as a machine word
can count. -/
def IsPageSize (size : Nat) : Prop := 0 < size ∧ (size : Int) < Check.wordLimit

/-- The rows of a solution and an entity, as the columns have them, are those
that match the scan. -/
theorem Scan.mem_matching_iff {s : Scan} {solutionId : Option String}
    {entityName : Option (Option String)}
    (hsolution : Record.columnText s.solutionId = .ok solutionId)
    (hentity : RecordTable.soughtEntity s.entityName = .ok entityName) {table : RecordTable}
    {r : Record} : r ∈ table.matching solutionId entityName s.cutoff ↔ r ∈ table ∧ s.Matches r := by
  rw [RecordTable.mem_matching]
  refine and_congr_right fun _ => ?_
  rcases RecordTable.soughtEntity_eq_ok hentity with ⟨name, hgiven, hname, rfl⟩ | ⟨hgiven, rfl⟩
  · constructor
    · rintro ⟨rfl, hstale, hmatch⟩
      exact ⟨hsolution, fun _ => hmatch name rfl ▸ hname, hstale⟩
    · rintro ⟨hsolution', hentity', hstale⟩
      refine ⟨Except.ok.inj (hsolution'.symm.trans hsolution), hstale, fun other hother => ?_⟩
      rw [← Option.some.inj hother]
      exact Except.ok.inj ((hentity' hgiven).symm.trans hname)
  · constructor
    · rintro ⟨rfl, hstale, -⟩
      exact ⟨hsolution, fun h => absurd h (Bool.eq_false_iff.mp hgiven), hstale⟩
    · rintro ⟨hsolution', -, hstale⟩
      exact ⟨Except.ok.inj (hsolution'.symm.trans hsolution), hstale, fun _ h => nomatch h⟩

theorem Scan.Matches.sought {s : Scan} {r : Record} (h : s.Matches r) :
    ∃ entityName, RecordTable.soughtEntity s.entityName = .ok entityName := by
  unfold RecordTable.soughtEntity
  split
  · next hgiven =>
    rw [h.entity hgiven]
    exact ⟨_, rfl⟩
  · exact ⟨_, rfl⟩

/-- The database can take the size of a page. -/
theorem IsPageSize.columnText {size : Nat} (h : IsPageSize size) :
    ∃ text, Record.columnText (.int size) = .ok text := by
  have hnegative : -Check.wordLimit ≤ 0 := by decide
  unfold Record.columnText
  dsimp only
  rw [if_pos ⟨Int.le_trans hnegative (Int.natCast_nonneg size), h.2⟩]
  exact ⟨_, rfl⟩

/-- A page that was read: its rows, and the table that they were read from. -/
structure Reading where
  table : RecordTable
  rows : List Record

/-- The database takes no page query of the scan: a text cannot be written, or a number
is too large. -/
def Scan.Refused (s : Scan) (size : Nat) : Prop :=
  ∀ (table : RecordTable) (after : String), ∃ o, table.page (s.query after size) = .error o

/-- The rows of a page are the first of the rows that match the scan and come after an
identifier. -/
structure Scan.IsPage (s : Scan) (size : Nat) (after : String) (reading : Reading)
    (rest : List Record) : Prop where
  bounded : reading.rows.length ≤ size
  short : reading.rows.length < size → rest = []
  ordered : (reading.rows ++ rest).Pairwise (·.id < ·.id)
  all : ∀ r, r ∈ reading.rows ++ rest ↔ r ∈ reading.table ∧ s.Matches r ∧ after < r.id

/-- The database takes every page query of a scan, or none. -/
theorem Scan.refused_or (s : Scan) (size : Nat) : s.Refused size ∨
    ∃ solutionId entityName, Record.columnText s.solutionId = .ok solutionId ∧
      RecordTable.soughtEntity s.entityName = .ok entityName ∧
      ∀ (table : RecordTable) after, table.page (s.query after size) = .ok
        (((table.matching solutionId entityName s.cutoff).filter (after < ·.id)).take size) := by
  by_cases htaken : ∃ (table : RecordTable) (after : String) (rows : List Record),
      table.page (s.query after size) = .ok rows
  · obtain ⟨_, _, _, hpage⟩ := htaken
    obtain ⟨solutionId, entityName, hsolution, hentity, hlimit, -⟩ :=
      RecordTable.page_eq_ok_iff.mp hpage
    refine Or.inr ⟨solutionId, entityName, hsolution, hentity, fun table after => ?_⟩
    refine RecordTable.page_eq_ok_iff.mpr ⟨_, _, hsolution, hentity, hlimit, ?_⟩
    exact (RecordTable.limited_natCast _ _).symm
  · refine Or.inl fun table after => ?_
    rcases hpage : table.page (s.query after size) with o | rows
    · exact ⟨o, rfl⟩
    · exact absurd ⟨table, after, rows, hpage⟩ htaken

theorem Scan.isPage_of_page {s : Scan} {size : Nat} {after : String} {table : RecordTable}
    {rows : List Record} (htable : table.Sound)
    (hpage : table.page (s.query after size) = .ok rows) :
    ∃ rest, s.IsPage size after ⟨table, rows⟩ rest := by
  rcases s.refused_or size with hrefused | ⟨solutionId, entityName, hsolution, hentity, htaken⟩
  · obtain ⟨o, hfails⟩ := hrefused table after
    rw [hfails] at hpage
    cases hpage
  · rw [htaken] at hpage
    cases hpage
    have hordered : ((table.matching solutionId entityName s.cutoff).filter
        (after < ·.id)).Pairwise (·.id < ·.id) := (htable.ordered.filter _).filter _
    generalize hmatching : (table.matching solutionId entityName s.cutoff).filter
      (after < ·.id) = matching at hordered
    refine ⟨matching.drop size, ?_, fun hshort => ?_, ?_, fun r => ?_⟩
    · exact List.length_take_le _ _
    · rw [List.length_take] at hshort
      exact List.drop_eq_nil_of_le (by omega)
    · rwa [List.take_append_drop]
    · rw [List.take_append_drop, ← hmatching, List.mem_filter,
        Scan.mem_matching_iff hsolution hentity, decide_eq_true_iff, and_assoc]

/-- The last row of an ordered table is before none. -/
theorem not_last_lt {rows : List Record} (h : rows.Pairwise (·.id < ·.id)) {last : Record}
    (hlast : rows.getLast? = some last) {r : Record} (hr : r ∈ rows) : ¬ last.id < r.id := by
  obtain ⟨before, rfl⟩ := List.getLast?_eq_some_iff.mp hlast
  rcases List.mem_append.mp hr with hr | hr
  · exact String.lt_asymm ((List.pairwise_append.mp h).2.2 r hr last List.mem_cons_self)
  · rw [List.mem_singleton.mp hr]
    exact String.lt_irrefl _

/-- The rows that match and are not on a page come after its last row. -/
theorem Scan.IsPage.mem_rest_iff {s : Scan} {size : Nat} {after : String} {reading : Reading}
    {rest : List Record} (h : s.IsPage size after reading rest) {last : Record}
    (hlast : reading.rows.getLast? = some last) (r : Record) :
    r ∈ rest ↔ r ∈ reading.table ∧ s.Matches r ∧ last.id < r.id := by
  obtain ⟨hrows, -, hbehind⟩ := List.pairwise_append.mp h.ordered
  have hpage := List.mem_of_getLast? hlast
  constructor
  · intro hr
    obtain ⟨htable, hmatch, -⟩ := (h.all r).mp (List.mem_append_right _ hr)
    exact ⟨htable, hmatch, hbehind last hpage r hr⟩
  · rintro ⟨htable, hmatch, hlater⟩
    have hafter : after < last.id := ((h.all last).mp (List.mem_append_left _ hpage)).2.2
    have hall := (h.all r).mpr ⟨htable, hmatch, String.lt_trans hafter hlater⟩
    exact (List.mem_append.mp hall).resolve_left fun hr => not_last_lt hrows hlast hr hlater

/-- A page comes short when it has fewer rows than it may have. -/
theorem isShort_eq (rows size : Nat) :
    isShort rows (.int size) = .ok (decide (rows < size)) := by
  have hscaled (n : Int) : (Dyadic.ofInt n).scaledTo 0 = n := Int.mul_one n
  have hlt : (Dyadic.ofInt rows).lt (.ofInt size) = decide (rows < size) := by
    have hlevel : (Dyadic.ofInt rows).lt (.ofInt size) =
        decide ((Dyadic.ofInt rows).scaledTo 0 < (Dyadic.ofInt size).scaledTo 0) := rfl
    rw [hlevel, hscaled, hscaled]
    simp
  unfold isShort
  exact congrArg Except.ok hlt

theorem Scan.page_leads (s : Scan) {size : Nat} (hpages : s.pageSize = .int size) {w : World}
    (hcalm : w.Calm) (after : String) (post : Except Failure (List Record) → World → Prop) :
    (s.page after).Leads w post ↔
      post ((w.records.page (s.query after size)).mapError
          (Outage.blame Outage.ofDatabase (.ofEntity .staleScan s.entityName)))
        (w.logged [.database (.page (s.query after size))]) := by
  unfold Scan.page
  refine (leads_bind _ _ _ _).trans ?_
  rw [leads_orBroken, hpages]
  exact leads_call_calm hcalm _ _ _

/-! ## All pages -/

/-- Every identifier is after the empty one. -/
theorem after_empty {id : String} (h : id ≠ "") : "" < id := by
  refine String.lt_iff.mpr ?_
  cases hcs : id.toList with
  | nil => exact absurd (String.toList_eq_nil_iff.mp hcs) h
  | cons c rest => exact List.nil_lt_cons _ _

/-- Fewer identifiers are after a later one. -/
theorem length_after_lt {ids : List String} {after later : String} (hmem : later ∈ ids)
    (hlt : after < later) : (ids.filter (later < ·)).length < (ids.filter (after < ·)).length := by
  have hnested : ids.filter (later < ·) = (ids.filter (after < ·)).filter (later < ·) := by
    rw [List.filter_filter]
    refine List.filter_congr fun id _ => ?_
    rw [Bool.eq_iff_iff, Bool.and_eq_true, decide_eq_true_iff, decide_eq_true_iff]
    exact ⟨fun h => ⟨h, String.lt_trans hlt h⟩, And.left⟩
  rw [hnested, List.length_filter_lt_length_iff_exists]
  exact ⟨later, List.mem_filter.mpr ⟨hmem, decide_eq_true hlt⟩, by simp⟩

/-- What a page brings in a calm world. It fails only where there are no rows that match. -/
theorem Scan.page_brings (s : Scan) {size : Nat} (hpages : s.pageSize = .int size)
    (hsize : IsPageSize size) {w : World} (hcalm : w.Calm) (htable : w.records.Sound)
    {index : String} (hsound : w.engine.SoundAt index) (after : String) :
    (s.page after).Leads w fun outcome w' => w.Swept w' [] index ∧
      ((∃ f, outcome = .error f) ∧ (∀ r, ¬ s.Matches r) ∨
        ∃ rows rest, outcome = .ok rows ∧ s.IsPage size after ⟨w.records, rows⟩ rest) := by
  refine (s.page_leads hpages hcalm after _).mpr ⟨.of_same hcalm hsound htable rfl rfl rfl rfl
    fun _ h => absurd h List.not_mem_nil, ?_⟩
  rcases hpage : w.records.page (s.query after size) with o | rows
  · refine Or.inl ⟨⟨_, rfl⟩, fun r hmatches => ?_⟩
    obtain ⟨entityName, hentity⟩ := hmatches.sought
    have hlimit (n : Int) (hn : some (size : Int) = some n) :
        ∃ text, Record.columnText (.int n) = .ok text := Option.some.inj hn ▸ hsize.columnText
    have htaken : w.records.page (s.query after size) = .ok _ :=
      RecordTable.page_eq_ok_iff.mpr ⟨_, _, hmatches.solution, hentity, hlimit, rfl⟩
    rw [hpage] at htaken
    cases htaken
  · obtain ⟨rest, hrows⟩ := Scan.isPage_of_page htable hpage
    exact Or.inr ⟨rows, rest, rfl, hrows⟩

/-- A scan from an identifier on sweeps the matching rows after it, if there is
fuel for a page more than there are rows. -/
theorem Scan.foldFrom_leads (s : Scan) {size : Nat} (hpages : s.pageSize = .int size)
    (hsize : IsPageSize size) (fuel : Nat) {after : String} {w : World} (hcalm : w.Calm)
    (htable : w.records.Sound) {index : String} (hsound : w.engine.SoundAt index)
    (hnow : w.circumstances.now.micros < Timestamp.limit)
    (hfuel : ((w.records.map (·.id)).filter (after < ·)).length < fuel) (counts : BucketCounts) :
    (s.foldFrom Reindex.visitAll fuel after counts).Leads w fun _ w' =>
      ∃ rows, w.Swept w' rows index ∧
        ∀ r, r ∈ rows ↔ r ∈ w.records ∧ s.Matches r ∧ after < r.id := by
  induction fuel generalizing after w counts with
  | zero => exact absurd hfuel (Nat.not_lt_zero _)
  | succ fuel ih =>
    unfold Scan.foldFrom
    rw [leads_bind]
    refine (s.page_brings hpages hsize hcalm htable hsound after).mono ?_
    rintro outcome w₀ ⟨hquiet, ⟨⟨f, rfl⟩, hnone⟩ | ⟨rows, rest, rfl, hrows⟩⟩
    · exact ⟨[], hquiet, fun r => ⟨fun h => absurd h List.not_mem_nil, fun h => absurd h.2.1 (hnone r)⟩⟩
    dsimp only
    rcases hlast : rows.getLast? with _ | last
    · rw [List.getLast?_eq_none_iff.mp hlast] at hrows
      refine ⟨[], hquiet, fun r => ?_⟩
      rw [← hrows.all r, hrows.short hsize.1, List.append_nil]
    dsimp only
    rw [leads_bind]
    have hpage : rows.Pairwise (·.id < ·.id) := (List.pairwise_append.mp hrows.ordered).1
    have hdistinct : rows.Pairwise (·.id ≠ ·.id) :=
      hpage.imp fun {r v} (h : r.id < v.id) heq => String.lt_irrefl _ (heq ▸ h)
    have hmem : ∀ r ∈ rows, r ∈ w₀.records := fun r hr =>
      hquiet.others r ((hrows.all r).mp (List.mem_append_left _ hr)).1
        fun _ hv => absurd hv List.not_mem_nil
    refine (visitAll_leads hdistinct hquiet.calm hquiet.table hquiet.sound
      (hquiet.circumstances ▸ hnow) hmem counts).mono ?_
    rintro _ w₁ ⟨⟨more, rfl⟩, hvisited⟩
    have hswept : w.Swept w₁ rows index := hquiet.trans hvisited
    dsimp only
    rw [hpages, isShort_eq, leads_bind, leads_orBroken]
    dsimp only [Except.mapError]
    by_cases hshort : rows.length < size
    · rw [if_pos (decide_eq_true hshort)]
      refine ⟨_, hswept, fun r => ?_⟩
      rw [← hrows.all r, hrows.short hshort, List.append_nil]
    · rw [if_neg (by rwa [decide_eq_true_iff])]
      have hlastRow : last ∈ w.records ∧ s.Matches last ∧ after < last.id :=
        (hrows.all last).mp (List.mem_append_left _ (List.mem_of_getLast? hlast))
      have hfewer := length_after_lt (List.mem_map_of_mem (f := (·.id)) hlastRow.1) hlastRow.2.2
      refine (ih hswept.calm hswept.table hswept.sound (hswept.circumstances ▸ hnow)
        (by rw [hswept.ids]; omega) more).mono ?_
      rintro _ w₂ ⟨later, hrest, hlaterRows⟩
      refine ⟨rows ++ later, hswept.trans hrest, fun r => ?_⟩
      have hsame (hr : last.id < r.id) : r ∈ w₁.records ↔ r ∈ w.records :=
        hswept.mem_iff_of_later (fun v hv => not_last_lt hpage hlast hv) hr
      rw [List.mem_append, hlaterRows, ← hrows.all r, List.mem_append, hrows.mem_rest_iff hlast]
      refine or_congr_right ⟨fun h => ⟨(hsame h.2.2).mp h.1, h.2⟩, fun h => ?_⟩
      exact ⟨(hsame h.2.2).mpr h.1, h.2⟩

/-- A scan sweeps all rows that match it. -/
theorem Scan.run_leads (s : Scan) {size : Nat} (hpages : s.pageSize = .int size)
    (hsize : IsPageSize size) {w : World} (hcalm : w.Calm) (htable : w.records.Sound)
    {index : String} (hsound : w.engine.SoundAt index)
    (hnow : w.circumstances.now.micros < Timestamp.limit) :
    (Reindex.run s).Leads w fun _ w' =>
      ∃ rows, w.Swept w' rows index ∧ ∀ r, r ∈ rows ↔ r ∈ w.records ∧ s.Matches r := by
  unfold Reindex.run Scan.fold
  refine (leads_bind _ _ _ _).mpr ((leads_ask _ _ _).mpr ?_)
  have hfuel : ((w.records.map (·.id)).filter ("" < ·)).length < w.records.length + 1 := by
    have hle := List.length_filter_le (fun id => decide ("" < id)) (w.records.map (·.id))
    rw [List.length_map] at hle
    omega
  refine (s.foldFrom_leads hpages hsize _ hcalm htable hsound hnow hfuel []).mono ?_
  rintro _ w' ⟨rows, hswept, hrows⟩
  refine ⟨rows, hswept, fun r => (hrows r).trans ⟨fun h => ⟨h.1, h.2.1⟩, fun h => ⟨h.1, h.2, ?_⟩⟩⟩
  exact after_empty (htable.rows r h.1).hasId

end Store

/-! ## Jobs -/

namespace BackfillJob

/-- The job as the worker runs it: the cutoff comes as a text. -/
def program (job : BackfillJob) : Service BucketCounts :=
  Worker.backfill job.solutionId (.str job.entityName) (.str job.cutoff.iso)

/-- A row that a job is for: of its solution and of its entity, and not pushed
to search since the cutoff. Without an entity a job is for all of them. -/
structure Finds (job : BackfillJob) (r : Record) : Prop where
  solution : Record.columnText job.solutionId = .ok (some r.solutionId)
  entity : job.entityName = "" ∨ r.entityName = job.entityName
  stale : r.isStale job.cutoff = true

theorem finds_iff {job : BackfillJob} {r : Record} : job.Finds r ↔
    (Record.columnText job.solutionId).toOption = some (some r.solutionId) ∧
      (job.entityName = "" ∨ r.entityName = job.entityName) ∧ r.isStale job.cutoff = true := by
  have hsolution : Record.columnText job.solutionId = .ok (some r.solutionId) ↔
      (Record.columnText job.solutionId).toOption = some (some r.solutionId) :=
    toOption_eq_some.symm
  rw [← hsolution]
  exact ⟨fun h => ⟨h.solution, h.entity, h.stale⟩, fun h => ⟨h.1, h.2.1, h.2.2⟩⟩

instance (job : BackfillJob) (r : Record) : Decidable (job.Finds r) :=
  decidable_of_iff _ finds_iff.symm

/-- A job sweeps exactly the rows that it finds. -/
theorem program_leads (job : BackfillJob) (hcutoff : job.cutoff.micros < Timestamp.limit)
    {w : World} {size : Nat} (hpages : w.circumstances.settings.reindexPage = .int size)
    (hsize : Store.IsPageSize size) (hcalm : w.Calm) (htable : w.records.Sound) {index : String}
    (hsound : w.engine.SoundAt index) (hnow : w.circumstances.now.micros < Timestamp.limit) :
    job.program.Leads w fun _ w' =>
      ∃ rows, w.Swept w' rows index ∧ ∀ r, r ∈ rows ↔ r ∈ w.records ∧ job.Finds r := by
  unfold program Worker.backfill Store.cutoffOf
  rw [leads_bind, leads_circumstances]
  dsimp only
  rw [leads_bind, leads_orFail, Timestamp.ofValue_of_ofText (Timestamp.ofText_iso hcutoff)]
  dsimp only
  unfold Reindex.stale
  dsimp only
  rw [leads_bind, leads_pure]
  dsimp only
  refine (Store.Scan.run_leads _ hpages hsize hcalm htable hsound hnow).mono ?_
  rintro _ w' ⟨rows, hswept, hrows⟩
  refine ⟨rows, hswept, fun r => (hrows r).trans (and_congr_right fun hr => ?_)⟩
  have hrow := htable.rows r hr
  constructor
  · rintro ⟨hsolution, hentity, hstale⟩
    refine ⟨hsolution, ?_, hstale⟩
    by_cases hname : job.entityName = ""
    · exact Or.inl hname
    · exact Or.inr (columnText_str (hentity (given_str hname)))
  · rintro ⟨hsolution, hentity, hstale⟩
    refine ⟨hsolution, fun hgiven => ?_, hstale⟩
    rcases hentity with hempty | hname
    · dsimp only at hgiven
      rw [hempty] at hgiven
      cases hgiven
    · dsimp only
      rw [← hname]
      exact hrow.entityName

end BackfillJob

end TenantSearch
