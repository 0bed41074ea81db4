-- What a run of reindexing leaves of the records when calls fail in any pattern: a
-- row that matches the scan is rewritten in full or stays stale, and the counts
-- are those of the rows that were rewritten.
import TenantSearch.Proofs.ScansAmidWrites
import TenantSearch.Proofs.UndoneWrites

namespace TenantSearch

open Service

/-! ## A scan whose rows are rewritten -/

namespace Store

variable {frail : Call → Prop}

/-- What a run of reindexing leaves: some of the rows that match the scan and come after
an identifier are rewritten, and counted. -/
def Scan.Leaves (s : Scan) (frail : Call → Prop) (after : String) (counts : BucketCounts)
    (w : World) (outcome : Except Failure BucketCounts) (moments : List Moment) (w' : World) :
    Prop :=
  ∃ rows done, w.Rewrote frail w' moments rows done ∧ outcome = .ok (counts.tallied done) ∧
    rows.Pairwise (·.id < ·.id) ∧ ∀ r, r ∈ rows ↔ r ∈ w.records ∧ s.Matches r ∧ after < r.id

theorem Scan.page_idle (s : Scan) {size : Nat} (hpages : s.pageSize = .int size)
    (firm : ∀ query, ¬ frail (.database (.page query))) (after : String) (w : World) :
    (s.page after).EndsIn (World.Undoes frail) w fun outcome moments w' => w.Idle w' moments ∧
      outcome = (w.records.page (s.query after size)).mapError
        (Outage.blame Outage.ofDatabase (.ofEntity .staleScan s.entityName)) := by
  have hlimit : limitOf s.pageSize = .ok (some (size : Int)) := by
    rw [hpages]
    rfl
  unfold Scan.page
  refine (endsIn_bind _ _ _ _ _).mpr ((endsIn_orBroken _ _ _ _).mpr ?_)
  rw [hlimit]
  refine (endsIn_call _ _ _ _ _).mpr fun r w' h => ?_
  obtain rfl := h.page_answer (firm _)
  exact ⟨h.idle rfl, rfl⟩

/-- What is left of a full page and what is left of the rows after it. -/
theorem Scan.Leaves.after_page {s : Scan} {size : Nat} {after : String} {w w₁ w₂ : World}
    {rows rest done : List Record} {last : Record} {moments later : List Moment}
    {counts : BucketCounts} {outcome : Except Failure BucketCounts}
    (hrows : s.IsPage size after ⟨w.records, rows⟩ rest) (hlast : rows.getLast? = some last)
    (hrewrote : w.Rewrote frail w₁ moments rows done)
    (h : s.Leaves frail last.id (counts.tallied done) w₁ outcome later w₂) :
    s.Leaves frail after counts w outcome (moments ++ later) w₂ := by
  obtain ⟨more, done', hmore, rfl, hmoreOrdered, hmoreRows⟩ := h
  have hordered : rows.Pairwise (·.id < ·.id) := (List.pairwise_append.mp hrows.ordered).1
  have hbehind : ∀ r ∈ rows, ∀ v ∈ more, r.id < v.id := by
    intro r hr v hv
    refine Std.lt_of_le_of_lt (String.not_lt.mp (not_last_lt hordered hlast hr)) ?_
    exact ((hmoreRows v).mp hv).2.2
  have hapart : ∀ r ∈ done, ∀ v ∈ done', v.id ≠ r.id := by
    intro r hr v hv hsame
    have hlt := hbehind r (hrewrote.sublist.subset hr) v (hmore.sublist.subset hv)
    rw [hsame] at hlt
    exact String.lt_irrefl _ hlt
  refine ⟨rows ++ more, done ++ done', hrewrote.trans hmore hapart, ?_, ?_, fun r => ?_⟩
  · unfold BucketCounts.tallied
    rw [List.foldl_append]
  · exact List.pairwise_append.mpr ⟨hordered, hmoreOrdered, hbehind⟩
  · have hsame (hr : last.id < r.id) : r ∈ w₁.records ↔ r ∈ w.records := by
      refine hrewrote.mem_iff fun v hv heq => not_last_lt hordered hlast hv ?_
      rwa [← heq]
    rw [List.mem_append, hmoreRows, ← hrows.all r, List.mem_append, hrows.mem_rest_iff hlast]
    refine or_congr_right ⟨fun h => ⟨(hsame h.2.2).mp h.1, h.2⟩, fun h => ?_⟩
    exact ⟨(hsame h.2.2).mpr h.1, h.2⟩

/-- A scan from an identifier on reindexes the rows after it, if there is fuel for a page
more than there are rows. -/
theorem Scan.foldFrom_leaves (s : Scan) {size : Nat} (hpages : s.pageSize = .int size)
    (positive : 0 < size) (taken : ¬ s.Refused size)
    (firm : ∀ query, ¬ frail (.database (.page query))) (fuel : Nat) {after : String} {w : World}
    (htable : w.records.Sound) (hnow : w.circumstances.now.micros < Timestamp.limit)
    (hfuel : ((w.records.map (·.id)).filter (after < ·)).length < fuel) (counts : BucketCounts) :
    (s.foldFrom Reindex.visitAll fuel after counts).EndsIn (World.Undoes frail) w
      (s.Leaves frail after counts w) := by
  induction fuel generalizing after w counts with
  | zero => exact absurd hfuel (Nat.not_lt_zero _)
  | succ fuel ih =>
    unfold Scan.foldFrom
    refine (endsIn_bind _ _ _ _ _).mpr ((s.page_idle hpages firm after w).mono ?_)
    rintro _ first w₀ ⟨hidle, rfl⟩
    rcases hpage : w.records.page (s.query after size) with o | rows
    · rcases s.refused_or size with hrefused | ⟨_, _, -, -, htaken⟩
      · exact absurd hrefused taken
      · rw [htaken] at hpage
        cases hpage
    obtain ⟨rest, hrows⟩ := Scan.isPage_of_page htable hpage
    have hordered : rows.Pairwise (·.id < ·.id) := (List.pairwise_append.mp hrows.ordered).1
    have hmem : ∀ r ∈ rows, r ∈ w₀.records := by
      intro r hr
      rw [hidle.records]
      exact ((hrows.all r).mp (List.mem_append_left _ hr)).1
    dsimp only [Except.mapError]
    rcases hlast : rows.getLast? with _ | last
    · rw [List.getLast?_eq_none_iff.mp hlast] at hrows
      refine (endsIn_pure _ _ _ _).mpr ⟨[], [], ?_, rfl, .nil, fun r => ?_⟩
      · rw [List.append_nil]
        exact hidle.rewrote_none
      · rw [← hrows.all r, hrows.short positive, List.append_nil]
    dsimp only
    refine (endsIn_bind _ _ _ _ _).mpr ((visitAll_endsIn hordered (hidle.records ▸ htable) hmem
      (hidle.circumstances ▸ hnow) counts).mono ?_)
    rintro _ second w₁ ⟨done, hvisited, rfl⟩
    have hrewrote : w.Rewrote frail w₁ (first ++ second) rows done := hidle.thenRewrote hvisited
    dsimp only
    rw [hpages, isShort_eq]
    refine (endsIn_bind _ _ _ _ _).mpr ((endsIn_orBroken _ _ _ _).mpr ?_)
    dsimp only [Except.mapError]
    by_cases hshort : rows.length < size
    · rw [if_pos (decide_eq_true hshort)]
      refine (endsIn_pure _ _ _ _).mpr ⟨rows, done, ?_, rfl, hordered, fun r => ?_⟩
      · simpa only [List.append_nil] using hrewrote
      · rw [← hrows.all r, hrows.short hshort, List.append_nil]
    · rw [if_neg (by rwa [decide_eq_true_iff])]
      have hlastRow : last ∈ w.records ∧ s.Matches last ∧ after < last.id :=
        (hrows.all last).mp (List.mem_append_left _ (List.mem_of_getLast? hlast))
      have hfewer := length_after_lt (List.mem_map_of_mem (f := (·.id)) hlastRow.1) hlastRow.2.2
      have hids : w₁.records.map (·.id) = w.records.map (·.id) := by
        rw [hrewrote.records, RecordTable.map_id_amid]
      refine (ih (hrewrote.sound htable) (hrewrote.circumstances ▸ hnow) (by rw [hids]; omega)
        _).mono ?_
      intro outcome third w₂ hmore
      have hleaves := hmore.after_page hrows hlast hrewrote
      simpa only [List.append_assoc, List.nil_append] using hleaves

theorem Scan.run_leaves (s : Scan) {size : Nat} (hpages : s.pageSize = .int size)
    (positive : 0 < size) (taken : ¬ s.Refused size)
    (firm : ∀ query, ¬ frail (.database (.page query))) {w : World} (htable : w.records.Sound)
    (hnow : w.circumstances.now.micros < Timestamp.limit) :
    (Reindex.run s).EndsIn (World.Undoes frail) w fun outcome moments w' =>
      ∃ rows done, w.Rewrote frail w' moments rows done ∧ outcome = .ok (BucketCounts.tallied [] done) ∧
        rows.Pairwise (·.id < ·.id) ∧ ∀ r, r ∈ rows ↔ r ∈ w.records ∧ s.Matches r := by
  have own (c : Call) : Step.rowBound ≠ .call c := nofun
  refine (endsIn_bind _ _ _ _ _).mpr ((endsIn_ask _ _ _ _).mpr fun bound w₀ h => ?_)
  obtain rfl := h.own_answer own
  have hidle := h.idle rfl
  have hfuel : ((w₀.records.map (·.id)).filter ("" < ·)).length < w.records.length + 1 := by
    rw [hidle.records]
    refine Nat.lt_succ_of_le (Nat.le_trans (List.length_filter_le _ _) ?_)
    exact Nat.le_of_eq (List.length_map _)
  refine (s.foldFrom_leaves hpages positive taken firm _ (hidle.records ▸ htable)
    (hidle.circumstances ▸ hnow) hfuel []).mono ?_
  rintro outcome second w' ⟨rows, done, hrewrote, hcounts, hordered, hrows⟩
  refine ⟨rows, done, hidle.thenRewrote hrewrote, hcounts, hordered, fun r => ?_⟩
  rw [hrows, hidle.records]
  exact ⟨fun h => ⟨h.1, h.2.1⟩, fun h => ⟨h.1, h.2, after_empty (htable.rows r h.1).hasId⟩⟩

end Store

namespace Reindex

/-! ## Which rows are rewritten -/

/-- What reindexing the rows of a scan leaves of the table, when these are the rows
that it rewrote, as they were before. -/
structure Leaves (frail : Call → Prop) (s : Store.Scan) (w w' : World) (done : List Record)
    (counts : BucketCounts) : Prop where
  once : done.Pairwise (·.id < ·.id)
  scanned : ∀ r ∈ done, r ∈ w.records ∧ s.Matches r ∧ r.entityName ∉ reservedEntities
  /-- Each of them is rewritten in full, and every other row is as it was. -/
  rows : ∃ after : Record → Record, w'.records = w.records.map after ∧ ∀ r ∈ w.records,
    (r ∈ done → r.IsRewriting w.definitions w.circumstances.now (after r)) ∧
      (r ∉ done → after r = r)
  counts : counts.Tallies done
  /-- A row is left only where its schema cannot be read, its texts cannot be merged or
  a call fails that it needs. -/
  all : ∀ r ∈ w.records, s.Matches r → r.IsDue w.definitions w.circumstances.now →
    r.Unhindered frail → r ∈ done

variable {frail : Call → Prop} {w w' : World} {moments : List Moment} {rows done : List Record}

/-- A row of the table is among some of its rows just when its identifier is. -/
theorem mem_of_id_mem (htable : w.records.Sound) (hmem : ∀ r ∈ done, r ∈ w.records) {r : Record}
    (hr : r ∈ w.records) : r.id ∈ done.map (·.id) ↔ r ∈ done := by
  constructor
  · intro hid
    obtain ⟨v, hv, hsame⟩ := List.mem_map.mp hid
    rwa [htable.eq_of_id (hmem v hv) hr hsame.symm]
  · exact fun h => List.mem_map.mpr ⟨r, h, rfl⟩

theorem leaves_of_rewrote {s : Store.Scan} (htable : w.records.Sound)
    (h : w.Rewrote frail w' moments rows done) (hordered : rows.Pairwise (·.id < ·.id))
    (hrows : ∀ r, r ∈ rows ↔ r ∈ w.records ∧ s.Matches r) :
    Leaves frail s w w' done (BucketCounts.tallied [] done) where
  once := hordered.sublist h.sublist
  scanned r hr := by
    obtain ⟨hmem, hmatch⟩ := (hrows r).mp (h.sublist.subset hr)
    exact ⟨hmem, hmatch, (h.due r hr).unreserved⟩
  rows := by
    have hmem : ∀ r ∈ done, r ∈ w.records := fun r hr => ((hrows r).mp (h.sublist.subset hr)).1
    refine ⟨_, h.records, fun r hr => ⟨fun hdone => ?_, fun hleft => ?_⟩⟩
    · exact Record.isRewriting_amid ((mem_of_id_mem htable hmem hr).mpr hdone)
        (h.due r hdone).readable
    · exact Record.amid_of_not_mem fun hid => hleft ((mem_of_id_mem htable hmem hr).mp hid)
  counts := BucketCounts.tallies done
  all r hr hmatch := h.all r ((hrows r).mpr ⟨hr, hmatch⟩)

/-- Whichever lookups and saves fail, a run of reindexing whose page queries are
answered ends with its counts, and each row that it is for is rewritten in full
and counted, or left as it was. -/
theorem every_row_is_rewritten_or_left {solutionId entityName : Json} {size : Nat}
    (positive : 0 < size) {cutoff : Timestamp} (htable : w.records.Sound)
    (clock : w.circumstances.now.micros < Timestamp.limit)
    (firm : ∀ query, ¬ frail (.database (.page query)))
    (taken : ∃ rows, w.records.page ⟨solutionId, cutoff, entityName, "", some size⟩ = .ok rows)
    {outcome : Except Failure BucketCounts}
    (runs : (stale solutionId entityName (.int size) (some cutoff)).run.Through
      (World.Undoes frail) w moments outcome w') :
    ∃ counts done, outcome = .ok counts ∧
      Leaves frail { solutionId, cutoff, entityName, pageSize := .int size } w w' done counts := by
  obtain ⟨rows, hrows⟩ := taken
  have htaken : ¬ Store.Scan.Refused
      { solutionId, cutoff, entityName, pageSize := .int size } size := by
    intro hrefused
    obtain ⟨o, hfails⟩ := hrefused w.records ""
    cases hrows.symm.trans hfails
  have hends : (stale solutionId entityName (.int size) (some cutoff)).EndsIn
      (World.Undoes frail) w fun outcome _ w' => ∃ counts done, outcome = .ok counts ∧
        Leaves frail { solutionId, cutoff, entityName, pageSize := .int size } w w' done
          counts := by
    refine (endsIn_bind _ _ _ _ _).mpr ((endsIn_pure _ _ _ _).mpr ?_)
    refine (Store.Scan.run_leaves _ rfl positive htaken firm htable clock).mono ?_
    rintro _ moments w' ⟨rows, done, hrewrote, rfl, hordered, hrows⟩
    exact ⟨_, done, rfl, leaves_of_rewrote htable hrewrote hordered hrows⟩
  exact hends _ _ _ runs

/-! ## A save that fails among others that work -/

/-- Every call may fail but page queries. -/
def besidesPages : Call → Prop
  | .database (.page _) => False
  | _ => True

/-- Two events that were never pushed to search. -/
def twoEvents : World where
  circumstances := morning
  records := [
    { id := "e-1", entityName := "Event", solutionId := "sol-1" },
    { id := "e-2", entityName := "Event", solutionId := "sol-1" }]

/-- The commit of the first event fails, and all else works. -/
theorem one_of_two_saves_fails : ∃ moments w',
    (stale (.str "sol-1") .null (.int (2 : Nat)) (some ⟨0⟩)).run.Through
      (World.Undoes besidesPages) twoEvents moments (.ok [("Event", 1)]) w' := by
  have own (c : Call) : Step.rowBound ≠ .call c := nofun
  have look (c : Call) : Step.look ≠ .call c := nofun
  refine Prog.exists_through_step (.met (.own own)) ?_
  refine Prog.exists_through_step (.met (.call (.answered []))) ?_
  refine Prog.exists_through_step (.met (.call (.answered []))) ?_
  refine Prog.exists_through_step (.met (.own look)) ?_
  refine Prog.exists_through_step (.met (.call (.answered []))) ?_
  refine Prog.exists_through_step (.undone .operational [] trivial) ?_
  refine exists_through_run _ (fun w s (h : w.Plans (besidesSaves besidesPages)) =>
    ⟨.of_plans h, h.answer s⟩) (fun _ h => absurd h List.not_mem_nil) ?_
  decide +kernel

/-- One event is rewritten and counted, and the other is left. -/
theorem an_event_whose_save_fails_is_left :
    0 < 2 ∧ twoEvents.records.Sound ∧ twoEvents.circumstances.now.micros < Timestamp.limit ∧
      (∀ query, ¬ besidesPages (.database (.page query))) ∧
      (∃ rows, twoEvents.records.page ⟨.str "sol-1", ⟨0⟩, .null, "", some (2 : Nat)⟩ = .ok rows) ∧
      ∃ moments w' done,
        (stale (.str "sol-1") .null (.int (2 : Nat)) (some ⟨0⟩)).run.Through
          (World.Undoes besidesPages) twoEvents moments (.ok [("Event", 1)]) w' ∧
        Leaves besidesPages
          { solutionId := .str "sol-1", cutoff := ⟨0⟩, entityName := .null, pageSize := .int 2 }
          twoEvents w' done [("Event", 1)] := by
  have htable : twoEvents.records.Sound := by decide +kernel
  have hclock : twoEvents.circumstances.now.micros < Timestamp.limit := by decide
  have hfirm : ∀ query, ¬ besidesPages (.database (.page query)) := fun _ h => h
  have htaken : ∃ rows, twoEvents.records.page
      ⟨.str "sol-1", ⟨0⟩, .null, "", some (2 : Nat)⟩ = .ok rows := isOk_iff.mp (by decide +kernel)
  obtain ⟨moments, w', hruns⟩ := one_of_two_saves_fails
  obtain ⟨counts, done, hcounts, hleaves⟩ :=
    every_row_is_rewritten_or_left (by decide) htable hclock hfirm htaken hruns
  cases hcounts
  exact ⟨by decide, htable, hclock, hfirm, htaken, moments, w', done, hruns, hleaves⟩

end Reindex

end TenantSearch
