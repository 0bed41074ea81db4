-- What the scheduled run leaves of the records while the database works: every
-- stale row of every solution is rewritten once and counted for its solution, but
-- for reserved rows and for rows whose texts cannot be merged.
import TenantSearch.Proofs.PartialReindexing
import TenantSearch.Proofs.SpoiledTexts

namespace TenantSearch

open Service

/-! ## Solutions with stale rows -/

namespace RecordTable

theorem mem_insertText {s t : String} {texts : List String} :
    t ∈ insertText s texts ↔ t = s ∨ t ∈ texts := by
  induction texts with
  | nil => simp [insertText]
  | cons first rest ih =>
    unfold insertText
    split
    · exact List.mem_cons
    · split
      · next heq =>
        rw [← beq_iff_eq.mp heq]
        simp
      · rw [List.mem_cons, List.mem_cons, ih]
        exact or_left_comm

theorem ordered_insertText {texts : List String} (h : texts.Pairwise (· < ·)) (s : String) :
    (insertText s texts).Pairwise (· < ·) := by
  induction texts with
  | nil => exact List.pairwise_singleton _ _
  | cons first rest ih =>
    obtain ⟨hfirst, hrest⟩ := List.pairwise_cons.mp h
    unfold insertText
    split
    · next hlt =>
      refine List.pairwise_cons.mpr ⟨fun t ht => ?_, h⟩
      rcases List.mem_cons.mp ht with rfl | ht
      · exact hlt
      · exact String.lt_trans hlt (hfirst t ht)
    · next hnlt =>
      split
      · exact h
      · next hne =>
        refine List.pairwise_cons.mpr ⟨fun t ht => ?_, ih hrest⟩
        rcases mem_insertText.mp ht with rfl | ht
        · rw [beq_iff_eq] at hne
          exact Std.lt_of_le_of_ne (String.not_lt.mp hnlt) (Ne.symm hne)
        · exact hfirst t ht

theorem ordered_foldr_insertText (texts : List String) :
    (texts.foldr insertText []).Pairwise (· < ·) := by
  induction texts with
  | nil => exact .nil
  | cons s rest ih => exact ordered_insertText ih s

theorem mem_foldr_insertText {texts : List String} {s : String} :
    s ∈ texts.foldr insertText [] ↔ s ∈ texts := by
  induction texts with
  | nil => exact Iff.rfl
  | cons t rest ih => rw [List.foldr_cons, mem_insertText, ih, List.mem_cons]

/-- A solution is listed once, if it has a stale row. -/
theorem nodup_staleSolutions (table : RecordTable) (cutoff : Timestamp) :
    (table.staleSolutions cutoff).Nodup := by
  have hordered : (table.staleSolutions cutoff).Pairwise (· < ·) := ordered_foldr_insertText _
  refine hordered.imp fun hlt hsame => ?_
  rw [hsame] at hlt
  exact String.lt_irrefl _ hlt

theorem mem_staleSolutions {table : RecordTable} {cutoff : Timestamp} {solution : String} :
    solution ∈ table.staleSolutions cutoff ↔
      ∃ r ∈ table, r.isStale cutoff = true ∧ r.solutionId = solution := by
  unfold staleSolutions
  rw [mem_foldr_insertText, List.mem_map]
  simp only [List.mem_filter, and_assoc]

end RecordTable

/-! ## The parts of the run -/

/-- The cutoff of a run that looks so many minutes back, unless that leaves the
calendar. -/
def cutoffBefore (now : Timestamp) (minutes : Nat) : Option Timestamp :=
  now.shift? (-((minutes * Duration.microsPerMinute : Nat) : Int))

theorem cutoffBefore_le {now cutoff : Timestamp} {minutes : Nat}
    (h : cutoffBefore now minutes = some cutoff) : cutoff.micros ≤ now.micros := by
  unfold cutoffBefore Timestamp.shift? at h
  dsimp only at h
  split at h
  · cases h
    dsimp only
    omega
  · cases h

theorem cutoffBefore_zero {now : Timestamp} (clock : now.micros < Timestamp.limit) :
    cutoffBefore now 0 = some now := by
  unfold cutoffBefore Timestamp.shift?
  rw [Nat.zero_mul]
  simp [clock]

theorem cutoffBefore_eq_none {now : Timestamp} {minutes : Nat}
    (early : now.micros < minutes * Duration.microsPerMinute) :
    cutoffBefore now minutes = none := by
  unfold cutoffBefore Timestamp.shift?
  generalize minutes * Duration.microsPerMinute = age at early ⊢
  exact if_neg (by omega)

variable {frail : Call → Prop} {w : World}

theorem circumstances_endsIn (w : World) :
    circumstances.EndsIn (World.Undoes frail) w fun outcome moments w' =>
      w.Idle w' moments ∧ outcome = .ok w.circumstances := by
  have own (c : Call) : Step.look ≠ .call c := nofun
  refine (endsIn_ask _ _ _ _).mpr fun here w' h => ?_
  obtain rfl := h.own_answer own
  exact ⟨h.idle rfl, rfl⟩

/-- A duration that is too long leads out of the calendar, too. -/
theorem shift_ofNumber {now : Timestamp} (clock : now.micros < Timestamp.limit) (unit n : Nat) :
    ((Duration.ofNumber unit (.int n)).toOption.bind fun age => now.shift? (-age)) =
      now.shift? (-((n * unit : Nat) : Int)) := by
  have hlimit : Timestamp.limit ≤ (Duration.mostDays + 1) * Timestamp.microsPerDay := by decide
  have hage : Duration.ofNumber unit (.int n) = Duration.within ((n * unit : Nat) : Int) := by
    unfold Duration.ofNumber
    rw [Int.natCast_mul]
  rw [hage]
  unfold Duration.within
  generalize (Duration.mostDays + 1) * Timestamp.microsPerDay = longest at hlimit ⊢
  generalize Duration.mostDays * Timestamp.microsPerDay = shortest
  split
  · rfl
  · have hnone : now.shift? (-((n * unit : Nat) : Int)) = none := by
      unfold Timestamp.shift?
      exact if_neg (by omega)
    rw [hnone]
    rfl

theorem usualCutoff_endsIn {minutes : Nat}
    (hminutes : w.circumstances.settings.cutoffMinutes = .int minutes)
    (clock : w.circumstances.now.micros < Timestamp.limit) :
    Reindex.usualCutoff.EndsIn (World.Undoes frail) w fun outcome moments w' =>
      w.Idle w' moments ∧ outcome.toOption = cutoffBefore w.circumstances.now minutes := by
  have hshift := shift_ofNumber clock Duration.microsPerMinute minutes
  unfold cutoffBefore
  rw [← hshift]
  refine (endsIn_bind _ _ _ _ _).mpr ((circumstances_endsIn w).mono ?_)
  rintro _ first w₁ ⟨hidle, rfl⟩
  dsimp only
  rw [hminutes]
  refine (endsIn_bind _ _ _ _ _).mpr ((endsIn_orBroken _ _ _ _).mpr ?_)
  rcases Duration.ofNumber Duration.microsPerMinute (.int minutes) with b | age
  · refine ⟨?_, rfl⟩
    simpa only [List.append_nil] using hidle
  · have hquiet : w.Idle w₁ (first ++ ([] ++ [])) := by
      simpa only [List.append_nil] using hidle
    dsimp only [Except.mapError, Except.toOption, Option.bind]
    rcases w.circumstances.now.shift? (-age) with _ | cutoff
    · exact (endsIn_throw _ _ _ _).mpr ⟨hquiet, rfl⟩
    · exact (endsIn_pure _ _ _ _).mpr ⟨hquiet, rfl⟩

theorem dueSolutions_endsIn (cutoff : Timestamp)
    (firm : ¬ frail (.database (.staleSolutions (some cutoff)))) (w : World) :
    (Worker.dueSolutions cutoff).EndsIn (World.Undoes frail) w fun outcome moments w' =>
      w.Idle w' moments ∧ ∃ solutions, outcome = .ok solutions ∧
        solutions.Perm (w.records.staleSolutions cutoff) := by
  refine (endsIn_bind _ _ _ _ _).mpr ((endsIn_attempt _ _ _ _).mpr ?_)
  refine (endsIn_call _ _ _ _ _).mpr fun r w' h => ?_
  have hidle := h.idle rfl
  obtain ⟨solutions, rfl, hperm⟩ := h.listing_answer firm
  refine (endsIn_pure _ _ _ _).mpr ⟨?_, solutions, rfl, hperm⟩
  rw [List.append_nil]
  exact hidle

/-! ## One solution after the other -/

/-- The scan of all stale rows of a solution. -/
def solutionScan (solution : String) (cutoff : Timestamp) (size : Nat) : Store.Scan :=
  { solutionId := .str solution, cutoff, pageSize := .int size }

theorem solutionScan_matches {solution : String} {cutoff : Timestamp} {size : Nat}
    (hsolution : Record.columnText (.str solution) = .ok (some solution)) {r : Record} :
    (solutionScan solution cutoff size).Matches r ↔
      r.isStale cutoff = true ∧ r.solutionId = solution := by
  constructor
  · intro h
    have hsame := h.solution
    unfold solutionScan at hsame
    rw [hsolution] at hsame
    cases hsame
    exact ⟨h.stale, rfl⟩
  · rintro ⟨hstale, rfl⟩
    exact ⟨hsolution, fun hgiven => (nomatch hgiven), hstale⟩

/-- The database takes the pages of a solution that it lists, unless their size is too
large for a machine word. -/
theorem solutionScan_refused_iff {solution : String} {cutoff : Timestamp} {size : Nat}
    (hsolution : Record.columnText (.str solution) = .ok (some solution)) (positive : 0 < size) :
    (solutionScan solution cutoff size).Refused size ↔ ¬ (size : Int) < Check.wordLimit :=
  (Store.Scan.refused_iff _ positive).trans
    (not_congr ⟨fun h => h.size, fun hfits => ⟨⟨_, hsolution⟩, nofun, hfits⟩⟩)

/-- The number of rows of each of these solutions, in their order. -/
def numbersOf (solutions : List String) (rows : List Record) : List (String × Nat) :=
  solutions.map fun solution => (solution, (rows.filter (·.solutionId == solution)).length)

/-- One solution more, whose rows come first. -/
theorem numbersOf_cons {solution : String} {solutions : List String} (hnew : solution ∉ solutions)
    {rows more : List Record} (hrows : ∀ r ∈ rows, r.solutionId = solution)
    (hmore : ∀ r ∈ more, r.solutionId ∈ solutions) :
    numbersOf (solution :: solutions) (rows ++ more) =
      (solution, rows.length) :: numbersOf solutions more := by
  have hnone : more.filter (·.solutionId == solution) = [] := by
    rw [List.filter_eq_nil_iff]
    intro r hr hsame
    rw [beq_iff_eq] at hsame
    exact hnew (hsame ▸ hmore r hr)
  have hall : rows.filter (·.solutionId == solution) = rows := by
    rw [List.filter_eq_self]
    exact fun r hr => beq_iff_eq.mpr (hrows r hr)
  have hothers : ∀ other ∈ solutions, rows.filter (·.solutionId == other) = [] := by
    intro other hother
    rw [List.filter_eq_nil_iff]
    intro r hr hsame
    rw [beq_iff_eq, hrows r hr] at hsame
    exact hnew (hsame ▸ hother)
  unfold numbersOf
  rw [List.map_cons, List.filter_append, hall, hnone, List.append_nil]
  refine congrArg _ (List.map_congr_left fun other hother => ?_)
  rw [List.filter_append, hothers other hother, List.nil_append]

/-- Rows of a solution, and those of others, are still there when rows of another one
have been rewritten. -/
theorem World.Rewrote.mem_other_iff {w' : World} {moments : List Moment} {rows done : List Record}
    (h : w.Rewrote frail w' moments rows done) (htable : w.records.Sound)
    (hmem : ∀ r ∈ rows, r ∈ w.records) {v : Record}
    (hother : ∀ r ∈ rows, v.solutionId ≠ r.solutionId) : v ∈ w'.records ↔ v ∈ w.records := by
  constructor
  · intro hv
    have hback := hv
    rw [h.records] at hback
    obtain ⟨old, hold, rfl⟩ := List.mem_map.mp hback
    refine (h.mem_iff fun r hr hid => ?_).mp hv
    rw [Record.id_amid] at hid
    obtain rfl := htable.eq_of_id hold (hmem r hr) hid.symm
    exact hother _ hr (Record.solutionId_amid _)
  · intro hv
    refine (h.mem_iff fun r hr hid => ?_).mpr hv
    obtain rfl := htable.eq_of_id hv (hmem r hr) hid.symm
    exact hother _ hr rfl

/-- What is left when every solution has had its turn: stale rows of these solutions and
no others have been rewritten, and counted for their solution. -/
def LeavesOf (frail : Call → Prop) (cutoff : Timestamp) (solutions : List String) (w : World)
    (results : List (String × Nat)) (moments : List Moment) (w' : World) : Prop :=
  ∃ rows done, w.Rewrote frail w' moments rows done ∧ results = numbersOf solutions done ∧
    rows.Pairwise (·.id ≠ ·.id) ∧
    ∀ r, r ∈ rows ↔ r ∈ w.records ∧ r.isStale cutoff = true ∧ r.solutionId ∈ solutions

/-- What is left of a solution and what is left of the others after it, which have the
rows that they had before. -/
theorem LeavesOf.after_solution {cutoff : Timestamp} {solution : String} {rest : List String}
    {w w₁ w₂ : World} {rows done : List Record} {moments later : List Moment}
    {results : List (String × Nat)} (hnew : solution ∉ rest) (htable : w.records.Sound)
    (hrewrote : w.Rewrote frail w₁ moments rows done) (hordered : rows.Pairwise (·.id < ·.id))
    (hrows : ∀ r, r ∈ rows ↔ r ∈ w.records ∧ r.isStale cutoff = true ∧ r.solutionId = solution)
    (h : LeavesOf frail cutoff rest w₁ results later w₂) :
    LeavesOf frail cutoff (solution :: rest) w ((solution, done.length) :: results)
      (moments ++ later) w₂ := by
  obtain ⟨more, done', hmore, rfl, happart, hmoreRows⟩ := h
  have hmem : ∀ r ∈ rows, r ∈ w.records := fun r hr => ((hrows r).mp hr).1
  have hsame (r : Record) (hin : r.solutionId ∈ rest) : r ∈ w₁.records ↔ r ∈ w.records := by
    refine hrewrote.mem_other_iff htable hmem fun v hv hsolution => ?_
    rw [hsolution, ((hrows v).mp hv).2.2] at hin
    exact hnew hin
  have hlater : ∀ r, r ∈ more ↔
      r ∈ w.records ∧ r.isStale cutoff = true ∧ r.solutionId ∈ rest := by
    intro r
    rw [hmoreRows]
    refine ⟨fun ⟨hr, hstale, hin⟩ => ?_, fun ⟨hr, hstale, hin⟩ => ?_⟩
    · exact ⟨(hsame r hin).mp hr, hstale, hin⟩
    · exact ⟨(hsame r hin).mpr hr, hstale, hin⟩
  have hbetween : ∀ r ∈ rows, ∀ v ∈ more, r.id ≠ v.id := by
    intro r hr v hv hid
    obtain ⟨hvmem, -, hvrest⟩ := (hlater v).mp hv
    rw [htable.eq_of_id (hmem r hr) hvmem hid.symm, ((hrows r).mp hr).2.2] at hvrest
    exact hnew hvrest
  refine ⟨rows ++ more, done ++ done', ?_, ?_, ?_, fun r => ?_⟩
  · exact hrewrote.trans hmore fun r hr v hv hid =>
      hbetween r (hrewrote.sublist.subset hr) v (hmore.sublist.subset hv) hid.symm
  · have hdone : ∀ r ∈ done, r.solutionId = solution :=
      fun r hr => ((hrows r).mp (hrewrote.sublist.subset hr)).2.2
    have hmoreDone : ∀ r ∈ done', r.solutionId ∈ rest :=
      fun r hr => ((hlater r).mp (hmore.sublist.subset hr)).2.2
    rw [numbersOf_cons hnew hdone hmoreDone]
  · refine List.pairwise_append.mpr ⟨hordered.imp fun hlt hid => ?_, happart, hbetween⟩
    rw [hid] at hlt
    exact String.lt_irrefl _ hlt
  · rw [List.mem_append, hrows, hlater, List.mem_cons, ← and_or_left, ← and_or_left]

/-- All solutions have their turn, where their pages can be read. -/
theorem reindexEach_endsIn {size : Nat} (positive : 0 < size)
    (hfits : (size : Int) < Check.wordLimit) (cutoff : Timestamp)
    (firm : ∀ query, ¬ frail (.database (.page query))) {solutions : List String}
    (hsolutions : ∀ solution ∈ solutions,
      Record.columnText (.str solution) = .ok (some solution))
    (hnodup : solutions.Nodup) {w : World} (htable : w.records.Sound)
    (hnow : w.circumstances.now.micros < Timestamp.limit) :
    (Worker.reindexEach (.int size) cutoff solutions).EndsIn (World.Undoes frail) w
      fun outcome moments w' =>
        ∃ results, outcome = .ok results ∧ LeavesOf frail cutoff solutions w results moments w' := by
  induction solutions generalizing w with
  | nil =>
    refine (endsIn_pure _ _ _ _).mpr ⟨_, rfl, [], [], (World.Idle.refl w).rewrote_none, rfl, .nil, ?_⟩
    simp
  | cons solution rest ih =>
    obtain ⟨hnew, hrest⟩ := List.nodup_cons.mp hnodup
    have hsolution := hsolutions solution List.mem_cons_self
    have htaken : ¬ (solutionScan solution cutoff size).Refused size :=
      fun hrefused => (solutionScan_refused_iff hsolution positive).mp hrefused hfits
    unfold Worker.reindexEach
    refine (endsIn_bind _ _ _ _ _).mpr ((endsIn_attempt _ _ _ _).mpr ?_)
    refine (endsIn_bind _ _ _ _ _).mpr ((endsIn_pure _ _ _ _).mpr ?_)
    refine (Store.Scan.run_leaves (solutionScan solution cutoff size) rfl positive htaken firm
      htable hnow).mono ?_
    rintro _ first w₁ ⟨rows, done, hrewrote, rfl, hordered, hrows⟩
    simp only [solutionScan_matches hsolution] at hrows
    refine (endsIn_bind _ _ _ _ _).mpr ((ih (fun s hs => hsolutions s (List.mem_cons_of_mem _ hs))
      hrest (hrewrote.sound htable) (hrewrote.circumstances ▸ hnow)).mono ?_)
    rintro _ second w₂ ⟨results, rfl, hmore⟩
    have htotal : (BucketCounts.tallied [] done).total = done.length := by
      rw [BucketCounts.total_tallied]
      exact Nat.zero_add _
    dsimp only
    rw [htotal]
    refine (endsIn_pure _ _ _ _).mpr ⟨_, rfl, ?_⟩
    have hleaves := hmore.after_solution hnew htable hrewrote hordered hrows
    simpa only [List.append_nil, List.nil_append] using hleaves

/-- Pages that are too large are refused, so no solution is reindexed. -/
theorem reindexEach_refused {size : Nat} (positive : 0 < size)
    (hlarge : ¬ (size : Int) < Check.wordLimit) (cutoff : Timestamp)
    (firm : ∀ query, ¬ frail (.database (.page query))) {solutions : List String}
    (hsolutions : ∀ solution ∈ solutions,
      Record.columnText (.str solution) = .ok (some solution)) (w : World) :
    (Worker.reindexEach (.int size) cutoff solutions).EndsIn (World.Undoes frail) w
      fun outcome moments w' => w.Idle w' moments ∧ outcome = .ok [] := by
  induction solutions generalizing w with
  | nil => exact (endsIn_pure _ _ _ _).mpr ⟨.refl w, rfl⟩
  | cons solution rest ih =>
    have hrefused : (solutionScan solution cutoff size).Refused size :=
      (solutionScan_refused_iff (hsolutions solution List.mem_cons_self) positive).mpr hlarge
    have own (c : Call) : Step.rowBound ≠ .call c := nofun
    unfold Worker.reindexEach
    refine (endsIn_bind _ _ _ _ _).mpr ((endsIn_attempt _ _ _ _).mpr ?_)
    refine (endsIn_bind _ _ _ _ _).mpr ((endsIn_pure _ _ _ _).mpr ?_)
    refine (endsIn_bind _ _ _ _ _).mpr ((endsIn_ask _ _ _ _).mpr fun bound w₀ h => ?_)
    have hidle := h.idle rfl
    unfold Store.Scan.foldFrom
    refine (endsIn_bind _ _ _ _ _).mpr
      ((Store.Scan.page_idle (solutionScan solution cutoff size) rfl firm "" w₀).mono ?_)
    rintro _ first w₁ ⟨hpage, rfl⟩
    obtain ⟨o, hfails⟩ := hrefused w₀.records ""
    rw [hfails]
    refine (endsIn_bind _ _ _ _ _).mpr
      ((ih (fun s hs => hsolutions s (List.mem_cons_of_mem _ hs)) w₁).mono ?_)
    rintro _ second w₂ ⟨hothers, rfl⟩
    refine (endsIn_pure _ _ _ _).mpr ⟨?_, rfl⟩
    have htrans := (hidle.trans hpage).trans hothers
    simpa only [List.append_nil, List.nil_append, List.append_assoc] using htrans

/-! ## The whole run -/

namespace Worker

/-- The rows that a scheduled run rewrites, and what becomes of every row: the stale rows
that are neither reserved nor spoiled are rewritten in full, and all others left. -/
structure Rewrites (w : World) (cutoff : Timestamp) (due : List Record)
    (after : Record → Record) : Prop where
  once : due.Nodup
  mem_iff : ∀ r, r ∈ due ↔ r ∈ w.records ∧ r.isStale cutoff = true ∧
    r.entityName ∉ reservedEntities ∧ ¬ r.IsSpoiled w.definitions
  rewritten : ∀ r ∈ due, r.IsRewriting w.definitions w.circumstances.now (after r)
  left : ∀ r ∈ w.records, r ∉ due → after r = r

/-- What a scheduled run leaves, and what it gives. -/
structure Leaves (w w' : World) (moments : List Moment) (cutoff : Timestamp)
    (due : List Record) (after : Record → Record) (results : List (String × Nat)) : Prop where
  rows : w'.records = w.records.map after
  /-- Each row that is due is saved once, and no other. -/
  saves : (savedIds moments).Perm (due.map fun r => .str r.id)
  fresh : ∀ r ∈ w'.records, r.isStale cutoff = true →
    r.entityName ∈ reservedEntities ∨ r.IsSpoiled w.definitions
  solutions : (results.map (·.1)).Nodup
  /-- Every solution that had a stale row stands with the number of its rows that were due,
  and no other solution stands there. -/
  results : ∀ solution n, (solution, n) ∈ results ↔
    (∃ r ∈ w.records, r.isStale cutoff = true ∧ r.solutionId = solution) ∧
      n = (due.filter (·.solutionId == solution)).length

/-- The stale rows of a table that are not reserved and can be rewritten. -/
def dueRows (definitions : List EntityDefinition) (now cutoff : Timestamp)
    (table : RecordTable) : List Record :=
  table.filter fun r => r.isStale cutoff && !reservedEntities.contains r.entityName &&
    (r.rewritten? definitions now).isSome

theorem mem_dueRows {definitions : List EntityDefinition} {now cutoff : Timestamp}
    {table : RecordTable} {r : Record} : r ∈ dueRows definitions now cutoff table ↔
      r ∈ table ∧ r.isStale cutoff = true ∧ r.IsDue definitions now := by
  unfold dueRows
  rw [List.mem_filter, Bool.and_eq_true, Bool.and_eq_true, Bool.not_eq_true', and_assoc,
    Bool.eq_false_iff, ne_eq, List.contains_iff_mem]
  exact and_congr_right fun _ => and_congr_right fun _ =>
    ⟨fun ⟨hunreserved, hreadable⟩ => ⟨hunreserved, hreadable⟩,
      fun hdue => ⟨hdue.unreserved, hdue.readable⟩⟩

theorem rewrites_dueRows (htable : w.records.Sound)
    (wellFormed : ∀ d ∈ w.definitions, d.WellFormed) (cutoff : Timestamp) :
    let due := dueRows w.definitions w.circumstances.now cutoff w.records
    Rewrites w cutoff due (Record.amid w.definitions w.circumstances.now (due.map (·.id))) := by
  intro due
  have hmem : ∀ r ∈ due, r ∈ w.records := fun r hr => (mem_dueRows.mp hr).1
  refine ⟨?_, fun r => ?_, fun r hr => ?_, fun r hr hleft => ?_⟩
  · refine (htable.ordered.filter _).imp fun hlt hsame => ?_
    rw [hsame] at hlt
    exact String.lt_irrefl _ hlt
  · rw [mem_dueRows]
    refine and_congr_right fun hr => and_congr_right fun _ => ?_
    have hreadable := Record.rewritten?_isSome_iff wellFormed w.circumstances.now (htable.rows r hr)
    rw [← hreadable]
    exact ⟨fun h => ⟨h.unreserved, h.readable⟩, fun h => ⟨h.1, h.2⟩⟩
  · exact Record.isRewriting_amid (List.mem_map.mpr ⟨r, hr, rfl⟩) (mem_dueRows.mp hr).2.2.readable
  · exact Record.amid_of_not_mem fun hid => hleft ((Reindex.mem_of_id_mem htable hmem hr).mp hid)

/-- After a run that rewrote the rows that were due, nothing is stale but what cannot
be rewritten. -/
theorem Rewrites.fresh {cutoff : Timestamp} {due : List Record} {after : Record → Record}
    (h : Rewrites w cutoff due after) (past : cutoff.micros ≤ w.circumstances.now.micros)
    {r : Record} (hr : r ∈ w.records.map after) (hstale : r.isStale cutoff = true) :
    r.entityName ∈ reservedEntities ∨ r.IsSpoiled w.definitions := by
  obtain ⟨old, hold, rfl⟩ := List.mem_map.mp hr
  by_cases hdue : old ∈ due
  · unfold Record.isStale at hstale
    rw [(h.rewritten old hdue).stamp] at hstale
    exact absurd (of_decide_eq_true hstale) (Nat.not_lt.mpr past)
  · rw [h.left old hold hdue] at hstale ⊢
    by_cases hreserved : old.entityName ∈ reservedEntities
    · exact Or.inl hreserved
    · by_cases hspoiled : old.IsSpoiled w.definitions
      · exact Or.inr hspoiled
      · exact absurd ((h.mem_iff old).mpr ⟨hold, hstale, hreserved, hspoiled⟩) hdue

/-- A run that listed the solutions in some order leaves what every such run leaves. -/
theorem leaves_of_rewrote (htable : w.records.Sound)
    (wellFormed : ∀ d ∈ w.definitions, d.WellFormed) {cutoff : Timestamp}
    (past : cutoff.micros ≤ w.circumstances.now.micros) {w' : World} {moments : List Moment}
    {rows done : List Record} (h : w.Rewrote besidesStore w' moments rows done)
    (apart : rows.Pairwise (·.id ≠ ·.id))
    (hrows : ∀ r, r ∈ rows ↔ r ∈ w.records ∧ r.isStale cutoff = true)
    {solutions : List String} (listed : solutions.Perm (w.records.staleSolutions cutoff)) :
    let due := dueRows w.definitions w.circumstances.now cutoff w.records
    Leaves w w' moments cutoff due
      (Record.amid w.definitions w.circumstances.now (due.map (·.id)))
      (numbersOf solutions done) := by
  intro due
  have hrewrites := rewrites_dueRows htable wellFormed cutoff
  have hmem (r : Record) : r ∈ done ↔ r ∈ due := by
    rw [mem_dueRows, ← and_assoc, ← hrows]
    refine ⟨fun hr => ⟨h.sublist.subset hr, h.due r hr⟩, fun ⟨hr, hdue⟩ => ?_⟩
    exact h.all r hr hdue ⟨fun may => may, fun may => may, fun _ _ _ _ may => may⟩
  have hdistinct : done.Nodup := by
    refine (apart.sublist h.sublist).imp fun hne hsame => ?_
    rw [hsame] at hne
    exact hne rfl
  have hperm : done.Perm due := (List.perm_ext_iff_of_nodup hdistinct hrewrites.once).mpr hmem
  have hrecords : w'.records = w.records.map
      (Record.amid w.definitions w.circumstances.now (due.map (·.id))) := by
    rw [h.records, Record.amid_congr fun id => (hperm.map (·.id)).mem_iff]
  refine ⟨hrecords, ?_, fun r hr hstale => ?_, ?_, fun solution n => ?_⟩
  · rw [h.saves fun _ _ _ may => may]
    exact hperm.map _
  · rw [hrecords] at hr
    exact hrewrites.fresh past hr hstale
  · unfold numbersOf
    rw [List.map_map]
    have hnames : solutions.map ((·.1) ∘ fun solution : String =>
        (solution, (done.filter (·.solutionId == solution)).length)) = solutions := List.map_id _
    rw [hnames]
    exact listed.nodup_iff.mpr (RecordTable.nodup_staleSolutions _ _)
  · rw [← RecordTable.mem_staleSolutions, ← listed.mem_iff,
      ← (hperm.filter (·.solutionId == solution)).length_eq]
    unfold numbersOf
    simp only [List.mem_map, Prod.mk.injEq]
    constructor
    · rintro ⟨_, hin, rfl, rfl⟩
      exact ⟨hin, rfl⟩
    · rintro ⟨hin, rfl⟩
      exact ⟨solution, hin, rfl, rfl⟩

/-- A run whose cutoff leaves the calendar fails at once. -/
theorem scheduled_fails {minutes : Nat}
    (cutoffMinutes : w.circumstances.settings.cutoffMinutes = .int minutes)
    (clock : w.circumstances.now.micros < Timestamp.limit)
    (hnone : cutoffBefore w.circumstances.now minutes = none) :
    scheduled.EndsIn (World.Undoes frail) w fun outcome _ w' =>
      (∃ f, outcome = .error f) ∧ w'.records = w.records := by
  refine (endsIn_bind _ _ _ _ _).mpr ((usualCutoff_endsIn cutoffMinutes clock).mono ?_)
  rintro outcome first w₁ ⟨hfirst, hcutoff⟩
  rw [hnone] at hcutoff
  rcases outcome with f | cutoff
  · exact ⟨⟨f, rfl⟩, hfirst.records⟩
  · cases hcutoff

/-- What a scheduled run with a cutoff ends with: with what all such runs leave, or
with nothing where pages are too large for the database. -/
def Ends (w : World) (cutoff : Timestamp) (size : Nat)
    (outcome : Except Failure (List (String × Nat))) (moments : List Moment) (w' : World) :
    Prop :=
  let due := dueRows w.definitions w.circumstances.now cutoff w.records
  ((size : Int) < Check.wordLimit → ∃ results, outcome = .ok results ∧
    Leaves w w' moments cutoff due
      (Record.amid w.definitions w.circumstances.now (due.map (·.id))) results) ∧
  (¬ (size : Int) < Check.wordLimit → outcome = .ok [] ∧ w'.records = w.records)

theorem scheduled_endsIn {minutes size : Nat}
    (cutoffMinutes : w.circumstances.settings.cutoffMinutes = .int minutes)
    (reindexPage : w.circumstances.settings.reindexPage = .int size) (positive : 0 < size)
    (htable : w.records.Sound) (clock : w.circumstances.now.micros < Timestamp.limit)
    (wellFormed : ∀ d ∈ w.definitions, d.WellFormed) {cutoff : Timestamp}
    (hsome : cutoffBefore w.circumstances.now minutes = some cutoff) :
    scheduled.EndsIn (World.Undoes besidesStore) w (Ends w cutoff size) := by
  have hpast := cutoffBefore_le hsome
  refine (endsIn_bind _ _ _ _ _).mpr ((usualCutoff_endsIn cutoffMinutes clock).mono ?_)
  rintro outcome first w₁ ⟨hfirst, hcutoff⟩
  obtain rfl := toOption_eq_some.mp (hcutoff.trans hsome)
  refine (endsIn_bind _ _ _ _ _).mpr ((circumstances_endsIn w₁).mono ?_)
  rintro _ second w₂ ⟨hsecond, rfl⟩
  refine (endsIn_bind _ _ _ _ _).mpr ((dueSolutions_endsIn cutoff (fun may => may) w₂).mono ?_)
  rintro _ third w₃ ⟨hthird, solutions, rfl, hlisted⟩
  have hidle : w.Idle w₃ (first ++ (second ++ third)) := hfirst.trans (hsecond.trans hthird)
  rw [hsecond.records, hfirst.records] at hlisted
  have hsolutions : ∀ solution ∈ solutions,
      Record.columnText (.str solution) = .ok (some solution) := by
    intro solution hin
    obtain ⟨r, hr, -, rfl⟩ := RecordTable.mem_staleSolutions.mp (hlisted.mem_iff.mp hin)
    exact (htable.rows r hr).solutionId
  rw [hfirst.circumstances, reindexPage]
  by_cases hfits : (size : Int) < Check.wordLimit
  · have hnodup := hlisted.nodup_iff.mpr (RecordTable.nodup_staleSolutions _ _)
    refine (reindexEach_endsIn positive hfits cutoff (fun _ may => may) hsolutions hnodup
      (hidle.records ▸ htable) (hidle.circumstances ▸ clock)).mono ?_
    rintro _ fourth w' ⟨_, rfl, rows, done, hrewrote, rfl, happart, hrows⟩
    refine ⟨fun _ => ⟨_, rfl, ?_⟩, fun hlarge => absurd hfits hlarge⟩
    have hall := hidle.thenRewrote hrewrote
    rw [List.append_assoc, List.append_assoc] at hall
    refine leaves_of_rewrote htable wellFormed hpast hall happart (fun r => ?_) hlisted
    rw [hrows, hidle.records]
    refine and_congr_right fun hr => and_iff_left_of_imp fun hstale => ?_
    exact hlisted.mem_iff.mpr (RecordTable.mem_staleSolutions.mpr ⟨r, hr, hstale, rfl⟩)
  · refine (reindexEach_refused positive hfits cutoff (fun _ may => may) hsolutions w₃).mono ?_
    rintro _ fourth w' ⟨hlast, rfl⟩
    exact ⟨fun h => absurd h hfits, fun _ => ⟨rfl, hlast.records.trans hidle.records⟩⟩

/-- Whatever the search engine does, and in whatever order the solutions are listed, a
scheduled run rewrites each stale row that is neither reserved nor spoiled exactly
once, leaves all other rows, and counts those that it rewrote for their solutions.
It does nothing where the cutoff leaves the calendar, or where a page is larger
than a machine word can count. -/
theorem every_due_row_is_rewritten_once {minutes size : Nat}
    (cutoffMinutes : w.circumstances.settings.cutoffMinutes = .int minutes)
    (reindexPage : w.circumstances.settings.reindexPage = .int size) (positive : 0 < size)
    (htable : w.records.Sound) (clock : w.circumstances.now.micros < Timestamp.limit)
    (wellFormed : ∀ d ∈ w.definitions, d.WellFormed) :
    (∀ cutoff, cutoffBefore w.circumstances.now minutes = some cutoff →
      (size : Int) < Check.wordLimit →
      ∃ due after, Rewrites w cutoff due after ∧
        scheduled.EndsIn (World.Undoes besidesStore) w fun outcome moments w' =>
          ∃ results, outcome = .ok results ∧ Leaves w w' moments cutoff due after results) ∧
    (∀ cutoff, cutoffBefore w.circumstances.now minutes = some cutoff →
      ¬ (size : Int) < Check.wordLimit →
      scheduled.EndsIn (World.Undoes besidesStore) w fun outcome _ w' =>
        outcome = .ok [] ∧ w'.records = w.records) ∧
    (cutoffBefore w.circumstances.now minutes = none →
      scheduled.EndsIn (World.Undoes besidesStore) w fun outcome _ w' =>
        (∃ f, outcome = .error f) ∧ w'.records = w.records) := by
  refine ⟨fun cutoff hsome hfits => ?_, fun cutoff hsome hlarge => ?_, fun hnone => ?_⟩
  · refine ⟨_, _, rewrites_dueRows htable wellFormed cutoff, ?_⟩
    have hends := scheduled_endsIn cutoffMinutes reindexPage positive htable clock wellFormed hsome
    exact hends.mono fun _ _ _ h => h.1 hfits
  · have hends := scheduled_endsIn cutoffMinutes reindexPage positive htable clock wellFormed hsome
    exact hends.mono fun _ _ _ h => h.2 hlarge
  · exact scheduled_fails cutoffMinutes clock hnone

/-! ## A run for an event, and one for an event that is spoiled -/

/-- Settings under which all is stale that was not pushed by now. -/
def atOnce : Circumstances := { now := ⟨0⟩, settings := { cutoffMinutes := .int (0 : Nat) } }

/-- A world with one event that was never pushed to search. -/
def oneEvent : World where
  circumstances := atOnce
  records := [{ id := "e-1", entityName := "Event", solutionId := "sol-1" }]

/-- The event is rewritten and counted. -/
theorem a_waiting_event_is_rewritten_once :
    oneEvent.circumstances.settings.cutoffMinutes = .int (0 : Nat) ∧
    oneEvent.circumstances.settings.reindexPage = .int (100 : Nat) ∧ 0 < 100 ∧
    oneEvent.records.Sound ∧ oneEvent.circumstances.now.micros < Timestamp.limit ∧
    (∀ d ∈ oneEvent.definitions, d.WellFormed) ∧
    ∃ due after moments w', Rewrites oneEvent ⟨0⟩ due after ∧
      scheduled.run.Through (World.Undoes besidesStore) oneEvent moments (.ok [("sol-1", 1)]) w' ∧
      Leaves oneEvent w' moments ⟨0⟩ due after [("sol-1", 1)] := by
  have htable : oneEvent.records.Sound := by decide +kernel
  have hclock : oneEvent.circumstances.now.micros < Timestamp.limit := by decide
  have hdefinitions : ∀ d ∈ oneEvent.definitions, d.WellFormed :=
    fun _ h => absurd h List.not_mem_nil
  obtain ⟨hworks, -, -⟩ := every_due_row_is_rewritten_once (w := oneEvent)
    rfl rfl (by decide) htable hclock hdefinitions
  obtain ⟨due, after, hrewrites, hends⟩ := hworks _ (cutoffBefore_zero hclock) (by decide)
  have hruns : ∃ moments w', scheduled.run.Through (World.Undoes besidesStore) oneEvent moments
      (.ok [("sol-1", 1)]) w' :=
    exists_through_run _ (fun w s (h : w.Plans (besidesSaves besidesStore)) =>
      ⟨.of_plans h, h.answer s⟩) (fun _ h => absurd h List.not_mem_nil) (by decide +kernel)
  obtain ⟨moments, w', hruns⟩ := hruns
  obtain ⟨results, hresults, hleaves⟩ := hends _ _ _ hruns
  cases hresults
  exact ⟨rfl, rfl, by decide, htable, hclock, hdefinitions, due, after, moments, w', hrewrites,
    hruns, hleaves⟩

/-- An event whose title has a character reference of more digits than one may have. -/
def spoiledEvent : Fields := [("id", .str "e-1"), ("entityName", .str "Event"),
  ("solutionId", .str "sol-1"),
  ("title", .str (String.ofList ('&' :: '#' :: List.replicate 4301 '1')))]

/-- The row of that event. -/
def spoiledRow : Record :=
  { id := "e-1", entityName := "Event", solutionId := "sol-1", body := Record.bodyOf spoiledEvent }

theorem save_spoiledEvent :
    RecordTable.save [] spoiledEvent none = .ok (Record.savedDocument spoiledEvent none, [spoiledRow]) :=
  rfl

theorem isSpoiled_spoiledRow : spoiledRow.IsSpoiled [] := by
  have htitle : spoiledRow.document.look "title" =
      .str (String.ofList ('&' :: '#' :: List.replicate 4301 '1')) := rfl
  refine ⟨{}, rfl, "title", Or.inl List.mem_cons_self, ?_⟩
  rw [htitle]
  refine PlainText.spoils_of_digits (fun c hc => ?_) ?_
  · rw [List.eq_of_mem_replicate hc]
    decide
  · rw [List.length_replicate]
    decide

/-- A world with that event, as it is when the event has been saved. -/
def spoiledWorld : World where
  circumstances := atOnce
  records := [spoiledRow]

/-- An event that waits in the first hour of the calendar, while all that is less than
an hour old is fresh. -/
def firstHour : World := { oneEvent with circumstances := { now := ⟨0⟩ } }

/-- An event that waits while pages have more rows than a machine word can count. -/
def hugePages : World :=
  { oneEvent with circumstances :=
      { atOnce with settings := { atOnce.settings with reindexPage := .int (2 ^ 63 : Nat) } } }

/-- A world without outages goes through a scheduled run. -/
theorem exists_scheduled_run (hplans : w.plans = []) : ∃ outcome moments w',
    scheduled.run.Through (World.Undoes besidesStore) w moments outcome w' := by
  have hfact : w.Plans (besidesSaves besidesStore) := by
    intro c hc
    rw [hplans] at hc
    cases hc
  exact ⟨_, _, _, scheduled.run.through_run
    (fun w s (h : w.Plans (besidesSaves besidesStore)) => ⟨.of_plans h, h.answer s⟩) hfact⟩

theorem sound_spoiledWorld : spoiledWorld.records.Sound := by decide +kernel

theorem dueRows_spoiledWorld :
    dueRows spoiledWorld.definitions spoiledWorld.circumstances.now ⟨0⟩ spoiledWorld.records = [] := by
  refine List.eq_nil_iff_forall_not_mem.mpr fun r hr => ?_
  obtain ⟨hmem, -, hdue⟩ := mem_dueRows.mp hr
  have hdefinitions : ∀ d ∈ spoiledWorld.definitions, d.WellFormed :=
    fun _ h => absurd h List.not_mem_nil
  have hclean := (Record.rewritten?_isSome_iff hdefinitions _ (sound_spoiledWorld.rows r hmem)).mp
    hdue.readable
  rw [List.mem_singleton.mp hmem] at hclean
  exact hclean isSpoiled_spoiledRow

/-- The spoiled event stays as it is, stale, and is not counted. In the first hour of the
calendar a run gives no results, and with huge pages it gives none for the solution
of an event that waits. -/
theorem a_spoiled_event_stays_stale :
    ((∃ saved, RecordTable.save [] spoiledEvent none = .ok (saved, spoiledWorld.records)) ∧
      spoiledRow.isStale ⟨0⟩ = true ∧ spoiledRow.entityName ∉ reservedEntities ∧
      cutoffBefore spoiledWorld.circumstances.now 0 = some ⟨0⟩ ∧
      ∃ results moments w', scheduled.run.Through (World.Undoes besidesStore) spoiledWorld moments
        (.ok results) w' ∧ w'.records = [spoiledRow] ∧ ("sol-1", 0) ∈ results ∧
          ("sol-1", 1) ∉ results) ∧
    (∃ f moments w', scheduled.run.Through (World.Undoes besidesStore) firstHour moments
      (.error f) w') ∧
    ∃ moments w', scheduled.run.Through (World.Undoes besidesStore) hugePages moments (.ok []) w' := by
  have hcutoff {now : Timestamp} (h : now = ⟨0⟩) : cutoffBefore now 0 = some ⟨0⟩ := by
    rw [h]
    exact cutoffBefore_zero (by decide)
  have hdefinitions : ∀ d ∈ ([] : List EntityDefinition), d.WellFormed :=
    fun _ h => absurd h List.not_mem_nil
  refine ⟨⟨⟨_, save_spoiledEvent⟩, rfl, by decide, hcutoff rfl, ?_⟩, ?_, ?_⟩
  · obtain ⟨outcome, moments, w', hruns⟩ := exists_scheduled_run (w := spoiledWorld) rfl
    obtain ⟨results, rfl, hleaves⟩ := (scheduled_endsIn (w := spoiledWorld) rfl rfl (by decide)
      sound_spoiledWorld (by decide) hdefinitions (hcutoff rfl) _ _ _ hruns).1 (by decide)
    rw [dueRows_spoiledWorld] at hleaves
    have hstale : ∃ r ∈ spoiledWorld.records, r.isStale ⟨0⟩ = true ∧ r.solutionId = "sol-1" :=
      ⟨spoiledRow, List.mem_cons_self, rfl, rfl⟩
    refine ⟨results, moments, w', hruns, ?_, ?_, ?_⟩
    · exact hleaves.rows.trans (World.map_amid_nil _)
    · exact (hleaves.results _ _).mpr ⟨hstale, rfl⟩
    · intro hone
      exact absurd ((hleaves.results _ _).mp hone).2 (by decide)
  · obtain ⟨outcome, moments, w', hruns⟩ := exists_scheduled_run (w := firstHour) rfl
    obtain ⟨⟨f, rfl⟩, -⟩ := scheduled_fails (w := firstHour) rfl (by decide)
      (cutoffBefore_eq_none (by decide)) _ _ _ hruns
    exact ⟨f, moments, w', hruns⟩
  · obtain ⟨outcome, moments, w', hruns⟩ := exists_scheduled_run (w := hugePages) rfl
    obtain ⟨rfl, -⟩ := (scheduled_endsIn (w := hugePages) rfl rfl (by decide) (by decide +kernel)
      (by decide) hdefinitions (hcutoff rfl) _ _ _ hruns).2 (by decide)
    exact ⟨moments, w', hruns⟩

end Worker

end TenantSearch
