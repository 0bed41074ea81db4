-- What counting records by buckets gives: every bucket that came up stands once,
-- with the number of its records.
import TenantSearch.Document.Reindex
import TenantSearch.Proofs.NamedValues

namespace TenantSearch

/-- With each name once, a pair is there just when its value stands under its name. -/
theorem mem_iff_valueUnder {α : Type} {pairs : List (String × α)} (h : (pairs.map (·.1)).Nodup)
    (name : String) (v : α) : (name, v) ∈ pairs ↔ valueUnder pairs name = some v := by
  induction pairs with
  | nil => simp [valueUnder]
  | cons pair pairs ih =>
    obtain ⟨first, u⟩ := pair
    rw [List.map_cons, List.nodup_cons] at h
    rw [valueUnder_cons, List.mem_cons, ih h.2]
    by_cases hname : first = name
    · subst hname
      have hnone : ¬ valueUnder pairs first = some v := by
        intro hv
        rw [← ih h.2] at hv
        exact h.1 (List.mem_map.mpr ⟨_, hv, rfl⟩)
      simp [hnone, eq_comm]
    · simp [hname, Ne.symm hname]

namespace BucketCounts

/-! ## One record more -/

/-- The number that stands by a bucket, nought where it did not come up. -/
def numberOf (counts : BucketCounts) (bucket : String) : Nat := (valueUnder counts bucket).getD 0

theorem numberOf_count (counts : BucketCounts) (bucket name : String) :
    (counts.count bucket).numberOf name =
      if name = bucket then counts.numberOf bucket + 1 else counts.numberOf name := by
  induction counts with
  | nil =>
    by_cases h : name = bucket
    · simp [count, numberOf, valueUnder, h]
    · simp [count, numberOf, valueUnder, h, Ne.symm h]
  | cons entry rest ih =>
    obtain ⟨first, n⟩ := entry
    unfold numberOf at ih ⊢
    unfold count
    by_cases hfirst : first = bucket
    · subst hfirst
      by_cases h : name = first
      · simp [valueUnder_cons, h]
      · simp [valueUnder_cons, h, Ne.symm h]
    · by_cases h : first = name
      · subst h
        simp [valueUnder_cons, hfirst]
      · simp [valueUnder_cons, hfirst, h, ih]

theorem mem_count_name {counts : BucketCounts} {bucket name : String}
    (h : name ∈ (counts.count bucket).map (·.1)) : name = bucket ∨ name ∈ counts.map (·.1) := by
  induction counts with
  | nil => simpa [count] using h
  | cons entry rest ih =>
    unfold count at h
    split at h
    · exact Or.inr h
    · rw [List.map_cons, List.mem_cons] at h ⊢
      rcases h with h | h
      · exact Or.inr (Or.inl h)
      · exact (ih h).imp_right Or.inr

theorem nodup_count {counts : BucketCounts} (h : (counts.map (·.1)).Nodup) (bucket : String) :
    ((counts.count bucket).map (·.1)).Nodup := by
  induction counts with
  | nil => simp [count]
  | cons entry rest ih =>
    obtain ⟨hfirst, hrest⟩ := List.nodup_cons.mp h
    unfold count
    split
    · exact h
    · next hother =>
      refine List.nodup_cons.mpr ⟨fun hmem => ?_, ih hrest⟩
      rcases mem_count_name hmem with hsame | hmem
      · exact hother (beq_iff_eq.mpr hsame)
      · exact hfirst hmem

theorem pos_count {counts : BucketCounts} (h : ∀ entry ∈ counts, 0 < entry.2) (bucket : String) :
    ∀ entry ∈ counts.count bucket, 0 < entry.2 := by
  induction counts with
  | nil => simp [count]
  | cons entry rest ih =>
    obtain ⟨hfirst, hrest⟩ := List.forall_mem_cons.mp h
    unfold count
    split
    · exact List.forall_mem_cons.mpr ⟨Nat.succ_pos _, hrest⟩
    · exact List.forall_mem_cons.mpr ⟨hfirst, ih hrest⟩

theorem foldl_total (counts : BucketCounts) (start : Nat) :
    counts.foldl (fun sum bucket => sum + bucket.2) start = start + counts.total := by
  unfold total
  induction counts generalizing start with
  | nil => rfl
  | cons entry rest ih =>
    rw [List.foldl_cons, List.foldl_cons, ih, ih (0 + entry.2)]
    omega

theorem total_cons (entry : String × Nat) (rest : BucketCounts) :
    total (entry :: rest) = entry.2 + total rest := by
  have hfold : total (entry :: rest) =
      rest.foldl (fun sum bucket => sum + bucket.2) (0 + entry.2) := rfl
  rw [hfold, foldl_total, Nat.zero_add]

theorem total_count (counts : BucketCounts) (bucket : String) :
    (counts.count bucket).total = counts.total + 1 := by
  induction counts with
  | nil => rfl
  | cons entry rest ih =>
    unfold count
    split
    · rw [total_cons, total_cons]
      dsimp only
      omega
    · rw [total_cons, total_cons, ih]
      omega

/-! ## All records -/

/-- The counts with these records more, each in its bucket. -/
def tallied (counts : BucketCounts) (done : List Record) : BucketCounts :=
  done.foldl (fun counts r => counts.count (bucketOf r.document)) counts

/-- The counts of these records: each bucket that one of them is in stands once, with
the number of those that are, which is never nought. -/
structure Tallies (counts : BucketCounts) (done : List Record) : Prop where
  once : (counts.map (·.1)).Nodup
  mem_iff : ∀ bucket n, (bucket, n) ∈ counts ↔
    0 < n ∧ (done.filter (bucketOf ·.document == bucket)).length = n

theorem numberOf_tallied (counts : BucketCounts) (done : List Record) (bucket : String) :
    (counts.tallied done).numberOf bucket =
      counts.numberOf bucket + (done.filter (bucketOf ·.document == bucket)).length := by
  induction done generalizing counts with
  | nil => rfl
  | cons r rest ih =>
    have hstep : counts.tallied (r :: rest) = (counts.count (bucketOf r.document)).tallied rest := rfl
    rw [hstep, ih, numberOf_count, List.filter_cons]
    by_cases h : bucketOf r.document = bucket
    · subst h
      simp only [beq_self_eq_true, ↓reduceIte, List.length_cons]
      omega
    · simp [h, Ne.symm h]

theorem tallied_keeps (fact : BucketCounts → Prop)
    (step : ∀ counts bucket, fact counts → fact (counts.count bucket)) {counts : BucketCounts}
    (h : fact counts) (done : List Record) : fact (counts.tallied done) := by
  induction done generalizing counts with
  | nil => exact h
  | cons r rest ih => exact ih (step counts _ h)

theorem tallies (done : List Record) : Tallies (tallied [] done) done := by
  have hnodup : ((tallied [] done).map (·.1)).Nodup := by
    apply tallied_keeps fun counts : BucketCounts => (counts.map (·.1)).Nodup
    · exact fun _ bucket h => nodup_count h bucket
    · exact List.nodup_nil
  have hpos : ∀ entry ∈ tallied [] done, 0 < entry.2 := by
    apply tallied_keeps fun counts : BucketCounts => ∀ entry ∈ counts, 0 < entry.2
    · exact fun _ bucket h => pos_count h bucket
    · exact fun _ h => absurd h List.not_mem_nil
  refine ⟨hnodup, fun bucket n => ?_⟩
  have hnumber := numberOf_tallied [] done bucket
  have hnone : numberOf [] bucket = 0 := rfl
  rw [hnone, Nat.zero_add] at hnumber
  rw [← hnumber]
  constructor
  · intro h
    refine ⟨hpos _ h, ?_⟩
    rw [mem_iff_valueUnder hnodup] at h
    unfold numberOf
    rw [h]
    rfl
  · rintro ⟨hn, hsame⟩
    rw [mem_iff_valueUnder hnodup]
    unfold numberOf at hsame
    rcases hvalue : valueUnder (tallied [] done) bucket with _ | m
    · rw [hvalue] at hsame
      exact absurd hsame (Nat.ne_of_lt hn)
    · rw [hvalue] at hsame
      rw [← hsame]
      rfl

theorem total_tallied (counts : BucketCounts) (done : List Record) :
    (counts.tallied done).total = counts.total + done.length := by
  induction done generalizing counts with
  | nil => rfl
  | cons r rest ih =>
    have hstep : counts.tallied (r :: rest) = (counts.count (bucketOf r.document)).tallied rest := rfl
    rw [hstep, ih, total_count, List.length_cons]
    omega

end BucketCounts

end TenantSearch
