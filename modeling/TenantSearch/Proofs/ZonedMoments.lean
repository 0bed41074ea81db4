-- A moment is read back from its local time in any zone, and what is read from the texts of two
-- moments compares as the moments do: a stamp with the mark of UTC and a cutoff without a zone.
import TenantSearch.Proofs.ReindexedRows

namespace TenantSearch

namespace Timestamp

/-! ## Zones -/

open Duration (microsPerMinute)

def minutesPerDay : Nat := 24 * 60

/-- The mark of a zone that is so many minutes ahead of UTC. -/
def zoneText (minutes : Int) : String :=
  (if minutes < 0 then "-" else "+") ++ padded 2 (minutes.natAbs / 60) ++ ":" ++
    padded 2 (minutes.natAbs % 60)

theorem clock?_of_hours {hours minutes : Nat} {hs ms : List Char} (hhours : IsPart 2 hours hs)
    (hminutes : IsPart 2 minutes ms) : clock? (hs ++ ':' :: ms) = some { hours, minutes } := by
  obtain ⟨c, rest, hms, -⟩ := hminutes.head (by decide)
  have htaken := hminutes.take? []
  rw [List.append_nil, hms] at htaken
  have hend : following? true [] = some (.ending true) := rfl
  unfold clock?
  rw [hhours.take?, hms]
  simp only [Option.bind_eq_bind, Option.bind_some, List.head?_cons, beq_self_eq_true,
    following?_part, htaken, hend]

theorem offset?_of_clock {zone : List Char} {clock : Clock} (h : clock? zone = some clock)
    (hends : clock.ends = true) (hwhole : clock.total = 0 ∨ 1000000 ≤ clock.total)
    (hday : clock.total < microsPerDay) : offset? zone = some clock.total := by
  unfold offset?
  rw [h]
  simp only [Option.bind_eq_bind, Option.bind_some, hends, Bool.not_true, Bool.false_eq_true,
    if_false, if_pos hday]
  rcases hwhole with hnone | hsome
  · rw [hnone, ite_self]
  · rw [if_neg (Nat.not_lt.mpr hsome)]

theorem total_of_hours (hours minutes : Nat) :
    Clock.total { hours, minutes } = (hours * 60 + minutes) * microsPerMinute := by
  simp only [Clock.total, microsPerMinute, Nat.add_zero, Nat.mul_assoc]

/-- Hours and minutes of less than a day are how far a zone is from UTC. -/
theorem offset?_of_hours {hours minutes : Nat} {hs ms : List Char} (hhours : IsPart 2 hours hs)
    (hminutes : IsPart 2 minutes ms) (hday : hours * 60 + minutes < minutesPerDay) :
    offset? (hs ++ ':' :: ms) = some ((hours * 60 + minutes) * microsPerMinute) := by
  have htotal := total_of_hours hours minutes
  have hoffset := offset?_of_clock (clock?_of_hours hhours hminutes) rfl
  rw [htotal] at hoffset
  unfold minutesPerDay at hday
  unfold microsPerMinute microsPerDay at hoffset
  unfold microsPerMinute
  exact hoffset (by omega) (by omega)

/-- The mark of a zone of less than a day is a sign and how far the zone is from UTC. -/
theorem zoneText_spec {minutes : Int} (h : minutes.natAbs < minutesPerDay) :
    ∃ sign zone, (zoneText minutes).toList = sign :: zone ∧ sign ∈ ['+', '-'] ∧
      offset? zone = some (minutes.natAbs * microsPerMinute) ∧
      (sign == '-') = decide (minutes < 0) ∧ ∀ c ∈ sign :: zone, c ≠ 'Z' := by
  have hday : minutes.natAbs < 1440 := h
  have hhours : IsPart 2 (minutes.natAbs / 60) (padded 2 (minutes.natAbs / 60)).toList :=
    isPart_padded (by decide) (by omega)
  have hminutes : IsPart 2 (minutes.natAbs % 60) (padded 2 (minutes.natAbs % 60)).toList :=
    isPart_padded (by decide) (by omega)
  have hsum : minutes.natAbs / 60 * 60 + minutes.natAbs % 60 = minutes.natAbs := by omega
  have hoffset := offset?_of_hours hhours hminutes (hsum.symm ▸ h)
  rw [hsum] at hoffset
  refine ⟨if minutes < 0 then '-' else '+', _, ?_, ?_, hoffset, ?_, ?_⟩
  · unfold zoneText
    split
    · simp [String.toList_append]
    · simp [String.toList_append]
  · split
    · decide
    · decide
  · split
    · next hbehind => simp [hbehind]
    · next hahead => simp [hahead]
  · have hdigit : ∀ c : Char, c.isDigit = true → c ≠ 'Z' := by
      rintro c hc rfl
      cases hc
    intro c hc
    simp only [List.mem_cons, List.mem_append] at hc
    rcases hc with rfl | hc | rfl | hc
    · split
      · decide
      · decide
    · exact hdigit c (hhours.digits c hc)
    · decide
    · exact hdigit c (hminutes.digits c hc)

/-- Local time and zone are read as they are written. -/
theorem readLocal?_iso_zoneText {here : Timestamp} (h : here.micros < limit) {minutes : Int}
    (hzone : minutes.natAbs < minutesPerDay) :
    readLocal? (withOffset (here.iso ++ zoneText minutes)) =
      some (here, some (minutes * microsPerMinute)) := by
  obtain ⟨date, clock, htext, hwrites⟩ := writes_iso h
  obtain ⟨sign, zone, hmark, hsign, hoffset, hbehind, hunmarked⟩ := zoneText_spec hzone
  have hplain : ∀ c ∈ date ++ 'T' :: (clock ++ sign :: zone), c ≠ 'Z' := by
    intro c hc
    rw [← List.cons_append, ← List.append_assoc] at hc
    rcases List.mem_append.mp hc with hc | hc
    · exact hwrites.unmarked c hc
    · exact hunmarked c hc
  have hsigned : (if sign == '-' then -((minutes.natAbs * microsPerMinute : Nat) : Int)
      else ((minutes.natAbs * microsPerMinute : Nat) : Int)) = minutes * microsPerMinute := by
    rw [hbehind]
    unfold microsPerMinute
    split
    · next hnegative =>
      have hnegative := of_decide_eq_true hnegative
      omega
    · next hpositive =>
      have hpositive : ¬ minutes < 0 := fun hlt => hpositive (decide_eq_true hlt)
      omega
  rw [withOffset_eq, String.toList_append, htext, hmark, List.append_assoc, List.cons_append,
    flatMap_unmarked hplain, hwrites.readLocal?_zoned hsign hoffset, hsigned]

/-- What was shifted is shifted back. -/
theorem shift?_back {t here : Timestamp} (h : t.micros < limit) {micros : Int}
    (hshift : t.shift? micros = some here) :
    here.shift? (-micros) = some t ∧ here.micros < limit := by
  unfold shift? at hshift ⊢
  dsimp only at hshift
  split at hshift
  · next hrange =>
    cases hshift
    dsimp only
    have hback : ((((t.micros : Int) + micros).toNat : Nat) : Int) + -micros = t.micros := by omega
    rw [hback, if_pos ⟨by omega, by omega⟩, Int.toNat_natCast]
    exact ⟨rfl, by omega⟩
  · cases hshift

theorem ofText_zoned {t here : Timestamp} (h : t.micros < limit) {minutes : Int}
    (hzone : minutes.natAbs < minutesPerDay)
    (hshift : t.shift? (minutes * microsPerMinute) = some here) :
    ofText (here.iso ++ zoneText minutes) = .ok t := by
  obtain ⟨hback, hhere⟩ := shift?_back h hshift
  exact ofText_of_read (readLocal?_iso_zoneText hhere hzone) hback

/-- A moment without a shift is its own local time. -/
theorem ofText_iso_zero {t : Timestamp} (h : t.micros < limit) :
    ofText (t.iso ++ "+00:00") = .ok t := by
  have hmark : zoneText 0 = "+00:00" := by decide
  rw [← hmark]
  refine ofText_zoned h (by decide) ?_
  rw [Int.zero_mul, ← shift?_zero h, Int.neg_zero]

/-- The local time of a moment with the mark of its zone gives the moment, whichever zone of whole
minutes it is, as long as the local time is one. So does its time in UTC with either mark of UTC or
with none. So a stamp that reindexing wrote and a cutoff that came with a job compare as the moments
from which they were written. -/
theorem a_moment_is_read_back_from_any_zone {t : Timestamp} (h : t.micros < limit) :
    (∀ (minutes : Int) (here : Timestamp), minutes.natAbs < 24 * 60 →
        t.shift? (minutes * 60000000) = some here →
        ofValue (.str (here.iso ++ zoneText minutes)) = .ok (some t)) ∧
      (∀ mark ∈ ["Z", "+00:00", ""], ofValue (.str (t.iso ++ mark)) = .ok (some t)) ∧
      ∀ (merged : MergedText) (document refreshed : Fields) (job : BackfillJob),
        Reindex.refreshed merged t document = .ok refreshed → job.cutoff.micros < limit →
        ∃ stamp cutoff, ofValue (refreshed.look reindexedField) = .ok (some stamp) ∧
          ofValue (.str job.cutoff.iso) = .ok (some cutoff) ∧
          ∀ r : Record, r.reindexedOn = some stamp →
            (r.isStale cutoff = true ↔ t.micros < job.cutoff.micros) := by
  refine ⟨fun minutes here hzone hshift => ofValue_of_ofText (ofText_zoned h hzone hshift), ?_, ?_⟩
  · intro mark hmark
    simp only [List.mem_cons, List.not_mem_nil, or_false] at hmark
    rcases hmark with rfl | rfl | rfl
    · exact ofValue_of_ofText (ofText_isoUtc h)
    · exact ofValue_of_ofText (ofText_iso_zero h)
    · rw [String.append_empty]
      exact ofValue_of_ofText (ofText_iso h)
  · intro merged document refreshed job hrefreshed hcutoff
    refine ⟨t, job.cutoff, ofValue_refreshed hrefreshed h, ofValue_of_ofText (ofText_iso hcutoff),
      fun r hr => ?_⟩
    unfold Record.isStale
    rw [hr]
    exact decide_eq_true_iff

/-- Half a second past six in the evening of the last day of 2023. -/
def lastEvening : Timestamp where
  micros := (Calendar.dayNumber 2023 12 31 - 1) * microsPerDay + 18 * 3600000000 + 500000

/-- By then the new year, a leap year, has begun where clocks are ahead by six hours and a
quarter. -/
theorem the_last_evening_is_read_back :
    lastEvening.micros < limit ∧
      ofValue (.str "2024-01-01T00:15:00.500000+06:15") = .ok (some lastEvening) ∧
      ofValue (.str "2023-12-31T18:00:00.500000Z") = .ok (some lastEvening) := by
  have hwithin : lastEvening.micros < limit := by decide +kernel
  obtain ⟨hzones, hmarks, -⟩ := a_moment_is_read_back_from_any_zone hwithin
  have hshift : lastEvening.shift? (375 * 60000000) =
      some ⟨(Calendar.dayNumber 2024 1 1 - 1) * microsPerDay + 15 * 60000000 + 500000⟩ := by
    decide +kernel
  have heast := hzones 375 _ (by decide) hshift
  have hutc := hmarks "Z" (by decide)
  have heastText : Timestamp.iso
      ⟨(Calendar.dayNumber 2024 1 1 - 1) * microsPerDay + 15 * 60000000 + 500000⟩ ++ zoneText 375 =
        "2024-01-01T00:15:00.500000+06:15" := by decide +kernel
  have hutcText : lastEvening.iso ++ "Z" = "2023-12-31T18:00:00.500000Z" := by decide +kernel
  rw [heastText] at heast
  rw [hutcText] at hutc
  exact ⟨hwithin, heast, hutc⟩

end Timestamp

end TenantSearch
