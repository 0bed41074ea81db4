-- What becomes of a value that is given as a moment: none, a moment of the calendar, or a refusal.
-- It breaks when its local time leaves the calendar on the way to UTC, which only the first day
-- and the last can do.
import TenantSearch.Proofs.ReadMoments
import TenantSearch.Proofs.ZonedMoments

namespace TenantSearch

namespace Timestamp

/-! ## How far zones are -/

theorem offset?_lt {cs : List Char} {offset : Nat} (h : offset? cs = some offset) :
    offset < microsPerDay := by
  unfold offset? at h
  obtain ⟨clock, -, h⟩ := Option.bind_eq_some_iff.mp h
  split at h
  · cases h
  · split at h
    · cases h
      decide
    · split at h
      · next hday =>
        cases h
        exact hday
      · cases h

theorem time?_offset {cs : List Char} {time : Nat} {offset : Int}
    (h : time? cs = some (time, some offset)) : offset.natAbs < microsPerDay := by
  unfold time? at h
  obtain ⟨clock, -, h⟩ := Option.bind_eq_some_iff.mp h
  split at h
  · cases h
  · split at h
    · split at h
      · cases h
      · cases h
    · obtain ⟨zone, hzone, h⟩ := Option.bind_eq_some_iff.mp h
      have hlt := offset?_lt hzone
      cases h
      split
      · rwa [Int.natAbs_neg, Int.natAbs_natCast]
      · rwa [Int.natAbs_natCast]

/-- A zone that is read is less than a day away. -/
theorem readLocal?_offset {s : String} {here : Timestamp} {offset : Int}
    (h : readLocal? s = some (here, some offset)) : offset.natAbs < microsPerDay := by
  unfold readLocal? at h
  dsimp only at h
  split at h
  · cases h
  · obtain ⟨day, -, h⟩ := Option.bind_eq_some_iff.mp h
    split at h
    · split at h
      · cases h
      · cases h
    · obtain ⟨⟨time, zone⟩, htime, h⟩ := Option.bind_eq_some_iff.mp h
      cases h
      exact time?_offset htime

/-! ## What becomes of a value -/

/-- A text with a local time and a zone of which the time in UTC is outside the calendar. -/
def LeavesCalendar (v : Json) : Prop :=
  ∃ s here offset, v = .str s ∧ readLocal? (withOffset s) = some (here, some offset) ∧
    here.shift? (-offset) = none

/-- A value that is none, or a moment of the calendar, or refused as no valid one. -/
def IsAnswered (v : Json) : Prop :=
  ofValue v = .ok none ∨ (∃ t, ofValue v = .ok (some t) ∧ t.micros < limit) ∨
    ∃ e, ofValue v = .error (.service e) ∧ e.report.kind = .validation

theorem not_isAnswered {v : Json} {b : Breakage} (h : ofValue v = .error (.broken b)) :
    ¬ IsAnswered v := by
  rintro (hnone | ⟨t, hmoment, -⟩ | ⟨e, hrefused, -⟩)
  · rw [h] at hnone
    cases hnone
  · rw [h] at hmoment
    cases hmoment
  · rw [h] at hrefused
    cases hrefused

theorem isAnswered_of_ok {v : Json} {t : Option Timestamp} (h : ofValue v = .ok t) :
    IsAnswered v := by
  cases t with
  | none => exact Or.inl h
  | some t => exact Or.inr (Or.inl ⟨t, h, ofValue_lt h⟩)

theorem isAnswered_of_refused {v : Json} (h : ofValue v = .error (.of (.badTimestamp v))) :
    IsAnswered v := Or.inr (Or.inr ⟨_, h, rfl⟩)

theorem ofValue_of_given {s : String} (h : s ≠ "") : ofValue (.str s) = some <$> ofText s := by
  unfold ofValue
  dsimp only
  rw [if_neg (by rwa [String.isEmpty_iff])]

theorem LeavesCalendar.ofValue {v : Json} (h : LeavesCalendar v) :
    Timestamp.ofValue v = .error (.broken .outOfRange) := by
  obtain ⟨s, here, offset, rfl, hread, hshift⟩ := h
  have hgiven : s ≠ "" := by
    rintro rfl
    cases hread
  rw [ofValue_of_given hgiven]
  unfold ofText
  rw [hread]
  dsimp only
  rw [hshift]
  rfl

theorem isAnswered_or_leaves (v : Json) : IsAnswered v ∨ LeavesCalendar v := by
  cases v with
  | null => exact Or.inl (isAnswered_of_ok rfl)
  | str s =>
    by_cases hgiven : s = ""
    · rw [hgiven]
      exact Or.inl (isAnswered_of_ok rfl)
    · have hvalue := ofValue_of_given hgiven
      unfold ofText at hvalue
      rcases hread : readLocal? (withOffset s) with _ | ⟨here, _ | offset⟩
      · rw [hread] at hvalue
        exact Or.inl (isAnswered_of_refused hvalue)
      · rw [hread] at hvalue
        exact Or.inl (isAnswered_of_ok hvalue)
      · rw [hread] at hvalue
        dsimp only at hvalue
        rcases hshift : here.shift? (-offset) with _ | t
        · exact Or.inr ⟨s, here, offset, rfl, hread, hshift⟩
        · rw [hshift] at hvalue
          exact Or.inl (isAnswered_of_ok hvalue)
  | bool b => exact Or.inl (isAnswered_of_refused rfl)
  | int n => exact Or.inl (isAnswered_of_refused rfl)
  | float d => exact Or.inl (isAnswered_of_refused rfl)
  | arr items => exact Or.inl (isAnswered_of_refused rfl)
  | obj fields => exact Or.inl (isAnswered_of_refused rfl)

theorem shift?_eq_none_iff {t : Timestamp} {micros : Int} :
    t.shift? micros = none ↔ (t.micros : Int) + micros < 0 ∨ limit ≤ (t.micros : Int) + micros := by
  unfold shift?
  dsimp only
  split
  · next hrange =>
    simp
    omega
  · next hrange =>
    simp
    omega

/-- Only the first day and the last have local times that leave the calendar. -/
theorem LeavesCalendar.ends {v : Json} (h : LeavesCalendar v) :
    ∃ s here offset, v = .str s ∧ readLocal? (withOffset s) = some (here, some offset) ∧
      (here.micros < microsPerDay ∧ 0 < offset ∨
        limit ≤ here.micros + microsPerDay ∧ offset < 0) := by
  obtain ⟨s, here, offset, rfl, hread, hshift⟩ := h
  have hhere := readLocal?_lt hread
  have hoffset := readLocal?_offset hread
  rw [shift?_eq_none_iff] at hshift
  exact ⟨s, here, offset, rfl, hread, by omega⟩

/-- A value that is given as a moment is none, a moment of the calendar or refused as no valid one,
unless it is a text with a local time and a zone that leave the calendar on the way to UTC; then
reading breaks. Only local times of the first day ahead of UTC and of the last day behind it can do
so, and of those that have whole minutes all that do. -/
theorem a_moment_is_answered_iff (v : Json) :
    (IsAnswered v ↔ ¬ LeavesCalendar v) ∧
      (LeavesCalendar v → ofValue v = .error (.broken .outOfRange) ∧
        ∃ s here offset, v = .str s ∧ readLocal? (withOffset s) = some (here, some offset) ∧
          (here.micros < microsPerDay ∧ 0 < offset ∨
            limit ≤ here.micros + microsPerDay ∧ offset < 0)) ∧
      ∀ (here : Timestamp) (minutes : Int), here.micros < limit → minutes.natAbs < 24 * 60 →
        v = .str (here.iso ++ zoneText minutes) →
        (LeavesCalendar v ↔
          (here.micros : Int) < minutes * 60000000 ∨
            limit ≤ (here.micros : Int) - minutes * 60000000) := by
  refine ⟨⟨fun hanswered hleaves => not_isAnswered hleaves.ofValue hanswered,
    (isAnswered_or_leaves v).resolve_right⟩, fun h => ⟨h.ofValue, h.ends⟩, ?_⟩
  rintro here minutes hhere hzone rfl
  have hread := readLocal?_iso_zoneText hhere hzone
  have hshift : here.shift? (-(minutes * Duration.microsPerMinute)) = none ↔
      (here.micros : Int) < minutes * 60000000 ∨
        limit ≤ (here.micros : Int) - minutes * 60000000 := by
    rw [shift?_eq_none_iff]
    unfold Duration.microsPerMinute
    omega
  rw [← hshift]
  constructor
  · rintro ⟨s, here', offset, hs, hread', hleaves⟩
    rw [← Json.str.inj hs, hread] at hread'
    cases hread'
    exact hleaves
  · exact fun hleaves => ⟨_, here, _, rfl, hread, hleaves⟩

/-- The last second of the calendar is answered where clocks are an hour ahead: it is read. -/
theorem the_last_second_is_answered_in_the_east :
    IsAnswered (.str "9999-12-31T23:59:59+01:00") := by
  have hwithin : limit - 1000000 < limit := by decide +kernel
  obtain ⟨hanswers, -, hzones⟩ :=
    a_moment_is_answered_iff (.str (iso ⟨limit - 1000000⟩ ++ zoneText 60))
  have hanswered := hanswers.mpr fun hleaves => by
    rcases (hzones ⟨limit - 1000000⟩ 60 hwithin (by decide) rfl).mp hleaves with hearly | hlate
    · exact absurd hearly (by decide +kernel)
    · exact absurd hlate (by decide +kernel)
  have htext : iso ⟨limit - 1000000⟩ ++ zoneText 60 = "9999-12-31T23:59:59+01:00" := by
    decide +kernel
  rwa [htext] at hanswered

/-- The first hour of the calendar is in the year before it where clocks are an hour ahead, and
reading it breaks. -/
theorem the_first_hour_breaks_in_the_east : ¬ IsAnswered (.str "0001-01-01T00:00:00+01:00") := by
  have hread : readLocal? (withOffset "0001-01-01T00:00:00+01:00") = some (⟨0⟩, some 3600000000) := by
    decide +kernel
  exact not_isAnswered (LeavesCalendar.ofValue ⟨_, ⟨0⟩, 3600000000, rfl, hread, rfl⟩)

end Timestamp

end TenantSearch
