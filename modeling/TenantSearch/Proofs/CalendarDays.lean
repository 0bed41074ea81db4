-- The calendar is consistent: the date of a day exists, and its number is that
-- of the day.
import TenantSearch.Time.Calendar

namespace TenantSearch

namespace Calendar

/-! ## Years -/

theorem isLeap_iff (year : Nat) :
    isLeap year = true ↔ year % 4 = 0 ∧ (year % 100 ≠ 0 ∨ year % 400 = 0) := by
  simp [isLeap]

/-- One more number has another multiple below it just when it is one. -/
theorem div_of_pred (n d : Nat) (h : 1 ≤ n) :
    n / d = (n - 1) / d + if n % d = 0 then 1 else 0 := by
  obtain ⟨m, rfl⟩ : ∃ m, n = m + 1 := ⟨n - 1, by omega⟩
  rw [Nat.succ_div, Nat.add_sub_cancel]
  simp only [Nat.dvd_iff_mod_eq_zero]

/-- A year has 365 days, and one more when it is a leap year. -/
theorem daysBeforeYear_succ (year : Nat) (h : 1 ≤ year) :
    daysBeforeYear (year + 1) = daysBeforeYear year + 365 + (if isLeap year then 1 else 0) := by
  have hfewer : (year - 1) / 100 ≤ (year - 1) / 4 := by omega
  unfold daysBeforeYear
  dsimp only
  rw [Nat.add_sub_cancel, div_of_pred year 4 h, div_of_pred year 100 h, div_of_pred year 400 h]
  simp only [isLeap_iff]
  generalize (year - 1) / 100 = centuries at *
  generalize (year - 1) / 4 = fours at *
  generalize (year - 1) / 400 = ages at *
  by_cases hfour : year % 4 = 0
  · by_cases hcentury : year % 100 = 0
    · by_cases hage : year % 400 = 0
      · simp [hfour, hcentury, hage]
        omega
      · simp [hfour, hcentury, hage]
        omega
    · have hage : year % 400 ≠ 0 := by omega
      simp [hfour, hcentury, hage]
      omega
  · have hcentury : year % 100 ≠ 0 := by omega
    have hage : year % 400 ≠ 0 := by omega
    simp [hfour, hcentury, hage]
    omega

theorem daysBeforeYear_mono {year later : Nat} (h : year ≤ later) :
    daysBeforeYear year ≤ daysBeforeYear later := by
  induction h with
  | refl => exact Nat.le_refl _
  | @step later h ih =>
    rcases Nat.eq_zero_or_pos later with rfl | hpos
    · exact ih
    · rw [daysBeforeYear_succ later hpos]
      omega

/-- The guess at a year is never too late. -/
theorem daysBeforeYear_guess (day : Nat) (h : 1 ≤ day) :
    daysBeforeYear ((day - 1) / 366 + 1) < day := by
  unfold daysBeforeYear
  dsimp only
  omega

/-- The guess at a year is late by thirty years at most. -/
theorem le_daysBeforeYear_guess (day : Nat) (h : day ≤ lastDay) :
    day ≤ daysBeforeYear ((day - 1) / 366 + 1 + 30 + 1) := by
  have hlast : lastDay = 3652059 := by decide
  unfold daysBeforeYear
  dsimp only
  omega

/-- The numbers that something holds of end where it does not. -/
theorem takeWhile_range {p : Nat → Bool} {n : Nat} (h : ∃ k < n, p k = false) :
    p ((List.range n).takeWhile p).length = false ∧
      ∀ k < ((List.range n).takeWhile p).length, p k = true := by
  obtain ⟨k, hk, hfails⟩ := h
  have hlt : (List.range n).findIdx (!p ·) < (List.range n).length :=
    List.findIdx_lt_length_of_exists ⟨k, List.mem_range.mpr hk, by rw [hfails]; rfl⟩
  have hlength : ((List.range n).takeWhile p).length = (List.range n).findIdx (!p ·) := by
    rw [List.takeWhile_eq_take_findIdx_not, List.length_take, Nat.min_eq_left (Nat.le_of_lt hlt)]
  rw [hlength]
  constructor
  · have hat := List.findIdx_getElem (w := hlt)
    rwa [List.getElem_range, Bool.not_eq_true'] at hat
  · intro j hj
    have hbefore := List.not_of_lt_findIdx hj
    rwa [List.getElem_range, Bool.not_eq_false'] at hbefore

/-- The year of a day has begun and is not over. -/
theorem yearOf_spec {day : Nat} (hday : 1 ≤ day) (hlast : day ≤ lastDay) :
    1 ≤ yearOf day ∧ daysBeforeYear (yearOf day) < day ∧
      day ≤ daysBeforeYear (yearOf day + 1) := by
  have hlate : ∃ k < 31, decide (daysBeforeYear ((day - 1) / 366 + 1 + k + 1) < day) = false :=
    ⟨30, by decide, decide_eq_false (Nat.not_lt.mpr (le_daysBeforeYear_guess day hlast))⟩
  obtain ⟨hover, hbegun⟩ := takeWhile_range hlate
  have hguess := daysBeforeYear_guess day hday
  unfold yearOf
  dsimp only
  generalize ((List.range 31).takeWhile fun k =>
    decide (daysBeforeYear ((day - 1) / 366 + 1 + k + 1) < day)).length = later at hover hbegun
  refine ⟨by omega, ?_, Nat.not_lt.mp (of_decide_eq_false hover)⟩
  cases later with
  | zero => exact hguess
  | succ k => exact of_decide_eq_true (hbegun k (Nat.lt_succ_self k))

theorem yearOf_le {day : Nat} (hday : 1 ≤ day) (hlast : day ≤ lastDay) : yearOf day ≤ 9999 := by
  obtain ⟨-, hbegun, -⟩ := yearOf_spec hday hlast
  have hend : daysBeforeYear 10000 = lastDay := by decide
  refine Nat.le_of_not_lt fun hlate => ?_
  have hmono := daysBeforeYear_mono (Nat.succ_le_of_lt hlate)
  rw [hend] at hmono
  omega

/-! ## Months -/

theorem daysBeforeMonth_succ (year : Nat) {month : Nat} (h : 1 ≤ month) :
    daysBeforeMonth year (month + 1) = daysBeforeMonth year month + daysInMonth year month := by
  obtain ⟨m, rfl⟩ : ∃ m, month = m + 1 := ⟨month - 1, by omega⟩
  unfold daysBeforeMonth
  rw [Nat.add_sub_cancel, Nat.add_sub_cancel, List.range_succ, List.foldl_append]
  rfl

/-- The twelve months make up the year. -/
theorem daysBeforeMonth_end (year : Nat) :
    daysBeforeMonth year 13 = 365 + if isLeap year then 1 else 0 := by
  unfold daysBeforeMonth
  cases hleap : isLeap year with
  | true => simp [List.range_succ, daysInMonth, hleap]
  | false => simp [List.range_succ, daysInMonth, hleap]

/-- From a month on, the day that is so many days later is in a month that has
it, if it is before the end of the year. -/
theorem monthAndDay_spec (year fuel : Nat) {month left : Nat} (hmonth : 1 ≤ month)
    (hend : month + fuel = 12) (hleft : daysBeforeMonth year month + left < daysBeforeMonth year 13) :
    ∃ m d, monthAndDay year fuel month left = (m, d) ∧ 1 ≤ m ∧ m ≤ 12 ∧ 1 ≤ d ∧
      d ≤ daysInMonth year m ∧ daysBeforeMonth year m + d = daysBeforeMonth year month + left + 1 := by
  induction fuel generalizing month left with
  | zero =>
    obtain rfl : month = 12 := hend
    have hlast : daysBeforeMonth year 13 = daysBeforeMonth year 12 + daysInMonth year 12 :=
      daysBeforeMonth_succ year (by decide)
    exact ⟨12, left + 1, rfl, hmonth, by omega, by omega, by omega, by omega⟩
  | succ fuel ih =>
    unfold monthAndDay
    split
    · next hshort => exact ⟨month, left + 1, rfl, hmonth, by omega, by omega, hshort, by omega⟩
    · next hlong =>
      have hnext := daysBeforeMonth_succ year hmonth
      obtain ⟨m, d, heq, h1, h12, hd, hfits, hsum⟩ :=
        @ih (month + 1) (left - daysInMonth year month) (by omega) (by omega) (by omega)
      exact ⟨m, d, heq, h1, h12, hd, hfits, by omega⟩

/-! ## Dates -/

/-- The date of a day exists and has its number. -/
theorem dateOf_spec {day : Nat} (hday : 1 ≤ day) (hlast : day ≤ lastDay) :
    ∃ year month d, dateOf day = (year, month, d) ∧ isDate year month d = true ∧
      dayNumber year month d = day := by
  obtain ⟨hyear, hbegun, hover⟩ := yearOf_spec hday hlast
  have hlate := yearOf_le hday hlast
  rw [daysBeforeYear_succ _ hyear] at hover
  have hfirst : daysBeforeMonth (yearOf day) 1 = 0 := rfl
  have hleft : daysBeforeMonth (yearOf day) 1 + (day - daysBeforeYear (yearOf day) - 1) <
      daysBeforeMonth (yearOf day) 13 := by
    rw [daysBeforeMonth_end, hfirst]
    omega
  obtain ⟨m, d, heq, h1, h12, hd, hfits, hsum⟩ :=
    monthAndDay_spec (yearOf day) 11 (Nat.le_refl 1) rfl hleft
  refine ⟨yearOf day, m, d, ?_, ?_, ?_⟩
  · unfold dateOf
    dsimp only
    rw [heq]
  · simp [isDate, hyear, hlate, h1, h12, hd, hfits]
  · unfold dayNumber
    omega

end Calendar

end TenantSearch
