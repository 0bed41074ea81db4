-- What is read out of a text is a moment of the calendar, whether its date is
-- given by month or by week, with or without a fraction, and from any zone.
import TenantSearch.Proofs.WrittenMoments

namespace TenantSearch

namespace Timestamp

/-! ## Numbers -/

theorem asciiDigit?_lt {c : Char} {d : Nat} (h : asciiDigit? c = some d) : d < 10 := by
  unfold asciiDigit? at h
  split at h
  · next hrange =>
    have hlast : c.toNat ≤ 57 := hrange.2
    cases h
    omega
  · cases h

theorem foldl_digits_none (cs : List Char) :
    cs.foldl (fun n c => n.bind fun n => (asciiDigit? c).map (n * 10 + ·)) none = none := by
  induction cs with
  | nil => rfl
  | cons c rest ih => exact ih

theorem foldl_digits_lt {cs : List Char} {n m : Nat}
    (h : cs.foldl (fun n c => n.bind fun n => (asciiDigit? c).map (n * 10 + ·)) (some n) =
      some m) : m < (n + 1) * 10 ^ cs.length := by
  induction cs generalizing n with
  | nil =>
    cases h
    simp
  | cons c rest ih =>
    rw [List.foldl_cons] at h
    rcases hdigit : asciiDigit? c with _ | d
    · rw [hdigit] at h
      exact absurd h (by simp [foldl_digits_none])
    · rw [hdigit] at h
      have hlt := asciiDigit?_lt hdigit
      have hrest : m < (n * 10 + d + 1) * 10 ^ rest.length := ih h
      calc m < (n * 10 + d + 1) * 10 ^ rest.length := hrest
        _ ≤ ((n + 1) * 10) * 10 ^ rest.length := Nat.mul_le_mul_right _ (by omega)
        _ = (n + 1) * 10 ^ (c :: rest).length := by
          rw [List.length_cons, Nat.pow_succ, Nat.mul_assoc, Nat.mul_comm 10]

/-- So many digits give a number below that power of ten. -/
theorem digits?_lt {cs : List Char} {n : Nat} (h : digits? cs = some n) : n < 10 ^ cs.length := by
  unfold digits? at h
  split at h
  · cases h
  · simpa using foldl_digits_lt h

/-! ## The time of day -/

/-- A fraction is less than a second. -/
theorem withFraction?_micros {clock c : Clock} {cs : List Char}
    (h : withFraction? clock cs = some c) : c.micros < 1000000 := by
  unfold withFraction? at h
  obtain ⟨micros, hmicros, h⟩ := Option.bind_eq_some_iff.mp h
  cases h
  have hlength : (cs.take 6).length ≤ 6 := List.length_take_le 6 cs
  have hpow : 10 ^ (cs.take 6).length * 10 ^ (6 - (cs.take 6).length) = 1000000 := by
    rw [← Nat.pow_add, Nat.add_sub_cancel' hlength]
  have hpos : 0 < 10 ^ (6 - (cs.take 6).length) := Nat.pow_pos (by decide)
  calc micros * 10 ^ (6 - (cs.take 6).length)
      < 10 ^ (cs.take 6).length * 10 ^ (6 - (cs.take 6).length) :=
        Nat.mul_lt_mul_of_pos_right (digits?_lt hmicros) hpos
    _ = 1000000 := hpow

theorem clock?_micros {cs : List Char} {c : Clock} (h : clock? cs = some c) :
    c.micros < 1000000 := by
  unfold clock? at h
  obtain ⟨⟨hours, afterHours⟩, -, h⟩ := Option.bind_eq_some_iff.mp h
  obtain ⟨next, -, h⟩ := Option.bind_eq_some_iff.mp h
  cases next with
  | ending clean =>
    cases h
    exact Nat.succ_pos _
  | fraction digits => exact withFraction?_micros h
  | part cs =>
    obtain ⟨⟨minutes, afterMinutes⟩, -, h⟩ := Option.bind_eq_some_iff.mp h
    obtain ⟨next, -, h⟩ := Option.bind_eq_some_iff.mp h
    cases next with
    | ending clean =>
      cases h
      exact Nat.succ_pos _
    | fraction digits => exact withFraction?_micros h
    | part cs =>
      obtain ⟨⟨seconds, afterSeconds⟩, -, h⟩ := Option.bind_eq_some_iff.mp h
      obtain ⟨next, -, h⟩ := Option.bind_eq_some_iff.mp h
      cases next with
      | ending clean =>
        cases h
        exact Nat.succ_pos _
      | fraction digits => exact withFraction?_micros h
      | part digits => exact withFraction?_micros h

theorem time?_lt {cs : List Char} {time : Nat} {offset : Option Int}
    (h : time? cs = some (time, offset)) : time < microsPerDay := by
  unfold time? at h
  obtain ⟨clock, hclock, h⟩ := Option.bind_eq_some_iff.mp h
  have hmicros := clock?_micros hclock
  split at h
  · cases h
  · next htime =>
    have htotal : time = clock.total := by
      split at h
      · split at h
        · cases h
          rfl
        · cases h
      · obtain ⟨zone, -, h⟩ := Option.bind_eq_some_iff.mp h
        cases h
        rfl
    simp only [Clock.isTime, Bool.not_eq_true', Bool.not_eq_false, Bool.and_eq_true,
      decide_eq_true_iff] at htime
    rw [htotal, Clock.total, microsPerDay]
    omega

end Timestamp

/-! ## The date -/

namespace Calendar

theorem daysBeforeMonth_le (year : Nat) {month later : Nat} (hmonth : 1 ≤ month)
    (h : month ≤ later) : daysBeforeMonth year month ≤ daysBeforeMonth year later := by
  induction h with
  | refl => exact Nat.le_refl _
  | @step later hle ih =>
    rw [daysBeforeMonth_succ year (Nat.le_trans hmonth hle)]
    omega

/-- A date that exists has a number of the calendar. -/
theorem dayNumber_of_isDate {year month day : Nat} (h : isDate year month day = true) :
    1 ≤ dayNumber year month day ∧ dayNumber year month day ≤ lastDay := by
  simp only [isDate, Bool.and_eq_true, decide_eq_true_iff] at h
  obtain ⟨⟨⟨⟨⟨hyear, hlast⟩, hmonth⟩, hdecember⟩, hday⟩, hend⟩ := h
  have hnext := daysBeforeMonth_succ year hmonth
  have hwithin := daysBeforeMonth_le year (Nat.le_add_left 1 month) (Nat.succ_le_succ hdecember)
  rw [daysBeforeMonth_end] at hwithin
  have hsucc := daysBeforeYear_succ year hyear
  have hmono := daysBeforeYear_mono (Nat.succ_le_succ hlast)
  have hover : daysBeforeYear (9999 + 1) = lastDay := by decide
  rw [Nat.succ_eq_add_one, Nat.succ_eq_add_one] at *
  unfold dayNumber
  omega

theorem weekDate?_between {year week day number : Nat} (h : weekDate? year week day = some number) :
    1 ≤ number ∧ number ≤ lastDay := by
  unfold weekDate? at h
  split at h
  · dsimp only at h
    split at h
    · cases h
      omega
    · cases h
  · cases h

end Calendar

namespace Timestamp

theorem weekPart?_between {year day : Nat} {hyphens : Bool} {cs : List Char}
    (h : weekPart? year hyphens cs = some day) : 1 ≤ day ∧ day ≤ Calendar.lastDay := by
  unfold weekPart? at h
  obtain ⟨⟨week, rest⟩, -, h⟩ := Option.bind_eq_some_iff.mp h
  dsimp only at h
  split at h
  · exact Calendar.weekDate?_between h
  · split at h
    all_goals
      obtain ⟨rest, -, h⟩ := Option.bind_eq_some_iff.mp h
      obtain ⟨⟨number, rest⟩, -, h⟩ := Option.bind_eq_some_iff.mp h
      dsimp only at h
      split at h
      · exact Calendar.weekDate?_between h
      · cases h

theorem date?_between {cs : List Char} {day : Nat} (h : date? cs = some day) :
    1 ≤ day ∧ day ≤ Calendar.lastDay := by
  unfold date? at h
  obtain ⟨⟨year, afterYear⟩, -, h⟩ := Option.bind_eq_some_iff.mp h
  dsimp only at h
  split at h
  · exact weekPart?_between h
  · obtain ⟨⟨month, afterMonth⟩, -, h⟩ := Option.bind_eq_some_iff.mp h
    have hends {rest : List Char} (h : ((take? 2 rest).bind fun part =>
        if part.2.isEmpty && Calendar.isDate year month part.1 then
          some (Calendar.dayNumber year month part.1) else none) = some day) :
        1 ≤ day ∧ day ≤ Calendar.lastDay := by
      obtain ⟨⟨number, afterDay⟩, -, h⟩ := Option.bind_eq_some_iff.mp h
      split at h
      · next hdate =>
        cases h
        rw [Bool.and_eq_true] at hdate
        exact Calendar.dayNumber_of_isDate hdate.2
      · cases h
    split at h
    · obtain ⟨rest, -, h⟩ := Option.bind_eq_some_iff.mp h
      exact hends h
    · exact hends h

/-! ## Whole texts -/

theorem readLocal?_lt {s : String} {t : Timestamp} {offset : Option Int}
    (h : readLocal? s = some (t, offset)) : t.micros < limit := by
  unfold readLocal? at h
  dsimp only at h
  split at h
  · cases h
  · obtain ⟨day, hday, h⟩ := Option.bind_eq_some_iff.mp h
    obtain ⟨hfirst, hlast⟩ := date?_between hday
    have hmidnight : (day - 1) * microsPerDay + microsPerDay ≤ limit := by
      unfold limit
      rw [← Nat.succ_mul]
      exact Nat.mul_le_mul_right _ (by omega)
    split at h
    · split at h
      · cases h
        exact Nat.lt_of_lt_of_le (Nat.lt_add_of_pos_right (by decide)) hmidnight
      · cases h
    · obtain ⟨⟨time, zone⟩, htime, h⟩ := Option.bind_eq_some_iff.mp h
      cases h
      exact Nat.lt_of_lt_of_le (Nat.add_lt_add_left (time?_lt htime) _) hmidnight

/-- A moment that is read lies within the calendar, also after its offset was applied. -/
theorem ofText_lt {s : String} {t : Timestamp} (h : ofText s = .ok t) : t.micros < limit := by
  unfold ofText at h
  split at h
  · cases h
  · next hread =>
    cases h
    exact readLocal?_lt hread
  · split at h
    · next hshift =>
      cases h
      unfold shift? at hshift
      dsimp only at hshift
      split at hshift
      · next hrange =>
        cases hshift
        dsimp only
        omega
      · cases hshift
    · cases h

theorem ofValue_lt {v : Json} {t : Timestamp} (h : ofValue v = .ok (some t)) : t.micros < limit := by
  cases v with
  | str s =>
    dsimp only [ofValue] at h
    split at h
    · cases h
    · rcases hread : ofText s with f | t'
      · rw [hread] at h
        cases h
      · rw [hread] at h
        cases h
        exact ofText_lt hread
  | _ => cases h

end Timestamp

end TenantSearch
