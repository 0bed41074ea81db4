-- A moment is read back from its ISO text, with the mark of UTC or without.
import Mathlib.Algebra.Group.Nat.Defs
import Mathlib.Data.List.TakeWhile
import TenantSearch.Document.Record
import TenantSearch.Proofs.CalendarDays

namespace TenantSearch

namespace Timestamp

/-! ## Digits -/

theorem asciiDigit?_eq {c : Char} (h : c.isDigit = true) : asciiDigit? c = some (c.toNat - 48) := by
  unfold asciiDigit?
  rw [Char.isDigit, Bool.and_eq_true, decide_eq_true_iff, decide_eq_true_iff] at h
  exact if_pos h

theorem foldl_digits {cs : List Char} (h : ∀ c ∈ cs, c.isDigit = true) (n : Nat) :
    cs.foldl (fun n c => n.bind fun n => (asciiDigit? c).map (n * 10 + ·)) (some n) =
      some (Nat.ofDigitChars 10 cs n) := by
  induction cs generalizing n with
  | nil => rfl
  | cons c rest ih =>
    rw [List.foldl_cons, asciiDigit?_eq (h c List.mem_cons_self)]
    dsimp only [Option.bind_some, Option.map_some]
    rw [ih (fun d hd => h d (List.mem_cons_of_mem _ hd)), Nat.mul_comm]
    rfl

/-- A number of so many digits, as its text. -/
structure IsPart (width n : Nat) (cs : List Char) : Prop where
  length : cs.length = width
  digits : ∀ c ∈ cs, c.isDigit = true
  value : digits? cs = some n

/-- A number that is not too long is padded to the width, and read back. -/
theorem isPart_padded {width n : Nat} (hwidth : 0 < width) (h : n < 10 ^ width) :
    IsPart width n (padded width n).toList := by
  have hlength : (Nat.toDigits 10 n).length ≤ width :=
    (Nat.length_toDigits_le_iff (by decide) hwidth).mpr h
  have hdigits : ∀ c ∈ List.replicate (width - (Nat.toDigits 10 n).length) '0' ++ Nat.toDigits 10 n,
      c.isDigit = true := by
    intro c hc
    rcases List.mem_append.mp hc with hc | hc
    · rw [List.eq_of_mem_replicate hc]
      rfl
    · exact Nat.isDigit_of_mem_toDigits (by decide) (by decide) hc
  have hsum : (List.replicate (width - (Nat.toDigits 10 n).length) '0' ++
      Nat.toDigits 10 n).length = width := by
    rw [List.length_append, List.length_replicate]
    omega
  unfold padded
  dsimp only
  rw [String.toList_ofList]
  refine ⟨hsum, hdigits, ?_⟩
  unfold digits?
  rw [if_neg, foldl_digits hdigits]
  · rw [Nat.ofDigitChars_append, Nat.ofDigitChars_replicate_zero, Nat.mul_zero,
      Nat.ofDigitChars_toDigits (by decide) (by decide)]
  · rw [List.isEmpty_iff_length_eq_zero, hsum]
    omega

theorem IsPart.take? {width n : Nat} {cs : List Char} (h : IsPart width n cs) (rest : List Char) :
    Timestamp.take? width (cs ++ rest) = some (n, rest) := by
  unfold Timestamp.take?
  rw [← h.length, List.length_append, if_neg (by omega), List.take_left, List.drop_left, h.value]
  rfl

theorem IsPart.head {width n : Nat} {cs : List Char} (h : IsPart width n cs) (hwidth : 0 < width) :
    ∃ c rest, cs = c :: rest ∧ c.isDigit = true := by
  cases cs with
  | nil => exact absurd h.length (by simp; omega)
  | cons c rest => exact ⟨c, rest, rfl, h.digits c List.mem_cons_self⟩

/-! ## The date -/

theorem date?_of_parts {year month day : Nat} {ys ms ds : List Char} (hyear : IsPart 4 year ys)
    (hmonth : IsPart 2 month ms) (hday : IsPart 2 day ds)
    (hdate : Calendar.isDate year month day = true) :
    date? (ys ++ '-' :: (ms ++ '-' :: ds)) = some (Calendar.dayNumber year month day) := by
  obtain ⟨c, rest, hms, hdigit⟩ := hmonth.head (by decide)
  have hmonthTaken := hmonth.take? ('-' :: ds)
  have hdayTaken := hday.take? []
  rw [List.append_nil] at hdayTaken
  unfold date?
  rw [hyear.take?]
  dsimp only [Option.bind_eq_bind, Option.bind_some]
  rw [hms] at hmonthTaken ⊢
  rw [List.cons_append] at hmonthTaken ⊢
  split
  · next hweek =>
    cases hweek
    cases hdigit
  · simp [hmonthTaken, expect?, hdayTaken, hdate]

/-! ## The time of day -/

theorem following?_part {c : Char} {rest : List Char} :
    following? true (':' :: c :: rest) = some (.part (c :: rest)) := rfl

/-- A fraction of a second of six digits, or none. -/
inductive IsFraction : Nat → List Char → Prop
  | none : IsFraction 0 []
  | some {micros : Nat} {digits : List Char} (part : IsPart 6 micros digits) :
      IsFraction micros ('.' :: digits)

theorem withFraction?_of_part {micros : Nat} {digits : List Char} (h : IsPart 6 micros digits)
    (clock : Clock) : withFraction? clock digits = some { clock with micros, ends := true } := by
  have htake : digits.take 6 = digits := List.take_of_length_le (Nat.le_of_eq h.length)
  have hdrop : digits.drop 6 = [] := List.drop_eq_nil_of_le (Nat.le_of_eq h.length)
  unfold withFraction?
  simp [htake, hdrop, h.value, h.length]

theorem clock?_of_parts {hours minutes seconds micros : Nat} {hs ms ss fs : List Char}
    (hhours : IsPart 2 hours hs) (hminutes : IsPart 2 minutes ms) (hseconds : IsPart 2 seconds ss)
    (hfraction : IsFraction micros fs) :
    clock? (hs ++ ':' :: (ms ++ ':' :: (ss ++ fs))) =
      some { hours, minutes, seconds, micros, ends := true } := by
  obtain ⟨c, rest, hms, -⟩ := hminutes.head (by decide)
  obtain ⟨d, more, hss, -⟩ := hseconds.head (by decide)
  have hminutesTaken := hminutes.take? (':' :: (ss ++ fs))
  have hsecondsTaken := hseconds.take? fs
  rw [hms, List.cons_append] at hminutesTaken
  rw [hss, List.cons_append] at hminutesTaken hsecondsTaken
  unfold clock?
  rw [hhours.take?, hms, hss, List.cons_append, List.cons_append]
  simp only [Option.bind_eq_bind, Option.bind_some, List.head?_cons, beq_self_eq_true,
    following?_part, hminutesTaken, hsecondsTaken]
  cases hfraction with
  | none => rfl
  | @some micros digits part =>
    obtain ⟨e, others, hdigits, -⟩ := part.head (by decide)
    rw [hdigits]
    have hpoint : following? true ('.' :: e :: others) = some (.fraction (e :: others)) := rfl
    rw [hpoint, ← hdigits]
    exact withFraction?_of_part part _

/-- The offset of UTC as the reader spells its mark. -/
def utcOffset : List Char := ['+', '0', '0', ':', '0', '0']

section

variable {cs : List Char} {clock : Clock} (hclock : clock? cs = some clock)
  (htime : clock.isTime = true) (hunsigned : ∀ c ∈ cs, (c != '+' && c != '-') = true)

include hclock htime hunsigned

theorem time?_local (hends : clock.ends = true) : time? cs = some (clock.total, none) := by
  have htake : cs.takeWhile (fun c => c != '+' && c != '-') = cs :=
    List.takeWhile_eq_self_iff.mpr hunsigned
  unfold time?
  dsimp only
  rw [htake, List.drop_length, hclock]
  simp [htime, hends]

/-- A clock without signs is read up to the zone. -/
theorem time?_zoned {sign : Char} {zone : List Char} {offset : Nat} (hsign : sign ∈ ['+', '-'])
    (hoffset : offset? zone = some offset) : time? (cs ++ sign :: zone) =
      some (clock.total, some (if sign == '-' then -(offset : Int) else offset)) := by
  have hstop : (sign != '+' && sign != '-') = false := by
    simp only [List.mem_cons, List.not_mem_nil, or_false] at hsign
    rcases hsign with rfl | rfl
    · rfl
    · rfl
  have htake : (cs ++ sign :: zone).takeWhile (fun c => c != '+' && c != '-') = cs := by
    rw [List.takeWhile_append_of_pos hunsigned, List.takeWhile_cons_of_neg (by rw [hstop]; decide),
      List.append_nil]
  unfold time?
  dsimp only
  rw [htake, List.drop_left, hclock]
  simp [htime, hoffset]

end

/-! ## Whole texts -/

/-- A text that writes a moment: a date, a letter and a time of day without a
zone. -/
structure Writes (t : Timestamp) (date clock : List Char) : Prop where
  size : ∀ rest, dateSize (date ++ 'T' :: rest) = 10
  length : date.length = 10
  day : date? date = some (t.micros / microsPerDay + 1)
  time : ∃ c, clock? clock = some c ∧ c.isTime = true ∧ c.ends = true ∧
    c.total = t.micros % microsPerDay
  given : clock ≠ []
  unmarked : ∀ c ∈ date ++ 'T' :: clock, c ≠ 'Z'
  unsigned : ∀ c ∈ clock, (c != '+' && c != '-') = true

/-- The date and the time of day make up the moment, and the zone is read off. -/
theorem Writes.readLocal?_of_time {t : Timestamp} {date clock rest : List Char}
    (h : Writes t date clock) {zone : Option Int} (hrest : rest ≠ [])
    (hzone : time? rest = some (t.micros % microsPerDay, zone)) :
    Timestamp.readLocal? (String.ofList (date ++ 'T' :: rest)) = some (t, zone) := by
  have hmoment : (⟨(t.micros / microsPerDay + 1 - 1) * microsPerDay + t.micros % microsPerDay⟩ :
      Timestamp) = t := by
    rw [Nat.add_sub_cancel, Nat.mul_comm, Nat.div_add_mod]
  unfold Timestamp.readLocal?
  dsimp only
  rw [String.toList_ofList, h.size, List.length_append, h.length, if_neg (by omega),
    ← h.length, List.take_left, List.drop_left, h.day]
  obtain ⟨d, more, rfl⟩ := List.exists_cons_of_ne_nil hrest
  simp [hzone]
  exact hmoment

theorem Writes.readLocal?_local {t : Timestamp} {date clock : List Char} (h : Writes t date clock) :
    Timestamp.readLocal? (String.ofList (date ++ 'T' :: clock)) = some (t, none) := by
  obtain ⟨c, hclock, htime, hends, htotal⟩ := h.time
  exact h.readLocal?_of_time h.given (htotal ▸ time?_local hclock htime h.unsigned hends)

theorem Writes.readLocal?_zoned {t : Timestamp} {date clock zone : List Char}
    (h : Writes t date clock) {sign : Char} {offset : Nat} (hsign : sign ∈ ['+', '-'])
    (hoffset : offset? zone = some offset) :
    Timestamp.readLocal? (String.ofList (date ++ 'T' :: (clock ++ sign :: zone))) =
      some (t, some (if sign == '-' then -(offset : Int) else offset)) := by
  obtain ⟨c, hclock, htime, -, htotal⟩ := h.time
  exact h.readLocal?_of_time (by simp)
    (htotal ▸ time?_zoned hclock htime h.unsigned hsign hoffset)

theorem dateSize_of_parts {ys ms rest : List Char} {month : Nat} (hyear : ys.length = 4)
    (hmonth : IsPart 2 month ms) (hlong : 7 < (ys ++ '-' :: (ms ++ rest)).length) :
    dateSize (ys ++ '-' :: (ms ++ rest)) = 10 := by
  obtain ⟨c, more, hms, hdigit⟩ := hmonth.head (by decide)
  unfold dateSize
  rw [if_neg (by omega), ← hyear, List.drop_left, hms, List.cons_append]
  split
  · next hweek =>
    cases hweek
    cases hdigit
  · rfl
  · next hweek => cases hweek
  · next hother _ => exact absurd rfl (hother _)

theorem IsFraction.digits {micros : Nat} {fs : List Char} (h : IsFraction micros fs) :
    ∀ c ∈ fs, c = '.' ∨ c.isDigit = true := by
  cases h with
  | none => exact fun c hc => absurd hc List.not_mem_nil
  | some part =>
    intro c hc
    exact (List.mem_cons.mp hc).imp_right (part.digits c)

theorem ne_of_digit_or {c d : Char} {marks : List Char} (h : c.isDigit = true ∨ c ∈ marks)
    (hdigit : d.isDigit = false) (hmark : d ∉ marks) : c ≠ d := by
  rintro rfl
  rcases h with h | h
  · rw [h] at hdigit
    cases hdigit
  · exact hmark h

theorem mem_dateText {year month day : Nat} {ys ms ds : List Char} (hyear : IsPart 4 year ys)
    (hmonth : IsPart 2 month ms) (hday : IsPart 2 day ds) {c : Char}
    (hc : c ∈ ys ++ '-' :: (ms ++ '-' :: ds)) : c.isDigit = true ∨ c ∈ ['-'] := by
  simp only [List.mem_append, List.mem_cons] at hc
  rcases hc with hc | rfl | hc | rfl | hc
  · exact Or.inl (hyear.digits c hc)
  · exact Or.inr List.mem_cons_self
  · exact Or.inl (hmonth.digits c hc)
  · exact Or.inr List.mem_cons_self
  · exact Or.inl (hday.digits c hc)

theorem mem_clockText {hours minutes seconds micros : Nat} {hs ms ss fs : List Char}
    (hhours : IsPart 2 hours hs) (hminutes : IsPart 2 minutes ms) (hseconds : IsPart 2 seconds ss)
    (hfraction : IsFraction micros fs) {c : Char} (hc : c ∈ hs ++ ':' :: (ms ++ ':' :: (ss ++ fs))) :
    c.isDigit = true ∨ c ∈ [':', '.'] := by
  simp only [List.mem_append, List.mem_cons] at hc
  rcases hc with hc | rfl | hc | rfl | hc | hc
  · exact Or.inl (hhours.digits c hc)
  · exact Or.inr List.mem_cons_self
  · exact Or.inl (hminutes.digits c hc)
  · exact Or.inr List.mem_cons_self
  · exact Or.inl (hseconds.digits c hc)
  · rcases hfraction.digits c hc with rfl | hc
    · exact Or.inr (List.mem_cons_of_mem _ List.mem_cons_self)
    · exact Or.inl hc

/-- A date and a time of day that exist, in their parts, write their moment. -/
theorem writes_of_parts {t : Timestamp} {year month day hours minutes seconds micros : Nat}
    {ys ms ds hs mins ss fs : List Char} (hyear : IsPart 4 year ys) (hmonth : IsPart 2 month ms)
    (hday : IsPart 2 day ds) (hdate : Calendar.isDate year month day = true)
    (hnumber : Calendar.dayNumber year month day = t.micros / microsPerDay + 1)
    (hhours : IsPart 2 hours hs) (hminutes : IsPart 2 minutes mins) (hseconds : IsPart 2 seconds ss)
    (hfraction : IsFraction micros fs) (htime : hours < 24 ∧ minutes < 60 ∧ seconds < 60)
    (htotal : ((hours * 60 + minutes) * 60 + seconds) * 1000000 + micros =
      t.micros % microsPerDay) :
    t.Writes (ys ++ '-' :: (ms ++ '-' :: ds)) (hs ++ ':' :: (mins ++ ':' :: (ss ++ fs))) where
  size rest := by
    rw [List.append_assoc, List.cons_append, List.append_assoc]
    refine dateSize_of_parts hyear.length hmonth ?_
    simp only [List.length_append, List.length_cons, hyear.length, hmonth.length, hday.length]
    omega
  length := by
    simp [hyear.length, hmonth.length, hday.length]
  day := hnumber ▸ date?_of_parts hyear hmonth hday hdate
  time := ⟨_, clock?_of_parts hhours hminutes hseconds hfraction, by simp [Clock.isTime, htime], rfl,
    htotal⟩
  given := by simp
  unmarked c hc := by
    rcases List.mem_append.mp hc with hc | hc
    · exact ne_of_digit_or (mem_dateText hyear hmonth hday hc) (by decide) (by decide)
    · rcases List.mem_cons.mp hc with rfl | hc
      · decide
      · exact ne_of_digit_or (mem_clockText hhours hminutes hseconds hfraction hc) (by decide)
          (by decide)
  unsigned c hc := by
    have hmem := mem_clockText hhours hminutes hseconds hfraction hc
    rw [Bool.and_eq_true, bne_iff_ne, bne_iff_ne]
    exact ⟨ne_of_digit_or hmem (by decide) (by decide), ne_of_digit_or hmem (by decide) (by decide)⟩

theorem daysInMonth_le (year month : Nat) : Calendar.daysInMonth year month ≤ 31 := by
  unfold Calendar.daysInMonth
  split
  · split <;> decide
  · decide
  · decide
  · decide
  · decide
  · decide

/-- The ISO text of a moment writes it. -/
theorem writes_iso {t : Timestamp} (h : t.micros < limit) :
    ∃ date clock, t.iso.toList = date ++ 'T' :: clock ∧ t.Writes date clock := by
  have hday : t.micros / microsPerDay + 1 ≤ Calendar.lastDay := by
    unfold limit at h
    exact Nat.div_lt_of_lt_mul (Nat.mul_comm _ _ ▸ h)
  obtain ⟨year, month, day, hdate, his, hnumber⟩ :=
    Calendar.dateOf_spec (Nat.le_add_left 1 _) hday
  have hmicros : t.micros % microsPerDay < 86400000000 := Nat.mod_lt _ (by decide)
  obtain ⟨hyear, hmonth, hshort⟩ : year < 10 ^ 4 ∧ month < 10 ^ 2 ∧ day < 10 ^ 2 := by
    have hmonthly := daysInMonth_le year month
    simp only [Calendar.isDate, Bool.and_eq_true, decide_eq_true_iff] at his
    omega
  have hfraction : IsFraction (t.micros % microsPerDay % 1000000)
      (if t.micros % microsPerDay % 1000000 = 0 then ""
        else "." ++ padded 6 (t.micros % microsPerDay % 1000000)).toList := by
    split
    · next hnone =>
      rw [hnone]
      exact .none
    · rw [String.toList_append]
      exact .some (isPart_padded (by decide) (Nat.mod_lt _ (by decide)))
  have hwrites := writes_of_parts (isPart_padded (by decide) hyear) (isPart_padded (by decide) hmonth)
    (isPart_padded (by decide) hshort) his hnumber
    (isPart_padded (n := t.micros % microsPerDay / 1000000 / 3600) (by decide) (by omega))
    (isPart_padded (n := t.micros % microsPerDay / 1000000 / 60 % 60) (by decide) (by omega))
    (isPart_padded (n := t.micros % microsPerDay / 1000000 % 60) (by decide) (by omega))
    hfraction (by omega) (by omega)
  refine ⟨_, _, ?_, hwrites⟩
  unfold iso
  rw [hdate]
  simp [String.toList_append]

/-! ## Reading -/

theorem withOffset_eq (s : String) : withOffset s =
    String.ofList (s.toList.flatMap fun c => if c = 'Z' then utcOffset else [c]) := rfl

theorem flatMap_unmarked {cs : List Char} (h : ∀ c ∈ cs, c ≠ 'Z') :
    (cs.flatMap fun c => if c = 'Z' then utcOffset else [c]) = cs := by
  induction cs with
  | nil => rfl
  | cons c rest ih =>
    rw [List.flatMap_cons, if_neg (h c List.mem_cons_self),
      ih fun d hd => h d (List.mem_cons_of_mem _ hd)]
    rfl

theorem ofText_iso {t : Timestamp} (h : t.micros < limit) : ofText t.iso = .ok t := by
  obtain ⟨date, clock, htext, hwrites⟩ := writes_iso h
  unfold ofText
  rw [withOffset_eq, htext, flatMap_unmarked hwrites.unmarked, hwrites.readLocal?_local]

theorem shift?_zero {t : Timestamp} (h : t.micros < limit) : t.shift? (-0) = some t := by
  unfold shift?
  dsimp only
  rw [Int.neg_zero, Int.add_zero, if_pos ⟨Int.natCast_nonneg _, Int.ofNat_lt.mpr h⟩,
    Int.toNat_natCast]

theorem marked_isoUtc {t : Timestamp} {cs : List Char} (htext : t.iso.toList = cs)
    (h : ∀ c ∈ cs, c ≠ 'Z') :
    ((t.isoUtc).toList.flatMap fun c => if c = 'Z' then utcOffset else [c]) = cs ++ utcOffset := by
  unfold isoUtc
  rw [String.toList_append, htext, List.flatMap_append, flatMap_unmarked h]
  rfl

theorem ofText_of_read {s : String} {t t' : Timestamp} {offset : Int}
    (hread : readLocal? (withOffset s) = some (t, some offset))
    (hshift : t.shift? (-offset) = some t') : ofText s = .ok t' := by
  unfold ofText
  rw [hread]
  dsimp only
  rw [hshift]

theorem ofText_isoUtc {t : Timestamp} (h : t.micros < limit) : ofText t.isoUtc = .ok t := by
  obtain ⟨date, clock, htext, hwrites⟩ := writes_iso h
  refine ofText_of_read ?_ (shift?_zero h)
  rw [withOffset_eq, marked_isoUtc htext hwrites.unmarked, List.append_assoc, List.cons_append]
  exact hwrites.readLocal?_zoned (by decide) (by decide)

/-- A text that can be read is a moment that is given. -/
theorem ofValue_of_ofText {s : String} {t : Timestamp} (h : ofText s = .ok t) :
    ofValue (.str s) = .ok (some t) := by
  have hempty : ofText "" = .error (.of (.badTimestamp (.str ""))) := rfl
  unfold ofValue
  dsimp only
  rw [h, if_neg]
  · rfl
  · intro hs
    rw [String.isEmpty_iff.mp hs, hempty] at h
    cases h

end Timestamp

end TenantSearch
