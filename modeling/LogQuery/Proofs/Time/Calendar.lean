import LogQuery.Time.Instant

/-!
The calendar as a numbering of days. Dates and day numbers correspond one to one, and so
do moments and civil times with a fraction of a second, leap seconds included.
-/

namespace LogQuery

namespace Calendar

/-! ## Years -/

theorem daysBeforeYear_mono {first second : Int} (later : first ≤ second) :
    daysBeforeYear first ≤ daysBeforeYear second := by
  simp only [daysBeforeYear]
  omega

/-- The average year misses by one year at most. -/
theorem daysBeforeYear_guess (day : Int) :
    daysBeforeYear (day * 400 / 146097 - 1) ≤ day ∧
      day < daysBeforeYear (day * 400 / 146097 + 2) := by
  simp only [daysBeforeYear]
  omega

theorem yearOfDay_bounds (day : Int) :
    daysBeforeYear (yearOfDay day) ≤ day ∧
      day < daysBeforeYear (yearOfDay day + 1) := by
  have bounds := daysBeforeYear_guess day
  simp only [yearOfDay]
  generalize day * 400 / 146097 = guess at bounds
  split
  · rw [Int.sub_add_cancel]
    exact ⟨bounds.1, by assumption⟩
  · split
    · exact ⟨by omega, by assumption⟩
    · rw [Int.add_assoc]
      exact ⟨by omega, bounds.2⟩

theorem yearOfDay_eq_iff (day year : Int) :
    yearOfDay day = year ↔
      daysBeforeYear year ≤ day ∧ day < daysBeforeYear (year + 1) := by
  have own := yearOfDay_bounds day
  constructor
  · rintro rfl
    exact own
  · intro other
    rcases Int.lt_trichotomy (yearOfDay day) year with earlier | same | later
    · have starts := daysBeforeYear_mono (Int.add_one_le_of_lt earlier)
      omega
    · exact same
    · have starts := daysBeforeYear_mono (Int.add_one_le_of_lt later)
      omega

/-! ## Months -/

theorem daysOfMonths_cons (length : Nat) (lengths : List Nat) :
    daysOfMonths (length :: lengths) = length + daysOfMonths lengths := by
  rw [daysOfMonths, daysOfMonths, List.foldl_cons, Nat.zero_add, ← Nat.add_zero length,
    List.foldl_assoc, Nat.add_zero]

section Months

variable {lengths : List Nat} {index offset position : Nat}

theorem exists_month (inside : position < daysOfMonths lengths) :
    ∃ index offset, offset < lengths.getD index 0 ∧
      position = daysOfMonths (lengths.take index) + offset := by
  induction lengths generalizing position with
  | nil => cases inside
  | cons length lengths induction =>
      rw [daysOfMonths_cons] at inside
      by_cases early : position < length
      · exact ⟨0, position, early, (Nat.zero_add position).symm⟩
      · have later : position - length < daysOfMonths lengths := by omega
        rcases induction later with ⟨index, offset, fits, place⟩
        refine ⟨index + 1, offset, fits, ?_⟩
        rw [List.take_succ_cons, daysOfMonths_cons]
        omega

theorem month_inside (fits : offset < lengths.getD index 0) :
    daysOfMonths (lengths.take index) + offset < daysOfMonths lengths := by
  induction lengths generalizing index with
  | nil => simp at fits
  | cons length lengths induction =>
      rw [daysOfMonths_cons]
      cases index with
      | zero =>
          have early : offset < length := fits
          simp only [List.take_zero, daysOfMonths, List.foldl_nil]
          omega
      | succ index =>
          have onward := @induction index fits
          rw [List.take_succ_cons, daysOfMonths_cons]
          omega

theorem monthAndDay_eq (fits : offset < lengths.getD index 0) :
    monthAndDay lengths (daysOfMonths (lengths.take index) + offset) =
      (index + 1, offset + 1) := by
  induction lengths generalizing index with
  | nil => simp at fits
  | cons length lengths induction =>
      cases index with
      | zero =>
          have early : offset < length := fits
          simp [monthAndDay, daysOfMonths, early]
      | succ index =>
          have onward := @induction index fits
          rw [List.take_succ_cons, daysOfMonths_cons, Nat.add_assoc, monthAndDay,
            if_neg (by omega), Nat.add_sub_cancel_left, onward]

end Months

/-! ## Dates -/

def dayNumber (year : Int) (month day : Nat) : Int :=
  daysBeforeYear year + daysBeforeMonth year month + day - 1

def dateOfDay (number : Int) : Int × Nat × Nat :=
  let year := yearOfDay number
  (year, monthAndDay (monthLengths year) (number - daysBeforeYear year).toNat)

theorem daysBeforeYear_succ_eq (year : Int) :
    daysBeforeYear (year + 1) =
      daysBeforeYear year + daysOfMonths (monthLengths year) := by
  rw [daysBeforeYear_succ, daysOfMonths_monthLengths]
  split <;> rfl

theorem dateOfDay_of_month {year : Int} {index offset : Nat}
    (fits : offset < (monthLengths year).getD index 0) :
    dateOfDay (daysBeforeYear year +
        (daysOfMonths ((monthLengths year).take index) + offset : Nat)) =
      (year, index + 1, offset + 1) := by
  have inside := month_inside fits
  have sameYear : yearOfDay (daysBeforeYear year +
      (daysOfMonths ((monthLengths year).take index) + offset : Nat)) = year := by
    rw [yearOfDay_eq_iff, daysBeforeYear_succ_eq]
    omega
  rw [dateOfDay, sameYear, Int.add_comm, Int.add_sub_cancel, Int.toNat_natCast,
    monthAndDay_eq fits]

/-- Dates and day numbers correspond one to one. -/
theorem dateOfDay_eq_iff (number year : Int) (month day : Nat) :
    dateOfDay number = (year, month, day) ↔
      (1 ≤ day ∧ day ≤ monthLength year month) ∧ number = dayNumber year month day := by
  constructor
  · intro date
    have bounds := yearOfDay_bounds number
    rw [daysBeforeYear_succ_eq] at bounds
    have inside : (number - daysBeforeYear (yearOfDay number)).toNat <
        daysOfMonths (monthLengths (yearOfDay number)) := by omega
    rcases exists_month inside with ⟨index, offset, fits, place⟩
    have position : number = daysBeforeYear (yearOfDay number) +
        (daysOfMonths ((monthLengths (yearOfDay number)).take index) +
          offset : Nat) := by omega
    rw [position, dateOfDay_of_month fits] at date
    cases date
    refine ⟨⟨Nat.le_add_left 1 offset, ?_⟩, ?_⟩
    · rw [monthLength, if_neg (Nat.succ_ne_zero index), Nat.add_sub_cancel]
      exact fits
    · rw [dayNumber, daysBeforeMonth, Nat.add_sub_cancel]
      omega
  · rintro ⟨⟨first, last⟩, rfl⟩
    rw [monthLength] at last
    split at last
    · omega
    · have fits : day - 1 < (monthLengths year).getD (month - 1) 0 := by omega
      have number : dayNumber year month day = daysBeforeYear year +
          (daysOfMonths ((monthLengths year).take (month - 1)) + (day - 1) : Nat) := by
        rw [dayNumber, daysBeforeMonth]
        omega
      rw [number, dateOfDay_of_month fits, Nat.sub_add_cancel first,
        Nat.sub_add_cancel (by omega)]

theorem date_bounds {year : Int} {month day : Nat} (first : 1 ≤ day)
    (last : day ≤ monthLength year month) : 1 ≤ month ∧ month ≤ 12 ∧ day ≤ 31 := by
  rw [monthLength] at last
  split at last
  · omega
  · have longest : ∀ length ∈ monthLengths year, length ≤ 31 := by
      intro length member
      simp only [monthLengths, List.mem_cons, List.not_mem_nil, or_false] at member
      split at member <;> omega
    rw [List.getD_eq_getElem?_getD] at last
    cases found : (monthLengths year)[month - 1]? with
    | none =>
        rw [found, Option.getD_none] at last
        omega
    | some length =>
        rw [found, Option.getD_some] at last
        have bound := longest length (List.mem_of_getElem? found)
        have known : month - 1 < 12 := (List.getElem?_eq_some_iff.mp found).1
        omega

end Calendar

/-! ## Civil times -/

namespace CivilTime

/-- The second of the day, a leap second standing still at the second before it. -/
def secondOfDay (time : CivilTime) : Nat :=
  time.hour * 3600 + time.minute * 60 + min time.second 59

theorem isReal_iff (time : CivilTime) :
    time.isReal = true ↔
      (1 ≤ time.day ∧ time.day ≤ Calendar.monthLength time.year time.month) ∧
        time.hour < 24 ∧ time.minute < 60 ∧ time.second ≤ 60 := by
  simp [isReal, and_assoc]

theorem eq_of_parts {first second : CivilTime}
    (date : (first.year, first.month, first.day) =
      (second.year, second.month, second.day))
    (hour : first.hour = second.hour) (minute : first.minute = second.minute)
    (seconds : first.second = second.second) : first = second := by
  cases first
  cases second
  simp_all

end CivilTime

namespace Instant

/-- Within a leap second the seconds stand at the end of a minute. -/
def OnClock (instant : Instant) : Prop :=
  instant.nanos < nanosPerSecond ∨
    instant.seconds % 60 = 59 ∧ instant.nanos < 2 * nanosPerSecond

/-- A moment without the fraction of its second. A leap second stays one. -/
def wholeSecond (instant : Instant) : Instant :=
  { instant with nanos := instant.nanos / nanosPerSecond * nanosPerSecond }

theorem ofCivil_seconds (time : CivilTime) (nanos : Nat) :
    (ofCivil time nanos).seconds =
      (Calendar.dayNumber time.year time.month time.day - Calendar.epochDay) * 86400 +
        time.secondOfDay := by
  simp only [ofCivil, Calendar.dayNumber, CivilTime.secondOfDay]
  omega

theorem ofCivil_nanos (time : CivilTime) (nanos : Nat) :
    (ofCivil time nanos).nanos =
      if time.second = 60 then nanosPerSecond + nanos else nanos :=
  rfl

section ToCivil

variable (instant : Instant)

theorem toCivil_date :
    (instant.toCivil.year, instant.toCivil.month, instant.toCivil.day) =
      Calendar.dateOfDay (instant.seconds / 86400 + Calendar.epochDay) :=
  rfl

theorem toCivil_hour : instant.toCivil.hour = (instant.seconds % 86400).toNat / 3600 :=
  rfl

theorem toCivil_minute :
    instant.toCivil.minute = (instant.seconds % 86400).toNat / 60 % 60 :=
  rfl

theorem toCivil_second :
    instant.toCivil.second =
      (instant.seconds % 86400).toNat % 60 +
        if nanosPerSecond ≤ instant.nanos then 1 else 0 :=
  rfl

end ToCivil

def yearStart (year : Int) : Int :=
  (Calendar.daysBeforeYear year - Calendar.epochDay) * 86400

def InYear (instant : Instant) (year : Int) : Prop :=
  yearStart year ≤ instant.seconds ∧ instant.seconds < yearStart (year + 1)

theorem inYear_iff (instant : Instant) (year : Int) :
    instant.InYear year ↔ instant.toCivil.year = year := by
  have sameYear : instant.toCivil.year =
      Calendar.yearOfDay (instant.seconds / 86400 + Calendar.epochDay) := rfl
  rw [sameYear, Calendar.yearOfDay_eq_iff, InYear, yearStart, yearStart]
  omega

theorem toCivil_ofCivil {time : CivilTime} (real : time.isReal = true) {fraction : Nat}
    (below : fraction < nanosPerSecond) : (ofCivil time fraction).toCivil = time := by
  rcases (CivilTime.isReal_iff time).mp real with ⟨date, hour, minute, second⟩
  have seconds := ofCivil_seconds time fraction
  have inDay : time.secondOfDay < 86400 := by
    rw [CivilTime.secondOfDay]
    omega
  have day : (ofCivil time fraction).seconds / 86400 + Calendar.epochDay =
      Calendar.dayNumber time.year time.month time.day := by omega
  have clock : ((ofCivil time fraction).seconds % 86400).toNat = time.secondOfDay := by
    omega
  apply CivilTime.eq_of_parts
  · rw [toCivil_date, Calendar.dateOfDay_eq_iff]
    exact ⟨date, day⟩
  · rw [toCivil_hour, clock, CivilTime.secondOfDay]
    omega
  · rw [toCivil_minute, clock, CivilTime.secondOfDay]
    omega
  · rw [toCivil_second, clock, CivilTime.secondOfDay, ofCivil_nanos]
    split <;> split <;> omega

theorem isReal_toCivil (instant : Instant) : instant.toCivil.isReal = true := by
  rw [CivilTime.isReal_iff]
  refine ⟨((Calendar.dateOfDay_eq_iff _ _ _ _).mp (toCivil_date instant).symm).1, ?_,
    ?_, ?_⟩
  · rw [toCivil_hour]
    omega
  · rw [toCivil_minute]
    omega
  · rw [toCivil_second]
    split <;> omega

theorem secondOfDay_toCivil {instant : Instant} (onClock : instant.OnClock) :
    instant.toCivil.secondOfDay = (instant.seconds % 86400).toNat := by
  rw [CivilTime.secondOfDay, toCivil_hour, toCivil_minute, toCivil_second]
  rcases onClock with below | ⟨minuteEnd, -⟩
  · rw [if_neg (Nat.not_le.mpr below)]
    omega
  · split <;> omega

theorem ofCivil_toCivil {instant : Instant} (onClock : instant.OnClock) :
    ofCivil instant.toCivil 0 = instant.wholeSecond := by
  have day := ((Calendar.dateOfDay_eq_iff _ _ _ _).mp (toCivil_date instant).symm).2
  have seconds : (ofCivil instant.toCivil 0).seconds = instant.seconds := by
    rw [ofCivil_seconds, secondOfDay_toCivil onClock, ← day]
    omega
  have nanos : (ofCivil instant.toCivil 0).nanos =
      instant.nanos / nanosPerSecond * nanosPerSecond := by
    rw [ofCivil_nanos, toCivil_second]
    rcases Nat.lt_or_ge instant.nanos nanosPerSecond with below | leap
    · rw [if_neg (Nat.not_le.mpr below), if_neg (by omega), Nat.div_eq_of_lt below,
        Nat.zero_mul]
    · obtain ⟨minuteEnd, beyond⟩ := onClock.resolve_left (Nat.not_lt.mpr leap)
      rw [if_pos leap, if_pos (by omega)]
      simp only [nanosPerSecond] at *
      omega
  calc ofCivil instant.toCivil 0
      = ⟨(ofCivil instant.toCivil 0).seconds, (ofCivil instant.toCivil 0).nanos⟩ := rfl
    _ = instant.wholeSecond := by rw [seconds, nanos, wholeSecond]

end Instant

end LogQuery
