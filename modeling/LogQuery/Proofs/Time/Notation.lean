import LogQuery.Proofs.Number
import LogQuery.Proofs.Time.Calendar

/-!
How moments are written and read. Numbers of a fixed width and civil times are read
exactly as they are written. A time bound is read with an offset and a fraction of a
second, and printed in universal time to the second.
-/

namespace LogQuery

/-! ## Numbers of a fixed width -/

namespace Decimal

theorem ofDigits_cons (c : Char) (digits : List Char) :
    ofDigits (c :: digits) = 10 ^ digits.length * digitValue c + ofDigits digits := by
  rw [ofDigits_eq, Nat.ofDigitChars_cons, Nat.ofDigitChars_eq_ofDigitChars_zero,
    Nat.mul_zero, Nat.zero_add]
  rfl

theorem digitValue_lt {c : Char} (digit : c.isDigit = true) : digitValue c < 10 := by
  rw [Char.isDigit_iff_toNat] at digit
  have highest : '9'.toNat = '0'.toNat + 9 := rfl
  rw [digitValue]
  omega

theorem digitValue_inj {first second : Char} (firstDigit : first.isDigit = true)
    (secondDigit : second.isDigit = true)
    (value : digitValue first = digitValue second) : first = second := by
  rw [Char.isDigit_iff_toNat] at firstDigit secondDigit
  rw [digitValue, digitValue] at value
  apply Char.toNat_inj.mp
  omega

theorem ofDigits_lt {digits : List Char} (areDigits : ∀ c ∈ digits, c.isDigit = true) :
    ofDigits digits < 10 ^ digits.length := by
  induction digits with
  | nil => exact Nat.one_pos
  | cons c digits induction =>
      rw [List.forall_mem_cons] at areDigits
      have rest := induction areDigits.2
      have first := digitValue_lt areDigits.1
      rw [ofDigits_cons, List.length_cons, Nat.pow_succ]
      calc 10 ^ digits.length * digitValue c + ofDigits digits
          < 10 ^ digits.length * digitValue c + 10 ^ digits.length :=
            Nat.add_lt_add_left rest _
        _ = 10 ^ digits.length * (digitValue c + 1) := (Nat.mul_succ _ _).symm
        _ ≤ 10 ^ digits.length * 10 := Nat.mul_le_mul_left _ first

theorem ofDigits_inj {first second : List Char}
    (firstDigits : ∀ c ∈ first, c.isDigit = true)
    (secondDigits : ∀ c ∈ second, c.isDigit = true)
    (length : first.length = second.length) (value : ofDigits first = ofDigits second) :
    first = second := by
  induction first generalizing second with
  | nil => exact (List.eq_nil_of_length_eq_zero length.symm).symm
  | cons c first induction =>
      cases second with
      | nil => cases length
      | cons d second =>
          rw [List.forall_mem_cons] at firstDigits secondDigits
          have sameLength : first.length = second.length := Nat.succ.inj length
          have low := ofDigits_lt firstDigits.2
          have low' := ofDigits_lt secondDigits.2
          rw [ofDigits_cons, ofDigits_cons, sameLength] at value
          rw [sameLength] at low
          -- The leading digit is the quotient and the others are the remainder.
          have positive : 0 < 10 ^ second.length := Nat.pow_pos (by omega)
          have quotient := congrArg (· / 10 ^ second.length) value
          have remainder := congrArg (· % 10 ^ second.length) value
          simp only [Nat.mul_add_div positive, Nat.div_eq_of_lt low,
            Nat.div_eq_of_lt low', Nat.add_zero] at quotient
          simp only [Nat.mul_add_mod, Nat.mod_eq_of_lt low,
            Nat.mod_eq_of_lt low'] at remainder
          rw [digitValue_inj firstDigits.1 secondDigits.1 quotient,
            induction firstDigits.2 secondDigits.2 sameLength remainder]

end Decimal

namespace Instant

theorem padded_digits (width number : Nat) :
    ∀ c ∈ (padded width number).toList, c.isDigit = true := by
  intro c member
  rw [padded, String.toList_ofList, List.mem_append, List.mem_replicate] at member
  rcases member with ⟨-, zero⟩ | digit
  · rw [zero]
    rfl
  · exact Nat.isDigit_of_mem_toDigits (by omega) (by omega) digit

theorem ofDigits_padded (width number : Nat) :
    Decimal.ofDigits (padded width number).toList = number := by
  rw [padded, String.toList_ofList, Decimal.ofDigits_eq, Nat.ofDigitChars_append,
    Nat.ofDigitChars_replicate_zero, Nat.mul_zero, Nat.ofDigitChars_ten_toDigits]

theorem length_padded {width number : Nat} (positive : 0 < width)
    (fits : number < 10 ^ width) : (padded width number).toList.length = width := by
  have short := (Nat.length_toDigits_le_iff (by omega) positive).mpr fits
  rw [padded, String.toList_ofList, List.length_append, List.length_replicate]
  omega

theorem readNumber?_eq_some_iff {width number : Nat} {text rest : List Char}
    (positive : 0 < width) :
    readNumber? width text = some (number, rest) ↔
      number < 10 ^ width ∧ text = (padded width number).toList ++ rest := by
  constructor
  · intro read
    simp only [readNumber?] at read
    split at read
    · next shape =>
        cases read
        have digits := List.all_eq_true.mp shape.2
        have fits := Decimal.ofDigits_lt digits
        rw [shape.1] at fits
        have written : text.take width =
            (padded width (Decimal.ofDigits (text.take width))).toList := by
          apply Decimal.ofDigits_inj digits (padded_digits _ _)
          · rw [shape.1, length_padded positive fits]
          · rw [ofDigits_padded]
        refine ⟨fits, ?_⟩
        rw [← written, List.take_append_drop]
    · cases read
  · rintro ⟨fits, written⟩
    have length := length_padded positive fits
    have front : text.take width = (padded width number).toList := by
      rw [written, List.take_left' length]
    have back : text.drop width = rest := by
      rw [written, List.drop_left' length]
    simp only [readNumber?, front, back, ofDigits_padded]
    rw [if_pos ⟨length, List.all_eq_true.mpr (padded_digits width number)⟩]

theorem readMark?_eq_some_iff {marks text rest : List Char} :
    readMark? marks text = some rest ↔ ∃ mark ∈ marks, text = mark :: rest := by
  cases text with
  | nil => simp [readMark?]
  | cons c text =>
      simp only [readMark?, List.contains_eq_mem, decide_eq_true_eq, List.cons.injEq]
      constructor
      · intro read
        split at read
        · cases read
          exact ⟨c, by assumption, rfl, rfl⟩
        · cases read
      · rintro ⟨mark, member, same, after⟩
        rw [same, if_pos member, after]

section Steps

variable {α : Type} {text : List Char} {result : α}

theorem bind_readNumber?_eq_some_iff {width : Nat} (positive : 0 < width)
    {next : Nat × List Char → Option α} :
    (readNumber? width text >>= next) = some result ↔
      ∃ number rest, number < 10 ^ width ∧ text = (padded width number).toList ++ rest ∧
        next (number, rest) = some result := by
  simp only [Option.bind_eq_bind, Option.bind_eq_some_iff, Prod.exists,
    readNumber?_eq_some_iff positive, and_assoc]

theorem bind_readMark?_eq_some_iff {marks : List Char} {next : List Char → Option α} :
    (readMark? marks text >>= next) = some result ↔
      ∃ mark rest, mark ∈ marks ∧ text = mark :: rest ∧ next rest = some result := by
  simp only [Option.bind_eq_bind, Option.bind_eq_some_iff, readMark?_eq_some_iff]
  constructor
  · rintro ⟨rest, ⟨mark, member, written⟩, onward⟩
    exact ⟨mark, rest, member, written, onward⟩
  · rintro ⟨mark, rest, member, written, onward⟩
    exact ⟨rest, ⟨mark, member, written⟩, onward⟩

end Steps

/-! ## Civil times -/

theorem renderYear_eq {year : Int} (fourDigits : 0 ≤ year ∧ year ≤ 9999) :
    renderYear year = padded 4 year.natAbs := by
  rw [renderYear, if_neg (Int.not_lt.mpr fourDigits.1),
    if_neg (Int.not_lt.mpr fourDigits.2)]

theorem toList_renderCivil (separator : Char) (time : CivilTime) (rest : List Char) :
    (renderCivil (String.singleton separator) time).toList ++ rest =
      (renderYear time.year).toList ++ '-' ::
        ((padded 2 time.month).toList ++ '-' ::
          ((padded 2 time.day).toList ++ separator ::
            ((padded 2 time.hour).toList ++ ':' ::
              ((padded 2 time.minute).toList ++ ':' ::
                ((padded 2 time.second).toList ++ rest))))) := by
  simp [renderCivil]

section Reading

variable {separators text rest : List Char} {time : CivilTime}

theorem eq_of_readCivil? (read : readCivil? separators text = some (time, rest)) :
    (time.isReal = true ∧ 0 ≤ time.year ∧ time.year ≤ 9999) ∧
      ∃ separator ∈ separators,
        text = (renderCivil (String.singleton separator) time).toList ++ rest := by
  unfold readCivil? at read
  obtain ⟨year, _, yearFits, yearPart, read⟩ :=
    (bind_readNumber?_eq_some_iff (by omega)).mp read
  obtain ⟨_, _, dash, dashPart, read⟩ := bind_readMark?_eq_some_iff.mp read
  obtain ⟨month, _, -, monthPart, read⟩ :=
    (bind_readNumber?_eq_some_iff (by omega)).mp read
  obtain ⟨_, _, dash', dashPart', read⟩ := bind_readMark?_eq_some_iff.mp read
  obtain ⟨day, _, -, dayPart, read⟩ := (bind_readNumber?_eq_some_iff (by omega)).mp read
  obtain ⟨separator, _, member, separatorPart, read⟩ :=
    bind_readMark?_eq_some_iff.mp read
  obtain ⟨hour, _, -, hourPart, read⟩ :=
    (bind_readNumber?_eq_some_iff (by omega)).mp read
  obtain ⟨_, _, colon, colonPart, read⟩ := bind_readMark?_eq_some_iff.mp read
  obtain ⟨minute, _, -, minutePart, read⟩ :=
    (bind_readNumber?_eq_some_iff (by omega)).mp read
  obtain ⟨_, _, colon', colonPart', read⟩ := bind_readMark?_eq_some_iff.mp read
  obtain ⟨second, _, -, secondPart, read⟩ :=
    (bind_readNumber?_eq_some_iff (by omega)).mp read
  simp only at read
  split at read
  · next real =>
      cases read
      have fourDigits : 0 ≤ (year : Int) ∧ (year : Int) ≤ 9999 := by omega
      refine ⟨⟨real, fourDigits⟩, separator, member, ?_⟩
      rw [List.mem_singleton] at dash dash' colon colon'
      rw [toList_renderCivil, renderYear_eq fourDigits, Int.natAbs_natCast, yearPart,
        dashPart, dash, monthPart, dashPart', dash', dayPart, separatorPart, hourPart,
        colonPart, colon, minutePart, colonPart', colon', secondPart]
  · cases read

theorem readCivil?_renderCivil (real : time.isReal = true)
    (fourDigits : 0 ≤ time.year ∧ time.year ≤ 9999) {separator : Char}
    (member : separator ∈ separators) :
    readCivil? separators
      ((renderCivil (String.singleton separator) time).toList ++ rest) =
      some (time, rest) := by
  obtain ⟨date, hour, minute, second⟩ := (CivilTime.isReal_iff time).mp real
  have bounds := Calendar.date_bounds date.1 date.2
  rw [toList_renderCivil, renderYear_eq fourDigits]
  unfold readCivil?
  refine (bind_readNumber?_eq_some_iff (by omega)).mpr
    ⟨time.year.natAbs, _, by omega, rfl, ?_⟩
  refine bind_readMark?_eq_some_iff.mpr ⟨'-', _, List.mem_cons_self, rfl, ?_⟩
  refine (bind_readNumber?_eq_some_iff (by omega)).mpr
    ⟨time.month, _, by omega, rfl, ?_⟩
  refine bind_readMark?_eq_some_iff.mpr ⟨'-', _, List.mem_cons_self, rfl, ?_⟩
  refine (bind_readNumber?_eq_some_iff (by omega)).mpr ⟨time.day, _, by omega, rfl, ?_⟩
  refine bind_readMark?_eq_some_iff.mpr ⟨separator, _, member, rfl, ?_⟩
  refine (bind_readNumber?_eq_some_iff (by omega)).mpr ⟨time.hour, _, by omega, rfl, ?_⟩
  refine bind_readMark?_eq_some_iff.mpr ⟨':', _, List.mem_cons_self, rfl, ?_⟩
  refine (bind_readNumber?_eq_some_iff (by omega)).mpr
    ⟨time.minute, _, by omega, rfl, ?_⟩
  refine bind_readMark?_eq_some_iff.mpr ⟨':', _, List.mem_cons_self, rfl, ?_⟩
  refine (bind_readNumber?_eq_some_iff (by omega)).mpr
    ⟨time.second, _, by omega, rfl, ?_⟩
  simp only [Int.natAbs_of_nonneg fourDigits.1]
  rw [if_pos real]

/-- Civil times of the years with four digits are read exactly as they are written. -/
theorem readCivil?_eq_some_iff :
    readCivil? separators text = some (time, rest) ↔
      (time.isReal = true ∧ 0 ≤ time.year ∧ time.year ≤ 9999) ∧
        ∃ separator ∈ separators,
          text = (renderCivil (String.singleton separator) time).toList ++ rest := by
  constructor
  · exact eq_of_readCivil?
  · rintro ⟨⟨real, fourDigits⟩, separator, member, written⟩
    rw [written, readCivil?_renderCivil real fourDigits member]

end Reading

/-! ## Fractions and offsets -/

theorem nanos_lt_of_readNanos? {text rest : List Char} {nanos : Nat}
    (read : readNanos? text = some (nanos, rest)) : nanos < nanosPerSecond := by
  unfold readNanos? at read
  split at read
  · next digits =>
      simp only at read
      split at read
      · cases read
      · cases read
        generalize leadingEq : (digits.takeWhile Char.isDigit).take 9 = leading
        have short : leading.length ≤ 9 := by
          rw [← leadingEq, List.length_take]
          exact Nat.min_le_left _ _
        have areDigits : ∀ c ∈ leading, c.isDigit = true := by
          intro c member
          rw [← leadingEq] at member
          exact List.all_eq_true.mp List.all_takeWhile c (List.mem_of_mem_take member)
        calc Decimal.ofDigits leading * 10 ^ (9 - leading.length)
            < 10 ^ leading.length * 10 ^ (9 - leading.length) :=
              Nat.mul_lt_mul_of_pos_right (Decimal.ofDigits_lt areDigits)
                (Nat.pow_pos (by omega))
          _ = 10 ^ 9 := by rw [← Nat.pow_add, Nat.add_sub_cancel' short]
  · cases read
    decide

theorem minutes_of_readOffset? {text rest : List Char} {offset : Int}
    (read : readOffset? text = some (offset, rest)) : offset % 60 = 0 := by
  cases text with
  | nil => cases read
  | cons c text =>
      rw [readOffset?] at read
      split at read
      · cases read
        rfl
      · split at read
        · simp only [Option.bind_eq_bind, Option.bind_eq_some_iff, Prod.exists] at read
          obtain ⟨hours, _, _, _, _, minutes, _, _, read⟩ := read
          split at read
          · cases read
            split <;> omega
          · cases read
        · cases read

theorem onClock_ofCivil (time : CivilTime) {nanos : Nat}
    (below : nanos < nanosPerSecond) : (ofCivil time nanos).OnClock := by
  rw [OnClock, ofCivil_nanos, ofCivil_seconds, CivilTime.secondOfDay]
  split
  · next leap =>
      right
      rw [leap]
      omega
  · exact .inl below

theorem OnClock.shift {instant : Instant} (onClock : instant.OnClock) {offset : Int}
    (minutes : offset % 60 = 0) :
    OnClock { instant with seconds := instant.seconds - offset } := by
  rcases onClock with below | ⟨minuteEnd, beyond⟩
  · exact .inl below
  · exact .inr ⟨by simp only; omega, beyond⟩

/-! ## Time bounds -/

theorem onClock_of_readRfc3339? {text : String} {instant : Instant}
    (read : readRfc3339? text = some instant) :
    instant.OnClock ∧
      ∃ separators time rest,
        readCivil? separators text.toList = some (time, rest) := by
  simp only [readRfc3339?, Option.bind_eq_bind, Option.bind_eq_some_iff,
    Prod.exists] at read
  obtain ⟨time, afterTime, civil, nanos, afterNanos, fraction, offset, rest, zone,
    read⟩ := read
  split at read
  · cases read
    have below := nanos_lt_of_readNanos? fraction
    exact ⟨(onClock_ofCivil time below).shift (minutes_of_readOffset? zone), _, _, _,
      civil⟩
  · cases read

theorem readCivil?_of_read {text : String} {time : CivilTime}
    (accepted : CivilTime.read text = .ok time) :
    readCivil? [' '] text.toList = some (time, []) := by
  rw [CivilTime.read] at accepted
  split at accepted
  · split at accepted
    · next found =>
        cases accepted
        exact found
    · cases accepted
  · cases accepted

theorem onClock_of_read {text : String} {instant : Instant}
    (accepted : Instant.read text = .ok instant) :
    instant.OnClock ∧
      ∃ separators time rest,
        readCivil? separators text.toList = some (time, rest) := by
  rw [Instant.read] at accepted
  split at accepted
  · next found =>
      cases accepted
      exact onClock_of_readRfc3339? found
  · split at accepted
    · next time found =>
        cases accepted
        exact ⟨onClock_ofCivil time (by decide), _, _, _, readCivil?_of_read found⟩
    · cases accepted

theorem head_renderYear (year : Int) (rest : List Char) :
    ((renderYear year).toList ++ rest).head?.any Char.isDigit = true ↔
      0 ≤ year ∧ year ≤ 9999 := by
  by_cases early : year < 0
  · rw [renderYear, if_pos early, String.toList_append]
    constructor
    · intro digit
      cases digit
    · omega
  · by_cases late : 9999 < year
    · rw [renderYear, if_neg early, if_pos late, String.toList_append]
      constructor
      · intro digit
        cases digit
      · omega
    · refine ⟨fun _ => by omega, fun _ => ?_⟩
      rw [renderYear_eq ⟨Int.not_lt.mp early, Int.not_lt.mp late⟩]
      cases shape : (padded 4 year.natAbs).toList with
      | nil =>
          rw [padded, String.toList_ofList, List.append_eq_nil_iff] at shape
          exact absurd shape.2 Nat.toDigits_ne_nil
      | cons first more =>
          apply padded_digits 4 year.natAbs
          rw [shape]
          exact List.mem_cons_self

theorem year_of_read_render {instant again : Instant}
    (accepted : read instant.render = .ok again) :
    0 ≤ instant.toCivil.year ∧ instant.toCivil.year ≤ 9999 := by
  obtain ⟨-, separators, time, rest, civil⟩ := onClock_of_read accepted
  obtain ⟨⟨-, fourDigits⟩, separator, -, written⟩ := readCivil?_eq_some_iff.mp civil
  have printed : instant.render.toList =
      (renderCivil (String.singleton 'T') instant.toCivil).toList ++ ['Z'] :=
        String.toList_append
  rw [printed, toList_renderCivil, toList_renderCivil] at written
  rw [← head_renderYear _ _, ← written, head_renderYear] at fourDigits
  exact fourDigits

theorem readRfc3339?_render {time : CivilTime} (real : time.isReal = true)
    (fourDigits : 0 ≤ time.year ∧ time.year ≤ 9999) :
    readRfc3339? (renderCivil "T" time ++ "Z") = some (ofCivil time 0) := by
  have civil :
      readCivil? ['T', 't', ' '] (renderCivil "T" time ++ "Z").toList =
        some (time, ['Z']) := by
    rw [readCivil?_eq_some_iff, String.toList_append]
    exact ⟨⟨real, fourDigits⟩, 'T', List.mem_cons_self, rfl⟩
  have fraction : readNanos? ['Z'] = some (0, ['Z']) := rfl
  have zone : readOffset? ['Z'] = some (0, []) := rfl
  simp only [readRfc3339?, civil, fraction, zone, Option.bind_eq_bind, Option.bind_some,
    if_true, Int.sub_zero]

def unblank (c : Char) : Char :=
  if c = ' ' then 'T' else c

theorem map_unblank_padded (width number : Nat) :
    (padded width number).toList.map unblank = (padded width number).toList := by
  have same : ∀ c ∈ (padded width number).toList, unblank c = c := by
    intro c member
    have digit := padded_digits width number c member
    rw [unblank, if_neg]
    intro blank
    rw [blank] at digit
    cases digit
  rw [List.map_congr_left same, List.map_id']

theorem map_unblank_renderCivil {time : CivilTime}
    (fourDigits : 0 ≤ time.year ∧ time.year ≤ 9999) :
    (renderCivil " " time).toList.map unblank = (renderCivil "T" time).toList := by
  have dash : unblank '-' = '-' := rfl
  have colon : unblank ':' = ':' := rfl
  have blank : unblank ' ' = 'T' := rfl
  have before := toList_renderCivil ' ' time []
  have after := toList_renderCivil 'T' time []
  rw [List.append_nil] at before after
  rw [show " " = String.singleton ' ' from rfl,
    show "T" = String.singleton 'T' from rfl, before, after, renderYear_eq fourDigits]
  simp only [List.map_append, List.map_cons, List.map_nil, map_unblank_padded, dash,
    colon, blank]

theorem render_of_civil {text : String} {time : CivilTime}
    (accepted : CivilTime.read text = .ok time) :
    read text = .ok (ofCivil time 0) ∧
      (ofCivil time 0).render = text.map unblank ++ "Z" := by
  have civil := readCivil?_of_read accepted
  obtain ⟨⟨real, fourDigits⟩, separator, member, written⟩ :=
    readCivil?_eq_some_iff.mp civil
  rw [List.mem_singleton] at member
  rw [member, List.append_nil] at written
  constructor
  · have longer : readCivil? ['T', 't', ' '] text.toList = some (time, []) := by
      rw [readCivil?_eq_some_iff]
      refine ⟨⟨real, fourDigits⟩, ' ', by decide, ?_⟩
      rw [written, List.append_nil]
    have noZone : readRfc3339? text = none := by
      have fraction : readNanos? [] = some (0, []) := rfl
      have zone : readOffset? [] = none := rfl
      simp only [readRfc3339?, longer, fraction, zone, Option.bind_eq_bind,
        Option.bind_some, Option.bind_none]
    rw [read, noZone, accepted]
  · have printed : (ofCivil time 0).render = renderCivil "T" time ++ "Z" := by
      rw [render, toCivil_ofCivil real (by decide)]
    rw [printed, ← String.toList_inj, String.toList_append, String.toList_append,
      String.toList_map, written, ← map_unblank_renderCivil fourDigits]
    rfl

theorem read_render {instant : Instant} (onClock : instant.OnClock)
    (year : 0 ≤ instant.toCivil.year ∧ instant.toCivil.year ≤ 9999) :
    read instant.render = .ok instant.wholeSecond := by
  rw [read, render, readRfc3339?_render (isReal_toCivil instant) year,
    ofCivil_toCivil onClock]

/-- Time bounds are printed as the moments that were read. What is printed for one is
accepted exactly if it lies in a year of four digits, and then it is the same moment to
the second. A date with a time of day comes out as it was written, but for the two
letters of RFC 3339. -/
theorem read_render_of_read (text : String) :
    (∀ instant, read text = .ok instant → ∀ again,
      read instant.render = .ok again ↔
        (∃ year, 0 ≤ year ∧ year ≤ 9999 ∧ instant.InYear year) ∧
          again = instant.wholeSecond) ∧
    (∀ time, CivilTime.read text = .ok time →
      ∃ instant, read text = .ok instant ∧
        instant.render = text.map unblank ++ "Z") := by
  constructor
  · intro instant accepted again
    have onClock := (onClock_of_read accepted).1
    have bounds : (∃ year, 0 ≤ year ∧ year ≤ 9999 ∧ instant.InYear year) ↔
        0 ≤ instant.toCivil.year ∧ instant.toCivil.year ≤ 9999 := by
      simp [inYear_iff, ← and_assoc]
    rw [bounds]
    constructor
    · intro printed
      have year := year_of_read_render printed
      rw [read_render onClock year] at printed
      cases printed
      exact ⟨year, rfl⟩
    · rintro ⟨year, same⟩
      rw [same]
      exact read_render onClock year
  · intro time accepted
    exact ⟨_, render_of_civil accepted⟩

theorem read_render_of_read_shifted :
    read "2024-03-01T00:30:60.75+01:00" = .ok ⟨1709249459, 1750000000⟩ ∧
      read (render ⟨1709249459, 1750000000⟩) = .ok ⟨1709249459, 1000000000⟩ ∧
      read "0000-01-01T00:00:00+00:01" = .ok ⟨-62167219260, 0⟩ ∧
      (∀ again, read (render ⟨-62167219260, 0⟩) ≠ .ok again) ∧
      CivilTime.read "2024-02-29 23:30:60" = .ok ⟨2024, 2, 29, 23, 30, 60⟩ ∧
      ∃ instant, read "2024-02-29 23:30:60" = .ok instant ∧
        instant.render = "2024-02-29 23:30:60".map unblank ++ "Z" := by
  have leap : read "2024-03-01T00:30:60.75+01:00" = .ok ⟨1709249459, 1750000000⟩ := by
    decide +kernel
  have early : read "0000-01-01T00:00:00+00:01" = .ok ⟨-62167219260, 0⟩ := by
    decide +kernel
  have civil :
      CivilTime.read "2024-02-29 23:30:60" = .ok ⟨2024, 2, 29, 23, 30, 60⟩ := by
    decide +kernel
  have leapYear : InYear ⟨1709249459, 1750000000⟩ 2024 := by
    rw [inYear_iff]
    decide
  refine ⟨leap, ?_, early, ?_, civil, (read_render_of_read _).2 _ civil⟩
  · apply ((read_render_of_read _).1 _ leap _).mpr
    exact ⟨⟨2024, by decide, by decide, leapYear⟩, rfl⟩
  · intro again printed
    obtain ⟨⟨year, least, -, inYear⟩, -⟩ :=
      ((read_render_of_read _).1 _ early again).mp printed
    have before : (toCivil ⟨-62167219260, 0⟩).year = -1 := by decide
    rw [inYear_iff, before] at inYear
    omega

end Instant

end LogQuery
