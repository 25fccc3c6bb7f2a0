import LogQuery.Proofs.Parameter
import LogQuery.Proofs.Time.Notation

/-!
The alphabets of what goes into a statement as it is. Tables, timestamp fields and times
keep to theirs. Timezones keep to theirs as long as their digits do: an offset may be
written with the digits of any script.
-/

namespace LogQuery.Parameter

/-! ## Alphabets -/

def letters : List Char :=
  "ABCDEFGHIJKLMNOPQRSTUVWXYZabcdefghijklmnopqrstuvwxyz".toList

def digits : List Char :=
  "0123456789".toList

def tableAlphabet : List Char :=
  letters ++ digits ++ ['_', '.']

def timestampAlphabet : List Char :=
  letters ++ digits ++ ['_', '.', '@', ':']

def timezoneAlphabet : List Char :=
  letters ++ digits ++ ['_', '+', '-', '/', ':']

def timeAlphabet : List Char :=
  digits ++ ['-', ':', ' ']

theorem mem_of_lookup {test : Char → Bool} {alphabet : List Char}
    (lookup : (List.range 128).all (fun code =>
      !test (Char.ofNat code) || alphabet.contains (Char.ofNat code)) = true)
    {c : Char} (ascii : c.toNat < 128) (passes : test c = true) : c ∈ alphabet := by
  have found := List.all_eq_true.mp lookup c.toNat (List.mem_range.mpr ascii)
  rw [Char.ofNat_toNat, passes] at found
  exact List.contains_iff_mem.mp found

theorem ascii_of_isAlphanum {c : Char} (alphanumeric : c.isAlphanum = true) :
    c.toNat < 128 := by
  have code : c.toNat = c.val.toNat := rfl
  unfold Char.isAlphanum Char.isAlpha Char.isUpper Char.isLower
    Char.isDigit at alphanumeric
  simp [UInt32.le_iff_toNat_le] at alphanumeric
  omega

theorem mem_letters_digits {c : Char} (alphanumeric : c.isAlphanum = true) :
    c ∈ letters ++ digits :=
  mem_of_lookup (by decide +kernel) (ascii_of_isAlphanum alphanumeric) alphanumeric

theorem mem_digits {c : Char} (digit : c.isDigit = true) : c ∈ digits := by
  have alphanumeric : c.isAlphanum = true := by
    rw [Char.isAlphanum, digit, Bool.or_true]
  exact mem_of_lookup (by decide +kernel) (ascii_of_isAlphanum alphanumeric) digit

theorem mem_alphabet {marks : List Char} {c : Char}
    (known : c.isAlphanum = true ∨ c ∈ marks) : c ∈ letters ++ digits ++ marks :=
  List.mem_append.mpr (known.imp_left mem_letters_digits)

/-! ## Tables and columns -/

theorem mem_of_checkTable {name : String} (accepted : checkTable name = .ok ())
    {c : Char} (member : c ∈ name.toList) : c ∈ tableAlphabet := by
  apply mem_alphabet
  rcases (table_chars accepted).2 c member with nameChar | point
  · rw [isNameChar, Bool.or_eq_true, beq_iff_eq] at nameChar
    exact nameChar.imp_right fun underscore => by simp [underscore]
  · simp [point]

theorem mem_of_checkTimestampField {name : String}
    (accepted : checkTimestampField name = .ok ()) {c : Char}
    (member : c ∈ name.toList) : c ∈ timestampAlphabet := by
  apply mem_alphabet
  rw [checkTimestampField] at accepted
  split at accepted
  · next fits =>
      rw [Bool.and_eq_true] at fits
      generalize name.toList = text at fits member
      cases text with
      | nil => cases member
      | cons first rest =>
          simp only [isTimestampField, isNameStart, isNameChar, Bool.and_eq_true,
            Bool.or_eq_true, beq_iff_eq, List.all_eq_true] at fits
          rcases List.mem_cons.mp member with same | inside
          · rw [same, Char.isAlphanum]
            rcases fits.1.1 with (letter | underscore) | atSign
            · simp [letter]
            · simp [underscore]
            · simp [atSign]
          · rcases fits.1.2 c inside with
              (((alphanumeric | underscore) | point) | atSign) | colon
            · exact .inl alphanumeric
            · simp [underscore]
            · simp [point]
            · simp [atSign]
            · simp [colon]
  · cases accepted

/-! ## Timezones -/

theorem mem_digits_of_all {text : List Char}
    (all : text.all (fun c => !Text.isDecimalDigit c || digits.contains c) = true) :
    ∀ c ∈ text, Text.isDecimalDigit c = true → c ∈ digits := by
  intro c member digit
  have found := List.all_eq_true.mp all c member
  rw [digit] at found
  exact List.contains_iff_mem.mp found

theorem within_timezoneAlphabet_iff {zone : String}
    (accepted : checkTimezone zone = .ok ()) :
    (∀ c ∈ zone.toList, c ∈ timezoneAlphabet) ↔
      ∀ c ∈ zone.toList, Text.isDecimalDigit c = true → c ∈ digits := by
  constructor
  · intro within c member digit
    exact @mem_digits_of_all timezoneAlphabet (by decide +kernel) c (within c member)
      digit
  · intro ascii c member
    apply mem_alphabet
    rcases mem_of_checkTimezone accepted member with zoneChar | slash | colon | digit
    · simp only [isZoneChar, Bool.or_eq_true, beq_iff_eq] at zoneChar
      rcases zoneChar with ((alphanumeric | underscore) | plus) | minus
      · exact .inl alphanumeric
      · simp [underscore]
      · simp [plus]
      · simp [minus]
    · simp [slash]
    · simp [colon]
    · left
      have alphanumeric : digits.all Char.isAlphanum = true := by decide +kernel
      exact List.all_eq_true.mp alphanumeric c (ascii c member digit)

/-! ## Times -/

theorem time_alphabet {text : String} {time : CivilTime}
    (accepted : CivilTime.read text = .ok time) :
    (∀ c ∈ text.toList, c ∈ timeAlphabet) ∧ text.toList.count ' ' = 1 := by
  have civil := Instant.readCivil?_of_read accepted
  obtain ⟨⟨-, fourDigits⟩, separator, blank, written⟩ :=
    Instant.readCivil?_eq_some_iff.mp civil
  rw [List.mem_singleton] at blank
  rw [blank, Instant.toList_renderCivil, Instant.renderYear_eq fourDigits] at written
  have padded (width number : Nat) :
      ∀ c ∈ (Instant.padded width number).toList, c ∈ timeAlphabet :=
    fun c member =>
      List.mem_append_left _ (mem_digits (Instant.padded_digits width number c member))
  have noBlank (width number : Nat) :
      (Instant.padded width number).toList.count ' ' = 0 := by
    rw [List.count_eq_zero]
    intro member
    cases Instant.padded_digits width number ' ' member
  obtain ⟨dash, colon, space⟩ :
    '-' ∈ timeAlphabet ∧ ':' ∈ timeAlphabet ∧ ' ' ∈ timeAlphabet := by
    decide +kernel
  rw [written]
  constructor
  · simp only [List.forall_mem_append, List.forall_mem_cons]
    exact ⟨padded _ _, dash, padded _ _, dash, padded _ _, space, padded _ _, colon,
      padded _ _, colon, padded _ _, List.forall_mem_nil _⟩
  · simp [List.count_append, noBlank]

/-! ## Accepted texts -/

/-- Accepted tables, timestamp fields and times keep to their alphabets, and a time has
one blank. An accepted timezone keeps to its alphabet exactly if it has no digit of
another script. -/
theorem accepted_within_alphabets (text : String) :
    (checkTable text = .ok () → ∀ c ∈ text.toList, c ∈ tableAlphabet) ∧
      (checkTimestampField text = .ok () → ∀ c ∈ text.toList, c ∈ timestampAlphabet) ∧
      (∀ time, CivilTime.read text = .ok time →
        (∀ c ∈ text.toList, c ∈ timeAlphabet) ∧ text.toList.count ' ' = 1) ∧
      (checkTimezone text = .ok () →
        ((∀ c ∈ text.toList, c ∈ timezoneAlphabet) ↔
          ∀ c ∈ text.toList, Text.isDecimalDigit c = true → c ∈ digits)) := by
  refine ⟨?_, ?_, ?_, within_timezoneAlphabet_iff⟩
  · intro accepted c member
    exact mem_of_checkTable accepted member
  · intro accepted c member
    exact mem_of_checkTimestampField accepted member
  · intro time accepted
    exact time_alphabet accepted

theorem accepted_within_alphabets_each :
    (checkTable "default.otel_logs" = .ok () ∧
      ∀ c ∈ "default.otel_logs".toList, c ∈ tableAlphabet) ∧
      (checkTimestampField "@ts:utc" = .ok () ∧
        ∀ c ∈ "@ts:utc".toList, c ∈ timestampAlphabet) ∧
      (CivilTime.read "0000-02-29 23:59:60" = .ok ⟨0, 2, 29, 23, 59, 60⟩ ∧
        (∀ c ∈ "0000-02-29 23:59:60".toList, c ∈ timeAlphabet) ∧
        "0000-02-29 23:59:60".toList.count ' ' = 1) ∧
      (checkTimezone "UTC+05:30" = .ok () ∧
        (∀ c ∈ "UTC+05:30".toList, Text.isDecimalDigit c = true → c ∈ digits) ∧
        ∀ c ∈ "UTC+05:30".toList, c ∈ timezoneAlphabet) := by
  have table : checkTable "default.otel_logs" = .ok () := by decide +kernel
  have field : checkTimestampField "@ts:utc" = .ok () := by decide +kernel
  have time : CivilTime.read "0000-02-29 23:59:60" = .ok ⟨0, 2, 29, 23, 59, 60⟩ := by
    decide +kernel
  have zone : checkTimezone "UTC+05:30" = .ok () := by decide +kernel
  have ascii : ∀ c ∈ "UTC+05:30".toList, Text.isDecimalDigit c = true → c ∈ digits :=
    mem_digits_of_all (by decide +kernel)
  exact ⟨⟨table, (accepted_within_alphabets _).1 table⟩,
    ⟨field, (accepted_within_alphabets _).2.1 field⟩,
    ⟨time, (accepted_within_alphabets _).2.2.1 _ time⟩,
    ⟨zone, ascii, ((accepted_within_alphabets _).2.2.2 zone).mpr ascii⟩⟩

/-- An offset in full-width digits is accepted. -/
theorem timezone_beyond_alphabet :
    checkTimezone "+０５:３０" = .ok () ∧
      ¬ ∀ c ∈ "+０５:３０".toList, c ∈ timezoneAlphabet := by
  refine ⟨by decide +kernel, ?_⟩
  intro within
  have beyond : '０' ∉ timezoneAlphabet := by decide +kernel
  exact beyond (within '０' (by decide +kernel))

end LogQuery.Parameter
