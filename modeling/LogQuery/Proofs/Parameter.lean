import LogQuery.Parameter
import LogQuery.Proofs.Text
import LogQuery.Time.Instant

/-!
The characters of accepted names, zones and times. None of them means anything inside or
outside of a quoted run. A parameter that is not accepted is reported under the code of
its kind.
-/

namespace LogQuery

theorem Text.mem_splitOn {text : List Char} {c : Char} (separator : Char)
    (member : c ∈ text) :
    c = separator ∨ ∃ part ∈ text.splitOn separator, c ∈ part := by
  have found := @Text.mem_splitOnP _ (· == separator) _ _ member
  rw [List.splitOn_eq_splitOnP]
  exact found.imp_left eq_of_beq

namespace Parameter

/-! ## Tables -/

theorem mem_of_isName {text : List Char} (isName : isName text = true) {c : Char}
    (member : c ∈ text) : isNameChar c = true := by
  cases text with
  | nil => cases member
  | cons first rest =>
      rw [Parameter.isName, Bool.and_eq_true] at isName
      rcases List.mem_cons.mp member with rfl | member
      · have start := isName.1
        simp only [isNameStart, Bool.or_eq_true] at start
        simp only [isNameChar, Char.isAlphanum, Bool.or_eq_true]
        rcases start with letter | underscore
        · exact .inl (.inl letter)
        · exact .inr underscore
      · exact List.all_eq_true.mp isName.2 c member

theorem table_chars {name : String} (accepted : checkTable name = .ok ()) :
    name ≠ "" ∧ ∀ c ∈ name.toList, isNameChar c = true ∨ c = '.' := by
  rw [checkTable] at accepted
  split at accepted
  · next fits =>
      rw [Bool.and_eq_true, isTableName, Bool.and_eq_true] at fits
      have names := List.all_eq_true.mp fits.1.2
      constructor
      · rintro rfl
        cases names [] (by decide)
      · intro c member
        rcases Text.mem_splitOn '.' member with same | ⟨part, source, inside⟩
        · exact .inr same
        · exact .inl (mem_of_isName (names part source) inside)
  · cases accepted

/-! ## Zones and times -/

theorem mem_of_isZoneName {text : List Char} (named : isZoneName text = true) {c : Char}
    (member : c ∈ text) : isZoneChar c = true ∨ c = '/' := by
  rw [isZoneName, Bool.and_eq_true] at named
  rcases Text.mem_splitOn '/' member with same | ⟨part, source, inside⟩
  · exact .inr same
  · have zone := List.all_eq_true.mp named.2 part source
    rw [Bool.and_eq_true] at zone
    exact .inl (List.all_eq_true.mp zone.2 c inside)

theorem mem_of_isOffsetAmount {text : List Char} (amount : isOffsetAmount text = true)
    {c : Char} (member : c ∈ text) : c = ':' ∨ Text.isDecimalDigit c = true := by
  rcases Text.mem_splitOn ':' member with same | ⟨part, source, inside⟩
  · exact .inl same
  · right
    rw [isOffsetAmount] at amount
    split at amount
    · next whole shape =>
        rw [shape, List.mem_singleton] at source
        subst source
        simp only [Bool.and_eq_true] at amount
        exact List.all_eq_true.mp amount.2 c inside
    · next hours minutes shape =>
        simp only [Bool.and_eq_true] at amount
        apply List.all_eq_true.mp amount.2
        rw [shape] at source
        simp only [List.mem_cons, List.not_mem_nil, or_false] at source
        rcases source with rfl | rfl
        · exact List.mem_append_left _ inside
        · exact List.mem_append_right _ inside
    · cases amount

theorem mem_of_isOffset {text : List Char} (offset : isOffset text = true) {c : Char}
    (member : c ∈ text) :
    isZoneChar c = true ∨ c = ':' ∨ Text.isDecimalDigit c = true := by
  rw [isOffset] at offset
  -- The signed amount stands behind the name of the zone or alone.
  generalize place :
    (if (text.take 3 == "UTC".toList || text.take 3 == "GMT".toList) = true
    then text.drop 3 else text) = signed at offset
  have inside :
      c ∈ signed → isZoneChar c = true ∨ c = ':' ∨ Text.isDecimalDigit c = true := by
    intro inside
    cases signed with
    | nil => cases inside
    | cons sign amount =>
        simp only [Bool.and_eq_true, Bool.or_eq_true, beq_iff_eq] at offset
        rcases List.mem_cons.mp inside with rfl | inside
        · left
          rcases offset.1 with rfl | rfl <;> rfl
        · exact .inr (mem_of_isOffsetAmount offset.2 inside)
  by_cases zone : (text.take 3 == "UTC".toList || text.take 3 == "GMT".toList) = true
  · rw [if_pos zone] at place
    rw [← List.take_append_drop 3 text, List.mem_append] at member
    rcases member with inZone | inOffset
    · left
      simp only [Bool.or_eq_true, beq_iff_eq] at zone
      have letters : ("UTC".toList ++ "GMT".toList).all isZoneChar = true := by decide
      apply List.all_eq_true.mp letters
      rcases zone with same | same
      · exact List.mem_append_left _ (same ▸ inZone)
      · exact List.mem_append_right _ (same ▸ inZone)
    · exact inside (place ▸ inOffset)
  · rw [if_neg zone] at place
    exact inside (place ▸ member)

theorem mem_of_checkTimezone {zone : String} (accepted : checkTimezone zone = .ok ())
    {c : Char} (member : c ∈ zone.toList) :
    isZoneChar c = true ∨ c = '/' ∨ c = ':' ∨ Text.isDecimalDigit c = true := by
  rw [checkTimezone] at accepted
  split at accepted
  · cases accepted
  · split at accepted
    · cases accepted
    · split at accepted
      · next fits =>
          rw [Bool.or_eq_true] at fits
          rcases fits with named | offset
          · exact (mem_of_isZoneName named member).imp_right .inl
          · exact (mem_of_isOffset offset member).imp_right .inr
      · cases accepted

def isClockChar (c : Char) : Bool :=
  isZoneChar c || c == '/' || c == ':' || c == ' ' || Text.isDecimalDigit c

theorem timezone_chars {zone : String} (accepted : checkTimezone zone = .ok ()) :
    ∀ c ∈ zone.toList, isClockChar c = true := by
  intro c member
  rcases mem_of_checkTimezone accepted member with zoneChar | rfl | rfl | digit
  · simp [isClockChar, zoneChar]
  · rfl
  · rfl
  · simp [isClockChar, digit]

theorem mem_of_hasShape {template text : List Char}
    (clock : template.all isClockChar = true)
    (shape : Instant.hasShape template text = true) :
    ∀ c ∈ text, isClockChar c = true := by
  fun_induction Instant.hasShape template text with
  | case1 => nofun
  | case2 mark template c text induction =>
      rw [List.all_cons, Bool.and_eq_true] at clock
      rw [Bool.and_eq_true] at shape
      rw [List.forall_mem_cons]
      refine ⟨?_, induction clock.2 shape.2⟩
      have first := shape.1
      split at first
      · simp [isClockChar, first]
      · rw [eq_of_beq first]
        exact clock.1
  | case3 => cases shape

theorem time_chars {text : String} {time : CivilTime}
    (accepted : CivilTime.read text = .ok time) :
    ∀ c ∈ text.toList, isClockChar c = true := by
  rw [CivilTime.read] at accepted
  split at accepted
  · next shape => exact mem_of_hasShape (by decide) shape
  · cases accepted

/-! ## Faults -/

/-- The codes of what can be wrong with a statement besides its query. -/
def faultCodes : List FaultCode :=
  [.invalidTimeFormat, .invalidTimezone, .invalidTableName, .invalidTimestampField]

theorem time_code {text : String} {error : QueryError}
    (failed : CivilTime.read text = .error error) :
    error.code = .invalidTimeFormat := by
  rw [CivilTime.read] at failed
  split at failed
  · split at failed
    · cases failed
    · cases failed
      rfl
  · cases failed
    rfl

theorem timezone_code {zone : String} {error : QueryError}
    (failed : checkTimezone zone = .error error) : error.code = .invalidTimezone := by
  rw [checkTimezone] at failed
  split at failed
  · cases failed
    rfl
  · split at failed
    · cases failed
      rfl
    · split at failed
      · cases failed
      · cases failed
        rfl

theorem table_code {name : String} {error : QueryError}
    (failed : checkTable name = .error error) : error.code = .invalidTableName := by
  rw [checkTable] at failed
  split at failed
  · cases failed
  · cases failed
    rfl

theorem timestampField_code {name : String} {error : QueryError}
    (failed : checkTimestampField name = .error error) :
    error.code = .invalidTimestampField := by
  rw [checkTimestampField] at failed
  split at failed
  · cases failed
  · cases failed
    rfl

end Parameter

end LogQuery
