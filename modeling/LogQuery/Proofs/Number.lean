import LogQuery.Number.Shortest
import LogQuery.Proofs.Text
import Mathlib.Data.Nat.Log
import Mathlib.Tactic.Ring

/-!
What is written for a finite double is a plain numeral, and reading it gives the double
back. Every decimal that the search for the shortest one accepts has been read back
already; what is left to show is that the exact value, which stands by, reads back too,
and that the digits in their places are worth the same as the digits with an exponent.
-/

namespace LogQuery

/-! ## Numerals -/

namespace Text

def isDigits (text : List Char) : Bool :=
  !text.isEmpty && text.all Char.isDigit

def unsigned (text : List Char) : List Char :=
  if text.head? = some '-' then text.tail else text

/-- Whether a text is a plain numeral: maybe a minus, digits, and maybe a point with
digits after it. -/
def isNumeral (text : List Char) : Bool :=
  let fraction := (unsigned text).dropWhile Char.isDigit
  isDigits ((unsigned text).takeWhile Char.isDigit) &&
    (fraction.isEmpty || (fraction.head? == some '.' && isDigits fraction.tail))

example : isNumeral "-12.50".toList = true := by decide
example : isNumeral "+1".toList = false := by decide
example : isNumeral "1.".toList = false := by decide

theorem isDigits_iff (text : List Char) :
    isDigits text = true ↔ text ≠ [] ∧ ∀ c ∈ text, c.isDigit = true := by
  simp [isDigits]

def fractionText (fraction : List Char) : List Char :=
  if fraction = [] then [] else '.' :: fraction

theorem fractionText_head (fraction : List Char) :
    (fractionText fraction).head?.all (! ·.isDigit) = true := by
  rw [fractionText]
  split <;> simp

def signText (negative : Bool) : List Char :=
  if negative then ['-'] else []

theorem head_of_digits {digits : List Char} (areDigits : isDigits digits = true)
    (rest : List Char) :
    ∃ first, first.isDigit = true ∧ (digits ++ rest).head? = some first := by
  cases digits with
  | nil => simp [isDigits] at areDigits
  | cons first digits =>
      simp only [isDigits_iff, List.mem_cons, forall_eq_or_imp] at areDigits
      exact ⟨first, areDigits.2.1, rfl⟩

theorem numeral_chars {whole fraction : List Char} (wholeDigits : isDigits whole = true)
    (fractionDigits : ∀ c ∈ fraction, c.isDigit = true) :
    ∀ c ∈ whole ++ fractionText fraction, c = '.' ∨ c.isDigit = true := by
  intro c member
  rcases List.mem_append.mp member with member | member
  · exact .inr (((isDigits_iff whole).mp wholeDigits).2 c member)
  · unfold fractionText at member
    split at member
    · cases member
    · rcases List.mem_cons.mp member with point | member
      · exact .inl point
      · exact .inr (fractionDigits c member)

theorem signText_unsigned (text : List Char) :
    signText (text.head? == some '-') ++ unsigned text = text := by
  cases text with
  | nil => rfl
  | cons c text =>
      by_cases minus : c = '-'
      · simp [signText, unsigned, minus]
      · simp [signText, unsigned, minus]

theorem unsigned_signText (negative : Bool) {digits : List Char}
    (areDigits : isDigits digits = true) (rest : List Char) :
    unsigned (signText negative ++ (digits ++ rest)) = digits ++ rest := by
  rcases head_of_digits areDigits rest with ⟨first, digit, head⟩
  cases negative with
  | true => rfl
  | false =>
      have notMinus : first ≠ '-' := by
        rintro rfl
        cases digit
      simp [signText, unsigned, head, notMinus]

theorem isNumeral_iff (text : List Char) :
    isNumeral text = true ↔ ∃ negative whole fraction,
      text = signText negative ++ (whole ++ fractionText fraction) ∧
        isDigits whole = true ∧
        ∀ c ∈ fraction, c.isDigit = true := by
  constructor
  · intro numeral
    simp only [isNumeral, Bool.and_eq_true, Bool.or_eq_true, beq_iff_eq] at numeral
    refine ⟨text.head? == some '-', (unsigned text).takeWhile Char.isDigit,
      ((unsigned text).dropWhile Char.isDigit).tail, ?_, numeral.1, ?_⟩
    · have point : fractionText ((unsigned text).dropWhile Char.isDigit).tail =
          (unsigned text).dropWhile Char.isDigit := by
        cases remaining : (unsigned text).dropWhile Char.isDigit with
        | nil => rfl
        | cons c fraction =>
            simp only [remaining, List.isEmpty_cons, Bool.false_eq_true,
              List.head?_cons, Option.some.injEq, List.tail_cons, false_or] at numeral
            have nonempty := ((isDigits_iff fraction).mp numeral.2.2).1
            simp [fractionText, nonempty, numeral.2.1]
      rw [point, List.takeWhile_append_dropWhile, signText_unsigned]
    · intro c member
      rcases numeral.2 with empty | ⟨-, digits⟩
      · rw [List.isEmpty_iff.mp empty] at member
        cases member
      · exact ((isDigits_iff _).mp digits).2 c member
  · rintro ⟨negative, whole, fraction, rfl, wholeDigits, fractionDigits⟩
    have digits := (isDigits_iff whole).mp wholeDigits
    simp only [isNumeral, unsigned_signText negative wholeDigits, wholeDigits,
      Bool.true_and, takeWhile_run digits.2 (fractionText_head fraction),
      dropWhile_run digits.2 (fractionText_head fraction)]
    rw [fractionText]
    split
    · rfl
    · next nonempty => simpa [isDigits_iff, nonempty] using fractionDigits

end Text

/-! ## Exact values -/

namespace Double

/-- The mantissa of a rank has at most 53 bits, and exactly as many beyond the first two
binades. -/
theorem log2_units (rank : Nat) : (units rank).log2 - 52 = rank / 2 ^ 52 - 1 := by
  by_cases small : rank / 2 ^ 52 ≤ 1
  · have noShift : rank / 2 ^ 52 - 1 = 0 := by omega
    have bound : units rank < 2 ^ 53 := by
      simp only [units, Nat.pow_eq, noShift]
      omega
    by_cases zero : units rank = 0
    · rw [zero, noShift]
      rfl
    · have := (Nat.log2_lt zero).mpr bound
      omega
  · have mantissa : 2 ^ 52 ≤ rank - (rank / 2 ^ 52 - 1) * 2 ^ 52 ∧
        rank - (rank / 2 ^ 52 - 1) * 2 ^ 52 < 2 ^ 53 := by omega
    have exact : (units rank).log2 = 52 + (rank / 2 ^ 52 - 1) := by
      simp only [units, Nat.pow_eq]
      rw [Nat.log2_eq_iff]
      · rw [Nat.pow_add]
        constructor
        · exact Nat.mul_le_mul_right _ mantissa.1
        · rw [show 52 + (rank / 2 ^ 52 - 1) + 1 = 53 + (rank / 2 ^ 52 - 1) by omega,
            Nat.pow_add]
          exact Nat.mul_lt_mul_of_pos_right mantissa.2 (Nat.two_pow_pos _)
      · exact Nat.mul_ne_zero (by omega) (Nat.two_pow_pos _).ne'
    omega

theorem nearestRank_units (rank : Nat) {scale : Nat} (positive : 0 < scale) :
    nearestRank (units rank * scale) scale = rank := by
  simp only [nearestRank, Nat.pow_eq]
  rw [Nat.mul_div_cancel _ positive, log2_units]
  simp only [units, Nat.pow_eq]
  generalize shiftEq : rank / 2 ^ 52 - 1 = shift
  have fits : shift * 2 ^ 52 ≤ rank := by omega
  have regroup : (rank - shift * 2 ^ 52) * 2 ^ shift * scale =
      (rank - shift * 2 ^ 52) * (scale * 2 ^ shift) := by ring
  have divisor : 0 < scale * 2 ^ shift := Nat.mul_pos positive (Nat.two_pow_pos shift)
  simp only [divideToEven, regroup, Nat.mul_div_cancel _ divisor, Nat.mul_mod_left,
    Nat.mul_zero, divisor, if_true]
  omega

theorem units_ne_zero {rank : Nat} (nonzero : rank ≠ 0) : units rank ≠ 0 := by
  have power := Nat.two_pow_pos (rank / 2 ^ 52 - 1)
  simp only [units, Nat.pow_eq]
  exact Nat.mul_ne_zero (by omega) power.ne'

end Double

namespace Decimal

theorem nearestRank_of_range {digits : Nat} {exponent : Int} (nonzero : digits ≠ 0)
    (high : exponent ≤ 400) (low : -400 ≤ exponent + digits.log2 + 1) :
    nearestRank digits exponent =
      Double.nearestRank (digits * 10 ^ exponent.toNat * Double.unitsPerOne)
        (10 ^ (-exponent).toNat) := by
  rw [nearestRank, if_neg nonzero, if_neg (by omega), if_neg (by omega), Nat.pow_eq,
    Nat.pow_eq]

theorem nearestRank_exact {rank : Nat} (nonzero : rank ≠ 0) :
    nearestRank (Double.units rank * 5 ^ 1074) (-1074) = rank := by
  have digitsNonzero : Double.units rank * 5 ^ 1074 ≠ 0 :=
    Nat.mul_ne_zero (Double.units_ne_zero nonzero) (Nat.pow_pos (by omega)).ne'
  have large : 1074 ≤ (Double.units rank * 5 ^ 1074).log2 := by
    rw [Nat.le_log2 digitsNonzero]
    calc 2 ^ 1074 ≤ 5 ^ 1074 := Nat.pow_le_pow_left (by omega) 1074
      _ ≤ Double.units rank * 5 ^ 1074 :=
        Nat.le_mul_of_pos_left _ (Nat.pos_of_ne_zero (Double.units_ne_zero nonzero))
  rw [nearestRank_of_range digitsNonzero (by omega) (by omega)]
  have scaled :
      Double.units rank * 5 ^ 1074 * 10 ^ (-1074 : Int).toNat * Double.unitsPerOne =
        Double.units rank * 10 ^ (- -1074 : Int).toNat := by
    have noZeros : (-1074 : Int).toNat = 0 := rfl
    have places : (- -1074 : Int).toNat = 1074 := rfl
    rw [noZeros, places, Double.unitsPerOne, Nat.pow_eq, Nat.pow_zero, Nat.mul_one,
      Nat.mul_assoc, ← Nat.mul_pow]
  rw [scaled]
  exact Double.nearestRank_units rank (Nat.pow_pos (by omega))

theorem nearestRank_shift (digits shift : Nat) (inside : shift ≤ 400) :
    nearestRank (10 ^ shift * digits) 0 = nearestRank digits shift := by
  by_cases zero : digits = 0
  · subst zero
    simp [nearestRank]
  · have shifted : 10 ^ shift * digits ≠ 0 :=
      Nat.mul_ne_zero (Nat.pow_pos (by omega)).ne' zero
    rw [nearestRank_of_range shifted (by omega) (by omega),
      nearestRank_of_range zero (by omega) (by omega)]
    have noPlaces : (-(shift : Int)).toNat = 0 := by omega
    rw [noPlaces]
    congr 2
    simp [Nat.mul_comm]

theorem nearestRank_places (digits : Nat) (exponent : Int)
    (finite : nearestRank digits exponent < finiteDoubles) :
    nearestRank (10 ^ exponent.toNat * digits) (-((-exponent).toNat : Int)) =
      nearestRank digits exponent := by
  rcases lt_or_ge exponent 0 with fractional | whole
  · have noZeros : exponent.toNat = 0 := by omega
    have places : -((-exponent).toNat : Int) = exponent := by omega
    rw [noZeros, places, Nat.pow_zero, Nat.one_mul]
  · rcases Int.eq_ofNat_of_zero_le whole with ⟨shift, rfl⟩
    have noPlaces : (-(shift : Int)).toNat = 0 := by omega
    rw [noPlaces, Int.toNat_natCast]
    by_cases inside : shift ≤ 400
    · exact nearestRank_shift digits shift inside
    · by_cases zero : digits = 0
      · subst zero
        simp [nearestRank]
      · unfold nearestRank at finite
        rw [if_neg zero, if_pos (by omega)] at finite
        exact absurd finite (Nat.lt_irrefl _)

end Decimal

namespace Double

theorem searchGrids_reads_back {rank : Nat} {exponent : Int} {steps : Nat}
    {decimal : Decimal} (found : searchGrids rank exponent steps = some decimal) :
    decimal.negative = false ∧
      Decimal.nearestRank decimal.digits decimal.exponent = rank := by
  induction steps generalizing exponent with
  | zero => cases found
  | succ steps induction =>
      simp only [searchGrids] at found
      split at found
      · next accepted =>
          rcases Option.some.inj found with rfl
          simp only [Bool.and_eq_true, decide_eq_true_eq] at accepted
          exact ⟨rfl, accepted.1⟩
      · split at found
        · next accepted =>
            rcases Option.some.inj found with rfl
            exact ⟨rfl, of_decide_eq_true accepted⟩
        · exact induction found

theorem shortest_reads_back (rank : Nat) :
    Decimal.nearestRank (shortest rank).digits (shortest rank).exponent = rank := by
  rw [shortest]
  split
  · next zero =>
      subst zero
      rfl
  · next nonzero =>
      cases search : searchGrids rank (coarsestGrid rank) 24 with
      | none => exact Decimal.nearestRank_exact nonzero
      | some decimal => exact (searchGrids_reads_back search).2

end Double

/-! ## Reading numerals -/

namespace Decimal

open Text

theorem readSign_signText (negative : Bool) {digits : List Char}
    (areDigits : isDigits digits = true) (rest : List Char) :
    readSign (signText negative ++ (digits ++ rest)) = (negative, digits ++ rest) := by
  cases negative with
  | true => rfl
  | false =>
      rcases head_of_digits areDigits rest with ⟨first, isDigit, head⟩
      cases unsigned : digits ++ rest with
      | nil => simp [unsigned] at head
      | cons c remaining =>
          have same : c = first := by simpa [unsigned] using head
          subst same
          have notMinus : c ≠ '-' := by
            rintro rfl
            simp at isDigit
          have notPlus : c ≠ '+' := by
            rintro rfl
            simp at isDigit
          simp only [signText, Bool.false_eq_true, if_false, List.nil_append]
          simp only [readSign]
          split <;> simp_all

theorem readFraction_fractionText {fraction : List Char}
    (areDigits : ∀ c ∈ fraction, c.isDigit = true) :
    readFraction (fractionText fraction) = (fraction, []) := by
  rw [fractionText]
  split
  · next empty =>
      subst empty
      rfl
  · next nonempty =>
      have exact : (fraction ++ []).takeWhile Char.isDigit = fraction :=
        takeWhile_run areDigits rfl
      have none : (fraction ++ []).dropWhile Char.isDigit = [] :=
        dropWhile_run areDigits rfl
      rw [List.append_nil] at exact none
      simp only [readFraction, exact, none]

theorem read?_numeral (negative : Bool) {whole fraction : List Char}
    (wholeDigits : isDigits whole = true)
    (fractionDigits : ∀ c ∈ fraction, c.isDigit = true) :
    read? (String.ofList (signText negative ++ (whole ++ fractionText fraction))) =
      some
        { negative, digits := ofDigits (whole ++ fraction),
          exponent := -fraction.length } := by
  have areDigits := (isDigits_iff whole).mp wholeDigits
  have ends := fractionText_head fraction
  simp only [read?, String.toList_ofList, readSign_signText negative wholeDigits,
    takeWhile_run areDigits.2 ends, dropWhile_run areDigits.2 ends,
    readFraction_fractionText fractionDigits]
  rw [if_neg fun empty => areDigits.1 empty.1]
  simp [readExponent?]

/-! ### Digits in their places -/

theorem ofDigits_eq (digits : List Char) :
    ofDigits digits = Nat.ofDigitChars 10 digits 0 :=
  rfl

theorem render_parts (decimal : Decimal) :
    ∃ whole fraction : List Char,
      decimal.render =
        String.ofList (signText decimal.negative ++ (whole ++ fractionText fraction)) ∧
      isDigits whole = true ∧ (∀ c ∈ fraction, c.isDigit = true) ∧
      fraction.length = (-decimal.exponent).toNat ∧
      ofDigits (whole ++ fraction) = 10 ^ decimal.exponent.toNat * decimal.digits := by
  have digitsAreDigits : ∀ c ∈ Nat.toDigits 10 decimal.digits, c.isDigit = true :=
    fun c member => Nat.isDigit_of_mem_toDigits (by omega) (by omega) member
  generalize placesEq : (-decimal.exponent).toNat = places
  generalize digitsEq : Nat.toDigits 10 decimal.digits = digits at digitsAreDigits
  generalize paddedEq :
    List.replicate (places + 1 - digits.length) '0' ++ digits = padded
  have paddedDigits : ∀ c ∈ padded, c.isDigit = true := by
    intro c member
    rw [← paddedEq, List.mem_append, List.mem_replicate] at member
    rcases member with ⟨-, rfl⟩ | member
    · rfl
    · exact digitsAreDigits c member
  have paddedLength : places < padded.length := by
    rw [← paddedEq, List.length_append, List.length_replicate]
    omega
  have paddedValue : Nat.ofDigitChars 10 padded 0 = decimal.digits := by
    rw [← paddedEq, Nat.ofDigitChars_append, Nat.ofDigitChars_replicate_zero,
      Nat.mul_zero, ← digitsEq, Nat.ofDigitChars_ten_toDigits]
  refine ⟨padded.take (padded.length - places) ++
    List.replicate decimal.exponent.toNat '0',
    padded.drop (padded.length - places), ?_, ?_, ?_, ?_, ?_⟩
  · simp only [render, placesEq, digitsEq, paddedEq, signText, fractionText,
      List.append_assoc]
  · rw [isDigits_iff]
    constructor
    · intro empty
      have := congrArg List.length empty
      simp only [List.length_append, List.length_take, List.length_nil] at this
      omega
    · intro c member
      rw [List.mem_append, List.mem_replicate] at member
      rcases member with member | ⟨-, rfl⟩
      · exact paddedDigits c (List.mem_of_mem_take member)
      · rfl
  · intro c member
    exact paddedDigits c (List.mem_of_mem_drop member)
  · rw [List.length_drop]
    omega
  · -- Either there are no places after the point, or no zeros before it.
    rw [ofDigits_eq]
    rcases Nat.eq_zero_or_pos places with none | some
    · subst none
      simp only [Nat.sub_zero, List.take_length, List.drop_length, List.append_nil,
        Nat.ofDigitChars_append, paddedValue, Nat.ofDigitChars_replicate_zero]
    · have noZeros : decimal.exponent.toNat = 0 := by omega
      rw [noZeros, List.replicate_zero, List.append_nil, List.take_append_drop,
        paddedValue]
      simp

end Decimal

namespace Double

open Text

theorem toLower_of_isDigit {c : Char} (isDigit : c.isDigit = true) : c.toLower = c := by
  unfold Char.toLower
  rw [dif_neg]
  rintro ⟨least, -⟩
  simp only [Char.isDigit, Bool.and_eq_true, decide_eq_true_eq] at isDigit
  exact absurd (UInt32.le_trans least isDigit.2) (by decide)

theorem read?_of_digits (negative : Bool) {digits : List Char}
    (areDigits : isDigits digits = true) (rest : List Char) :
    read? (String.ofList (signText negative ++ (digits ++ rest))) =
      (Decimal.read? (String.ofList (signText negative ++ (digits ++ rest)))).map
        Decimal.toDouble := by
  rcases head_of_digits areDigits rest with ⟨first, isDigit, head⟩
  have otherWord (word : String) (letter : Char)
      (starts : word.toList.head? = some letter) (notDigit : letter.isDigit = false) :
      String.ofList ((digits ++ rest).map Char.toLower) ≠ word := by
    rintro rfl
    rw [String.toList_ofList, List.head?_map, head, Option.map_some,
      toLower_of_isDigit isDigit]
      at starts
    rcases Option.some.inj starts with rfl
    rw [isDigit] at notDigit
    cases notDigit
  simp only [read?, String.toList_ofList, Decimal.readSign_signText negative areDigits]
  rw [if_neg, if_neg]
  · exact otherWord "nan" 'n' rfl rfl
  · rintro (infinity | infinity)
    · exact otherWord "inf" 'i' rfl rfl infinity
    · exact otherWord "infinity" 'i' rfl rfl infinity

/-! ## Printing and reading -/

/-- A finite double is written as a numeral that is read as the same double. -/
theorem render_finite (negative : Bool) (rank : Fin finiteDoubles) :
    isNumeral (render (.finite negative rank)).toList = true ∧
      read? (render (.finite negative rank)) = some (.finite negative rank) := by
  rcases Decimal.render_parts { shortest rank with negative } with
    ⟨whole, fraction, text, wholeDigits, fractionDigits, places, value⟩
  have shown : render (.finite negative rank) =
      String.ofList (signText negative ++ (whole ++ fractionText fraction)) := text
  constructor
  · rw [shown, String.toList_ofList, isNumeral_iff]
    exact ⟨negative, whole, fraction, rfl, wholeDigits, fractionDigits⟩
  · have readBack := shortest_reads_back rank
    have sameRank :
        Decimal.nearestRank (Decimal.ofDigits (whole ++ fraction)) (-fraction.length) =
          rank := by
      rw [value, places,
        Decimal.nearestRank_places _ _ (by rw [readBack]; exact rank.isLt), readBack]
    rw [shown, read?_of_digits negative wholeDigits,
      Decimal.read?_numeral negative wholeDigits fractionDigits, Option.map_some,
      Decimal.toDouble, sameRank, ofRank, dif_pos rank.isLt]

end Double

end LogQuery
