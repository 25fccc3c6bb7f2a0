import LogQuery.Proofs.Grammar
import LogQuery.Proofs.Lexer
import LogQuery.Proofs.Number
import Mathlib.Data.List.TakeWhile

/-!
Cutting a text into lexemes. A piece that ends at a boundary is cut in the same way
whatever stands around it, so the lexemes of a text can be found piece by piece.
-/

namespace LogQuery

/-! ## Lexemes without places -/

def cut (delimited afterOperator : Bool) (text : List Char) : List Lexeme :=
  (lexemes .start delimited afterOperator text).map Prod.snd

theorem map_snd_lexemes (position : Position) (delimited afterOperator : Bool)
    (text : List Char) :
    (lexemes position delimited afterOperator text).map Prod.snd =
      cut delimited afterOperator text := by
  have free : ∀ other, (lexemes position delimited afterOperator text).map Prod.snd =
      (lexemes other delimited afterOperator text).map Prod.snd := by
    fun_induction lexemes position delimited afterOperator text with
    | case1 => simp [lexemes]
    | case2 position delimited afterOperator first rest space induction =>
        intro other
        conv => rhs; rw [lexemes, if_pos space]
        exact induction _
    | case3 position delimited afterOperator first rest visible lexeme induction =>
        intro other
        conv => rhs; rw [lexemes, if_neg visible]
        simp only [List.map_cons]
        rw [induction]
  exact free .start

theorem cut_nil (delimited afterOperator : Bool) :
    cut delimited afterOperator [] = [] := by
  simp [cut, lexemes]

theorem cut_space {first : Char} (space : Text.isSpace first = true)
    (delimited afterOperator : Bool) (rest : List Char) :
    cut delimited afterOperator (first :: rest) = cut true afterOperator rest := by
  rw [cut, lexemes, if_pos space, map_snd_lexemes]

theorem cut_cons {first : Char} (visible : Text.isSpace first = false)
    (delimited afterOperator : Bool) (rest : List Char) :
    cut delimited afterOperator (first :: rest) =
      Lexeme.read delimited afterOperator first rest ::
        cut (Lexeme.read delimited afterOperator first rest).delimitsNext
          ((Lexeme.read delimited afterOperator first rest).kind == .operator)
          (rest.drop
            ((Lexeme.read delimited afterOperator first rest).source.length - 1)) := by
  rw [cut, lexemes, if_neg (by simp [visible]), List.map_cons, map_snd_lexemes]

/-! ## Marks -/

theorem Lexeme.read_boundary {first : Char} (boundary : isBoundary first = true)
    (visible : Text.isSpace first = false) (delimited afterOperator : Bool)
    (rest : List Char) :
    read delimited afterOperator first rest = read true false first rest := by
  simp only [isBoundary, visible, Bool.false_or, Bool.or_eq_true] at boundary
  rcases boundary with ((operator | opening) | closing) | pipe
  · simp only [read, operator, if_true]
  · simp only [read, opening, Bool.true_or, if_true]
  · simp only [read, closing, Bool.or_true, if_true]
  · simp only [read, pipe, if_true]

theorem cut_boundary {text : List Char} (ends : startsAtBoundary text = true)
    (delimited : Bool) :
    cut delimited false text = cut true false text := by
  cases text with
  | nil => rw [cut_nil, cut_nil]
  | cons first rest =>
      by_cases space : Text.isSpace first = true
      · rw [cut_space space, cut_space space]
      · have visible : Text.isSpace first = false := by simpa using space
        rw [cut_cons visible, cut_cons visible, Lexeme.read_boundary ends visible]

theorem cut_mark {first : Char} {kind : TokenKind}
    (mark : (first, kind) ∈ [('(', TokenKind.paren), (')', .paren), ('|', .pipe)])
    (delimited afterOperator : Bool) (rest : List Char) :
    cut delimited afterOperator (first :: rest) =
      Lexeme.verbatim kind [first] :: cut true false rest := by
  simp only [List.mem_cons, Prod.mk.injEq, List.not_mem_nil, or_false] at mark
  rcases mark with ⟨rfl, rfl⟩ | ⟨rfl, rfl⟩ | ⟨rfl, rfl⟩ <;> exact cut_cons rfl _ _ _

theorem Lexeme.read_operator {first : Char} (operator : isOperatorChar first = true)
    (delimited afterOperator : Bool) (rest : List Char) :
    read delimited afterOperator first rest =
      verbatim .operator (first :: rest.takeWhile isOperatorChar) := by
  simp only [isOperatorChar, Bool.or_eq_true, beq_iff_eq] at operator
  rcases operator with (((rfl | rfl) | rfl) | rfl) | rfl <;> rfl

theorem Operator.render_chars (operator : Operator) :
    operator.render.toList ≠ [] ∧
      ∀ c ∈ operator.render.toList, isOperatorChar c = true := by
  rw [← List.all_eq_true]
  cases operator <;> decide

theorem Operator.startsAtBoundary_render (operator : Operator) (rest : List Char) :
    startsAtBoundary (operator.render.toList ++ rest) = true := by
  rcases operator.render_chars with ⟨nonempty, chars⟩
  cases written : operator.render.toList with
  | nil => exact absurd written nonempty
  | cons first more =>
      rw [written, List.forall_mem_cons] at chars
      simp [startsAtBoundary, isBoundary, chars.1]

theorem visible_of_isOperatorChar {c : Char} (operator : isOperatorChar c = true) :
    Text.isSpace c = false := by
  simp only [isOperatorChar, Bool.or_eq_true, beq_iff_eq] at operator
  rcases operator with (((rfl | rfl) | rfl) | rfl) | rfl <;> rfl

theorem cut_operator (operator : Operator) {rest : List Char}
    (ends : rest.head?.all (! isOperatorChar ·) = true)
    (delimited afterOperator : Bool) :
    cut delimited afterOperator (operator.render.toList ++ rest) =
      Lexeme.verbatim .operator operator.render.toList :: cut true true rest := by
  rcases operator.render_chars with ⟨nonempty, chars⟩
  have delimits :
      (Lexeme.verbatim .operator operator.render.toList).delimitsNext = true := by
    cases operator <;> rfl
  generalize operator.render.toList = written at *
  cases written with
  | nil => exact absurd rfl nonempty
  | cons first more =>
      rw [List.forall_mem_cons] at chars
      have read : Lexeme.read delimited afterOperator first (more ++ rest) =
          Lexeme.verbatim .operator (first :: more) := by
        rw [Lexeme.read_operator chars.1, Text.takeWhile_run chars.2 ends]
      rw [List.cons_append, cut_cons (visible_of_isOperatorChar chars.1), read,
        delimits]
      simp [Lexeme.verbatim]

/-! ## Words and literals -/

theorem Lexeme.kind_read {first : Char} (delimited afterOperator : Bool)
    (inside : isBoundary first = false)
    (notLiteral : (Text.isQuote first && afterOperator) = false) (rest : List Char) :
    (read delimited afterOperator first rest).kind ≠ .operator := by
  rcases read_cases delimited afterOperator inside notLiteral rest with
    ⟨-, kind⟩ | ⟨-, -, kind⟩ | ⟨-, -, other⟩
  · rw [kind]
    nofun
  · rw [kind]
    nofun
  · rw [other]
    cases afterOperator <;> nofun

theorem ordinary_of_not_boundary {c : Char} (inside : isBoundary c = false) :
    Text.isSpace c = false ∧ isOperatorChar c = false := by
  simp only [isBoundary, Bool.or_eq_false_iff] at inside
  exact inside.1.1.1

theorem cut_word {first : Char} {word more : List Char} (afterOperator : Bool)
    (isWord : Lexeme.IsWord (first :: word))
    (notLiteral : (Text.isQuote first && afterOperator) = false)
    (ends : startsAtBoundary more = true) :
    cut true afterOperator (first :: (word ++ more)) =
      Lexeme.read true afterOperator first word :: cut true false more := by
  have source := (Lexeme.source_read true afterOperator isWord notLiteral).1
  have kind := Lexeme.kind_read true afterOperator isWord.head notLiteral word
  rw [cut_cons (ordinary_of_not_boundary isWord.head).1,
    Lexeme.read_append _ _ isWord notLiteral ends, source, List.length_cons,
    Nat.add_sub_cancel, List.drop_left, beq_false_of_ne kind, cut_boundary ends]

def Lexeme.ofText (text : String) : Lexeme :=
  { kind := .value, text, source := (Text.quote text).toList, quoted := true }

theorem cut_quote (text : String) {more : List Char}
    (ends : startsAtBoundary more = true) :
    cut true true ((Text.quote text).toList ++ more) =
      Lexeme.ofText text :: cut true false more := by
  have written := Text.toList_quote text
  have read :
      Lexeme.read true true '"' (Text.quoteBody text ++ more) = Lexeme.ofText text := by
    change Lexeme.readLiteral _ _ = _
    rw [Lexeme.readLiteral, Text.Quoted.read_quoteBody, Lexeme.ofText, written]
    simp only [List.take_left, String.ofList_toList, if_true]
  have source : (Lexeme.ofText text).source = (Text.quote text).toList := by
    rw [Lexeme.ofText]
  rw [written, List.cons_append, cut_cons (show Text.isSpace '"' = false from rfl),
    read, source, written, List.length_cons, Nat.add_sub_cancel, List.drop_left]
  exact congrArg _ (cut_boundary ends _)

/-! ## Where lexemes come from -/

namespace Lexeme

theorem delimitsNext_of_operator {first : Char} {rest : List Char}
    {delimited afterOperator : Bool} (visible : Text.isSpace first = false)
    (kind : (read delimited afterOperator first rest).kind = .operator) :
    (read delimited afterOperator first rest).delimitsNext = true := by
  by_cases operator : isOperatorChar first = true
  · rw [read_operator operator, delimitsNext, Option.all_eq_true]
    intro c last
    have member : c ∈ first :: rest.takeWhile isOperatorChar :=
      List.mem_of_getLast? last
    have isOperator : isOperatorChar c = true := by
      rcases List.mem_cons.mp member with rfl | member
      · exact operator
      · exact List.all_eq_true.mp List.all_takeWhile c member
    simp [isBoundary, isOperator]
  · exfalso
    by_cases boundary : isBoundary first = true
    · simp only [isBoundary, visible, operator, Bool.false_or, Bool.or_eq_true,
        beq_iff_eq] at boundary
      rcases boundary with (rfl | rfl) | rfl <;> cases kind
    · cases literal : Text.isQuote first && afterOperator with
      | false => exact kind_read _ _ (by simpa using boundary) literal rest kind
      | true =>
          simp only [Text.isQuote, Bool.and_eq_true, Bool.or_eq_true,
            beq_iff_eq] at literal
          rcases literal with ⟨rfl | rfl, rfl⟩ <;> cases kind

theorem word_of_parts {first : Char} {rest source more : List Char}
    (inside : isBoundary first = false) (parts : source ++ more = first :: rest)
    (word : IsWord source) (ends : startsAtBoundary more = true) :
    ∃ word more, rest = word ++ more ∧ IsWord (first :: word) ∧
      startsAtBoundary more = true := by
  cases source with
  | nil =>
      rw [List.nil_append] at parts
      subst parts
      have boundary : isBoundary first = true := ends
      rw [inside] at boundary
      cases boundary
  | cons c source =>
      rw [List.cons_append, List.cons.injEq] at parts
      rcases parts with ⟨rfl, rfl⟩
      exact ⟨source, more, rfl, word, ends⟩

theorem read_split {first : Char} {rest : List Char} {delimited afterOperator : Bool}
    (inside : isBoundary first = false)
    (notLiteral : (Text.isQuote first && afterOperator) = false)
    (closed : (read delimited afterOperator first rest).unclosed = none) :
    ∃ word more, rest = word ++ more ∧ IsWord (first :: word) ∧
      startsAtBoundary more = true := by
  rcases read_cases delimited afterOperator inside notLiteral rest with
    ⟨boolean, -⟩ | ⟨-, numeral, -⟩ | ⟨-, -, other⟩
  · rcases (readBoolean?_eq_some_iff _ _ _).mp boolean with ⟨connective, -, ends, -⟩
    rw [Bool.and_eq_true] at ends
    have parts := List.prefix_iff_eq_append.mp
      (List.takeWhile_prefix (l := first :: rest) Text.isAlphabetic)
    exact word_of_parts inside parts (isWord_takeWhile_isAlphabetic _) ends.2
  · rcases (readNumeral?_eq_some_iff _ _).mp numeral with ⟨-, ends, -⟩
    have parts := List.prefix_iff_eq_append.mp (numeralOf_starts (first :: rest))
    exact word_of_parts inside parts (isWord_numeralOf _) ends
  · rw [other] at closed
    rcases isWord_take_extent closed with ⟨word, ends⟩
    exact word_of_parts inside (List.take_append_drop _ _) word ends

theorem not_alphabetic_of_isNumeralChar {c : Char} (inside : isNumeralChar c = true) :
    Text.isAlphabetic c = false := by
  have code : c.toNat ∈ List.range' 43 15 := by
    simp only [isNumeralChar, isSign, Char.isDigit, Bool.or_eq_true, Bool.and_eq_true,
      beq_iff_eq, decide_eq_true_eq] at inside
    rcases inside with ((rfl | rfl) | ⟨least, most⟩) | rfl
    · decide
    · decide
    · have least : 48 ≤ c.toNat := least
      have most : c.toNat ≤ 57 := most
      rw [List.mem_range'_1]
      omega
    · decide
  have all :
      ∀ code ∈ List.range' 43 15, Text.isAlphabetic (Char.ofNat code) = false := by
    decide +kernel
  rw [← Char.ofNat_toNat c]
  exact all _ code

theorem readBoolean?_numeral {first : Char} (inside : isNumeralChar first = true)
    (delimited : Bool) (rest : List Char) :
    readBoolean? delimited (first :: rest) = none := by
  have noWord : (first :: rest).takeWhile Text.isAlphabetic = [] := by
    simp [not_alphabetic_of_isNumeralChar inside]
  have noKeyword : Connective.ofKeyword? "" = none := by decide +kernel
  simp only [readBoolean?, noWord]
  rw [show String.ofList [] = "" from rfl, noKeyword]

theorem head_isNumeralChar {first : Char} {rest : List Char} {lexeme : Lexeme}
    (found : readNumeral? (first :: rest) = some lexeme) :
    isNumeralChar first = true := by
  rcases (readNumeral?_eq_some_iff _ _).mp found with ⟨nonempty, -, -⟩
  by_cases sign : isSign first = true
  · simp [isNumeralChar, sign]
  · by_cases digit : first.isDigit = true
    · simp [isNumeralChar, digit]
    · exact absurd (by simp [wholeOf, signOf, sign, digit]) nonempty

/-- An unquoted literal is a word, and reading the word after an operator gives the
literal again. -/
theorem literal_of_read {first : Char} {rest : List Char}
    {delimited afterOperator : Bool} (visible : Text.isSpace first = false)
    (ordered : afterOperator = true → delimited = true)
    (closed : (read delimited afterOperator first rest).unclosed = none)
    (isLiteral : (read delimited afterOperator first rest).kind.isLiteral = true)
    (unquoted : (read delimited afterOperator first rest).quoted = false) :
    ∃ first' word, IsWord (first' :: word) ∧ Text.isQuote first' = false ∧
      read delimited afterOperator first rest = read true true first' word ∧
      (read delimited afterOperator first rest).text =
        String.ofList (first' :: word) := by
  by_cases boundary : isBoundary first = true
  · simp only [isBoundary, visible, Bool.false_or, Bool.or_eq_true,
      beq_iff_eq] at boundary
    rcases boundary with ((operator | rfl) | rfl) | rfl
    · rw [read_operator operator] at isLiteral
      cases isLiteral
    · cases isLiteral
    · cases isLiteral
    · cases isLiteral
  · have inside : isBoundary first = false := by simpa using boundary
    cases literal : Text.isQuote first && afterOperator with
    | true =>
        simp only [Text.isQuote, Bool.and_eq_true, Bool.or_eq_true,
          beq_iff_eq] at literal
        rcases literal with ⟨rfl | rfl, rfl⟩ <;> cases unquoted
    | false =>
        rcases read_split inside literal closed with ⟨word, more, rfl, isWord, ends⟩
        rw [read_append _ _ isWord literal ends] at isLiteral ⊢
        refine ⟨first, word, isWord, ?_⟩
        -- A keyword is no literal, and a word that is no numeral is one only after an
        -- operator.
        rcases read_cases delimited afterOperator inside literal word with
          ⟨-, kind⟩ | ⟨-, numeral, -⟩ | ⟨boolean, numeral, other⟩
        · rw [kind] at isLiteral
          cases isLiteral
        · have digit := head_isNumeralChar numeral
          have noQuote := not_isQuote (by decide) digit
          have source := (source_readNumeral? isWord numeral).1
          rcases (readNumeral?_eq_some_iff _ _).mp numeral with ⟨-, -, same⟩
          refine ⟨noQuote, ?_, ?_⟩
          · rw [read_eq true true inside (by simp [noQuote]),
              readBoolean?_numeral digit, numeral]
            rfl
          · rw [same] at source ⊢
            exact congrArg String.ofList source
        · rw [other] at isLiteral
          cases afterOperator with
          | false => cases isLiteral
          | true =>
              cases ordered rfl
              refine ⟨by simpa using literal, rfl, ?_⟩
              rw [other]
              exact (source_readWord true isWord).2.1

/-! ## Keywords and numerals -/

theorem readBoolean?_eq_none_iff {text : List Char} (word : IsWord text) :
    readBoolean? true text = none ↔
      Connective.ofKeyword? (String.ofList text) = none := by
  constructor
  · intro noBoolean
    cases keyword : Connective.ofKeyword? (String.ofList text) with
    | none => rfl
    | some connective =>
        have letters := Connective.letters_of_ofKeyword? keyword
        rw [String.toList_ofList] at letters
        have all := List.takeWhile_eq_self_iff.mpr letters
        have found := (readBoolean?_eq_some_iff true text _).mpr
          ⟨connective, by rw [all, keyword], by rw [all, List.drop_length]; rfl, rfl⟩
        rw [noBoolean] at found
        cases found
  · intro noKeyword
    cases found : readBoolean? true text with
    | none => rfl
    | some lexeme =>
        have source := (source_readBoolean? word found).1
        rcases (readBoolean?_eq_some_iff _ _ _).mp found with
          ⟨connective, keyword, -, rfl⟩
        have all : text.takeWhile Text.isAlphabetic = text := source
        rw [all, noKeyword] at keyword
        cases keyword

theorem fractionOf_fractionText {fraction : List Char}
    (digits : ∀ c ∈ fraction, c.isDigit = true) :
    fractionOf (Text.fractionText fraction) = Text.fractionText fraction := by
  cases fraction with
  | nil => rfl
  | cons c fraction =>
      rw [List.forall_mem_cons] at digits
      have run := List.takeWhile_eq_self_iff.mpr digits.2
      simp [Text.fractionText, fractionOf, digits.1, run]

theorem fractionOf_eq (text : List Char) :
    ∃ fraction, fractionOf text = Text.fractionText fraction ∧
      ∀ c ∈ fraction, c.isDigit = true := by
  simp only [fractionOf]
  split
  · next c rest =>
      split
      · next digit =>
          refine ⟨c :: rest.takeWhile Char.isDigit, rfl, ?_⟩
          rw [List.forall_mem_cons]
          exact ⟨digit, List.all_eq_true.mp List.all_takeWhile⟩
      · exact ⟨[], rfl, List.forall_mem_nil _⟩
  · exact ⟨[], rfl, List.forall_mem_nil _⟩

theorem readNumeral?_of_isNumeral {text : List Char}
    (numeral : Text.isNumeral text = true) :
    readNumeral? text = some (verbatim .number text) := by
  rcases (Text.isNumeral_iff text).mp numeral with
    ⟨negative, whole, fraction, parts, wholeDigits, fractionDigits⟩
  have digits := (Text.isDigits_iff whole).mp wholeDigits
  have sign : signOf text = Text.signText negative := by
    rw [parts]
    cases negative with
    | true => rfl
    | false =>
        cases whole with
        | nil => exact absurd rfl digits.1
        | cons c whole =>
            have digit := digits.2 c List.mem_cons_self
            have noSign : isSign c = false := by
              rw [Bool.eq_false_iff]
              intro sign
              simp only [isSign, Bool.or_eq_true, beq_iff_eq] at sign
              rcases sign with rfl | rfl <;> cases digit
            simp [signOf, Text.signText, noSign]
  have unsigned :
      text.drop (signOf text).length = whole ++ Text.fractionText fraction := by
    rw [sign, parts, List.drop_left]
  have wholeSame : wholeOf text = whole := by
    rw [wholeOf, unsigned,
      Text.takeWhile_run digits.2 (Text.fractionText_head fraction)]
  have all : numeralOf text = text := by
    rw [numeralOf, wholeSame, unsigned, List.drop_left,
      fractionOf_fractionText fractionDigits, sign, List.append_assoc, ← parts]
  refine (readNumeral?_eq_some_iff _ _).mpr
    ⟨by rw [wholeSame]; exact digits.1, ?_, by rw [all]⟩
  rw [all, List.drop_length]
  rfl

theorem read_numeral {first : Char} {rest : List Char}
    (numeral : Text.isNumeral (first :: rest) = true) (afterOperator : Bool) :
    IsWord (first :: rest) ∧ Text.isQuote first = false ∧
      read true afterOperator first rest = verbatim .number (first :: rest) := by
  have found := readNumeral?_of_isNumeral numeral
  have inside := head_isNumeralChar found
  have noQuote : Text.isQuote first = false := not_isQuote (by decide) inside
  have all : numeralOf (first :: rest) = first :: rest := by
    rcases (readNumeral?_eq_some_iff _ _).mp found with ⟨-, -, same⟩
    exact congrArg Lexeme.source same.symm
  refine ⟨all ▸ isWord_numeralOf (first :: rest), noQuote, ?_⟩
  rw [read_eq _ _ (not_boundary_of_isNumeralChar inside) (by simp [noQuote]),
    readBoolean?_numeral inside, found]
  rfl

theorem readNumeral?_eq_none_iff {text : List Char} (word : IsWord text)
    (noPlus : text.head? ≠ some '+') :
    readNumeral? text = none ↔ Text.isNumeral text = false := by
  constructor
  · intro noNumeral
    rw [Bool.eq_false_iff]
    intro numeral
    rw [readNumeral?_of_isNumeral numeral] at noNumeral
    cases noNumeral
  · intro noNumeral
    cases found : readNumeral? text with
    | none => rfl
    | some lexeme =>
        have source := (source_readNumeral? word found).1
        rcases (readNumeral?_eq_some_iff _ _).mp found with ⟨nonempty, -, rfl⟩
        rcases fractionOf_eq
          ((text.drop (signOf text).length).drop (wholeOf text).length) with
          ⟨fraction, point, fractionDigits⟩
        have sign : ∃ negative, signOf text = Text.signText negative := by
          cases text with
          | nil => exact ⟨false, rfl⟩
          | cons c text =>
              by_cases minus : c = '-'
              · exact ⟨true, by simp [signOf, isSign, minus, Text.signText]⟩
              · have plus : c ≠ '+' := by simpa using noPlus
                exact ⟨false, by simp [signOf, isSign, minus, plus, Text.signText]⟩
        rcases sign with ⟨negative, sign⟩
        have numeral :=
          (Text.isNumeral_iff text).mpr ⟨negative, wholeOf text, fraction, by
          rw [← sign, ← point, ← List.append_assoc]
          exact source.symm, (Text.isDigits_iff _).mpr
            ⟨nonempty, List.all_eq_true.mp List.all_takeWhile⟩, fractionDigits⟩
        rw [noNumeral] at numeral
        cases numeral

end Lexeme

theorem mem_lexemes {position : Position} {delimited afterOperator : Bool}
    {text : List Char} {placed : Position × Lexeme}
    (ordered : afterOperator = true → delimited = true)
    (member : placed ∈ lexemes position delimited afterOperator text) :
    ∃ delimited afterOperator first rest, (afterOperator = true → delimited = true) ∧
      Text.isSpace first = false ∧
      placed.2 = Lexeme.read delimited afterOperator first rest := by
  fun_induction lexemes position delimited afterOperator text with
  | case1 => cases member
  | case2 position delimited afterOperator first rest space induction =>
      exact induction (fun _ => rfl) member
  | case3 position delimited afterOperator first rest visible lexeme induction =>
      have visible : Text.isSpace first = false := by simpa using visible
      rcases List.mem_cons.mp member with rfl | member
      · exact ⟨delimited, afterOperator, first, rest, ordered, visible, rfl⟩
      · -- An operator ends in a boundary, so what follows it is delimited.
        refine induction ?_ member
        intro operator
        exact Lexeme.delimitsNext_of_operator visible (by simpa using operator)

/-! ## Scans -/

namespace Scan

theorem errors_eq_nil_iff (text : String) :
    (ofText text).errors = [] ↔
      ∀ lexeme ∈ cut true false text.toList, lexeme.unclosed = none := by
  simp only [ofText, cut, List.filterMap_eq_nil_iff, List.forall_mem_map, Lexeme.error?,
    Option.map_eq_none_iff]

theorem literal_of_mem {text : String} {token : Token}
    (noErrors : (ofText text).errors = []) (member : token ∈ (ofText text).tokens)
    (isLiteral : token.kind.isLiteral = true) (unquoted : token.quoted = false) :
    ∃ first word, Lexeme.IsWord (first :: word) ∧ Text.isQuote first = false ∧
      token = (Lexeme.read true true first word).toToken token.position ∧
      token.text = String.ofList (first :: word) := by
  rcases List.mem_map.mp member with ⟨placed, inside, rfl⟩
  have closed :=
    (errors_eq_nil_iff text).mp noErrors placed.2 (List.mem_map_of_mem inside)
  rcases mem_lexemes (fun _ => rfl) inside with
    ⟨delimited, afterOperator, first, rest, ordered, visible, same⟩
  rw [same] at closed
  simp only [Lexeme.toToken, same] at isLiteral unquoted
  rcases Lexeme.literal_of_read visible ordered closed isLiteral unquoted with
    ⟨start, word, isWord, noQuote, again, written⟩
  refine ⟨start, word, isWord, noQuote, ?_, ?_⟩
  · rw [← again, ← same]
    rfl
  · exact (congrArg Lexeme.text same).trans written

end Scan

end LogQuery
