import LogQuery.Proofs.Text
import LogQuery.Token.Lexer

/-!
Where lexemes end. A word goes up to a boundary, and what comes after the boundary has
no influence on how the word is read; so a text can be cut piece by piece.
-/

namespace LogQuery

/-! ## Boundaries -/

namespace Text

def codes (table : List (Nat × Nat)) : List Nat :=
  table.flatMap fun (first, last) => List.range' first (last + 1 - first)

theorem mem_codes {table : List (Nat × Nat)} {code : Nat}
    (inside : within table code = true) : code ∈ codes table := by
  fun_induction within table code with
  | case1 => cases inside
  | case2 => cases inside
  | case3 code first last rest begun reached =>
      simp only [codes, List.flatMap_cons, List.mem_append, List.mem_range'_1]
      omega
  | case4 code first last rest begun beyond induction =>
      simp only [codes, List.flatMap_cons, List.mem_append] at induction ⊢
      exact .inr (induction inside)

end Text

theorem forall_boundary (test : Char → Bool)
    (spaces : (Text.codes Text.spaceIntervals).all (test ∘ Char.ofNat) = true)
    (marks : "=!~><()|".toList.all test = true) {c : Char}
    (boundary : isBoundary c = true) : test c = true := by
  by_cases space : Text.isSpace c = true
  · rw [← Char.ofNat_toNat c]
    exact List.all_eq_true.mp spaces _ (Text.mem_codes space)
  · apply List.all_eq_true.mp marks
    simpa [isBoundary, isOperatorChar, space, or_assoc] using boundary

theorem boundary_outside {c : Char} (boundary : isBoundary c = true) :
    Text.isAlphanumeric c = false ∧ c ∉ "._-+:@\"'".toList ∧ c.isDigit = false := by
  have outside := forall_boundary
    (fun c => !Text.isAlphanumeric c && !("._-+:@\"'".toList.contains c) && !c.isDigit)
    (by decide +kernel) (by decide +kernel) boundary
  simpa [and_assoc] using outside

/-! ## Numerals -/

namespace Lexeme

def signOf (text : List Char) : List Char :=
  (text.take 1).filter isSign

def wholeOf (text : List Char) : List Char :=
  (text.drop (signOf text).length).takeWhile Char.isDigit

def numeralOf (text : List Char) : List Char :=
  signOf text ++ wholeOf text ++
    fractionOf ((text.drop (signOf text).length).drop (wholeOf text).length)

theorem readNumeral?_eq (text : List Char) :
    readNumeral? text =
      if !(wholeOf text).isEmpty &&
        startsAtBoundary (text.drop (numeralOf text).length) then
        some (verbatim .number (numeralOf text))
      else none :=
  rfl

theorem signOf_append_drop (text : List Char) :
    signOf text ++ text.drop (signOf text).length = text := by
  cases text with
  | nil => rfl
  | cons c rest =>
      by_cases sign : isSign c = true
      · simp [signOf, sign]
      · simp [signOf, sign]

theorem fractionOf_other {c : Char} (noPoint : c ≠ '.') (rest : List Char) :
    fractionOf (c :: rest) = [] := by
  simp only [fractionOf]
  split
  · next same =>
      cases same
      exact absurd rfl noPoint
  · rfl

theorem fractionOf_starts (text : List Char) : fractionOf text <+: text := by
  simp only [fractionOf]
  split
  · split
    · simpa using List.takeWhile_prefix Char.isDigit
    · exact List.nil_prefix
  · exact List.nil_prefix

theorem numeralOf_starts (text : List Char) : numeralOf text <+: text := by
  have digits :
      wholeOf text ++ (text.drop (signOf text).length).drop (wholeOf text).length =
        text.drop (signOf text).length :=
    List.prefix_iff_eq_append.mp (List.takeWhile_prefix Char.isDigit)
  have parts := signOf_append_drop text
  rw [← digits, ← List.append_assoc] at parts
  conv => rhs; rw [← parts]
  exact (List.prefix_append_right_inj _).mpr (fractionOf_starts _)

end Lexeme

section Ends

variable {rest : List Char} (ends : startsAtBoundary rest = true)

include ends

theorem head_no_letter : rest.head?.all (! Text.isAlphabetic ·) = true := by
  rw [startsAtBoundary, Option.all_eq_true] at ends
  rw [Option.all_eq_true]
  intro c head
  have outside := (boundary_outside (ends c head)).1
  rw [Text.isAlphanumeric, Bool.or_eq_false_iff] at outside
  simp [outside.1]

theorem head_no_digit : rest.head?.all (! Char.isDigit ·) = true := by
  rw [startsAtBoundary, Option.all_eq_true] at ends
  rw [Option.all_eq_true]
  intro c head
  simp [(boundary_outside (ends c head)).2.2]

theorem startsAtBoundary_append (text : List Char) :
    startsAtBoundary (text ++ rest) = startsAtBoundary text := by
  cases text with
  | nil => exact ends
  | cons c text => rfl

namespace Lexeme

theorem readBoolean?_append (delimited : Bool) (text : List Char) :
    readBoolean? delimited (text ++ rest) = readBoolean? delimited text := by
  have length : (text.takeWhile Text.isAlphabetic).length ≤ text.length :=
    (List.takeWhile_sublist _).length_le
  simp only [readBoolean?, Text.takeWhile_append_stop text (head_no_letter ends),
    List.drop_append_of_le_length length, startsAtBoundary_append ends]

theorem fractionOf_append (text : List Char) :
    fractionOf (text ++ rest) = fractionOf text := by
  cases text with
  | nil =>
      cases rest with
      | nil => rfl
      | cons c rest =>
          have outside := boundary_outside (c := c) ends
          have noPoint : c ≠ '.' := by
            rintro rfl
            simp at outside
          exact fractionOf_other noPoint rest
  | cons c text =>
      by_cases point : c = '.'
      · subst point
        cases text with
        | nil =>
            cases rest with
            | nil => rfl
            | cons d rest => simp [fractionOf, (boundary_outside (c := d) ends).2.2]
        | cons d text =>
            simp only [List.cons_append, fractionOf,
              Text.takeWhile_append_stop text (head_no_digit ends)]
      · rw [List.cons_append, fractionOf_other point, fractionOf_other point]

theorem numeralOf_append {text : List Char} (nonempty : text ≠ []) :
    wholeOf (text ++ rest) = wholeOf text ∧
      numeralOf (text ++ rest) = numeralOf text := by
  have sign : signOf (text ++ rest) = signOf text := by
    cases text with
    | nil => exact absurd rfl nonempty
    | cons c text => rfl
  have signLength : (signOf text).length ≤ text.length := by
    have parts := congrArg List.length (signOf_append_drop text)
    rw [List.length_append] at parts
    omega
  have whole : wholeOf (text ++ rest) = wholeOf text := by
    rw [wholeOf, sign, List.drop_append_of_le_length signLength,
      Text.takeWhile_append_stop _ (head_no_digit ends)]
    rfl
  have wholeLength : (wholeOf text).length ≤ (text.drop (signOf text).length).length :=
    (List.takeWhile_sublist _).length_le
  refine ⟨whole, ?_⟩
  rw [numeralOf, sign, whole, List.drop_append_of_le_length signLength,
    List.drop_append_of_le_length wholeLength, fractionOf_append ends]
  rfl

theorem readNumeral?_append {text : List Char} (nonempty : text ≠ []) :
    readNumeral? (text ++ rest) = readNumeral? text := by
  rcases numeralOf_append ends nonempty with ⟨whole, numeral⟩
  rw [readNumeral?_eq, readNumeral?_eq, whole, numeral,
    List.drop_append_of_le_length (numeralOf_starts text).length_le,
    startsAtBoundary_append ends]

end Lexeme

end Ends

/-! ## Words -/

namespace Lexeme

structure Closes (quote : Char) (body : List Char) : Prop where
  isQuote : Text.isQuote quote = true
  closed : (Text.Quoted.read quote body).closed = true
  width : (Text.Quoted.read quote body).width = body.length

/-- A text that is one word: no boundary in it outside of quotes, and every quote
closed. -/
inductive IsWord : List Char → Prop
  | nil : IsWord []
  | plain {c : Char} {rest : List Char} (inside : isBoundary c = false)
      (noQuote : Text.isQuote c = false) (word : IsWord rest) : IsWord (c :: rest)
  | quoted {c : Char} {body rest : List Char} (closes : Closes c body)
      (word : IsWord rest) :
      IsWord (c :: (body ++ rest))

theorem IsWord.append {first second : List Char} (word : IsWord first)
    (other : IsWord second) : IsWord (first ++ second) := by
  induction word with
  | nil => exact other
  | plain inside noQuote word induction => exact .plain inside noQuote induction
  | quoted closes word induction =>
      rw [List.cons_append, List.append_assoc]
      exact .quoted closes induction

theorem not_boundary_of_isQuote {c : Char} (quote : Text.isQuote c = true) :
    isBoundary c = false := by
  simp only [Text.isQuote, Bool.or_eq_true, beq_iff_eq] at quote
  rcases quote with rfl | rfl <;> decide

theorem extent_plain {c : Char} (inside : isBoundary c = false)
    (noQuote : Text.isQuote c = false) (rest : List Char) :
    extent (c :: rest) = (extent rest).grow 1 false := by
  rw [extent, if_neg (by simp [inside]), if_neg (by simp [noQuote])]

theorem extent_quoted {c : Char} {body : List Char} (closes : Closes c body)
    (rest : List Char) :
    extent (c :: (body ++ rest)) = (extent rest).grow (body.length + 1) true := by
  have same := Text.Quoted.read_append rest closes.closed
  rw [extent, if_neg (by simp [not_boundary_of_isQuote closes.isQuote]),
    if_pos closes.isQuote]
  simp [same, closes.closed, closes.width]

theorem startsAtBoundary_nil : startsAtBoundary [] = true :=
  rfl

theorem extent_boundary {rest : List Char} (ends : startsAtBoundary rest = true) :
    extent rest = { width := 0, segmented := false, unclosed := none } := by
  cases rest with
  | nil => rw [extent]
  | cons c rest =>
      have boundary : isBoundary c = true := ends
      rw [extent, if_pos boundary]

theorem IsWord.extent_append {text rest : List Char} (word : IsWord text)
    (ends : startsAtBoundary rest = true) :
    extent (text ++ rest) = extent text ∧ (extent text).width = text.length ∧
      (extent text).unclosed = none := by
  induction word with
  | nil =>
      rw [List.nil_append, extent_boundary ends, extent_boundary startsAtBoundary_nil]
      exact ⟨rfl, rfl, rfl⟩
  | plain inside noQuote word induction =>
      rw [List.cons_append, extent_plain inside noQuote, extent_plain inside noQuote,
        induction.1]
      simp [Extent.grow, induction.2]
  | quoted closes word induction =>
      rw [List.cons_append, List.append_assoc, extent_quoted closes,
        extent_quoted closes, induction.1]
      simp [Extent.grow, induction.2]
      omega

theorem closes_take {quote : Char} {rest : List Char}
    (isQuote : Text.isQuote quote = true)
    (closed : (Text.Quoted.read quote rest).closed = true) :
    Closes quote (rest.take (Text.Quoted.read quote rest).width) := by
  have same := Text.Quoted.read_take closed
  refine ⟨isQuote, by rw [same, closed], ?_⟩
  rw [same, List.length_take, Nat.min_eq_left (Text.Quoted.width_le quote rest)]

theorem isWord_take_extent {text : List Char} (closed : (extent text).unclosed = none) :
    IsWord (text.take (extent text).width) ∧
      startsAtBoundary (text.drop (extent text).width) = true := by
  fun_induction extent text with
  | case1 => exact ⟨.nil, rfl⟩
  | case2 c rest boundary => exact ⟨.nil, boundary⟩
  | case3 c rest inside quote quoted quoteClosed induction =>
      rcases induction (Option.map_eq_none_iff.mp closed) with ⟨word, ends⟩
      have width :
          ((extent (rest.drop quoted.width)).grow (quoted.width + 1) true).width =
            quoted.width + (extent (rest.drop quoted.width)).width + 1 := by
        simp only [Extent.grow]
        omega
      rw [width, List.take_succ_cons, List.drop_succ_cons, List.take_add,
        ← List.drop_drop]
      exact ⟨.quoted (closes_take quote quoteClosed) word, ends⟩
  | case4 c rest inside quote quoted unclosed => cases closed
  | case5 c rest inside noQuote induction =>
      rcases induction (Option.map_eq_none_iff.mp closed) with ⟨word, ends⟩
      rw [Extent.grow, List.take_succ_cons, List.drop_succ_cons]
      exact ⟨.plain (by simpa using inside) (by simpa using noQuote) word, ends⟩

/-! ## Reading words -/

theorem IsWord.head {first : Char} {rest : List Char} (word : IsWord (first :: rest)) :
    isBoundary first = false := by
  cases word with
  | plain inside noQuote word => exact inside
  | quoted closes word => exact not_boundary_of_isQuote closes.isQuote

theorem IsWord.tail {first : Char} {rest : List Char} (word : IsWord (first :: rest))
    (noQuote : Text.isQuote first = false) : IsWord rest := by
  cases word with
  | plain inside noQuote word => exact word
  | quoted closes word =>
      rw [closes.isQuote] at noQuote
      cases noQuote

theorem read_eq {first : Char} (delimited afterOperator : Bool)
    (inside : isBoundary first = false)
    (notLiteral : (Text.isQuote first && afterOperator) = false) (rest : List Char) :
    read delimited afterOperator first rest =
      ((readBoolean? delimited (first :: rest)).orElse fun _ =>
        readNumeral? (first :: rest)).getD
        (readWord afterOperator (first :: rest)) := by
  simp only [isBoundary, Bool.or_eq_false_iff] at inside
  simp only [read, inside, notLiteral, Bool.or_self, Bool.false_eq_true, if_false]

theorem readWord_append {text more : List Char} (afterOperator : Bool)
    (word : IsWord text) (ends : startsAtBoundary more = true) :
    readWord afterOperator (text ++ more) = readWord afterOperator text := by
  rcases word.extent_append ends with ⟨same, width, closed⟩
  simp only [readWord, same, width, List.take_left, List.take_length]

theorem read_append {first : Char} {rest more : List Char}
    (delimited afterOperator : Bool) (word : IsWord (first :: rest))
    (notLiteral : (Text.isQuote first && afterOperator) = false)
    (ends : startsAtBoundary more = true) :
    read delimited afterOperator first (rest ++ more) =
      read delimited afterOperator first rest := by
  rw [read_eq _ _ word.head notLiteral, read_eq _ _ word.head notLiteral,
    ← List.cons_append, readBoolean?_append ends,
    readNumeral?_append ends (List.cons_ne_nil first rest), readWord_append _ word ends]

theorem IsWord.before_quote {front back : List Char} (word : IsWord (front ++ back))
    (noQuote : ∀ c ∈ front, Text.isQuote c = false)
    (ends : startsAtBoundary back = true) : back = [] := by
  induction front with
  | nil =>
      cases back with
      | nil => rfl
      | cons c back =>
          have boundary : isBoundary c = true := ends
          rw [List.nil_append] at word
          rw [word.head] at boundary
          cases boundary
  | cons c front induction =>
      rw [List.forall_mem_cons] at noQuote
      exact induction (word.tail noQuote.1) noQuote.2

theorem readBoolean?_eq_some_iff (delimited : Bool) (text : List Char)
    (lexeme : Lexeme) :
    readBoolean? delimited text = some lexeme ↔
      ∃ connective,
        Connective.ofKeyword? (String.ofList (text.takeWhile Text.isAlphabetic)) =
          some connective ∧
        (delimited &&
          startsAtBoundary (text.drop (text.takeWhile Text.isAlphabetic).length)) =
            true ∧
        lexeme = { kind := .boolean, text := connective.keyword
                   source := text.takeWhile Text.isAlphabetic } := by
  simp only [readBoolean?]
  split
  · next none => simp [none]
  · next connective keyword =>
      split
      · next ends => simp [keyword, ends, eq_comm]
      · next ends => simp [keyword, ends]

theorem readNumeral?_eq_some_iff (text : List Char) (lexeme : Lexeme) :
    readNumeral? text = some lexeme ↔
      wholeOf text ≠ [] ∧ startsAtBoundary (text.drop (numeralOf text).length) = true ∧
        lexeme = verbatim .number (numeralOf text) := by
  rw [readNumeral?_eq]
  split
  · next holds =>
      simp only [Bool.and_eq_true, Bool.not_eq_true',
        List.isEmpty_eq_false_iff] at holds
      simp [holds, eq_comm]
  · next fails =>
      simp only [Bool.and_eq_true, Bool.not_eq_true',
        List.isEmpty_eq_false_iff] at fails
      simp only [reduceCtorEq, false_iff]
      exact fun ⟨whole, ends, _⟩ => fails ⟨whole, ends⟩

theorem read_cases {first : Char} (delimited afterOperator : Bool)
    (inside : isBoundary first = false)
    (notLiteral : (Text.isQuote first && afterOperator) = false) (rest : List Char) :
    (readBoolean? delimited (first :: rest) =
      some (read delimited afterOperator first rest) ∧
        (read delimited afterOperator first rest).kind = .boolean) ∨
      (readBoolean? delimited (first :: rest) = none ∧
        readNumeral? (first :: rest) = some (read delimited afterOperator first rest) ∧
        (read delimited afterOperator first rest).kind = .number) ∨
      (readBoolean? delimited (first :: rest) = none ∧
        readNumeral? (first :: rest) = none ∧
        read delimited afterOperator first rest =
          readWord afterOperator (first :: rest)) := by
  rw [read_eq _ _ inside notLiteral]
  cases boolean : readBoolean? delimited (first :: rest) with
  | some lexeme =>
      rcases (readBoolean?_eq_some_iff _ _ _).mp boolean with ⟨connective, -, -, rfl⟩
      exact .inl ⟨rfl, rfl⟩
  | none =>
      cases numeral : readNumeral? (first :: rest) with
      | some lexeme =>
          rcases (readNumeral?_eq_some_iff _ _).mp numeral with ⟨-, -, rfl⟩
          exact .inr (.inl ⟨rfl, rfl, rfl⟩)
      | none => exact .inr (.inr ⟨rfl, rfl, rfl⟩)

theorem not_isQuote {test : Char → Bool} (excluded : (test '"' || test '\'') = false)
    {c : Char} (passes : test c = true) : Text.isQuote c = false := by
  rw [Bool.or_eq_false_iff] at excluded
  rw [Bool.eq_false_iff]
  intro quote
  simp only [Text.isQuote, Bool.or_eq_true, beq_iff_eq] at quote
  rcases quote with rfl | rfl
  · rw [excluded.1] at passes
    cases passes
  · rw [excluded.2] at passes
    cases passes

def isNumeralChar (c : Char) : Bool :=
  isSign c || c.isDigit || c == '.'

theorem mem_numeralOf {text : List Char} {c : Char} (member : c ∈ numeralOf text) :
    isNumeralChar c = true := by
  have fraction : ∀ text, c ∈ fractionOf text → isNumeralChar c = true := by
    intro text member
    simp only [fractionOf] at member
    split at member
    · split at member
      · next digit =>
          simp only [List.mem_cons] at member
          rcases member with rfl | rfl | member
          · rfl
          · simp [isNumeralChar, digit]
          · have digit := List.all_eq_true.mp List.all_takeWhile c member
            simp [isNumeralChar, digit]
      · cases member
    · cases member
  rw [numeralOf, List.mem_append, List.mem_append] at member
  rcases member with (member | member) | member
  · simp [isNumeralChar, (List.mem_filter.mp member).2]
  · have digit := List.all_eq_true.mp List.all_takeWhile c member
    simp [isNumeralChar, digit]
  · exact fraction _ member

theorem not_boundary_of_isAlphanumeric {c : Char}
    (inside : Text.isAlphanumeric c = true) : isBoundary c = false := by
  rw [Bool.eq_false_iff]
  intro boundary
  rw [(boundary_outside boundary).1] at inside
  cases inside

theorem not_boundary_of_isNumeralChar {c : Char} (inside : isNumeralChar c = true) :
    isBoundary c = false := by
  rw [Bool.eq_false_iff]
  intro boundary
  rcases boundary_outside boundary with ⟨-, noMark, noDigit⟩
  simp only [isNumeralChar, isSign, noDigit, Bool.or_false, Bool.or_eq_true,
    beq_iff_eq] at inside
  rcases inside with (rfl | rfl) | rfl <;> exact noMark (by decide)

theorem isWord_of_chars {text : List Char}
    (chars : ∀ c ∈ text, isBoundary c = false ∧ Text.isQuote c = false) :
    IsWord text := by
  induction text with
  | nil => exact .nil
  | cons c text induction =>
      rw [List.forall_mem_cons] at chars
      exact .plain chars.1.1 chars.1.2 (induction chars.2)

theorem isWord_numeralOf (text : List Char) : IsWord (numeralOf text) := by
  apply isWord_of_chars
  intro c member
  have inside := mem_numeralOf member
  exact ⟨not_boundary_of_isNumeralChar inside, not_isQuote (by decide) inside⟩

theorem isWord_takeWhile_isAlphabetic (text : List Char) :
    IsWord (text.takeWhile Text.isAlphabetic) := by
  apply isWord_of_chars
  intro c member
  have letter : Text.isAlphabetic c = true :=
    List.all_eq_true.mp List.all_takeWhile c member
  exact ⟨not_boundary_of_isAlphanumeric (by simp [Text.isAlphanumeric, letter]),
    not_isQuote (by decide) letter⟩

theorem source_readBoolean? {text : List Char} {lexeme : Lexeme} {delimited : Bool}
    (word : IsWord text) (found : readBoolean? delimited text = some lexeme) :
    lexeme.source = text ∧ lexeme.unclosed = none := by
  rcases (readBoolean?_eq_some_iff _ _ _).mp found with ⟨connective, -, ends, rfl⟩
  rw [Bool.and_eq_true] at ends
  have parts :=
    List.prefix_iff_eq_append.mp (List.takeWhile_prefix (l := text) Text.isAlphabetic)
  have noQuote : ∀ c ∈ text.takeWhile Text.isAlphabetic, Text.isQuote c = false :=
    fun c member =>
      not_isQuote (by decide) (List.all_eq_true.mp List.all_takeWhile c member)
  rw [← parts] at word
  have nothing := word.before_quote noQuote ends.2
  rw [nothing, List.append_nil] at parts
  exact ⟨parts, rfl⟩

theorem source_readNumeral? {text : List Char} {lexeme : Lexeme} (word : IsWord text)
    (found : readNumeral? text = some lexeme) :
    lexeme.source = text ∧ lexeme.unclosed = none := by
  rcases (readNumeral?_eq_some_iff _ _).mp found with ⟨-, ends, rfl⟩
  have parts := List.prefix_iff_eq_append.mp (numeralOf_starts text)
  have noQuote : ∀ c ∈ numeralOf text, Text.isQuote c = false := fun c member =>
    not_isQuote (by decide) (mem_numeralOf member)
  rw [← parts] at word
  have nothing := word.before_quote noQuote ends
  rw [nothing, List.append_nil] at parts
  exact ⟨parts, rfl⟩

theorem source_readWord {text : List Char} (afterOperator : Bool) (word : IsWord text) :
    (readWord afterOperator text).source = text ∧
      (readWord afterOperator text).text = String.ofList text ∧
      (readWord afterOperator text).unclosed = none := by
  rcases word.extent_append startsAtBoundary_nil with ⟨-, width, closed⟩
  simp [readWord, width, closed]

theorem source_read {first : Char} {rest : List Char} (delimited afterOperator : Bool)
    (word : IsWord (first :: rest))
    (notLiteral : (Text.isQuote first && afterOperator) = false) :
    (read delimited afterOperator first rest).source = first :: rest ∧
      (read delimited afterOperator first rest).unclosed = none := by
  rcases read_cases delimited afterOperator word.head notLiteral rest with
    ⟨boolean, -⟩ | ⟨-, numeral, -⟩ | ⟨-, -, other⟩
  · exact source_readBoolean? word boolean
  · exact source_readNumeral? word numeral
  · rcases source_readWord afterOperator word with ⟨source, -, closed⟩
    rw [other]
    exact ⟨source, closed⟩

end Lexeme

end LogQuery
