import LogQuery.Proofs.Scan

/-!
What tokens are written with and where they stand. A lexeme is read from a slice of the
text that is not empty and does not start with white space, and the place of a token is
told by the characters before its slice.
-/

namespace LogQuery

/-! ## Places -/

namespace Position

/-- The place behind the first characters of a text. The line feeds among them make the
line, the characters behind the last line feed make the column. -/
def behind (before : List Char) : Position :=
  { line := 1 + before.count '\n'
    column := 1 + (before.reverse.takeWhile (· != '\n')).length }

theorem next_behind (before : List Char) (c : Char) :
    (behind before).next c = behind (before ++ [c]) := by
  by_cases feed : c = '\n'
  · subst feed
    simp [next, behind, Nat.add_assoc]
  · simp [next, behind, feed, Nat.add_comm]

theorem advance_behind (before text : List Char) :
    (behind before).advance text = behind (before ++ text) := by
  induction text generalizing before with
  | nil => rw [List.append_nil, advance, List.foldl_nil]
  | cons c text induction =>
      change ((behind before).next c).advance text = _
      rw [next_behind, induction, List.append_assoc, List.singleton_append]

end Position

/-! ## Quoted text -/

namespace Text.Quoted

inductive Escape : Char → Char → Prop
  | lineFeed : Escape 'n' '\n'
  | tab : Escape 't' '\t'
  | carriageReturn : Escape 'r' '\r'
  | itself {c : Char} (other : c ∉ ['n', 't', 'r']) : Escape c c

theorem escape_iff {c meant : Char} : Escape c meant ↔ unescape c = meant := by
  constructor
  · intro stands
    cases stands with
    | itself other =>
        simp only [List.mem_cons, List.not_mem_nil, or_false, not_or] at other
        rw [unescape]
        · exact other.1
        · exact other.2.1
        · exact other.2.2
    | _ => rfl
  · rintro rfl
    unfold unescape
    split
    · exact .lineFeed
    · exact .tab
    · exact .carriageReturn
    · next notFeed notTab notReturn =>
        apply Escape.itself
        simp only [List.mem_cons, List.not_mem_nil, or_false, not_or]
        exact ⟨notFeed, notTab, notReturn⟩

/-- What is written from an opening delimiter on and what it stands for. It ends with
the closing delimiter, or else it is not closed. -/
inductive Spells (delimiter : Char) : List Char → List Char → Bool → Prop
  | closing : Spells delimiter [delimiter] [] true
  | ended : Spells delimiter [] [] false
  | cutShort : Spells delimiter ['\\'] [] false
  | escaped {c meant : Char} {body contents : List Char} {closed : Bool}
      (stands : Escape c meant) (tail : Spells delimiter body contents closed) :
      Spells delimiter ('\\' :: c :: body) (meant :: contents) closed
  | plain {c : Char} {body contents : List Char} {closed : Bool} (ordinary : c ≠ '\\')
      (inside : c ≠ delimiter) (tail : Spells delimiter body contents closed) :
      Spells delimiter (c :: body) (c :: contents) closed

theorem spells_read (delimiter : Char) (text : List Char) :
    Spells delimiter (text.take (read delimiter text).width)
      (read delimiter text).contents (read delimiter text).closed := by
  fun_induction read delimiter text with
  | case1 => exact .ended
  | case2 => exact .cutShort
  | case3 c rest induction => exact .escaped (escape_iff.mpr rfl) induction
  | case4 rest notEnd notEscape => exact .closing
  | case5 c rest notEnd notEscape different induction =>
      exact .plain (ordinary_of_cases notEnd notEscape) different induction

theorem Spells.read {delimiter : Char} {body contents : List Char}
    (isQuote : isQuote delimiter = true) (spells : Spells delimiter body contents true)
    (rest : List Char) :
    Quoted.read delimiter (body ++ rest) =
      { contents, width := body.length, closed := true } := by
  have ordinary : delimiter ≠ '\\' := by
    rintro rfl
    cases isQuote
  generalize same : true = closed at spells
  induction spells with
  | closing =>
      rw [List.singleton_append, read_ordinary _ ordinary, if_pos rfl,
        List.length_singleton]
  | ended => cases same
  | cutShort => cases same
  | escaped stands tail induction =>
      rw [List.cons_append, List.cons_append, Quoted.read, induction same,
        escape_iff.mp stands]
      rfl
  | plain notEscape inside tail induction =>
      rw [List.cons_append, read_ordinary _ notEscape, if_neg inside, induction same]
      rfl

theorem width_of_unclosed {delimiter : Char} {text : List Char}
    (unclosed : (read delimiter text).closed = false) :
    (read delimiter text).width = text.length := by
  fun_induction read delimiter text with
  | case1 => rfl
  | case2 => rfl
  | case3 c rest induction =>
      simp only [push, List.length_cons, induction unclosed]
  | case4 rest notEnd notEscape => cases unclosed
  | case5 c rest notEnd notEscape different induction =>
      simp only [push, List.length_cons, induction unclosed]

theorem spells_whole {delimiter : Char} {text : List Char}
    (whole : (read delimiter text).width = text.length) :
    Spells delimiter text (read delimiter text).contents
      (read delimiter text).closed := by
  have spells := spells_read delimiter text
  rwa [whole, List.take_length] at spells

end Text.Quoted

/-! ## What a token is written with -/

/-- Whether some characters are what a token is written with. -/
inductive Token.WrittenAs (token : Token) : List Char → Prop
  | keyword {source : List Char} (isBoolean : token.kind = .boolean)
      (lower : token.text.toList = source.map Char.toLower) : token.WrittenAs source
  | literal {delimiter : Char} {body : List Char} (isValue : token.kind = .value)
      (quoted : token.quoted = true) (isQuote : Text.isQuote delimiter = true)
      (spells : Text.Quoted.Spells delimiter body token.text.toList
        (!token.incomplete)) :
      token.WrittenAs (delimiter :: body)
  | verbatim {source : List Char} (notBoolean : token.kind ≠ .boolean)
      (notLiteral : ¬ (token.kind = .value ∧ token.quoted = true))
      (same : token.text.toList = source) : token.WrittenAs source

namespace Lexeme

/-! ## What can be read -/

inductive Outcome (afterOperator : Bool) (first : Char) (rest : List Char) :
    Lexeme → Prop
  | paren (isParen : first = '(' ∨ first = ')') :
      Outcome afterOperator first rest (verbatim .paren [first])
  | pipe (isPipe : first = '|') :
      Outcome afterOperator first rest (verbatim .pipe [first])
  | operator (isOperator : isOperatorChar first = true) :
      Outcome afterOperator first rest
        (verbatim .operator (first :: rest.takeWhile isOperatorChar))
  | literal (isQuote : Text.isQuote first = true) (after : afterOperator = true) :
      Outcome afterOperator first rest (readLiteral first rest)
  | boolean {connective : Connective}
      (keyword : Connective.ofKeyword?
        (String.ofList ((first :: rest).takeWhile Text.isAlphabetic)) =
        some connective) :
      Outcome afterOperator first rest
        { kind := .boolean
          text := connective.keyword
          source := (first :: rest).takeWhile Text.isAlphabetic }
  | numeral (whole : wholeOf (first :: rest) ≠ []) :
      Outcome afterOperator first rest (verbatim .number (numeralOf (first :: rest)))
  | word (inside : isBoundary first = false) :
      Outcome afterOperator first rest (readWord afterOperator (first :: rest))

theorem read_literal {first : Char} (isQuote : Text.isQuote first = true)
    (delimited : Bool) (rest : List Char) :
    read delimited true first rest = readLiteral first rest := by
  simp only [Text.isQuote, Bool.or_eq_true, beq_iff_eq] at isQuote
  rcases isQuote with rfl | rfl <;> rfl

theorem outcome_read {first : Char} (visible : Text.isSpace first = false)
    (delimited afterOperator : Bool) (rest : List Char) :
    Outcome afterOperator first rest (read delimited afterOperator first rest) := by
  by_cases boundary : isBoundary first = true
  · simp only [isBoundary, visible, Bool.false_or, Bool.or_eq_true,
      beq_iff_eq] at boundary
    rcases boundary with ((operator | rfl) | rfl) | rfl
    · rw [read_operator operator]
      exact .operator operator
    · exact .paren (.inl rfl)
    · exact .paren (.inr rfl)
    · exact .pipe rfl
  · have inside : isBoundary first = false := by simpa using boundary
    cases literal : Text.isQuote first && afterOperator with
    | true =>
        rw [Bool.and_eq_true] at literal
        rcases literal with ⟨isQuote, rfl⟩
        rw [read_literal isQuote]
        exact .literal isQuote rfl
    | false =>
        rcases read_cases delimited afterOperator inside literal rest with
          ⟨boolean, -⟩ | ⟨-, numeral, -⟩ | ⟨-, -, other⟩
        · rcases (readBoolean?_eq_some_iff _ _ _).mp boolean with
            ⟨connective, keyword, -, same⟩
          rw [same]
          exact .boolean keyword
        · rcases (readNumeral?_eq_some_iff _ _).mp numeral with ⟨whole, -, same⟩
          rw [same]
          exact .numeral whole
        · rw [other]
          exact .word inside

theorem outcome_of_read {first : Char} {rest : List Char}
    {delimited afterOperator : Bool} {lexeme : Lexeme}
    (visible : Text.isSpace first = false)
    (isRead : lexeme = read delimited afterOperator first rest) :
    Outcome afterOperator first rest lexeme := by
  rw [isRead]
  exact outcome_read visible delimited afterOperator rest

/-! ## Slices -/

theorem extent_pos {first : Char} (inside : isBoundary first = false)
    (rest : List Char) : 0 < (extent (first :: rest)).width := by
  rw [extent, if_neg (by simp [inside])]
  split
  · dsimp only
    split
    · exact Nat.succ_pos _
    · exact Nat.succ_pos _
  · exact Nat.succ_pos _

theorem slice_of_starts {first : Char} {rest source : List Char}
    (nonempty : source ≠ []) (starts : source <+: first :: rest) :
    ∃ word more, source = first :: word ∧ rest = word ++ more := by
  rcases List.exists_cons_of_ne_nil nonempty with ⟨c, word, rfl⟩
  rcases List.cons_prefix_cons.mp starts with ⟨rfl, more, parts⟩
  exact ⟨word, more, rfl, parts.symm⟩

section

variable {afterOperator : Bool} {first : Char} {rest : List Char} {lexeme : Lexeme}

theorem Outcome.slice (outcome : Outcome afterOperator first rest lexeme) :
    ∃ word more, lexeme.source = first :: word ∧ rest = word ++ more := by
  cases outcome with
  | paren isParen => exact ⟨[], rest, rfl, rfl⟩
  | pipe isPipe => exact ⟨[], rest, rfl, rfl⟩
  | operator isOperator =>
      exact ⟨rest.takeWhile isOperatorChar, rest.dropWhile isOperatorChar, rfl,
        List.takeWhile_append_dropWhile.symm⟩
  | literal isQuote after => exact ⟨_, _, rfl, (List.take_append_drop _ rest).symm⟩
  | boolean keyword =>
      refine slice_of_starts ?_ (List.takeWhile_prefix Text.isAlphabetic)
      intro empty
      have noLetters : (first :: rest).takeWhile Text.isAlphabetic = [] := empty
      have noKeyword : Connective.ofKeyword? "" = none := by decide +kernel
      rw [noLetters, show String.ofList [] = "" from rfl, noKeyword] at keyword
      cases keyword
  | numeral whole =>
      refine slice_of_starts ?_ (numeralOf_starts _)
      intro empty
      have source : numeralOf (first :: rest) = [] := empty
      rw [numeralOf, List.append_eq_nil_iff, List.append_eq_nil_iff] at source
      exact whole source.1.2
  | word inside =>
      refine slice_of_starts ?_ (List.take_prefix _ _)
      intro empty
      rcases List.take_eq_nil_iff.mp empty with none | none
      · exact absurd none (Nat.ne_of_gt (extent_pos inside rest))
      · cases none

theorem Outcome.written (outcome : Outcome afterOperator first rest lexeme)
    (position : Position) : (lexeme.toToken position).WrittenAs lexeme.source := by
  have plain : ∀ kind source, kind ≠ .boolean →
      ((verbatim kind source).toToken position).WrittenAs source := by
    intro kind source notBoolean
    exact .verbatim notBoolean (fun literal => Bool.false_ne_true literal.2)
      String.toList_ofList
  cases outcome with
  | paren isParen => exact plain _ _ (by decide)
  | pipe isPipe => exact plain _ _ (by decide)
  | operator isOperator => exact plain _ _ (by decide)
  | literal isQuote after =>
      refine .literal rfl rfl isQuote ?_
      have spells := Text.Quoted.spells_read first rest
      simp only [toToken, readLiteral, String.toList_ofList]
      cases closed : (Text.Quoted.read first rest).closed <;>
        simpa [closed] using spells
  | @boolean connective keyword =>
      refine .keyword rfl ?_
      have lower := (Connective.ofKeyword?_eq_some_iff _ _).mp keyword
      change connective.keyword.toList = _
      rw [← lower]
      unfold String.toLower
      rw [String.toList_map, String.toList_ofList]
  | numeral whole => exact plain _ _ (by decide)
  | word inside =>
      cases afterOperator <;>
        exact .verbatim (by simp [toToken, readWord]) (by simp [toToken, readWord])
          String.toList_ofList

theorem Outcome.connective (outcome : Outcome afterOperator first rest lexeme)
    (isBoolean : lexeme.kind = .boolean) :
    Connective.ofKeyword? lexeme.text ≠ none := by
  cases outcome with
  | boolean keyword => simp [Connective.ofKeyword?_keyword]
  | word inside => cases afterOperator <;> cases isBoolean
  | _ => cases isBoolean

/-! ## Open quotes -/

theorem extent_unclosed (text : List Char) :
    ∀ unclosed, (extent text).unclosed = some unclosed →
      ∃ word, text = word ++ unclosed.delimiter :: unclosed.contents ∧
        word.length = unclosed.offset ∧ IsWord word ∧
        Text.isQuote unclosed.delimiter = true ∧
        (Text.Quoted.read unclosed.delimiter unclosed.contents).closed = false ∧
        (extent text).width = text.length := by
  fun_induction extent text with
  | case1 =>
      intro unclosed found
      cases found
  | case2 c rest boundary =>
      intro unclosed found
      cases found
  | case3 c rest inside quote quoted quoteClosed induction =>
      intro unclosed found
      rcases Option.map_eq_some_iff.mp found with ⟨inner, innerFound, rfl⟩
      rcases induction inner innerFound with
        ⟨word, parts, length, isWord, innerQuote, innerOpen, width⟩
      have fits : quoted.width ≤ rest.length := Text.Quoted.width_le c rest
      refine ⟨c :: (rest.take quoted.width ++ word), ?_, ?_, ?_, innerQuote,
        innerOpen, ?_⟩
      · rw [List.cons_append, List.append_assoc, ← parts, List.take_append_drop]
      · simp only [List.length_cons, List.length_append, List.length_take, length]
        omega
      · exact .quoted (closes_take quote quoteClosed) isWord
      · simp only [Extent.grow, width, List.length_drop, List.length_cons]
        omega
  | case4 c rest inside quote quoted quoteOpen =>
      intro unclosed found
      cases found
      exact ⟨[], rfl, rfl, .nil, quote, by simpa using quoteOpen, rfl⟩
  | case5 c rest inside noQuote induction =>
      intro unclosed found
      rcases Option.map_eq_some_iff.mp found with ⟨inner, innerFound, rfl⟩
      rcases induction inner innerFound with
        ⟨word, parts, length, isWord, innerQuote, innerOpen, width⟩
      refine ⟨c :: word, ?_, ?_, ?_, innerQuote, innerOpen, ?_⟩
      · rw [List.cons_append, ← parts]
      · rw [List.length_cons, length]
      · exact .plain (by simpa using inside) (by simpa using noQuote) isWord
      · rw [Extent.grow, width, List.length_cons]

theorem Outcome.unclosed {unclosed : Unclosed}
    (outcome : Outcome afterOperator first rest lexeme)
    (found : lexeme.unclosed = some unclosed) :
    ∃ word after, first :: rest = word ++ unclosed.delimiter :: after ∧
      word.length = unclosed.offset ∧ IsWord word ∧
      Text.isQuote unclosed.delimiter = true ∧
      (∃ contents, Text.Quoted.Spells unclosed.delimiter after contents false) ∧
      lexeme.source = first :: rest := by
  have spells : ∀ delimiter text, (Text.Quoted.read delimiter text).closed = false →
      ∃ contents, Text.Quoted.Spells delimiter text contents false := by
    intro delimiter text isOpen
    have spells := Text.Quoted.spells_whole (Text.Quoted.width_of_unclosed isOpen)
    rw [isOpen] at spells
    exact ⟨_, spells⟩
  cases outcome with
  | paren isParen => cases found
  | pipe isPipe => cases found
  | operator isOperator => cases found
  | literal isQuote after =>
      cases closed : (Text.Quoted.read first rest).closed with
      | true => simp [readLiteral, closed] at found
      | false =>
          simp only [readLiteral, closed, Bool.false_eq_true, if_false,
            Option.some.injEq] at found
          subst found
          refine ⟨[], rest, rfl, rfl, .nil, isQuote, spells first rest closed, ?_⟩
          rw [readLiteral, Text.Quoted.width_of_unclosed closed, List.take_length]
  | boolean keyword => cases found
  | numeral whole => cases found
  | word inside =>
      rcases extent_unclosed _ unclosed found with
        ⟨word, parts, length, isWord, quote, isOpen, width⟩
      refine ⟨word, unclosed.contents, parts, length, isWord, quote,
        spells _ _ isOpen, ?_⟩
      rw [readWord, width, List.take_length]

end

end Lexeme

/-! ## Lexemes in their places -/

/-- How the rest of a text is cut, behind the characters `before`. White space is
skipped; a lexeme is read where none is, takes up its slice and is placed there. -/
inductive Run : Bool → List Char → List Char → List (Position × Lexeme) → Prop
  | done {afterOperator : Bool} {before : List Char} : Run afterOperator before [] []
  | space {afterOperator : Bool} {before : List Char} {first : Char} {rest : List Char}
      {placed : List (Position × Lexeme)} (isSpace : Text.isSpace first = true)
      (tail : Run afterOperator (before ++ [first]) rest placed) :
      Run afterOperator before (first :: rest) placed
  | read {delimited afterOperator : Bool} {before : List Char} {first : Char}
      {word rest : List Char} {lexeme : Lexeme} {placed : List (Position × Lexeme)}
      (visible : Text.isSpace first = false)
      (isRead : lexeme = Lexeme.read delimited afterOperator first (word ++ rest))
      (source : lexeme.source = first :: word)
      (tail : Run (lexeme.kind == .operator) (before ++ first :: word) rest placed) :
      Run afterOperator before (first :: (word ++ rest))
        ((.behind before, lexeme) :: placed)

theorem run_lexemes (position : Position) (delimited afterOperator : Bool)
    (text : List Char) :
    ∀ before, position = .behind before →
      Run afterOperator before text
        (lexemes position delimited afterOperator text) := by
  fun_induction lexemes position delimited afterOperator text with
  | case1 =>
      intro before start
      exact .done
  | case2 position delimited afterOperator first rest space induction =>
      intro before start
      subst start
      exact .space space
        (induction (before ++ [first]) (Position.next_behind before first))
  | case3 position delimited afterOperator first rest visible lexeme induction =>
      intro before start
      subst start
      have visible : Text.isSpace first = false := by simpa using visible
      rcases (Lexeme.outcome_read visible delimited afterOperator rest).slice with
        ⟨word, remaining, source, rfl⟩
      have source : lexeme.source = first :: word := source
      -- The other lexemes are in what the slice of this one leaves of the text.
      rw [source, List.length_cons, Nat.add_sub_cancel, List.drop_left] at induction ⊢
      exact .read visible rfl source
        (induction (before ++ first :: word) (Position.advance_behind _ _))

theorem Run.mem {afterOperator : Bool} {before text : List Char}
    {placed : List (Position × Lexeme)} {entry : Position × Lexeme}
    (run : Run afterOperator before text placed) (member : entry ∈ placed) :
    ∃ gap first rest after, text = gap ++ first :: rest ∧ Text.isSpace first = false ∧
      Lexeme.Outcome after first rest entry.2 ∧ entry.1 = .behind (before ++ gap) := by
  induction run with
  | done => cases member
  | @space _ before first _ _ isSpace tail induction =>
      rcases induction member with
        ⟨gap, second, more, after, rfl, visible, outcome, place⟩
      refine ⟨first :: gap, second, more, after, rfl, visible, outcome, ?_⟩
      rw [place, List.append_assoc, List.singleton_append]
  | @read delimited afterOperator before first word rest lexeme placed visible isRead
      source tail induction =>
      rcases List.mem_cons.mp member with rfl | member
      · exact ⟨[], first, word ++ rest, afterOperator, rfl, visible,
          Lexeme.outcome_of_read visible isRead, by rw [List.append_nil]⟩
      · rcases induction member with
          ⟨gap, second, more, after, rfl, secondVisible, secondOutcome, place⟩
        refine ⟨first :: (word ++ gap), second, more, after, ?_, secondVisible,
          secondOutcome, ?_⟩
        · rw [List.cons_append, List.append_assoc]
        · rw [place, List.append_assoc, List.cons_append]

theorem mem_lexemes_behind (position : Position) (delimited afterOperator : Bool)
    (text : List Char) (placed : Position × Lexeme) :
    ∀ before, position = .behind before →
      placed ∈ lexemes position delimited afterOperator text →
      ∃ gap first rest after, text = gap ++ first :: rest ∧ Text.isSpace first = false ∧
        Lexeme.Outcome after first rest placed.2 ∧
        placed.1 = .behind (before ++ gap) := by
  intro before start member
  exact (run_lexemes position delimited afterOperator text before start).mem member

/-! ## Tokens in their places -/

namespace Scan

/-- A token of a text that is written with `source`, behind the characters `before`. -/
structure TokenAt (text : String) (before source : List Char) (token : Token) :
    Prop where
  member : token ∈ (ofText text).tokens
  inside : before ++ source <+: text.toList
  nonempty : source ≠ []
  written : token.WrittenAs source
  position : token.position = .behind before

theorem tokenAt_of_outcome {text : String} {before rest : List Char} {first : Char}
    {afterOperator : Bool} {placed : Position × Lexeme}
    (member : placed ∈ lexemes .start true false text.toList)
    (parts : text.toList = before ++ first :: rest)
    (outcome : Lexeme.Outcome afterOperator first rest placed.2)
    (place : placed.1 = .behind before) :
    TokenAt text before placed.2.source (placed.2.toToken placed.1) := by
  rcases outcome.slice with ⟨word, more, source, rfl⟩
  refine ⟨List.mem_map_of_mem member, ?_, ?_, outcome.written placed.1, place⟩
  · rw [source, parts, ← List.cons_append, ← List.append_assoc]
    exact List.prefix_append _ _
  · rw [source]
    exact List.cons_ne_nil first word

theorem tokenAt_of_mem {text : String} {token : Token}
    (member : token ∈ (ofText text).tokens) :
    ∃ before first word, Text.isSpace first = false ∧
      TokenAt text before (first :: word) token := by
  rcases List.mem_map.mp member with ⟨placed, inside, rfl⟩
  rcases mem_lexemes_behind _ _ _ _ placed [] rfl inside with
    ⟨before, first, rest, after, parts, visible, outcome, place⟩
  have stands := tokenAt_of_outcome inside parts outcome place
  rcases outcome.slice with ⟨word, more, source, _⟩
  rw [source] at stands
  exact ⟨before, first, word, visible, stands⟩

end Scan

end LogQuery
