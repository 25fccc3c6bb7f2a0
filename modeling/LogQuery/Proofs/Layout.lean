import LogQuery.Proofs.Slices

/-!
White space around tokens. Which white space it is, and how much, has no influence on
the tokens and on the errors of a text but for their places. Only whether there is some
between two tokens matters: a boolean word has to be set apart from the quote before it.
-/

namespace LogQuery

/-! ## Slices are determined -/

theorem Token.WrittenAs.unique {token : Token} {source other rest otherRest : List Char}
    (written : token.WrittenAs source) (otherwise : token.WrittenAs other)
    (complete : token.incomplete = false) (same : source ++ rest = other ++ otherRest) :
    source = other := by
  cases written with
  | keyword isBoolean lower =>
      cases otherwise with
      | keyword _ otherLower =>
          have length := congrArg List.length (lower.symm.trans otherLower)
          rw [List.length_map, List.length_map] at length
          exact (List.append_inj same length).1
      | literal isValue => exact absurd (isBoolean.symm.trans isValue) (by decide)
      | verbatim notBoolean => exact absurd isBoolean notBoolean
  | literal isValue quoted isQuote spells =>
      cases otherwise with
      | keyword isBoolean => exact absurd (isBoolean.symm.trans isValue) (by decide)
      | literal _ _ _ otherSpells =>
          rw [List.cons_append, List.cons_append, List.cons.injEq] at same
          rcases same with ⟨rfl, same⟩
          rw [complete] at spells otherSpells
          -- Both bodies end where reading on from the delimiter stops.
          have read := spells.read isQuote rest
          rw [same, otherSpells.read isQuote otherRest, Text.Quoted.mk.injEq] at read
          rw [(List.append_inj same read.2.1.symm).1]
      | verbatim _ notLiteral => exact absurd ⟨isValue, quoted⟩ notLiteral
  | verbatim notBoolean notLiteral text =>
      cases otherwise with
      | keyword isBoolean => exact absurd isBoolean notBoolean
      | literal isValue quoted => exact absurd ⟨isValue, quoted⟩ notLiteral
      | verbatim _ _ otherText => exact text.symm.trans otherText

/-! ## What a lexeme ends at -/

/-- Two texts go on alike: with the same character, or each with white space or not at
all. -/
def GoesOnAlike (rest other : List Char) : Prop :=
  rest.head? = other.head? ∨
    rest.head?.all Text.isSpace = true ∧ other.head?.all Text.isSpace = true

theorem GoesOnAlike.all {rest other : List Char} {test : Char → Bool}
    (alike : GoesOnAlike rest other)
    (spaces : ∀ c, Text.isSpace c = true → test c = true)
    (passes : rest.head?.all test = true) : other.head?.all test = true := by
  rcases alike with same | ⟨-, space⟩
  · rwa [← same]
  · rw [Option.all_eq_true] at space ⊢
    exact fun c head => spaces c (space c head)

theorem GoesOnAlike.startsAtBoundary {rest other : List Char}
    (alike : GoesOnAlike rest other) (ends : startsAtBoundary rest = true) :
    startsAtBoundary other = true :=
  alike.all (fun c space => by simp [isBoundary, space]) ends

namespace Lexeme

theorem takeWhile_alike {word rest other : List Char} (alike : GoesOnAlike rest other)
    (run : (word ++ rest).takeWhile isOperatorChar = word) :
    (word ++ other).takeWhile isOperatorChar = word := by
  have operators : ∀ c ∈ word, isOperatorChar c = true := by
    rw [← run]
    exact List.all_eq_true.mp List.all_takeWhile
  have stops : rest.head?.all (! isOperatorChar ·) = true := by
    rw [List.takeWhile_append_of_pos operators, List.append_right_eq_self] at run
    cases rest with
    | nil => rfl
    | cons c rest => simpa [List.takeWhile_cons] using run
  refine Text.takeWhile_run operators (alike.all (fun c space => ?_) stops)
  rw [Bool.not_eq_true', Bool.eq_false_iff]
  intro operator
  rw [visible_of_isOperatorChar operator] at space
  cases space

theorem readLiteral_append {first : Char} {word rest : List Char} (other : List Char)
    (source : (readLiteral first (word ++ rest)).source = first :: word)
    (closed : (readLiteral first (word ++ rest)).unclosed = none) :
    readLiteral first (word ++ other) = readLiteral first (word ++ rest) := by
  have isClosed : (Text.Quoted.read first (word ++ rest)).closed = true := by
    rw [readLiteral] at closed
    by_contra isOpen
    simp [isOpen] at closed
  have taken :
      (word ++ rest).take (Text.Quoted.read first (word ++ rest)).width = word :=
    (List.cons.inj source).2
  have same := Text.Quoted.read_take isClosed
  rw [taken] at same
  have again := Text.Quoted.read_append other (same ▸ isClosed)
  have width : (Text.Quoted.read first word).width ≤ word.length :=
    Text.Quoted.width_le first word
  rw [readLiteral, readLiteral, again, ← same, List.take_append_of_le_length width,
    List.take_append_of_le_length width]

theorem read_alike {first : Char} {word rest other : List Char}
    {delimited afterOperator : Bool} (visible : Text.isSpace first = false)
    (source : (read delimited afterOperator first (word ++ rest)).source =
      first :: word)
    (closed : (read delimited afterOperator first (word ++ rest)).unclosed = none)
    (alike : GoesOnAlike rest other) :
    read delimited afterOperator first (word ++ other) =
      read delimited afterOperator first (word ++ rest) := by
  by_cases boundary : isBoundary first = true
  · simp only [isBoundary, visible, Bool.false_or, Bool.or_eq_true,
      beq_iff_eq] at boundary
    rcases boundary with ((operator | rfl) | rfl) | rfl
    · rw [read_operator operator] at source
      have run : (word ++ rest).takeWhile isOperatorChar = word :=
        (List.cons.inj source).2
      rw [read_operator operator, read_operator operator, run,
        takeWhile_alike alike run]
    · simp only [read, beq_self_eq_true, Bool.true_or, if_true]
    · simp only [read, beq_self_eq_true, Bool.or_true, if_true]
    · simp [read]
  · have inside : isBoundary first = false := by simpa using boundary
    cases literal : Text.isQuote first && afterOperator with
    | true =>
        rw [Bool.and_eq_true] at literal
        rcases literal with ⟨isQuote, rfl⟩
        rw [read_literal isQuote] at source closed ⊢
        rw [read_literal isQuote, readLiteral_append other source closed]
    | false =>
        rcases read_split inside literal closed with ⟨front, back, parts, isWord, ends⟩
        rw [parts, read_append _ _ isWord literal ends] at source
        rw [(source_read _ _ isWord literal).1, List.cons.injEq] at source
        rcases source with ⟨-, rfl⟩
        rw [List.append_cancel_left parts] at alike ⊢
        rw [read_append _ _ isWord literal ends,
          read_append _ _ isWord literal (alike.startsAtBoundary ends)]

end Lexeme

/-! ## Gaps -/

/-- The white space of two texts at one place. At an edge it can be any; between two
tokens there is some in both texts or in none. -/
structure Gaps (edge : Bool) (gap other : List Char) : Prop where
  blank : gap.all Text.isSpace = true
  otherBlank : other.all Text.isSpace = true
  both : edge = false → (gap = [] ↔ other = [])

theorem cut_gap {gap : List Char} (blank : gap.all Text.isSpace = true)
    (delimited afterOperator : Bool) (rest : List Char) :
    cut delimited afterOperator (gap ++ rest) =
      cut (delimited || !gap.isEmpty) afterOperator rest := by
  induction gap generalizing delimited with
  | nil => simp
  | cons c gap induction =>
      rw [List.all_cons, Bool.and_eq_true] at blank
      rw [List.cons_append, cut_space blank.1, induction blank.2]
      simp

theorem head_of_blank {gap : List Char} (blank : gap.all Text.isSpace = true) :
    gap.head?.all Text.isSpace = true := by
  rw [Option.all_eq_true]
  exact fun c head => List.all_eq_true.mp blank c (List.mem_of_head? head)

namespace Gaps

variable {edge : Bool} {gap other : List Char}

theorem delimits (gaps : Gaps edge gap other) {delimited : Bool}
    (start : edge = true → delimited = true) :
    (delimited || !gap.isEmpty) = (delimited || !other.isEmpty) := by
  cases edge with
  | true => rw [start rfl, Bool.true_or, Bool.true_or]
  | false =>
      have same : gap.isEmpty = other.isEmpty := by
        rw [Bool.eq_iff_iff, List.isEmpty_iff, List.isEmpty_iff]
        exact gaps.both rfl
      rw [same]

theorem goesOnAlike (gaps : Gaps false gap other) {rest otherRest : List Char}
    (same : rest.head? = otherRest.head?) :
    GoesOnAlike (gap ++ rest) (other ++ otherRest) := by
  cases gap with
  | nil =>
      rw [(gaps.both rfl).mp rfl]
      exact .inl same
  | cons c gap =>
      cases other with
      | nil => cases (gaps.both rfl).mpr rfl
      | cons d other =>
          have space : Text.isSpace c = true := head_of_blank gaps.blank
          have otherSpace : Text.isSpace d = true := head_of_blank gaps.otherBlank
          exact .inr ⟨space, otherSpace⟩

end Gaps

/-! ## Texts with other white space -/

/-- Two texts in which some tokens are written with the same slices, in their order, so
that only the white space around the slices differs. A token that is cut short goes up
to the end of both texts. -/
inductive Respaced : Bool → List Token → List Char → List Char → Prop
  | done {edge : Bool} {gap other : List Char} (gaps : Gaps true gap other) :
      Respaced edge [] gap other
  | slice {edge : Bool} {token : Token} {tokens : List Token} {first : Char}
      {gap other word rest otherRest : List Char} (gaps : Gaps edge gap other)
      (visible : Text.isSpace first = false) (written : token.WrittenAs (first :: word))
      (last : token.incomplete = true → rest = [] ∧ otherRest = [])
      (tail : Respaced false tokens rest otherRest) :
      Respaced edge (token :: tokens) (gap ++ first :: (word ++ rest))
        (other ++ first :: (word ++ otherRest))

namespace Respaced

variable {edge : Bool} {tokens : List Token} {text other : List Char}

theorem goesOnAlike (respaced : Respaced false tokens text other) :
    GoesOnAlike text other := by
  cases respaced with
  | done gaps => exact .inr ⟨head_of_blank gaps.blank, head_of_blank gaps.otherBlank⟩
  | slice gaps visible written last tail => exact gaps.goesOnAlike rfl

theorem space {c : Char} (isSpace : Text.isSpace c = true)
    (respaced : Respaced edge tokens text other) :
    Respaced edge tokens (c :: text) (c :: other) := by
  have blank : ∀ {gap : List Char}, gap.all Text.isSpace = true →
      (c :: gap).all Text.isSpace = true := by
    intro gap blank
    rw [List.all_cons, isSpace, blank, Bool.and_self]
  cases respaced with
  | done gaps =>
      exact .done
        ⟨blank gaps.blank, blank gaps.otherBlank, fun between => by cases between⟩
  | slice gaps visible written last tail =>
      rw [← List.cons_append, ← List.cons_append]
      exact .slice ⟨blank gaps.blank, blank gaps.otherBlank, fun _ => by simp⟩ visible
        written last tail

end Respaced

/-! ## Without places -/

def Token.unplaced (token : Token) : Token :=
  { token with position := .start }

def QueryError.unplaced (error : QueryError) : QueryError :=
  { error with position := error.position.map fun _ => .start }

def Scan.unplaced (scan : Scan) : Scan :=
  { tokens := scan.tokens.map .unplaced
    errors := scan.errors.map .unplaced }

theorem Token.WrittenAs.unplaced {token : Token} {source : List Char}
    (written : token.WrittenAs source) : token.unplaced.WrittenAs source := by
  cases written with
  | keyword isBoolean lower => exact .keyword isBoolean lower
  | literal isValue quoted isQuote spells =>
      exact .literal isValue quoted isQuote spells
  | verbatim notBoolean notLiteral text => exact .verbatim notBoolean notLiteral text

theorem Lexeme.unplaced_error? (lexeme : Lexeme) (position : Position) :
    (lexeme.error? position).map QueryError.unplaced =
      (lexeme.error? .start).map QueryError.unplaced := by
  rw [error?, error?, Option.map_map, Option.map_map]
  rfl

theorem Scan.unplaced_ofText (text : String) :
    (ofText text).unplaced =
      { tokens := (cut true false text.toList).map (·.toToken .start)
        errors := (cut true false text.toList).filterMap fun lexeme =>
          (lexeme.error? .start).map QueryError.unplaced } := by
  rw [unplaced, ofText, cut, List.map_map, List.map_map, List.map_filterMap,
    List.filterMap_map, mk.injEq]
  refine ⟨rfl, congrArg (List.filterMap · _) ?_⟩
  funext entry
  exact entry.2.unplaced_error? entry.1

/-! ## Cutting both texts -/

theorem Lexeme.source_of_token {token : Token} {first : Char} {word rest : List Char}
    {delimited afterOperator : Bool} (visible : Text.isSpace first = false)
    (same : token.unplaced =
      (read delimited afterOperator first (word ++ rest)).toToken .start)
    (written : token.WrittenAs (first :: word)) (complete : token.incomplete = false) :
    (read delimited afterOperator first (word ++ rest)).source = first :: word := by
  have outcome := outcome_read visible delimited afterOperator (word ++ rest)
  rcases outcome.slice with ⟨front, back, source, parts⟩
  have lexemeWritten := outcome.written .start
  rw [← same, source] at lexemeWritten
  have whole : (first :: front) ++ back = (first :: word) ++ rest := by
    rw [List.cons_append, List.cons_append, parts]
  rw [source, lexemeWritten.unique written.unplaced complete whole]

theorem Respaced.cut_eq {edge : Bool} {tokens : List Token} {text other : List Char}
    (respaced : Respaced edge tokens text other) :
    ∀ delimited afterOperator, (edge = true → delimited = true) →
      tokens.map .unplaced = (cut delimited afterOperator text).map (·.toToken .start) →
      cut delimited afterOperator other = cut delimited afterOperator text := by
  induction respaced with
  | @done edge gap other gaps =>
      intro delimited afterOperator start tokensOfText
      rw [← List.append_nil gap, ← List.append_nil other, cut_gap gaps.blank,
        cut_gap gaps.otherBlank, cut_nil, cut_nil]
  | @slice edge token tokens first gap other word rest otherRest gaps visible written
      last tail induction =>
      intro delimited afterOperator start tokensOfText
      rw [cut_gap gaps.blank] at tokensOfText ⊢
      rw [cut_gap gaps.otherBlank, ← gaps.delimits start]
      generalize (delimited || !gap.isEmpty) = delimited at *
      rw [cut_cons visible, List.map_cons, List.map_cons,
        List.cons.injEq] at tokensOfText
      rcases tokensOfText with ⟨same, others⟩
      cases cutShort : token.incomplete with
      | true =>
          rcases last cutShort with ⟨rfl, rfl⟩
          rfl
      | false =>
          have source := Lexeme.source_of_token visible same written cutShort
          have closed :
              (Lexeme.read delimited afterOperator first (word ++ rest)).unclosed =
                none := by
            have incomplete := congrArg Token.incomplete same
            simpa [Token.unplaced, Lexeme.toToken, cutShort] using incomplete
          have again := Lexeme.read_alike visible source closed tail.goesOnAlike
          rw [source, List.length_cons, Nat.add_sub_cancel, List.drop_left] at others
          rw [cut_cons visible, cut_cons visible, again, source, List.length_cons,
            Nat.add_sub_cancel, List.drop_left, List.drop_left]
          rw [induction _ _ (fun between => by cases between) others]

theorem Run.respaced {afterOperator : Bool} {before text : List Char}
    {placed : List (Position × Lexeme)} (run : Run afterOperator before text placed) :
    ∀ edge,
      Respaced edge (placed.map fun (position, lexeme) => lexeme.toToken position) text
        text := by
  have noGap (edge : Bool) : Gaps edge [] [] := ⟨rfl, rfl, fun _ => Iff.rfl⟩
  induction run with
  | done => exact fun edge => .done (noGap true)
  | space isSpace tail induction => exact fun edge => (induction edge).space isSpace
  | @read delimited afterOperator before first word rest lexeme placed visible isRead
      source tail induction =>
      intro edge
      have outcome := Lexeme.outcome_of_read visible isRead
      have written := outcome.written (.behind before)
      rw [source] at written
      refine .slice (noGap edge) visible written (fun incomplete => ?_)
        (induction false)
      rcases Option.isSome_iff_exists.mp incomplete with ⟨unclosed, found⟩
      rcases outcome.unclosed found with ⟨-, -, -, -, -, -, -, whole⟩
      rw [source, List.cons.injEq] at whole
      have nothing : rest = [] :=
        List.append_cancel_left (whole.2.symm.trans (List.append_nil word).symm)
      exact ⟨nothing, nothing⟩

/-- White space can be replaced by other white space wherever there is some, and by any
or none at the edges of a text. The tokens and the errors stay the same up to their
places. -/
theorem Scan.unplaced_of_respaced (text : String) :
    Respaced true (ofText text).tokens text.toList text.toList ∧
      ∀ other : String, Respaced true (ofText text).tokens text.toList other.toList →
        (ofText other).unplaced = (ofText text).unplaced := by
  refine ⟨(run_lexemes .start true false text.toList [] rfl).respaced true, ?_⟩
  intro other respaced
  have tokens := congrArg Scan.tokens (unplaced_ofText text)
  have same := respaced.cut_eq true false (fun _ => rfl) tokens
  rw [unplaced_ofText, unplaced_ofText, same]

def looseText : String :=
  "\t a= 1  and' c "

def denseText : String :=
  "a=\u3000\n1\u0085and' c "

theorem Scan.unplaced_of_respaced_cutShort :
    Respaced true (ofText looseText).tokens looseText.toList denseText.toList ∧
      (ofText denseText).tokens ≠ (ofText looseText).tokens ∧
      (ofText denseText).errors ≠ (ofText looseText).errors ∧
      (ofText denseText).unplaced = (ofText looseText).unplaced := by
  have tokens : (ofText looseText).tokens =
      [{ kind := .key, text := "a", position := ⟨1, 3⟩ },
        { kind := .operator, text := "=", position := ⟨1, 4⟩ },
        { kind := .number, text := "1", position := ⟨1, 6⟩ },
        { kind := .key, text := "and' c ", position := ⟨1, 9⟩, quoted := true,
          incomplete := true }] := by
    decide +kernel
  have respaced :
      Respaced true (ofText looseText).tokens looseText.toList denseText.toList := by
    rw [tokens]
    refine @Respaced.slice _ _ _ 'a' ['\t', ' '] [] [] _ _ ⟨rfl, rfl, by decide⟩ rfl
      (.verbatim (by decide) (by decide) rfl) (by decide) ?_
    refine @Respaced.slice _ _ _ '=' [] [] [] _ _ ⟨rfl, rfl, by decide⟩ rfl
      (.verbatim (by decide) (by decide) rfl) (by decide) ?_
    refine @Respaced.slice _ _ _ '1' [' '] ['\u3000', '\n'] [] _ _
      ⟨rfl, rfl, by decide⟩ rfl
      (.verbatim (by decide) (by decide) rfl) (by decide) ?_
    exact @Respaced.slice _ _ _ 'a' [' ', ' '] ['\u0085'] "nd' c ".toList [] []
      ⟨rfl, rfl, by decide⟩ rfl
      (.verbatim (by decide) (by decide) rfl) (by decide)
      (.done ⟨rfl, rfl, by decide⟩)
  exact ⟨respaced, by decide +kernel, by decide +kernel,
    (unplaced_of_respaced looseText).2 denseText respaced⟩

end LogQuery
