import LogQuery.Proofs.Slices

/-!
What all tokens of a text have in common, whatever the text is: how the tokens of each
kind are written, which tokens follow which, and that only the last one can be cut
short.
-/

namespace LogQuery

/-! ## Words -/

/-- A text with white space and marks only in its quoted segments, and whether all of
them are closed. -/
inductive Unbroken : List Char → Bool → Prop
  | nil : Unbroken [] true
  | plain {c : Char} {rest : List Char} {closed : Bool}
      (visible : Text.isSpace c = false) (noMark : c ∉ "=!~><()|".toList)
      (noQuote : Text.isQuote c = false) (tail : Unbroken rest closed) :
      Unbroken (c :: rest) closed
  | segment {delimiter : Char} {body contents rest : List Char} {closed : Bool}
      (isQuote : Text.isQuote delimiter = true)
      (spells : Text.Quoted.Spells delimiter body contents true)
      (tail : Unbroken rest closed) :
      Unbroken (delimiter :: (body ++ rest)) closed
  | cutShort {delimiter : Char} {body contents : List Char}
      (isQuote : Text.isQuote delimiter = true)
      (spells : Text.Quoted.Spells delimiter body contents false) :
      Unbroken (delimiter :: body) false

namespace Lexeme

theorem IsWord.unbroken_append {word rest : List Char} {closed : Bool}
    (isWord : IsWord word) (tail : Unbroken rest closed) :
    Unbroken (word ++ rest) closed := by
  induction isWord with
  | nil => exact tail
  | plain inside noQuote isWord induction =>
      simp only [isBoundary, isOperatorChar, Bool.or_eq_false_iff,
        beq_eq_false_iff_ne] at inside
      exact .plain inside.1.1.1.1 (by simp [inside]) noQuote induction
  | @quoted delimiter body rest closes isWord induction =>
      have spells := Text.Quoted.spells_whole closes.width
      rw [closes.closed] at spells
      rw [List.cons_append, List.append_assoc]
      exact .segment closes.isQuote spells induction

theorem unbroken_readWord (afterOperator : Bool) (text : List Char) :
    Unbroken (readWord afterOperator text).source
      (!(readWord afterOperator text).unclosed.isSome) := by
  cases found : (extent text).unclosed with
  | none =>
      have unbroken := (isWord_take_extent found).1.unbroken_append .nil
      rw [List.append_nil] at unbroken
      simpa [readWord, found] using unbroken
  | some unclosed =>
      rcases extent_unclosed text unclosed found with
        ⟨word, parts, -, isWord, isQuote, isOpen, width⟩
      have spells := Text.Quoted.spells_whole (Text.Quoted.width_of_unclosed isOpen)
      rw [isOpen] at spells
      have unbroken := isWord.unbroken_append (.cutShort isQuote spells)
      rw [← parts] at unbroken
      simpa [readWord, found, width] using unbroken

end Lexeme

/-! ## Tokens by kind -/

def Lexeme.IsNumeral (text : List Char) : Prop :=
  ∃ sign whole fraction, text = sign ++ whole ++ Text.fractionText fraction ∧
    sign ∈ [[], ['+'], ['-']] ∧ Text.isDigits whole = true ∧
    ∀ c ∈ fraction, c.isDigit = true

/-- How the tokens of each kind are written. The text of a string literal can be any. -/
def Token.Shaped (token : Token) : Prop :=
  match token.kind with
  | .key => token.text ≠ "" ∧ Unbroken token.text.toList (!token.incomplete)
  | .operator => token.text ≠ "" ∧ ∀ c ∈ token.text.toList, c ∈ "=!~><".toList
  | .value =>
      token.quoted = true ∨
        token.text ≠ "" ∧ Unbroken token.text.toList (!token.incomplete) ∧
          ∀ c ∈ token.text.toList.head?, Text.isQuote c = false
  | .number => Lexeme.IsNumeral token.text.toList
  | .paren => token.text = "(" ∨ token.text = ")"
  | .boolean => token.text = "and" ∨ token.text = "or"
  | .pipe => token.text = "|"

structure Token.Follows (afterOperator : Bool) (token : Token) : Prop where
  value : token.kind = .value → afterOperator = true
  key : token.kind = .key → afterOperator = false

namespace Lexeme

theorem isNumeral_numeralOf {text : List Char} (nonempty : wholeOf text ≠ []) :
    IsNumeral (numeralOf text) := by
  rcases fractionOf_eq
    ((text.drop (signOf text).length).drop (wholeOf text).length) with
    ⟨fraction, point, fractionDigits⟩
  have sign : signOf text ∈ [[], ['+'], ['-']] := by
    cases text with
    | nil => exact List.mem_cons_self
    | cons c text =>
        by_cases sign : isSign c = true
        · simp only [isSign, Bool.or_eq_true, beq_iff_eq] at sign
          rcases sign with rfl | rfl <;> simp [signOf, isSign]
        · simp [signOf, sign]
  have digits : Text.isDigits (wholeOf text) = true :=
    (Text.isDigits_iff _).mpr ⟨nonempty, List.all_eq_true.mp List.all_takeWhile⟩
  exact ⟨signOf text, wholeOf text, fraction, by rw [numeralOf, point], sign, digits,
    fractionDigits⟩

theorem ofList_ne_empty {first : Char} {rest : List Char} :
    String.ofList (first :: rest) ≠ "" := by
  intro empty
  have same := congrArg String.toList empty
  rw [String.toList_ofList] at same
  cases same

theorem shaped_readWord {first : Char} {afterOperator : Bool}
    (inside : isBoundary first = false)
    (notLiteral : (Text.isQuote first && afterOperator) = false) (rest : List Char)
    (position : Position) :
    ((readWord afterOperator (first :: rest)).toToken position).Shaped := by
  have unbroken := unbroken_readWord afterOperator (first :: rest)
  have outcome :
      Outcome afterOperator first rest (readWord afterOperator (first :: rest)) :=
    .word inside
  rcases outcome.slice with ⟨word, more, source, -⟩
  have text :
      (readWord afterOperator (first :: rest)).text = String.ofList (first :: word) :=
    congrArg String.ofList source
  have nonempty : (readWord afterOperator (first :: rest)).text ≠ "" := by
    rw [text]
    exact ofList_ne_empty
  rw [source, ← String.toList_ofList (l := first :: word), ← text] at unbroken
  cases afterOperator with
  | false => exact ⟨nonempty, unbroken⟩
  | true =>
      refine .inr ⟨nonempty, unbroken, ?_⟩
      rw [toToken, text, String.toList_ofList]
      simpa using notLiteral

theorem shaped_read {first : Char} (visible : Text.isSpace first = false)
    (delimited afterOperator : Bool) (rest : List Char) (position : Position) :
    ((read delimited afterOperator first rest).toToken position).Shaped := by
  have outcome := outcome_read visible delimited afterOperator rest
  cases literal : Text.isQuote first && afterOperator with
  | true =>
      rw [Bool.and_eq_true] at literal
      rcases literal with ⟨isQuote, rfl⟩
      rw [read_literal isQuote]
      exact .inl rfl
  | false =>
      generalize read delimited afterOperator first rest = lexeme at outcome
      cases outcome with
      | paren isParen =>
          rcases isParen with rfl | rfl
          · exact .inl rfl
          · exact .inr rfl
      | pipe isPipe =>
          subst isPipe
          rfl
      | operator isOperator =>
          refine ⟨ofList_ne_empty, ?_⟩
          simp only [toToken, verbatim, String.toList_ofList, List.forall_mem_cons]
          have listed : ∀ c, isOperatorChar c = true → c ∈ "=!~><".toList := by
            intro c operator
            simpa [isOperatorChar, or_assoc] using operator
          exact ⟨listed first isOperator,
            fun c member => listed c (List.all_eq_true.mp List.all_takeWhile c member)⟩
      | literal isQuote after => exact .inl rfl
      | @boolean connective keyword =>
          cases connective with
          | and => exact .inl rfl
          | or => exact .inr rfl
      | numeral whole =>
          have numeral := isNumeral_numeralOf whole
          rw [← String.toList_ofList (l := numeralOf (first :: rest))] at numeral
          exact numeral
      | word inside => exact shaped_readWord inside literal rest position

theorem Outcome.follows {afterOperator : Bool} {first : Char} {rest : List Char}
    {lexeme : Lexeme} (outcome : Outcome afterOperator first rest lexeme)
    (position : Position) : (lexeme.toToken position).Follows afterOperator := by
  cases outcome with
  | literal isQuote after =>
      refine ⟨fun _ => after, fun isKey => ?_⟩
      cases isKey
  | word inside =>
      cases afterOperator with
      | false =>
          refine ⟨fun isValue => ?_, fun _ => rfl⟩
          cases isValue
      | true =>
          refine ⟨fun _ => rfl, fun isKey => ?_⟩
          cases isKey
  | _ => constructor <;> intro other <;> cases other

end Lexeme

/-! ## Whole runs -/

namespace Run

variable {afterOperator : Bool} {before text : List Char}
  {placed : List (Position × Lexeme)}

theorem shaped (run : Run afterOperator before text placed) :
    ∀ token ∈ placed.map (fun (position, lexeme) => lexeme.toToken position),
      token.Shaped := by
  induction run with
  | done => exact List.forall_mem_nil _
  | space isSpace tail induction => exact induction
  | @read delimited afterOperator before first word rest lexeme placed visible isRead
      source tail induction =>
      rw [List.map_cons, List.forall_mem_cons]
      refine ⟨?_, induction⟩
      rw [isRead]
      exact Lexeme.shaped_read visible delimited afterOperator _ _

theorem follows (run : Run afterOperator before text placed) :
    ∀ front token back,
      placed.map (fun (position, lexeme) => lexeme.toToken position) =
        front ++ token :: back →
      token.Follows (front.getLast?.elim afterOperator (·.kind == .operator)) := by
  induction run with
  | done =>
      intro front token back parts
      exact absurd parts.symm (by simp)
  | space isSpace tail induction => exact induction
  | @read delimited afterOperator before first word rest lexeme placed visible isRead
      source tail induction =>
      intro front token back parts
      rw [List.map_cons] at parts
      cases front with
      | nil =>
          cases parts
          exact (Lexeme.outcome_of_read visible isRead).follows _
      | cons earlier front =>
          rw [List.cons_append, List.cons.injEq] at parts
          rcases parts with ⟨rfl, parts⟩
          have follows := induction front token back parts
          rw [List.getLast?_cons]
          cases last : front.getLast? with
          | none => simpa [last, Lexeme.toToken] using follows
          | some previous => simpa [last] using follows

/-- An open quote takes up the rest of the text, so nothing is read behind it. -/
theorem closed_before_last (run : Run afterOperator before text placed) :
    ∀ entry ∈ placed.dropLast, entry.2.unclosed = none := by
  induction run with
  | done => exact List.forall_mem_nil _
  | space isSpace tail induction => exact induction
  | @read delimited afterOperator before first word rest lexeme placed visible isRead
      source tail induction =>
      cases placed with
      | nil => exact List.forall_mem_nil _
      | cons next others =>
          rw [List.dropLast_cons_cons, List.forall_mem_cons]
          refine ⟨?_, induction⟩
          rw [Option.eq_none_iff_forall_ne_some]
          intro unclosed found
          rcases (Lexeme.outcome_of_read visible isRead).unclosed found with
            ⟨-, -, -, -, -, -, -, whole⟩
          have nothing : rest = [] := by
            rw [source, List.cons.injEq] at whole
            exact List.append_cancel_left
              (whole.2.symm.trans (List.append_nil word).symm)
          subst nothing
          cases tail

end Run

/-! ## Scans -/

structure Scan.Shaped (scan : Scan) : Prop where
  token : ∀ token ∈ scan.tokens, token.Shaped
  follows : ∀ front token back, scan.tokens = front ++ token :: back →
    token.Follows (front.getLast?.any (·.kind == .operator))
  complete : ∀ token ∈ scan.tokens.dropLast, token.incomplete = false
  single : scan.errors.length ≤ 1
  code : ∀ error ∈ scan.errors, error.code = .unterminatedString
  reported :
    scan.errors ≠ [] ↔ ∃ last, scan.tokens.getLast? = some last ∧ last.incomplete = true

theorem errors_of_closed {placed : List (Position × Lexeme)}
    (closed : ∀ entry ∈ placed.dropLast, entry.2.unclosed = none) :
    placed.filterMap (fun (position, lexeme) => lexeme.error? position) =
      (placed.getLast?.bind fun (position, lexeme) =>
        lexeme.error? position).toList := by
  rcases List.eq_nil_or_concat placed with rfl | ⟨front, last, rfl⟩
  · rfl
  · rw [List.concat_eq_append, List.dropLast_concat] at closed
    have quiet :
        front.filterMap (fun (position, lexeme) => lexeme.error? position) = [] := by
      rw [List.filterMap_eq_nil_iff]
      intro entry member
      change entry.2.error? entry.1 = none
      rw [Lexeme.error?, closed entry member, Option.map_none]
    rw [List.concat_eq_append, List.filterMap_append, quiet, List.nil_append,
      List.getLast?_concat]
    cases found : last.2.error? last.1 <;> simp [found]

theorem Lexeme.code_of_error? {lexeme : Lexeme} {position : Position}
    {error : QueryError} (found : lexeme.error? position = some error) :
    error.code = .unterminatedString := by
  rcases Option.map_eq_some_iff.mp found with ⟨unclosed, -, rfl⟩
  rfl

theorem Lexeme.isSome_error? (lexeme : Lexeme) (position : Position) :
    (lexeme.error? position).isSome = (lexeme.toToken position).incomplete := by
  rw [error?, Option.isSome_map, toToken]

/-- The marks of the grammar are told by the kind and, for parentheses, the first
character of a token. In the tokens of a text that is their whole text. -/
theorem Scan.text_of_mark {text : String} {token : Token}
    (member : token ∈ (ofText text).tokens) :
    (∀ paren, token.isParen paren = true ↔
      token.kind = .paren ∧ token.text = String.singleton paren) ∧
      (token.kind = .pipe → token.text = "|") := by
  have run := run_lexemes .start true false text.toList [] rfl
  have shaped := run.shaped token member
  constructor
  · intro paren
    rw [Token.isParen, Bool.and_eq_true, beq_iff_eq, beq_iff_eq]
    refine and_congr_right fun isParen => ?_
    simp only [Token.Shaped, isParen] at shaped
    constructor
    · intro head
      rcases shaped with opening | closing
      · rw [opening] at head ⊢
        cases head
        rfl
      · rw [closing] at head ⊢
        cases head
        rfl
    · intro same
      rw [same, String.toList_singleton, List.head?_cons]
  · intro isPipe
    simpa only [Token.Shaped, isPipe] using shaped

/-- All tokens are shaped by their kinds, values are what follows operators, and at most
the last token is cut short, which is the only error. -/
theorem Scan.shaped_ofText (text : String) : (ofText text).Shaped := by
  have run := run_lexemes .start true false text.toList [] rfl
  have errors : (ofText text).errors = _ := errors_of_closed run.closed_before_last
  refine ⟨run.shaped, ?_, ?_, ?_, ?_, ?_⟩
  · intro front token back parts
    have follows := run.follows front token back parts
    cases last : front.getLast? <;> simpa [last] using follows
  · rw [ofText, ← List.map_dropLast, List.forall_mem_map]
    intro entry member
    change entry.2.unclosed.isSome = false
    rw [run.closed_before_last entry member, Option.isSome_none]
  · rw [errors]
    exact Option.length_toList_le
  · rw [errors]
    intro error member
    rcases Option.bind_eq_some_iff.mp (Option.mem_toList.mp member) with
      ⟨entry, -, found⟩
    exact Lexeme.code_of_error? found
  · rw [errors, ofText, List.getLast?_map]
    cases last : (lexemes .start true false text.toList).getLast? with
    | none => simp
    | some entry =>
        have reported := entry.2.isSome_error? entry.1
        simp [← reported, Option.isSome_iff_ne_none]

end LogQuery
