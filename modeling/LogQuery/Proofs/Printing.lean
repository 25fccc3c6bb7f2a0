import LogQuery.Proofs.Derivation
import LogQuery.Proofs.FieldPath

/-!
What is written for a query is read as the same query, as long as no field is written
like a keyword or like a numeral. The text of a query is cut into the lexemes of its
parts, and along a derivation of the query these lexemes are found to be derivable
again.
-/

namespace LogQuery

/-! ## Literals -/

theorem finiteNumber?_render (negative : Bool) (rank : Fin finiteDoubles) :
    finiteNumber? (Double.render (.finite negative rank)) =
      some (.finite negative rank) := by
  rw [finiteNumber?, (Double.render_finite negative rank).2]
  rfl

/-- A lexeme that stands for the same literal as a token, and that is what the literal
is written as. -/
structure Restates (options : ParseOptions) (token : Token) (lexeme : Lexeme) :
    Prop where
  cuts : ∀ more, startsAtBoundary more = true →
    cut true true ((Literal.ofToken options token).render.toList ++ more) =
      lexeme :: cut true false more
  starts : ∃ first rest, (Literal.ofToken options token).render.toList = first :: rest ∧
    isOperatorChar first = false
  closed : lexeme.unclosed = none
  kind : lexeme.kind = .value ∨ lexeme.kind = .number
  quoted : lexeme.quoted = token.quoted
  literal : ∀ position, Literal.ofToken options (lexeme.toToken position) =
    Literal.ofToken options token

section Literals

variable {options : ParseOptions} {token : Token}

theorem restates_quoted (quoted : token.quoted = true)
    (literal : Literal.ofToken options token = .text token.text) :
    Restates options token (.ofText token.text) := by
  refine ⟨?_, ?_, rfl, .inl rfl, quoted.symm, fun _ => literal.symm⟩
  · rw [literal]
    exact fun more ends => cut_quote token.text ends
  · rw [literal]
    exact ⟨'"', _, Text.toList_quote token.text, rfl⟩

theorem restates_number {negative : Bool} {rank : Fin finiteDoubles}
    (unquoted : token.quoted = false)
    (number : Literal.ofToken options token = .number (.finite negative rank)) :
    Restates options token
      (.verbatim .number (Double.render (.finite negative rank)).toList) := by
  have numeral := (Double.render_finite negative rank).1
  have literal (position : Position) :
      Literal.ofToken options
          ((Lexeme.verbatim .number
            (Double.render (.finite negative rank)).toList).toToken position) =
        Literal.ofToken options token := by
    rw [number]
    simp [Literal.ofToken, Lexeme.toToken, Lexeme.verbatim, finiteNumber?_render]
  have written :
      (Literal.ofToken options token).render =
        Double.render (.finite negative rank) := by
    rw [number]
    rfl
  cases text : (Double.render (.finite negative rank)).toList with
  | nil =>
      rw [text] at numeral
      cases numeral
  | cons first rest =>
      rw [text] at numeral literal
      rcases Lexeme.read_numeral numeral true with ⟨isWord, noQuote, read⟩
      refine ⟨?_, ?_, rfl, .inr rfl, unquoted.symm, literal⟩
      · intro more ends
        rw [written, text, List.cons_append,
          cut_word true isWord (by simp [noQuote]) ends, read]
      · exact ⟨first, rest, by rw [written, text],
          (ordinary_of_not_boundary isWord.head).2⟩

theorem restates_word {first : Char} {word : List Char}
    (isWord : Lexeme.IsWord (first :: word)) (noQuote : Text.isQuote first = false)
    (source : token = (Lexeme.read true true first word).toToken token.position)
    (isLiteral : token.kind = .value ∨ token.kind = .number)
    (written : (Literal.ofToken options token).render.toList = first :: word) :
    Restates options token (.read true true first word) := by
  have noLiteral : (Text.isQuote first && true) = false := by simp [noQuote]
  refine ⟨?_, ?_, (Lexeme.source_read true true isWord noLiteral).2, ?_, ?_, ?_⟩
  · intro more ends
    rw [written, List.cons_append, cut_word true isWord noLiteral ends]
  · exact ⟨first, word, written, (ordinary_of_not_boundary isWord.head).2⟩
  · rw [source] at isLiteral
    exact isLiteral
  · rw [source]
    rfl
  · intro position
    rw [source]
    rfl

theorem Scan.restates {text : String} (noErrors : (ofText text).errors = [])
    (member : token ∈ (ofText text).tokens)
    (isLiteral : token.kind = .value ∨ token.kind = .number) :
    ∃ lexeme, Restates options token lexeme := by
  rcases Literal.ofToken_cases options token with
    ⟨quoted, literal⟩ | ⟨unquoted, negative, rank, number⟩ | ⟨unquoted, same, -⟩
  · exact ⟨_, restates_quoted quoted literal⟩
  · exact ⟨_, restates_number unquoted number⟩
  · have isLiteral' := (TokenKind.isLiteral_iff _).mpr isLiteral
    rcases literal_of_mem noErrors member isLiteral' unquoted with
      ⟨first, word, isWord, noQuote, source, written⟩
    refine ⟨_, restates_word isWord noQuote source isLiteral ?_⟩
    rw [same, written, String.toList_ofList]

end Literals

/-! ## Printed texts -/

def tokensOf (placed : List (Position × Lexeme)) : List Token :=
  placed.map fun (position, lexeme) => lexeme.toToken position

theorem countP_tokensOf (kind : TokenKind) (placed : List (Position × Lexeme)) :
    (tokensOf placed).countP (·.kind == kind) =
      (placed.map Prod.snd).countP (·.kind == kind) := by
  rw [tokensOf, List.countP_map, List.countP_map]
  rfl

/-- A text in which these fields are written. It is cut into the lexemes `found`, and as
long as no field is ambiguous their tokens are derivable, wherever they stand. -/
structure Printed (text : List Char) (fields : List FieldPath)
    (Derivable : List Token → Prop) (found : List Lexeme) : Prop where
  cuts : ∀ more, startsAtBoundary more = true →
    cut true false (text ++ more) = found ++ cut true false more
  closed : ∀ lexeme ∈ found, lexeme.unclosed = none
  keys : found.countP (·.kind == .key) = fields.countP (¬ ·.Ambiguous)
  derivable : (∀ field ∈ fields, ¬ field.Ambiguous) →
    ∀ placed, placed.map Prod.snd = found → Derivable (tokensOf placed)

namespace Printed

variable {text other : List Char} {fields others : List FieldPath}
  {First Second Both : List Token → Prop} {found next : List Lexeme}

theorem append (first : Printed text fields First found)
    (second : Printed other others Second next) (ends : startsAtBoundary other = true)
    (both : ∀ {tokens rest}, First tokens → Second rest → Both (tokens ++ rest)) :
    Printed (text ++ other) (fields ++ others) Both (found ++ next) where
  cuts more boundary := by
    have boundary' : startsAtBoundary (other ++ more) = true := by
      rw [startsAtBoundary_append boundary, ends]
    rw [List.append_assoc, first.cuts _ boundary', second.cuts _ boundary,
      List.append_assoc]
  closed lexeme member := by
    rcases List.mem_append.mp member with member | member
    · exact first.closed lexeme member
    · exact second.closed lexeme member
  keys := by rw [List.countP_append, List.countP_append, first.keys, second.keys]
  derivable distinct placed same := by
    rw [List.forall_mem_append] at distinct
    rcases List.map_eq_append_iff.mp same with ⟨front, back, rfl, frontSame, backSame⟩
    rw [tokensOf, List.map_append]
    exact both (first.derivable distinct.1 front frontSame)
      (second.derivable distinct.2 back backSame)

theorem cons (front : List Char) {lexeme : Lexeme}
    (printed : Printed text fields First found)
    (cut : ∀ more,
      cut true false (front ++ more) = lexeme :: LogQuery.cut true false more)
    (closed : lexeme.unclosed = none) (noKey : lexeme.kind ≠ .key)
    (both : ∀ {position tokens}, First tokens →
      Second (lexeme.toToken position :: tokens)) :
    Printed (front ++ text) fields Second (lexeme :: found) where
  cuts more boundary := by
    rw [List.append_assoc, cut, printed.cuts _ boundary, List.cons_append]
  closed := by
    rw [List.forall_mem_cons]
    exact ⟨closed, printed.closed⟩
  keys := by simp [noKey, printed.keys]
  derivable distinct placed same := by
    rcases List.map_eq_cons_iff.mp same with ⟨⟨position, _⟩, rest, rfl, rfl, remaining⟩
    exact both (printed.derivable distinct rest remaining)

theorem nil (done : First []) : Printed [] [] First [] where
  cuts more _ := rfl
  closed := nofun
  keys := rfl
  derivable _ placed same := by
    rw [List.map_eq_nil_iff.mp same]
    exact done

theorem weaken (printed : Printed text fields First found)
    (weaker : ∀ {tokens}, First tokens → Second tokens) :
    Printed text fields Second found :=
  { printed with
    derivable := fun distinct placed same =>
      weaker (printed.derivable distinct placed same) }

theorem blank (printed : Printed text fields First found) :
    Printed (' ' :: text) fields First found :=
  { printed with
    cuts := fun more boundary => by
      rw [List.cons_append, cut_space rfl, printed.cuts more boundary] }

theorem mark {c : Char} {kind : TokenKind}
    (isMark : (c, kind) ∈ [('(', TokenKind.paren), (')', .paren), ('|', .pipe)])
    (printed : Printed text fields First found)
    (both : ∀ {position tokens}, First tokens →
      Second ((Lexeme.verbatim kind [c]).toToken position :: tokens)) :
    Printed (c :: text) fields Second (.verbatim kind [c] :: found) := by
  refine printed.cons [c] (cut_mark isMark true false) rfl ?_ both
  simp only [List.mem_cons, Prod.mk.injEq, List.not_mem_nil, or_false] at isMark
  rcases isMark with ⟨-, rfl⟩ | ⟨-, rfl⟩ | ⟨-, rfl⟩ <;> simp [Lexeme.verbatim]

end Printed

/-! ## Fields and comparisons -/

def Names (field : FieldPath) (tokens : List Token) : Prop :=
  ∃ key : Token, tokens = [key] ∧ key.kind = .key ∧ FieldPath.read key.text = field

theorem printed_field {field : FieldPath} (proper : ∀ base, field ≠ .nested base []) :
    ∃ found, Printed field.render.toList [field] (Names field) found := by
  rcases field.cut_render with ⟨lexeme, cuts, closed, isKey, text⟩
  refine ⟨[lexeme], cuts, ?_, ?_, ?_⟩
  · simpa using closed
  · by_cases ambiguous : field.Ambiguous
    · have noKey : lexeme.kind ≠ .key := fun key => isKey.mp key ambiguous
      simp [noKey, ambiguous]
    · simp [isKey.mpr ambiguous, ambiguous]
  · intro distinct placed same
    have key := isKey.mpr (distinct field (List.mem_singleton_self field))
    rcases List.map_eq_singleton_iff.mp same with ⟨⟨position, _⟩, rfl, rfl⟩
    refine ⟨_, rfl, key, ?_⟩
    rw [← FieldPath.read_render proper]
    exact congrArg FieldPath.read (text key)

def Compares (options : ParseOptions) (operator : Operator) (literal : Literal)
    (quoted : Bool) (tokens : List Token) : Prop :=
  ∃ sign value : Token, tokens = [sign, value] ∧ sign.kind = .operator ∧
    sign.text = operator.render ∧
    (value.kind = .value ∨ value.kind = .number) ∧
    Literal.ofToken options value = literal ∧
    value.quoted = quoted

theorem printed_literal {options : ParseOptions} {token : Token} {lexeme : Lexeme}
    (operator : Operator) (restates : Restates options token lexeme) :
    Printed (operator.render.toList ++ (Literal.ofToken options token).render.toList) []
      (Compares options operator (.ofToken options token) token.quoted)
      [.verbatim .operator operator.render.toList, lexeme] := by
  refine ⟨?_, ?_, ?_, ?_⟩
  · intro more ends
    rcases restates.starts with ⟨first, rest, written, ordinary⟩
    have stops : ((Literal.ofToken options token).render.toList ++ more).head?.all
        (! isOperatorChar ·) = true := by
      rw [written]
      simp [ordinary]
    rw [List.append_assoc, cut_operator operator stops, restates.cuts more ends]
    rfl
  · simpa [Lexeme.verbatim] using restates.closed
  · rcases restates.kind with kind | kind <;> simp [Lexeme.verbatim, kind]
  · intro _ placed same
    rcases List.map_eq_cons_iff.mp same with ⟨⟨position, _⟩, rest, rfl, rfl, remaining⟩
    rcases List.map_eq_singleton_iff.mp remaining with ⟨⟨position', _⟩, rfl, rfl⟩
    refine ⟨_, _, rfl, rfl, ?_, restates.kind, restates.literal position',
      restates.quoted⟩
    simp [Lexeme.toToken, Lexeme.verbatim]

/-! ## Filters -/

def separator (connective : Connective) : String :=
  " " ++ connective.keyword ++ " "

def keywordLexeme (connective : Connective) : Lexeme :=
  { kind := .boolean, text := connective.keyword, source := connective.keyword.toList }

theorem cut_separator (connective : Connective) (more : List Char) :
    cut true false ((separator connective).toList ++ more) =
      keywordLexeme connective :: cut true false more := by
  have blank : Text.isSpace ' ' = true := rfl
  have ends : startsAtBoundary (' ' :: more) = true := rfl
  have read : ∃ first word, connective.keyword.toList = first :: word ∧
      (first :: word).all (fun c => !isBoundary c && !Text.isQuote c) = true ∧
      Lexeme.read true false first word = keywordLexeme connective := by
    cases connective <;> exact ⟨_, _, rfl, by decide +kernel⟩
  rcases read with ⟨first, word, written, chars, read⟩
  have isWord : Lexeme.IsWord (first :: word) :=
    Lexeme.isWord_of_chars fun c member => by
      simpa using List.all_eq_true.mp chars c member
  have text :
      (separator connective).toList ++ more =
        ' ' :: first :: (word ++ ' ' :: more) := by
    simp [separator, written]
  rw [text, cut_space blank, cut_word false isWord (Bool.and_false _) ends, read,
    cut_space blank]

theorem renderChildren_eq_map {connective : Connective} {filters : List Filter}
    (bare : ∀ filter ∈ filters, Filter.needsParens connective filter = false) :
    Filter.renderChildren connective filters = filters.map Filter.render := by
  induction filters with
  | nil => rfl
  | cons filter filters induction =>
      rw [List.forall_mem_cons] at bare
      rw [Filter.renderChildren, if_neg (by simp [bare.1]), induction bare.2,
        List.map_cons]

theorem render_fold {connective : Connective} {filters : List Filter}
    (nonempty : filters ≠ [])
    (bare : ∀ filter ∈ filters, Filter.needsParens connective filter = false) :
    (Grammar.fold connective filters).render =
      (separator connective).intercalate (filters.map Filter.render) := by
  cases filters with
  | nil => exact absurd rfl nonempty
  | cons first others =>
      cases others with
      | nil => rw [List.map_singleton, String.intercalate_singleton, Grammar.fold]
      | cons second rest =>
          rw [Grammar.fold, Filter.render, renderChildren_eq_map bare, separator]
          simp

theorem render_fold_cons {connective : Connective} {filter : Filter}
    {filters : List Filter} (nonempty : filters ≠ [])
    (bare : ∀ member ∈ filter :: filters,
      Filter.needsParens connective member = false) :
    (Grammar.fold connective (filter :: filters)).render.toList =
      filter.render.toList ++
        ((separator connective).toList ++
          (Grammar.fold connective filters).render.toList) := by
  rw [render_fold (List.cons_ne_nil _ _) bare,
    render_fold nonempty (List.forall_mem_cons.mp bare).2]
  cases filters with
  | nil => exact absurd rfl nonempty
  | cons second rest =>
      rw [List.map_cons, List.map_cons, String.intercalate_cons_cons,
        String.toList_append, String.toList_append, List.append_assoc]

theorem Printed.join {connective : Connective} {filter : Filter} {filters : List Filter}
    {fields others : List FieldPath} {First Second Both : List Token → Prop}
    {found next : List Lexeme} (first : Printed filter.render.toList fields First found)
    (second :
      Printed (Grammar.fold connective filters).render.toList others Second next)
    (nonempty : filters ≠ [])
    (bare : ∀ member ∈ filter :: filters, Filter.needsParens connective member = false)
    (both : ∀ {tokens token rest}, First tokens → Grammar.Joins connective token →
      Second rest → Both (tokens ++ token :: rest)) :
    Printed (Grammar.fold connective (filter :: filters)).render.toList
      (fields ++ others) Both (found ++ keywordLexeme connective :: next) := by
  have lower :=
    (Connective.ofKeyword?_eq_some_iff _ _).mp
      (Connective.ofKeyword?_keyword connective)
  have after : Printed
      ((separator connective).toList ++ (Grammar.fold connective filters).render.toList)
      others
      (fun tokens => ∃ token rest, tokens = token :: rest ∧
        Grammar.Joins connective token ∧ Second rest)
      (keywordLexeme connective :: next) :=
    second.cons _ (cut_separator connective) rfl nofun fun derivable =>
      ⟨_, _, rfl, ⟨rfl, lower⟩, derivable⟩
  rw [render_fold_cons nonempty bare]
  refine first.append after ?_ ?_
  · cases connective <;> rfl
  · rintro tokens _ derivable ⟨token, rest, rfl, joins, others⟩
    exact both derivable joins others

namespace Grammar

section Filters

variable {options : ParseOptions}

theorem Term.needsParens {depth : Nat} {tokens : List Token} {filter : Filter}
    (term : Term options depth tokens filter) (connective : Connective) :
    Filter.needsParens connective filter = false := by
  cases term <;> rfl

theorem Terms.needsParens {connective : Connective} {depth : Nat} {tokens : List Token}
    {filters : List Filter} (terms : Terms options depth tokens filters) :
    ∀ filter ∈ filters, Filter.needsParens connective filter = false :=
  terms.each fun term => term.needsParens connective

theorem needsParens_or (filter : Filter) : Filter.needsParens .or filter = false := by
  cases filter <;> rfl

def Restatable (options : ParseOptions) (tokens : List Token) : Prop :=
  ∀ token ∈ tokens, token.kind = .value ∨ token.kind = .number →
    ∃ lexeme, Restates options token lexeme

theorem Restatable.subset {tokens some : List Token}
    (restatable : Restatable options tokens) (subset : some ⊆ tokens) :
    Restatable options some :=
  fun token member => restatable token (subset member)

theorem printed_comparison (comparison : Comparison) {value : Token} {lexeme : Lexeme}
    (proper : ∀ base, comparison.field ≠ .nested base [])
    (restates : Restates options value lexeme)
    (literal : Literal.ofToken options value = comparison.literal)
    (quoted : value.quoted = comparison.quoted) :
    ∃ found, Printed (Filter.comparison comparison).render.toList [comparison.field]
      (fun tokens => ∀ depth, Term options depth tokens (.comparison comparison))
      found := by
  rcases printed_field proper with ⟨found, name⟩
  refine ⟨found ++ [.verbatim .operator comparison.operator.render.toList, lexeme], ?_⟩
  rw [Filter.render, Comparison.render, String.toList_append, String.toList_append,
    List.append_assoc, ← literal]
  refine name.append (printed_literal comparison.operator restates)
    (comparison.operator.startsAtBoundary_render _) ?_
  rintro _ _ ⟨again, rfl, isKey, field⟩
    ⟨sign, other, rfl, isOperator, known, isLiteral, same, otherQuoted⟩ depth
  have term : Term options depth [again, sign, other] _ :=
    .comparison isKey isOperator known isLiteral
  rwa [field, same, otherQuoted, literal, quoted] at term

theorem printed_group {filter : Filter} {fields : List FieldPath} {found : List Lexeme}
    {Inner : List Token → Prop}
    (inner : Printed filter.render.toList fields Inner found) :
    ∃ found, Printed (Filter.group filter).render.toList fields
      (fun tokens => ∃ opening inside closing,
        tokens = opening :: (inside ++ [closing]) ∧
        opening.isParen '(' = true ∧ closing.isParen ')' = true ∧ Inner inside)
      found := by
  have empty : Printed [] [] (· = []) [] := .nil rfl
  have closing : Printed [')'] [] (fun tokens => ∃ token : Token, tokens = [token] ∧
      token.isParen ')' = true) [.verbatim .paren [')']] := by
    refine empty.mark (by simp) ?_
    rintro position _ rfl
    exact ⟨_, rfl, by simp [Token.isParen, Lexeme.toToken, Lexeme.verbatim]⟩
  have closed : Printed (filter.render.toList ++ [')']) (fields ++ [])
      (fun tokens => ∃ inside closing, tokens = inside ++ [closing] ∧
        closing.isParen ')' = true ∧ Inner inside)
      (found ++ [.verbatim .paren [')']]) := by
    refine inner.append closing rfl ?_
    rintro inside _ holds ⟨token, rfl, closes⟩
    exact ⟨inside, token, rfl, closes, holds⟩
  rw [List.append_nil] at closed
  have text :
      (Filter.group filter).render.toList = '(' :: (filter.render.toList ++ [')']) := by
    simp [Filter.render]
  rw [text]
  refine ⟨.verbatim .paren ['('] :: (found ++ [.verbatim .paren [')']]),
    closed.mark (by simp) ?_⟩
  rintro position _ ⟨inside, token, rfl, closes, holds⟩
  exact ⟨_, inside, token, rfl,
    by simp [Token.isParen, Lexeme.toToken, Lexeme.verbatim], closes, holds⟩

mutual

theorem Term.printed : ∀ {depth : Nat} {tokens : List Token} {filter : Filter},
    Term options depth tokens filter → Restatable options tokens →
    ∃ found, Printed filter.render.toList (filter.comparisons.map (·.field))
      (Term options depth · filter) found
  | depth, _, _, @Term.comparison _ _ key _ value operator _ _ _ isLiteral,
      restatable => by
      rcases restatable value (by simp) isLiteral with ⟨lexeme, restates⟩
      let comparison : Comparison :=
        { field := .read key.text
          operator
          literal := .ofToken options value
          quoted := value.quoted }
      rcases printed_comparison comparison (FieldPath.read_ne_nested_nil key.text)
        restates rfl rfl with ⟨found, printed⟩
      exact ⟨found, printed.weaken fun term => term depth⟩
  | _, _, _, .group _ _ inner, restatable => by
      rcases inner.printed (restatable.subset (by simp)) with ⟨found, printed⟩
      rw [Filter.comparisons, comparisons_fold]
      rcases printed_group printed with ⟨whole, enclosed⟩
      refine ⟨whole, enclosed.weaken ?_⟩
      rintro _ ⟨opening, inside, closing, rfl, opens, closes, alternatives⟩
      exact .group opens closes alternatives

theorem Terms.printed : ∀ {depth : Nat} {tokens : List Token} {filters : List Filter},
    Terms options depth tokens filters → Restatable options tokens →
    ∃ found, Printed (fold .and filters).render.toList
      ((filters.flatMap Filter.comparisons).map (·.field))
      (Terms options depth · filters) found
  | _, _, _, .one term, restatable => by
      rcases term.printed restatable with ⟨found, printed⟩
      rw [List.flatMap_singleton]
      exact ⟨found, printed.weaken .one⟩
  | _, _, _, .more term joins terms, restatable => by
      rcases term.printed (restatable.subset (by simp)) with ⟨found, first⟩
      rcases terms.printed (restatable.subset (by simp)) with ⟨next, second⟩
      rw [List.flatMap_cons, List.map_append]
      exact ⟨_, first.join second terms.filters_ne_nil
        (Terms.more term joins terms).needsParens .more⟩

theorem Alternatives.printed :
    ∀ {depth : Nat} {tokens : List Token} {filters : List Filter},
    Alternatives options depth tokens filters → Restatable options tokens →
    ∃ found, Printed (fold .or filters).render.toList
      ((filters.flatMap Filter.comparisons).map (·.field))
      (Alternatives options depth · filters) found
  | _, _, _, .one terms, restatable => by
      rcases terms.printed restatable with ⟨found, printed⟩
      rw [List.flatMap_singleton, comparisons_fold]
      exact ⟨found, printed.weaken .one⟩
  | _, _, _, .more terms joins others, restatable => by
      rcases terms.printed (restatable.subset (by simp)) with ⟨found, first⟩
      rcases others.printed (restatable.subset (by simp)) with ⟨next, second⟩
      rw [List.flatMap_cons, List.map_append, comparisons_fold]
      exact ⟨_, first.join second others.filters_ne_nil
        (fun filter _ => needsParens_or filter) .more⟩

end

end Filters

/-! ## Queries -/

def blankFields (fields : List FieldPath) : List Char :=
  fields.flatMap fun field => ' ' :: field.render.toList

theorem toList_renderProjection (fields : List FieldPath) :
    (Query.renderProjection fields).toList = '|' :: blankFields fields := by
  rw [Query.renderProjection, String.toList_append, blankFields]
  simp [List.flatMap_map]

theorem startsAtBoundary_blankFields (fields : List FieldPath) :
    startsAtBoundary (blankFields fields) = true := by
  cases fields <;> rfl

theorem printed_fields {fields : List FieldPath}
    (proper : ∀ field ∈ fields, ∀ base, field ≠ .nested base []) :
    ∃ found, Printed (blankFields fields) fields
      (fun names => (∀ name ∈ names, name.kind = .key) ∧
        names.map (fun name => FieldPath.read name.text) = fields) found := by
  induction fields with
  | nil => exact ⟨[], .nil ⟨nofun, rfl⟩⟩
  | cons field fields induction =>
      rw [List.forall_mem_cons] at proper
      rcases printed_field proper.1 with ⟨found, first⟩
      rcases induction proper.2 with ⟨next, others⟩
      refine ⟨found ++ next,
        first.blank.append others (startsAtBoundary_blankFields fields) ?_⟩
      rintro _ names ⟨key, rfl, isKey, same⟩ ⟨areKeys, sames⟩
      refine ⟨?_, ?_⟩
      · rw [List.singleton_append, List.forall_mem_cons]
        exact ⟨isKey, areKeys⟩
      · rw [List.singleton_append, List.map_cons, same, sames]

theorem printed_projection {fields : List FieldPath} (nonempty : fields ≠ [])
    (proper : ∀ field ∈ fields, ∀ base, field ≠ .nested base []) :
    ∃ found,
      Printed ('|' :: blankFields fields) fields (ProjectionPart · fields) found := by
  rcases printed_fields proper with ⟨found, printed⟩
  refine ⟨.verbatim .pipe ['|'] :: found, printed.mark (by simp) ?_⟩
  rintro position names ⟨areKeys, rfl⟩
  exact .present rfl (by simpa using nonempty) areKeys

theorem printed_filter {options : ParseOptions} {tokens : List Token}
    {filter : Option Filter} (part : FilterPart options tokens filter)
    (restatable : Restatable options tokens) :
    ∃ found, Printed ((filter.map Filter.render).getD "").toList
      ((filter.toList.flatMap Filter.comparisons).map (·.field))
      (FilterPart options · filter) found := by
  cases part with
  | absent => exact ⟨[], .nil .absent⟩
  | present alternatives =>
      rcases alternatives.printed restatable with ⟨found, printed⟩
      rw [Option.toList_some, List.flatMap_singleton, comparisons_fold]
      exact ⟨found, printed.weaken .present⟩

theorem Derives.printed {options : ParseOptions} {tokens : List Token} {query : Query}
    (derives : Derives options tokens query) (restatable : Restatable options tokens) :
    ∃ found,
      Printed query.render.toList query.fields (Derives options · query) found := by
  have proper := derives.regular.2
  cases derives with
  | @query front back filter projection filterPart _ =>
      rcases printed_filter filterPart (restatable.subset (by simp)) with ⟨found, first⟩
      cases projection with
      | nil =>
          have text : Query.render { filter, projection := [] } =
              (filter.map Filter.render).getD "" := by
            cases filter <;> rfl
          rw [text, Query.fields, List.append_nil]
          exact ⟨found,
            first.weaken fun part => by simpa using Derives.query part .absent⟩
      | cons field fields =>
          rcases printed_projection (List.cons_ne_nil field fields) proper with
            ⟨next, second⟩
          cases filter with
          | none =>
              rw [Query.render, toList_renderProjection]
              exact ⟨next, second.weaken (.query .absent)⟩
          | some filter =>
              rw [Query.render, String.toList_append, String.toList_append,
                toList_renderProjection, List.append_assoc]
              exact ⟨found ++ next, first.append second.blank rfl .query⟩

end Grammar

/-- What is written for a query that was read from a text is read as the same query, if
and only if no field in it is written like a keyword or like a numeral. -/
theorem Query.parseWith_render_iff {options : ParseOptions} {text : String}
    {query : Query} (parsed : parseWith options text = .ok query) :
    parseWith options query.render = .ok query ↔
      ∀ field ∈ query.fields, ¬ field.Ambiguous := by
  rcases (parseWith_eq_ok_iff _ _ _).mp parsed with ⟨noErrors, -, derives⟩
  rcases derives.printed fun token member => Scan.restates noErrors member with
    ⟨found, printed⟩
  have cuts : cut true false query.render.toList = found := by
    have cuts := printed.cuts [] rfl
    rwa [List.append_nil, cut_nil, List.append_nil] at cuts
  have tokens : (Scan.ofText query.render).tokens =
      tokensOf (lexemes .start true false query.render.toList) := rfl
  rw [parseWith_eq_ok_iff, Scan.errors_eq_nil_iff, cuts, tokens]
  constructor
  · -- A derivation takes one key for every field, and ambiguous fields are not
    -- written as keys.
    rintro ⟨-, -, again⟩
    have keys := congrArg List.length again.keyFields_eq
    rw [Grammar.keyFields, List.length_map, ← List.countP_eq_length_filter,
      countP_tokensOf, map_snd_lexemes, cuts, printed.keys, List.countP_eq_length]
      at keys
    simpa using keys
  · intro distinct
    have again := printed.derivable distinct _ cuts
    exact ⟨printed.closed, Grammar.missingConnective?_eq_none again.chain, again⟩

def wovenQuery : Query :=
  { filter := some (.logical .and
      [.group (.logical .or
        [.comparison
          { field := .name "level", operator := .equal, literal := .text "a\"b",
            quoted := true },
         .comparison
          { field := .nested "and" ["na me", ""], operator := .notContains,
            literal := .word "x\"a b\"y", quoted := false }]),
       .comparison
        { field := .name "dur", operator := .greaterOrEqual,
          literal := .number (.ofRank false 4652007308841189376), quoted := false }])
    projection := [.nested "5" ["6", "7"], .name "a b"] }

def shadowedQuery : Query :=
  { filter := some (.comparison
      { field := .name "Or", operator := .equal, literal := .null, quoted := false })
    projection := [] }

theorem Query.parseWith_render_iff_woven :
    (parseWith { numericWords := true }
        "(level='a\"b' or and.'na me'.''!~x\"a b\"y) and dur >= 1e3|5.6.7 \"a b\"" =
          .ok wovenQuery ∧
      parseWith { numericWords := true } wovenQuery.render = .ok wovenQuery) ∧
    (parseWith {} "'Or'=null" = .ok shadowedQuery ∧
      parseWith {} shadowedQuery.render ≠ .ok shadowedQuery) := by
  have woven : parseWith { numericWords := true }
      "(level='a\"b' or and.'na me'.''!~x\"a b\"y) and dur >= 1e3|5.6.7 \"a b\"" =
        .ok wovenQuery := by
    decide +kernel
  have shadowed : parseWith {} "'Or'=null" = .ok shadowedQuery := by decide +kernel
  refine ⟨⟨woven, (parseWith_render_iff woven).mpr (by decide +kernel)⟩, shadowed,
    fun same => ?_⟩
  exact absurd ((parseWith_render_iff shadowed).mp same) (by decide +kernel)

end LogQuery
