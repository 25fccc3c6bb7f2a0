import LogQuery.LogsQl.Filter
import LogQuery.Proofs.Printing
import LogQuery.Sql.Filter

/-!
What is written for a filter that was put together from parts is read as that filter.
Such a filter may have an `or` directly under an `and`, which no text has. There the
text has parentheses, and they come back as a group. A group leaves no trace in what a
filter is compiled to.
-/

namespace LogQuery

/-! ## Parentheses as groups -/

namespace Filter

def under : Connective → Filter → Filter
  | .and, logical .or children => group (logical .or children)
  | _, other => other

mutual

/-- The filter with a group around every `or` that stands directly under an `and`. -/
def explicit : Filter → Filter
  | comparison value => comparison value
  | group inner => group inner.explicit
  | logical connective children =>
      logical connective (explicitUnder connective children)

def explicitUnder (connective : Connective) : List Filter → List Filter
  | [] => []
  | child :: rest => child.explicit.under connective :: explicitUnder connective rest

end

theorem explicitUnder_eq_map (connective : Connective) (filters : List Filter) :
    explicitUnder connective filters =
      filters.map fun child => child.explicit.under connective := by
  induction filters with
  | nil => rfl
  | cons child rest induction => rw [explicitUnder, induction, List.map_cons]

theorem under_eq (connective : Connective) (filter : Filter) :
    filter.under connective =
      if needsParens connective filter then group filter else filter := by
  cases filter with
  | comparison value => cases connective <;> rfl
  | group inner => cases connective <;> rfl
  | logical inner children => cases connective <;> cases inner <;> rfl

theorem needsParens_under (connective : Connective) (filter : Filter) :
    needsParens connective (filter.under connective) = false := by
  rw [under_eq]
  split
  · rfl
  · next bare => simpa using bare

theorem comparisons_under (connective : Connective) (filter : Filter) :
    (filter.under connective).comparisons = filter.comparisons := by
  rw [under_eq]
  split <;> rfl

theorem needsParens_explicit (connective : Connective) (filter : Filter) :
    needsParens connective filter.explicit = needsParens connective filter := by
  cases filter <;> rfl

mutual

theorem render_explicit : ∀ filter : Filter, filter.explicit.render = filter.render
  | comparison _ => rfl
  | group inner => by rw [explicit, render, render, render_explicit inner]
  | logical connective children => by
      rw [explicit, render, render, renderChildren_explicitUnder connective children]

theorem renderChildren_explicitUnder (connective : Connective) :
    ∀ filters : List Filter,
    renderChildren connective (explicitUnder connective filters) =
      renderChildren connective filters
  | [] => rfl
  | child :: rest => by
      rw [explicitUnder, renderChildren, renderChildren, needsParens_under,
        if_neg Bool.false_ne_true, under_eq, needsParens_explicit,
        ← render_explicit child, renderChildren_explicitUnder connective rest]
      split <;> rfl

end

mutual

theorem comparisons_explicit :
    ∀ filter : Filter, filter.explicit.comparisons = filter.comparisons
  | comparison _ => rfl
  | group inner => comparisons_explicit inner
  | logical connective children => comparisonsOf_explicitUnder connective children

theorem comparisonsOf_explicitUnder (connective : Connective) : ∀ filters : List Filter,
    comparisonsOf (explicitUnder connective filters) = comparisonsOf filters
  | [] => rfl
  | child :: rest => by
      rw [explicitUnder, comparisonsOf, comparisonsOf, comparisons_under,
        comparisons_explicit child, comparisonsOf_explicitUnder connective rest]

end

end Filter

/-! ## Groups in what a filter is compiled to -/

theorem Sql.renderFilter_under (schema : Option Schema) (connective : Connective)
    (filter : Filter) :
    renderFilter schema (filter.under connective) = renderFilter schema filter := by
  rw [Filter.under_eq]
  split <;> rfl

theorem LogsQl.renderFilter_under (connective : Connective) (filter : Filter) :
    renderFilter (filter.under connective) = renderFilter filter := by
  rw [Filter.under_eq]
  split <;> rfl

mutual

theorem Sql.renderFilter_explicit (schema : Option Schema) :
    ∀ filter : Filter, renderFilter schema filter.explicit = renderFilter schema filter
  | .comparison _ => rfl
  | .group inner => Sql.renderFilter_explicit schema inner
  | .logical connective children => by
      rw [Filter.explicit, renderFilter, renderFilter,
        Sql.renderOperands_explicitUnder schema connective children]

theorem Sql.renderOperands_explicitUnder (schema : Option Schema)
    (connective : Connective) :
    ∀ filters : List Filter,
      renderOperands schema (Filter.explicitUnder connective filters) =
        renderOperands schema filters
  | [] => rfl
  | child :: rest => by
      rw [Filter.explicitUnder, renderOperands, renderOperands, Sql.renderFilter_under,
        Sql.renderFilter_explicit schema child,
        Sql.renderOperands_explicitUnder schema connective rest]

end

mutual

theorem LogsQl.renderFilter_explicit :
    ∀ filter : Filter, renderFilter filter.explicit = renderFilter filter
  | .comparison _ => rfl
  | .group inner => LogsQl.renderFilter_explicit inner
  | .logical connective children => by
      have operands := LogsQl.renderOperands_explicitUnder connective children
      cases connective <;> rw [Filter.explicit, renderFilter, renderFilter, operands]

theorem LogsQl.renderOperands_explicitUnder (connective : Connective) :
    ∀ filters : List Filter,
    renderOperands (Filter.explicitUnder connective filters) = renderOperands filters
  | [] => rfl
  | child :: rest => by
      rw [Filter.explicitUnder, renderOperands, renderOperands,
        LogsQl.renderFilter_under, LogsQl.renderFilter_explicit child,
        LogsQl.renderOperands_explicitUnder connective rest]

end

/-! ## Literals -/

def Literal.isWritable : Literal → Bool
  | text _ => true
  | number value => value.isFinite
  | boolean _ => true
  | null => true
  | word _ => false

/-- A comparison that can be put in a text: its field is not written like a keyword or a
numeral, and its value counts as quoted if it is a string. -/
structure Comparison.Writable (comparison : Comparison) : Prop where
  proper : comparison.field.isNested = true → comparison.field.path ≠ []
  distinct : ¬ comparison.field.Ambiguous
  literal : comparison.literal.isWritable = true
  quoted : comparison.quoted = comparison.literal.isText

instance (comparison : Comparison) : Decidable comparison.Writable :=
  decidable_of_iff
    ((comparison.field.isNested = true → comparison.field.path ≠ []) ∧
      ¬ comparison.field.Ambiguous ∧
      comparison.literal.isWritable = true ∧
      comparison.quoted = comparison.literal.isText)
    ⟨fun ⟨proper, distinct, literal, quoted⟩ => ⟨proper, distinct, literal, quoted⟩,
      fun writable =>
        ⟨writable.proper, writable.distinct, writable.literal, writable.quoted⟩⟩

theorem Comparison.Writable.field_ne {comparison : Comparison}
    (writable : comparison.Writable) (base : String) :
    comparison.field ≠ .nested base [] := by
  intro same
  have proper := writable.proper
  rw [same] at proper
  exact proper rfl rfl

def wordToken (text : String) : Token :=
  { kind := .value, text, position := .start }

theorem restates_fixed (options : ParseOptions) (text : String)
    (word : text ∈ ["true", "false", "null"]) :
    ∃ lexeme, Restates options (wordToken text) lexeme := by
  have written : (Literal.ofToken options (wordToken text)).render = text := by
    simp only [List.mem_cons, List.not_mem_nil, or_false] at word
    rcases word with rfl | rfl | rfl <;> rfl
  have read : ∃ first rest, text.toList = first :: rest ∧ Text.isQuote first = false ∧
      (first :: rest).all (fun c => !isBoundary c && !Text.isQuote c) = true ∧
      wordToken text = (Lexeme.read true true first rest).toToken .start := by
    simp only [List.mem_cons, List.not_mem_nil, or_false] at word
    rcases word with rfl | rfl | rfl <;> exact ⟨_, _, rfl, rfl, by decide +kernel⟩
  rcases read with ⟨first, rest, characters, noQuote, inside, read⟩
  have isWord : Lexeme.IsWord (first :: rest) :=
    Lexeme.isWord_of_chars fun c member => by
      simpa using List.all_eq_true.mp inside c member
  exact ⟨_, restates_word isWord noQuote read (.inl rfl) (by rw [written, characters])⟩

theorem Comparison.Writable.restates {comparison : Comparison}
    (writable : comparison.Writable) (options : ParseOptions) :
    ∃ token lexeme, Restates options token lexeme ∧
      Literal.ofToken options token = comparison.literal ∧
      token.quoted = comparison.quoted := by
  have isWritable := writable.literal
  rw [writable.quoted]
  cases literal : comparison.literal with
  | text contents =>
      let token : Token :=
        { kind := .value, text := contents, position := .start, quoted := true }
      have same : Literal.ofToken options token = .text contents := rfl
      exact ⟨token, _, restates_quoted rfl same, same, rfl⟩
  | number value =>
      cases value with
      | finite negative rank =>
          let token : Token :=
            { kind := .number, text := Double.render (.finite negative rank),
              position := .start }
          have same :
              Literal.ofToken options token = .number (.finite negative rank) := by
            simp [token, Literal.ofToken, finiteNumber?_render]
          exact ⟨token, _, restates_number rfl same, same, rfl⟩
      | infinite negative =>
          rw [literal] at isWritable
          cases isWritable
      | nan =>
          rw [literal] at isWritable
          cases isWritable
  | boolean value =>
      cases value with
      | true =>
          rcases restates_fixed options "true" (by simp) with ⟨lexeme, restates⟩
          exact ⟨_, lexeme, restates, rfl, rfl⟩
      | false =>
          rcases restates_fixed options "false" (by simp) with ⟨lexeme, restates⟩
          exact ⟨_, lexeme, restates, rfl, rfl⟩
  | null =>
      rcases restates_fixed options "null" (by simp) with ⟨lexeme, restates⟩
      exact ⟨_, lexeme, restates, rfl, rfl⟩
  | word text =>
      rw [literal] at isWritable
      cases isWritable

/-! ## Nesting -/

namespace Grammar

/-- At no place more than `limit` parentheses are open. -/
def NestsWithin (limit : Nat) (tokens : List Token) : Prop :=
  ∀ front, front <+: tokens →
    front.countP (·.isParen '(') ≤ limit + front.countP (·.isParen ')')

theorem nestsWithin_of_length {limit : Nat} {tokens : List Token}
    (short : tokens.length ≤ limit) : NestsWithin limit tokens := by
  intro front isFront
  have opened : front.countP (·.isParen '(') ≤ front.length := List.countP_le_length
  have length := isFront.length_le
  omega

theorem NestsWithin.left {limit : Nat} {first second : List Token}
    (nests : NestsWithin limit (first ++ second)) : NestsWithin limit first :=
  fun front isFront => nests front (isFront.trans (List.prefix_append first second))

/-- Tokens that close what they open, and that are derivable within any depth they keep
to. -/
structure Derivable (Derives : Nat → List Token → Prop) (tokens : List Token) :
    Prop where
  balanced : tokens.countP (·.isParen '(') = tokens.countP (·.isParen ')')
  derives : ∀ depth, NestsWithin depth tokens → Derives depth tokens

theorem NestsWithin.right {limit : Nat} {first second : List Token}
    (balanced : first.countP (·.isParen '(') = first.countP (·.isParen ')'))
    (nests : NestsWithin limit (first ++ second)) : NestsWithin limit second := by
  intro front isFront
  have whole :=
    nests (first ++ front) ((List.prefix_append_right_inj first).mpr isFront)
  rw [List.countP_append, List.countP_append] at whole
  omega

theorem not_isParen {token : Token} (other : token.kind ≠ .paren) (paren : Char) :
    token.isParen paren = false := by
  simp [Token.isParen, other]

namespace Derivable

variable {First Second Both : Nat → List Token → Prop} {tokens rest : List Token}
  {token : Token}

theorem weaken (derivable : Derivable First tokens)
    (weaker : ∀ {depth}, First depth tokens → Second depth tokens) :
    Derivable Second tokens :=
  ⟨derivable.balanced, fun depth nests => weaker (derivable.derives depth nests)⟩

theorem join (first : Derivable First tokens) (isBoolean : token.kind = .boolean)
    (second : Derivable Second rest)
    (both : ∀ {depth}, First depth tokens → Second depth rest →
      Both depth (tokens ++ token :: rest)) :
    Derivable Both (tokens ++ token :: rest) := by
  have noParen (paren : Char) : token.isParen paren = false :=
    not_isParen (by simp [isBoolean]) paren
  have front : (tokens ++ [token]).countP (·.isParen '(') =
      (tokens ++ [token]).countP (·.isParen ')') := by
    simp [noParen, first.balanced]
  refine ⟨by simp [noParen, first.balanced, second.balanced], fun depth nests => ?_⟩
  refine both (first.derives depth nests.left) (second.derives depth ?_)
  rw [List.append_cons] at nests
  exact nests.right front

theorem enclose {opening closing : Token} (inner : Derivable First tokens)
    (opens : opening.isParen '(' = true) (closes : closing.isParen ')' = true)
    (both : ∀ {depth}, First depth tokens →
      Both (depth + 1) (opening :: (tokens ++ [closing]))) :
    Derivable Both (opening :: (tokens ++ [closing])) := by
  have opensOnly : opening.isParen ')' = false := by
    simp only [Token.isParen, Bool.and_eq_true, beq_iff_eq] at opens
    simp [Token.isParen, opens.2]
  have closesOnly : closing.isParen '(' = false := by
    simp only [Token.isParen, Bool.and_eq_true, beq_iff_eq] at closes
    simp [Token.isParen, closes.2]
  refine ⟨by simp [opens, closes, opensOnly, closesOnly, inner.balanced],
    fun depth nests => ?_⟩
  have first := nests [opening] (by simp)
  simp only [List.countP_singleton, opens, opensOnly, if_true, Bool.false_eq_true,
    if_false] at first
  cases depth with
  | zero => exact absurd first (by decide)
  | succ depth =>
      refine both (inner.derives depth fun front isFront => ?_)
      -- Behind the opening parenthesis there is room for one less.
      have inside : opening :: front <+: opening :: (tokens ++ [closing]) :=
        List.cons_prefix_cons.mpr
          ⟨rfl, isFront.trans (List.prefix_append tokens [closing])⟩
      have whole := nests (opening :: front) inside
      simp only [List.countP_cons, opens, opensOnly, if_true, Bool.false_eq_true,
        if_false] at whole
      omega

end Derivable

/-! ## Chains -/

def fieldsOf (filter : Filter) : List FieldPath :=
  filter.comparisons.map (·.field)

section Chains

variable {options : ParseOptions}

def Shown (Derives : Nat → List Token → Prop) (filter : Filter) : Prop :=
  ∃ found, Printed filter.render.toList (fieldsOf filter) (Derivable Derives) found

theorem fieldsOf_fold (connective : Connective) (filter : Filter)
    (filters : List Filter) :
    fieldsOf (fold connective (filter :: filters)) =
      fieldsOf filter ++ fieldsOf (fold connective filters) := by
  simp [fieldsOf, comparisons_fold]

theorem shown_terms {filters : List Filter} (nonempty : filters ≠ [])
    (bare : ∀ filter ∈ filters, Filter.needsParens .and filter = false)
    (each : ∀ filter ∈ filters, Shown (Term options · · filter) filter) :
    Shown (Terms options · · filters) (fold .and filters) := by
  induction filters with
  | nil => exact absurd rfl nonempty
  | cons filter filters induction =>
      rw [List.forall_mem_cons] at each
      rcases each.1 with ⟨found, first⟩
      cases filters with
      | nil => exact ⟨found, first.weaken fun derivable => derivable.weaken .one⟩
      | cons second rest =>
          rcases induction (List.cons_ne_nil second rest)
            (List.forall_mem_cons.mp bare).2 each.2 with ⟨next, others⟩
          rw [Shown, fieldsOf_fold]
          refine ⟨_, first.join others (List.cons_ne_nil second rest) bare ?_⟩
          intro tokens token rest derivable joins remaining
          exact derivable.join joins.1 remaining fun term terms =>
            .more term joins terms

def IsAlternative (options : ParseOptions) (filter : Filter) : Prop :=
  ∃ filters, fold .and filters = filter ∧ Shown (Terms options · · filters) filter

theorem shown_alternatives {filters : List Filter} (nonempty : filters ≠ [])
    (each : ∀ filter ∈ filters, IsAlternative options filter) :
    Shown (Alternatives options · · filters) (fold .or filters) := by
  induction filters with
  | nil => exact absurd rfl nonempty
  | cons filter filters induction =>
      rw [List.forall_mem_cons] at each
      rcases each.1 with ⟨terms, rfl, found, first⟩
      cases filters with
      | nil => exact ⟨found, first.weaken fun derivable => derivable.weaken .one⟩
      | cons second rest =>
          rcases induction (List.cons_ne_nil second rest) each.2 with ⟨next, others⟩
          rw [Shown, fieldsOf_fold]
          refine ⟨_, first.join others (List.cons_ne_nil second rest)
            (fun member _ => needsParens_or member) ?_⟩
          intro tokens token rest derivable joins remaining
          exact derivable.join joins.1 remaining fun terms others =>
            .more terms joins others

theorem shown_group {filters : List Filter}
    (inner : Shown (Alternatives options · · filters) (fold .or filters)) :
    Shown (Term options · · (.group (fold .or filters)))
      (.group (fold .or filters)) := by
  rcases inner with ⟨_, printed⟩
  rcases printed_group printed with ⟨found, enclosed⟩
  refine ⟨found, enclosed.weaken ?_⟩
  rintro _ ⟨opening, inside, closing, rfl, opens, closes, derivable⟩
  exact derivable.enclose opens closes (.group opens closes)

theorem Term.countP_isParen {depth : Nat} {tokens : List Token}
    {comparison : Comparison}
    (term : Term options depth tokens (.comparison comparison)) (paren : Char) :
    tokens.countP (·.isParen paren) = 0 := by
  cases term with
  | comparison isKey isOperator known isLiteral =>
      rcases isLiteral with value | number
      · simp [Token.isParen, isKey, isOperator, value]
      · simp [Token.isParen, isKey, isOperator, number]

theorem shown_comparison {comparison : Comparison} (writable : comparison.Writable) :
    Shown (Term options · · (.comparison comparison)) (.comparison comparison) := by
  rcases writable.restates options with ⟨token, lexeme, restates, literal, quoted⟩
  rcases printed_comparison comparison writable.field_ne restates literal quoted with
    ⟨found, printed⟩
  refine ⟨found, printed.weaken fun term => ⟨?_, fun depth _ => term depth⟩⟩
  rw [(term 0).countP_isParen, (term 0).countP_isParen]

end Chains

/-! ## Filters -/

/-- What the text of a filter is read as, according to where the filter stands. -/
structure Legible (options : ParseOptions) (filter : Filter) : Prop where
  term : filter.operands .and = [filter] →
    Shown (Term options · · (filter.explicit.under .and)) (filter.explicit.under .and)
  alternative : filter.operands .or = [filter] → IsAlternative options filter.explicit
  whole : ∃ filters, fold .or filters = filter.explicit ∧
    Shown (Alternatives options · · filters) filter.explicit

section Filters

variable {options : ParseOptions}

theorem IsAlternative.whole {filter : Filter}
    (alternative : IsAlternative options filter) :
    ∃ filters, fold .or filters = filter ∧
      Shown (Alternatives options · · filters) filter :=
  ⟨[filter], rfl,
    shown_alternatives (List.cons_ne_nil _ _) (by simpa using alternative)⟩

theorem legible_of_term {filter : Filter}
    (same : filter.explicit.under .and = filter.explicit)
    (shown : Shown (Term options · · filter.explicit) filter.explicit) :
    Legible options filter := by
  have alternative : IsAlternative options filter.explicit := by
    refine ⟨[filter.explicit], rfl,
      shown_terms (List.cons_ne_nil _ _) ?_ (by simpa using shown)⟩
    rw [List.forall_mem_singleton, ← same]
    exact Filter.needsParens_under .and _
  exact ⟨fun _ => by rwa [same], fun _ => alternative, alternative.whole⟩

theorem fold_of_two {connective : Connective} {filters : List Filter}
    (several : 2 ≤ filters.length) :
    fold connective filters = .logical connective filters := by
  cases filters with
  | nil => rfl
  | cons filter rest =>
      cases rest with
      | nil => simp at several
      | cons second rest => rfl

theorem ne_nil_of_two {filters : List Filter} (several : 2 ≤ filters.length) :
    filters ≠ [] := by
  rintro rfl
  simp at several

theorem operands_ne {connective : Connective} {filters : List Filter}
    (several : 2 ≤ filters.length) :
    (Filter.logical connective filters).operands connective ≠
      [.logical connective filters] := by
  intro same
  have length := congrArg List.length same
  simp only [Filter.operands, if_true, List.length_singleton] at length
  omega

theorem legible_and {filters : List Filter} (several : 2 ≤ filters.length)
    (operands : ∀ filter ∈ filters, filter.operands .and = [filter])
    (each : ∀ filter ∈ filters, Legible options filter) :
    Legible options (.logical .and filters) := by
  have members : (Filter.logical .and filters).explicit =
      fold .and (filters.map fun filter => filter.explicit.under .and) := by
    rw [fold_of_two (by rwa [List.length_map]), Filter.explicit,
      Filter.explicitUnder_eq_map]
  have alternative : IsAlternative options (Filter.logical .and filters).explicit := by
    rw [members]
    refine ⟨_, rfl, shown_terms (by simpa using ne_nil_of_two several) ?_ ?_⟩
    · rw [List.forall_mem_map]
      exact fun filter _ => Filter.needsParens_under .and _
    · rw [List.forall_mem_map]
      exact fun filter member => (each filter member).term (operands filter member)
  exact ⟨fun same => absurd same (operands_ne several), fun _ => alternative,
    alternative.whole⟩

theorem legible_or {filters : List Filter} (several : 2 ≤ filters.length)
    (operands : ∀ filter ∈ filters, filter.operands .or = [filter])
    (each : ∀ filter ∈ filters, Legible options filter) :
    Legible options (.logical .or filters) := by
  have members :
      (Filter.logical .or filters).explicit =
        fold .or (filters.map Filter.explicit) := by
    rw [fold_of_two (by rwa [List.length_map]), Filter.explicit,
      Filter.explicitUnder_eq_map]
    rfl
  have whole : Shown (Alternatives options · · (filters.map Filter.explicit))
      (fold .or (filters.map Filter.explicit)) := by
    refine shown_alternatives (by simpa using ne_nil_of_two several) ?_
    rw [List.forall_mem_map]
    exact fun filter member => (each filter member).alternative (operands filter member)
  refine ⟨fun _ => ?_, fun same => absurd same (operands_ne several), _, members.symm,
    members ▸ whole⟩
  have grouped : (Filter.logical .or filters).explicit.under .and =
      .group (Filter.logical .or filters).explicit := rfl
  rw [grouped, members]
  exact shown_group whole

theorem legible : ∀ filter : Filter, filter.Flat →
    (∀ comparison ∈ filter.comparisons, comparison.Writable) → Legible options filter
  | .comparison comparison, _, writable =>
      legible_of_term rfl
        (shown_comparison (writable comparison (List.mem_singleton_self _)))
  | .group inner, flat, writable => by
      rcases (legible inner flat writable).whole with ⟨filters, same, shown⟩
      rw [← same] at shown
      refine legible_of_term rfl ?_
      rw [Filter.explicit, ← same]
      exact shown_group shown
  | .logical connective filters, flat, writable => by
      rcases flat with ⟨several, operands, flat⟩
      have each : ∀ filter ∈ filters, Legible options filter := by
        intro filter member
        refine legible filter ((Filter.allFlat_iff _).mp flat filter member)
          fun comparison inside => ?_
        apply writable
        rw [Filter.comparisons, Filter.comparisonsOf_eq_flatMap]
        exact List.mem_flatMap.mpr ⟨filter, member, inside⟩
      cases connective with
      | and => exact legible_and several operands each
      | or => exact legible_or several operands each

end Filters

end Grammar

/-! ## Texts -/

/-- The text of a filter that was put together from comparisons is a query with that
filter, in which every `or` directly under an `and` is a group. So it is compiled as the
filter itself. -/
theorem Query.parseWith_render_built (options : ParseOptions) {filter : Filter}
    (built : filter.Built)
    (writable : ∀ comparison ∈ filter.comparisons, comparison.Writable)
    (shallow : Grammar.NestsWithin maxNesting (Scan.ofText filter.render).tokens) :
    ∃ query, parseWith options filter.render = .ok query ∧
      query.filter = some filter.explicit ∧ query.projection = [] ∧
      (∀ schema, Sql.renderQuery schema query = Sql.renderFilter schema filter) ∧
      LogsQl.renderQuery query = LogsQl.renderFilter filter := by
  have legible : Grammar.Legible options filter :=
    Grammar.legible filter built.flat writable
  rcases legible.whole with ⟨filters, same, found, printed⟩
  rw [filter.render_explicit] at printed
  have cuts : cut true false filter.render.toList = found := by
    have cuts := printed.cuts [] rfl
    rwa [List.append_nil, cut_nil, List.append_nil] at cuts
  have distinct : ∀ field ∈ Grammar.fieldsOf filter.explicit, ¬ field.Ambiguous := by
    rw [Grammar.fieldsOf, filter.comparisons_explicit, List.forall_mem_map]
    exact fun comparison member => (writable comparison member).distinct
  have derivable :=
    printed.derivable distinct (lexemes .start true false filter.render.toList) cuts
  have derives : Grammar.Derives options (Scan.ofText filter.render).tokens
      { filter := some filter.explicit, projection := [] } := by
    have part := Grammar.FilterPart.present (derivable.derives maxNesting shallow)
    rw [same] at part
    rw [← List.append_nil (Scan.ofText filter.render).tokens]
    exact .query part .absent
  refine ⟨{ filter := some filter.explicit, projection := [] }, ?_, rfl, rfl,
    fun schema => Sql.renderFilter_explicit schema filter,
    LogsQl.renderFilter_explicit filter⟩
  rw [parseWith_eq_ok_iff, Scan.errors_eq_nil_iff, cuts]
  exact ⟨printed.closed, Grammar.missingConnective?_eq_none derives.chain, derives⟩

def equality (name : String) (literal : Literal) : Filter :=
  .comparison
    { field := .name name, operator := .equal, literal, quoted := literal.isText }

def innerFilter : Filter :=
  .combine .or (equality "a" (.text "x\" or (")) [equality "b" .null]

def layeredFilter : Filter :=
  .combine .or
    (.combine .and innerFilter [.group (equality "c" (.boolean true)), innerFilter])
    [equality "and more" (.number (.ofRank true 4652007308841189376)), innerFilter]

theorem Query.parseWith_render_built_layered :
    layeredFilter.Built ∧
      (∀ comparison ∈ layeredFilter.comparisons, comparison.Writable) ∧
      Grammar.NestsWithin maxNesting (Scan.ofText layeredFilter.render).tokens ∧
      layeredFilter.explicit ≠ layeredFilter ∧
      ∃ query, parseWith {} layeredFilter.render = .ok query ∧
        query.filter = some layeredFilter.explicit ∧ query.projection = [] ∧
        (∀ schema,
          Sql.renderQuery schema query = Sql.renderFilter schema layeredFilter) ∧
        LogsQl.renderQuery query = LogsQl.renderFilter layeredFilter := by
  have inner : innerFilter.Built :=
    .combine .or (.comparison _) (by simpa using .comparison _)
  have middle :
      (Filter.combine .and innerFilter
        [.group (equality "c" (.boolean true)), innerFilter]).Built :=
    .combine .and inner (by simpa using ⟨.group (.comparison _), inner⟩)
  have built : layeredFilter.Built :=
    .combine .or middle (by simpa using ⟨.comparison _, inner⟩)
  have writable : ∀ comparison ∈ layeredFilter.comparisons, comparison.Writable := by
    decide +kernel
  have shallow :
      Grammar.NestsWithin maxNesting (Scan.ofText layeredFilter.render).tokens :=
    Grammar.nestsWithin_of_length (by decide +kernel)
  exact ⟨built, writable, shallow, by decide +kernel,
    parseWith_render_built {} built writable shallow⟩

end LogQuery
