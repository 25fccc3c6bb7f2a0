import LogQuery.Proofs.Sql.Reader
import Mathlib.Data.List.Forall2

/-!
Written filters are read back. Whatever characters names, keys and strings are made of,
the SQL text of a filter is one condition with the comparisons of the filter and with
its truth.
-/

namespace LogQuery.Sql

/-! ## Fields, values and comparisons -/

theorem reads_comma : Reads ", " [.mark ','] :=
  reads_fixed (by decide +kernel)

theorem intercalate_cons {α : Type} (separator first : List α) (rest : List (List α)) :
    separator.intercalate (first :: rest) = first ++ rest.flatMap (separator ++ ·) := by
  induction rest generalizing first with
  | nil => simp
  | cons second rest induction =>
      rw [List.intercalate_cons_cons, induction, List.flatMap_cons, List.append_assoc,
        List.append_assoc]

theorem reads_keys (keys : List String) :
    Reads (String.intercalate ", " (keys.map quote))
      ([.mark ','].intercalate (keys.map fun key => [.literal key])) :=
  reads_comma.intercalate rfl rfl fun key _ => reads_quote key

theorem reads_access {access : Access} (keyed : ∀ base, access ≠ .jsonValue base []) :
    Reads access.render access.words := by
  cases access with
  | column name => exact reads_identifier name
  | mapValue base key => exact (reads_identifier base).applied .square (reads_quote key)
  | jsonValue base keys =>
      cases keys with
      | nil => exact absurd rfl (keyed base)
      | cons key keys =>
          have function : Reads "JSONExtractString" [.bare "JSONExtractString"] :=
            reads_fixed (by decide +kernel)
          have column := (reads_identifier base).append reads_comma (.before rfl)
          have arguments := column.append (reads_keys (key :: keys)) (.after _ rfl)
          have reads := function.applied .round arguments
          unfold Access.render
          simpa [Access.words, intercalate_cons, List.flatMap_map, Bracket.opening,
            Bracket.closing, Bracket.left, Bracket.right, ← String.append_assoc]
            using reads

theorem harmless_of_bare {text : List Char} (bare : text.all isBareChar = true)
    (noMinus : '-' ∉ text) : harmless text = true := by
  induction text with
  | nil => rfl
  | cons c text induction =>
      rw [List.all_cons, Bool.and_eq_true] at bare
      rw [List.mem_cons, not_or] at noMinus
      have clean : c ∉ ";\"\\/".toList := Text.not_mem_of_test (by decide) bare.1
      have different : c ≠ '-' := Ne.symm noMinus.1
      simp only [harmless, List.contains_eq_mem, clean, decide_false, Bool.not_false,
        Bool.true_and, bne_iff_ne.mpr different, Bool.true_or,
        induction bare.2 noMinus.2]

theorem reads_numeral {text : String} (numeral : Text.isNumeral text.toList = true) :
    Reads text [.bare text] := by
  rcases (Text.isNumeral_iff _).mp numeral with
    ⟨negative, whole, fraction, parts, wholeDigits, fractionDigits⟩
  have characters := Text.numeral_chars wholeDigits fractionDigits
  have bare : (whole ++ Text.fractionText fraction).all isBareChar = true := by
    rw [List.all_eq_true]
    intro c member
    rcases characters c member with rfl | digit
    · rfl
    · simp [isBareChar, Char.isAlphanum, digit]
  have fine : harmless (whole ++ Text.fractionText fraction) = true := by
    apply harmless_of_bare bare
    intro member
    rcases characters _ member with same | digit
    · cases same
    · cases digit
  rcases Text.head_of_digits wholeDigits (Text.fractionText fraction) with
    ⟨first, digit, head⟩
  apply reads_bare
  · rintro rfl
    cases numeral
  · rw [parts, List.all_append, bare, Bool.and_true]
    cases negative <;> rfl
  · rw [parts]
    cases negative with
    | false => exact fine
    | true => simp [Text.signText, harmless, head, digit, fine]

theorem reads_literal {literal : Literal}
    (finite : ∀ value, literal = .number value → value.isFinite = true) :
    Reads (renderLiteral literal) [literalWord literal] := by
  cases literal with
  | text contents => exact reads_quote contents
  | word contents => exact reads_quote contents
  | number value =>
      cases value with
      | finite negative rank =>
          exact reads_numeral (Double.render_finite negative rank).1
      | infinite negative => cases finite _ rfl
      | nan => cases finite _ rfl
  | boolean value => cases value <;> exact reads_numeral rfl
  | null => exact reads_fixed (by decide +kernel)

theorem reads_search {column value asked : String} {access found others : List Word}
    (field : Reads column access) (literal : Reads value found)
    (result : Reads asked others) (starts : asked.toList.head?.any isBreak = true) :
    Reads ("positionCaseInsensitive(" ++ column ++ ", " ++ value ++ ")" ++ asked)
      ([.bare "positionCaseInsensitive", .mark '('] ++ access ++ [.mark ','] ++ found ++
        [.mark ')'] ++ others) := by
  have function : Reads "positionCaseInsensitive" [.bare "positionCaseInsensitive"] :=
    reads_fixed (by decide +kernel)
  have arguments :=
    (field.append reads_comma (.before rfl)).append literal (.after _ rfl)
  have reads := (function.applied .round arguments).append result (.before starts)
  simpa [Bracket.opening, Bracket.closing, Bracket.left, Bracket.right,
    ← String.append_assoc] using reads

theorem reads_compared {column sign value : String} {access found : List Word}
    (field : Reads column access) (comparison : Reads sign [.sign sign])
    (literal : Reads value found) :
    Reads (column ++ " " ++ sign ++ " " ++ value) (access ++ .sign sign :: found) := by
  have blank : Reads " " [] := reads_fixed (by decide +kernel)
  have compared := (field.append blank (.before rfl)).append comparison (.after _ rfl)
  have reads := (compared.append blank (.before rfl)).append literal (.after _ rfl)
  simpa using reads

theorem reads_sign {operator : Operator} (compares : operator.isContainment = false) :
    Reads operator.render [.sign operator.render] := by
  cases operator with
  | contains => cases compares
  | notContains => cases compares
  | _ => exact reads_fixed (by decide +kernel)

theorem reads_comparison (schema : Option Schema) {comparison : Comparison}
    (regular : comparison.Regular) :
    Reads (renderComparison schema comparison) (comparisonWords schema comparison) := by
  rcases comparison with ⟨field, operator, literal, quoted⟩
  have access := reads_access (keyed_ofField schema regular.1)
  have value := reads_literal regular.2
  unfold renderComparison renderCondition comparisonWords
  cases operator with
  | contains =>
      have found : Reads " > 0" [.sign ">", .bare "0"] :=
        reads_fixed (by decide +kernel)
      have tail : ") > 0" = ")" ++ " > 0" := by decide +kernel
      rw [tail, ← String.append_assoc]
      simpa using reads_search access value found rfl
  | notContains =>
      have missing : Reads " = 0" [.sign "=", .bare "0"] :=
        reads_fixed (by decide +kernel)
      have tail : ") = 0" = ")" ++ " = 0" := by decide +kernel
      rw [tail, ← String.append_assoc]
      simpa using reads_search access value missing rfl
  | _ => exact reads_compared access (reads_sign rfl) value

/-! ## Filters -/

def connectiveWord : Connective → Word
  | .and => .bare "AND"
  | .or => .bare "OR"

mutual

def filterWords (schema : Option Schema) : Filter → List Word
  | .comparison comparison => comparisonWords schema comparison
  | .group inner => filterWords schema inner
  | .logical connective children =>
      [connectiveWord connective].intercalate (operandWords schema children)

def operandWords (schema : Option Schema) : List Filter → List (List Word)
  | [] => []
  | child :: rest =>
      (.mark '(' :: (filterWords schema child ++ [.mark ')'])) ::
        operandWords schema rest

end

theorem operandWords_eq_map (schema : Option Schema) (filters : List Filter) :
    operandWords schema filters =
      filters.map fun child =>
        .mark '(' :: (filterWords schema child ++ [.mark ')']) := by
  induction filters with
  | nil => rfl
  | cons child rest induction => rw [operandWords, induction, List.map_cons]

theorem renderOperands_eq_map (schema : Option Schema) (filters : List Filter) :
    renderOperands schema filters =
      filters.map fun child => "(" ++ renderFilter schema child ++ ")" := by
  induction filters with
  | nil => rfl
  | cons child rest induction => rw [renderOperands, induction, List.map_cons]

theorem reads_connective (connective : Connective) :
    Reads (connectiveText connective) [connectiveWord connective] := by
  cases connective <;> exact reads_fixed (by decide +kernel)

theorem connectiveText_breaks (connective : Connective) :
    (connectiveText connective).toList.head?.any isBreak = true ∧
      (connectiveText connective).toList.getLast?.any isBreak = true := by
  cases connective <;> decide

theorem regular_of_member {children : List Filter}
    (regular : ∀ comparison ∈ Filter.comparisonsOf children, comparison.Regular)
    {child : Filter} (member : child ∈ children) :
    ∀ comparison ∈ child.comparisons, comparison.Regular := by
  intro comparison inside
  apply regular
  rw [Filter.comparisonsOf_eq_flatMap]
  exact List.mem_flatMap_of_mem member inside

theorem reads_filter (schema : Option Schema) : ∀ filter : Filter,
    (∀ comparison ∈ filter.comparisons, comparison.Regular) →
      Reads (renderFilter schema filter) (filterWords schema filter)
  | .comparison comparison, regular => by
      rw [renderFilter, filterWords]
      exact reads_comparison schema (regular comparison (List.mem_singleton_self _))
  | .group inner, regular => by
      rw [renderFilter, filterWords]
      exact reads_filter schema inner regular
  | .logical connective children, regular => by
      rw [renderFilter, filterWords, renderOperands_eq_map, operandWords_eq_map]
      have breaks := connectiveText_breaks connective
      apply (reads_connective connective).intercalate breaks.1 breaks.2
      intro child member
      exact (reads_filter schema child (regular_of_member regular member)).enclosed
        .round

/-! ## Reading filters back -/

def startsCondition : Word → Bool
  | .name _ => true
  | .bare text => text != "AND" && text != "OR"
  | _ => false

theorem comparisonWords_cons (schema : Option Schema) (comparison : Comparison) :
    ∃ word tail, comparisonWords schema comparison = word :: tail ∧
      startsCondition word = true := by
  rcases comparison with ⟨field, operator, literal, quoted⟩
  rw [comparisonWords]
  cases operator with
  | contains => exact ⟨_, _, rfl, by decide⟩
  | notContains => exact ⟨_, _, rfl, by decide⟩
  | _ =>
      cases Access.ofField schema field with
      | column name => exact ⟨_, _, rfl, rfl⟩
      | mapValue base key => exact ⟨_, _, rfl, rfl⟩
      | jsonValue base keys => exact ⟨_, _, rfl, by decide⟩

theorem items?_condition (schema : Option Schema) {comparison : Comparison}
    (regular : comparison.Regular) (rest : List Word) :
    items? (comparisonWords schema comparison ++ rest) =
      (items? rest).map (.atom (.ofComparison schema comparison) :: ·) := by
  have read := condition?_words schema regular rest
  rcases comparisonWords_cons schema comparison with ⟨word, tail, shape, starts⟩
  rw [shape, List.cons_append] at read ⊢
  have shorter : rest.length < (word :: (tail ++ rest)).length := by
    simp only [List.length_cons, List.length_append]
    omega
  conv_lhs => unfold items?
  split
  · next same => cases same
  · next same =>
      cases same
      cases starts
  · next same =>
      cases same
      cases starts
  · next same =>
      cases same
      cases starts
  · next same =>
      cases same
      cases starts
  · rw [read]
    exact if_pos shorter

theorem items?_connective (connective : Connective) (rest : List Word) :
    items? (connectiveWord connective :: rest) =
      (items? rest).map (.connective connective :: ·) := by
  cases connective <;> rw [connectiveWord, items?]

theorem items?_row (connective : Connective) {part : Filter → List Word}
    {read : Filter → List (Formula.Item Condition)} {children : List Filter}
    (each : ∀ child ∈ children, ∀ rest,
      items? (part child ++ rest) = (items? rest).map (read child ++ ·))
    (rest : List Word) :
    items? ([connectiveWord connective].intercalate (children.map part) ++ rest) =
      (items? rest).map
        ([.connective connective].intercalate (children.map read) ++ ·) := by
  induction children with
  | nil => simp
  | cons first others induction =>
      have step := each first List.mem_cons_self
      have onward :=
        induction fun child member => each child (List.mem_cons_of_mem first member)
      cases others with
      | nil => simpa using step rest
      | cons second others =>
          simp only [List.map_cons, List.intercalate_cons_cons, List.append_assoc,
            List.cons_append, List.nil_append] at onward ⊢
          rw [step, items?_connective, onward, Option.map_map, Option.map_map]
          rfl

theorem items?_filter (schema : Option Schema) : ∀ filter : Filter,
    (∀ comparison ∈ filter.comparisons, comparison.Regular) → ∀ rest,
      items? (filterWords schema filter ++ rest) =
        (items? rest).map (filter.items (.ofComparison schema) ++ ·)
  | .comparison comparison, regular, rest => by
      rw [filterWords, Filter.items]
      exact items?_condition schema
        (regular comparison (List.mem_singleton_self _)) rest
  | .group inner, regular, rest => by
      rw [filterWords, Filter.items]
      exact items?_filter schema inner regular rest
  | .logical connective children, regular, rest => by
      rw [filterWords, Filter.items, operandWords_eq_map, Filter.operandItems_eq_map]
      -- Every operand has parentheses of its own, whatever it is.
      apply items?_row
      intro child member rest
      have inner := items?_filter schema child (regular_of_member regular member)
      rw [List.cons_append, List.append_assoc, items?, inner, List.singleton_append,
        items?, Option.map_map, Option.map_map]
      congr 1
      funext others
      simp

theorem readFormula?_filter (schema : Option Schema) {filter : Filter}
    (flat : filter.Flat)
    (regular : ∀ comparison ∈ filter.comparisons, comparison.Regular) :
    readFormula? (renderFilter schema filter) =
      some (filter.formula (.ofComparison schema)) := by
  have reads := reads_filter schema filter regular
  have items := items?_filter schema filter regular []
  rw [List.append_nil, items?, Option.map_some, List.append_nil] at items
  rw [readFormula?, reads.reading, items, Option.bind_some,
    Filter.ofItems?_items _ flat]

/-- The text of a filter is read, to its end, as a condition that asks the same
questions in the same order and has the same answer, whatever the questions turn out to
be answered with. -/
theorem renderFilter_reads_back (schema : Option Schema) {filter : Filter}
    (built : filter.Built)
    (regular : ∀ comparison ∈ filter.comparisons, comparison.Regular) :
    ∃ formula, readFormula? (renderFilter schema filter) = some formula ∧
      List.Forall₂ (Condition.Asks schema) formula.atoms filter.comparisons ∧
      ∀ truth, formula.evaluate truth 0 = filter.evaluate truth 0 := by
  refine ⟨filter.formula (.ofComparison schema),
    readFormula?_filter schema built.flat regular, ?_, ?_⟩
  · rw [Filter.atoms_formula, List.forall₂_map_left_iff, List.forall₂_same]
    exact fun comparison _ => Condition.asks_ofComparison schema comparison
  · intro truth
    exact Filter.evaluate_formula _ truth 0 filter

def hostileSchema : Schema where
  columns := [⟨"user", "String"⟩, ⟨"la`bels", "Map(String, String)"⟩]

/-- A filter with quotes, backslashes, parentheses and keywords in its names and values.
It has a key of the map and a path into a column that the schema does not know. -/
def hostileFilter : Filter :=
  .combine .and
    (.group (.combine .or
      (.comparison
        ⟨.nested "la`bels" ["it's", "') OR (1 = 1"], .contains, .text "\\' OR 1 = 1",
          true⟩)
      [.comparison ⟨.name "a` AND `b", .notEqual, .number (.ofRank true 1), false⟩]))
    [.comparison ⟨.nested "pay`load" ["', 'x", ") > 0 --"], .notContains, .null, false⟩,
      .comparison ⟨.name "user", .equal, .word "x)", false⟩]

theorem renderFilter_reads_back_hostile :
    hostileSchema.NamesMap "la`bels" ∧ ¬ hostileSchema.NamesMap "pay`load" ∧
      hostileFilter.Built ∧
      (∀ comparison ∈ hostileFilter.comparisons, comparison.Regular) ∧
      ∃ formula,
        readFormula? (renderFilter (some hostileSchema) hostileFilter) = some formula ∧
        List.Forall₂ (Condition.Asks (some hostileSchema)) formula.atoms
          hostileFilter.comparisons ∧
        ∀ truth, formula.evaluate truth 0 = hostileFilter.evaluate truth 0 := by
  have isMap : hostileSchema.NamesMap "la`bels" :=
    (Schema.kind?_eq_map_iff _ _).mp (by decide +kernel)
  have noMap : ¬ hostileSchema.NamesMap "pay`load" :=
    mt (Schema.kind?_eq_map_iff _ _).mpr (by decide +kernel)
  have built : hostileFilter.Built := by
    apply Filter.Built.combine
    · exact .group (.combine .or (.comparison _) (by simp [Filter.Built.comparison]))
    · simp [Filter.Built.comparison]
  have regular : ∀ comparison ∈ hostileFilter.comparisons, comparison.Regular := by
    simp [hostileFilter, Filter.combine, Filter.operands, Filter.comparisons,
      Filter.comparisonsOf, Comparison.Regular]
    decide +kernel
  exact ⟨isMap, noMap, built, regular,
    renderFilter_reads_back (some hostileSchema) built regular⟩

end LogQuery.Sql
