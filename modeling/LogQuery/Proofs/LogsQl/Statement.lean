import LogQuery.LogsQl.Statement
import LogQuery.Proofs.Derivation
import LogQuery.Proofs.LogsQl.Filter
import LogQuery.Proofs.Time.Notation

/-!
The time range of a LogsQL query. The stages of a query are divided by bars outside of
quotes, and the first of them is the condition on entries. There the range stands beside
the text of the filter, and as that text has no `or` outside of parentheses, the range
narrows the filter as a whole.
-/

namespace LogQuery

/-! ## Written moments -/

namespace Instant

def isMomentChar (c : Char) : Bool :=
  c.isDigit || "-+:TZ".toList.contains c

theorem padded_chars (width number : Nat) :
    (padded width number).toList.all isMomentChar = true := by
  rw [List.all_eq_true]
  intro digit member
  rw [isMomentChar, padded_digits width number digit member, Bool.true_or]

theorem renderYear_chars (year : Int) :
    (renderYear year).toList.all isMomentChar = true := by
  have sign : isMomentChar '-' = true ∧ isMomentChar '+' = true := by decide
  rw [renderYear]
  split
  · simpa [sign] using padded_chars 4 year.natAbs
  · split
    · simpa [sign] using padded_chars 4 year.natAbs
    · exact padded_chars 4 year.natAbs

theorem render_chars (instant : Instant) :
    instant.render.toList.all isMomentChar = true := by
  have fixed : "-:TZ".toList.all isMomentChar = true := by decide
  simp only [render, renderCivil, String.toList_append, List.all_append, padded_chars,
    renderYear_chars]
  exact fixed

end Instant

namespace LogsQl

theorem solid_moment (instant : Instant) : Solid instant.render.toList := by
  apply solid_of_plain
  rw [List.all_eq_true]
  intro c member
  exact isItemChar_of_test (by decide)
    (List.all_eq_true.mp instant.render_chars c member)

/-! ## Stages -/

/-- The first stage of a query, which ends at the first bar outside of quotes. -/
def filterStage (text : String) : String :=
  String.ofList
    (((placed .outside text.toList).takeWhile fun piece => piece ≠ ('|', .outside)).map
      Prod.fst)

theorem Reads.filterStage_eq {text : String} {found : List Word}
    (reads : Reads text found) (stages : String) :
    filterStage (text ++ "|" ++ stages) = text := by
  have passes : ∀ piece ∈ placed .outside text.toList,
      decide (piece ≠ ('|', Place.outside)) = true := by
    intro piece member
    rw [decide_eq_true_eq]
    rintro rfl
    exact reads.noBar member
  rw [filterStage, String.toList_append, String.toList_append, List.append_assoc,
    placed_append, reads.closed, Text.takeWhile_run passes rfl, map_fst_placed,
    String.ofList_toList]

theorem renderFields_append (fields : List FieldPath) (rest : String) :
    ∃ stages, renderFields fields ++ (" |" ++ rest) = " |" ++ stages := by
  rw [renderFields]
  split
  · exact ⟨rest, String.empty_append⟩
  · next list _ =>
      split
      · exact ⟨" fields " ++ list ++ (" |" ++ rest), by simp [← String.toList_inj]⟩
      · exact ⟨" fields " ++ timeField ++ ", " ++ list ++ (" |" ++ rest),
          by simp [← String.toList_inj]⟩

/-! ## Ranges -/

namespace Request

def rangeItems (request : Request) : String × String :=
  (timeField ++ ":[" ++ request.startTime.render ++ ",", request.endTime.render ++ "]")

def rangeText (request : Request) : String :=
  request.rangeItems.1 ++ " " ++ request.rangeItems.2

theorem reads_range (request : Request) :
    Reads request.rangeText
      [.item request.rangeItems.1, .item request.rangeItems.2] := by
  have before : Solid "_time:[".toList := solid_of_plain (by decide)
  have comma : Solid [','] := solid_of_plain (by decide)
  have bracket : Solid [']'] := solid_of_plain (by decide)
  have start : Reads request.rangeItems.1 [.item request.rangeItems.1] := by
    apply Reads.item
    · simp [rangeItems]
    · simpa [rangeItems, timeField] using (before.append (solid_moment _)).append comma
  have stop : Reads request.rangeItems.2 [.item request.rangeItems.2] := by
    apply Reads.item
    · simp [rangeItems]
    · simpa [rangeItems] using (solid_moment _).append bracket
  exact start.blank stop

def narrowedText (request : Request) : Option Filter → String
  | none => request.rangeText
  | some filter => renderFilter filter ++ " " ++ request.rangeText

theorem render_eq (request : Request) {query : Query}
    (flat : ∀ filter, query.filter = some filter → filter.Flat) :
    ∃ stages,
      request.render query =
        request.narrowedText query.filter ++ " " ++ "|" ++ stages := by
  have front : (if (renderQuery query).isEmpty then "" else renderQuery query ++ " ") ++
      timeField ++ ":[" ++ request.startTime.render ++ ", " ++ request.endTime.render ++
      "]" =
        request.narrowedText query.filter := by
    cases present : query.filter with
    | none =>
        simp [renderQuery, present, narrowedText, rangeText, rangeItems,
          ← String.toList_inj]
    | some filter =>
        -- No filter has an empty text, so the text is dropped only where there is no
        -- filter.
        have nonempty := renderFilter_ne_empty (flat filter present)
        simp [renderQuery, present, narrowedText, rangeText, rangeItems, nonempty,
          ← String.toList_inj]
  rcases renderFields_append query.projection (" sort by (" ++ timeField ++ " desc)" ++
    (if 0 < request.limit then " | limit " ++ toString request.limit else "")) with
      ⟨stages, back⟩
  have whole :
      request.render query = request.narrowedText query.filter ++ (" |" ++ stages) := by
    rw [← back, ← front, render]
    simp only [String.append_assoc]
    rfl
  exact ⟨stages, by simp [whole, ← String.toList_inj]⟩

theorem reads_narrowed (request : Request) (filter : Option Filter) :
    Reads (request.narrowedText filter) (filter.elim [] filterWords ++
      [.item request.rangeItems.1, .item request.rangeItems.2]) := by
  cases filter with
  | none => exact request.reads_range
  | some filter => exact (Reads.filter filter).blank request.reads_range

/-! ## Conditions on entries -/

def terms (request : Request) (filter : Option Filter) : List (Formula String) :=
  filter.elim [] (Filter.conjuncts renderComparison) ++
    [.atom request.rangeItems.1, .atom request.rangeItems.2]

theorem rangeItems_ne_or (request : Request) :
    request.rangeItems.1 ≠ "or" ∧ request.rangeItems.2 ≠ "or" := by
  constructor
  · intro same
    have first := congrArg (·.toList.head?) same
    simp [rangeItems, timeField] at first
  · intro same
    have last := congrArg (·.toList.getLast?) same
    simp [rangeItems] at last

theorem readFormula?_narrowed (request : Request) {filter : Option Filter}
    (flat : ∀ present, filter = some present → present.Flat) :
    readFormula? (request.narrowedText filter ++ " ") =
      some (.join .and (request.terms filter)) := by
  have reads := (request.reads_narrowed filter).blank .empty
  rw [String.append_empty, List.append_nil] at reads
  have range := Itemized.connected .and (.item request.rangeItems_ne_or.1)
    (.item request.rangeItems_ne_or.2)
  have rangeTerms := (Filter.readsAsTerms_atom request.rangeItems.1).beside
    (Filter.readsAsTerms_atom request.rangeItems.2)
  cases filter with
  | none => exact readFormula?_of_reads reads range rangeTerms
  | some filter =>
      have itemized := Itemized.connected .and (.filter filter (flat filter rfl)) range
      simp only [connectiveWords, List.append_nil, List.append_assoc] at itemized
      exact readFormula?_of_reads reads itemized
        ((Filter.readsAsTerms_looseItems renderComparison filter
          (flat filter rfl)).beside rangeTerms)

theorem readFormula?_filterStage (request : Request) {query : Query}
    (flat : ∀ filter, query.filter = some filter → filter.Flat) :
    readFormula? (filterStage (request.render query)) =
      some (.join .and (request.terms query.filter)) := by
  rcases request.render_eq flat with ⟨stages, same⟩
  have reads := (request.reads_narrowed query.filter).blank .empty
  rw [String.append_empty] at reads
  rw [same, reads.filterStage_eq, request.readFormula?_narrowed flat]

theorem atomsOf_terms (request : Request) (query : Query) :
    Formula.atomsOf (request.terms query.filter) =
      query.comparisons.map renderComparison ++
        [request.rangeItems.1, request.rangeItems.2] := by
  rw [terms, Formula.atomsOf_append, Query.comparisons]
  cases query.filter with
  | none => rfl
  | some filter =>
      rw [Option.elim_some, Filter.atomsOf_conjuncts]
      simp [Formula.atomsOf, Formula.atoms]

theorem holds_terms (request : Request) (query : Query) (truth : Nat → Bool) :
    Connective.and.holds (Formula.evaluateAll truth 0 (request.terms query.filter)) =
      (query.filter.all (·.evaluate truth 0) && truth query.comparisons.length &&
        truth (query.comparisons.length + 1)) := by
  rw [terms, Formula.evaluateAll_append, Connective.and_holds_append, Query.comparisons]
  cases query.filter with
  | none => simp [Formula.evaluateAll, Formula.evaluate, Formula.atomsOf, Formula.atoms,
      Connective.holds]
  | some filter =>
      rw [Option.elim_some, Filter.evaluate_conjuncts, Filter.length_atomsOf_conjuncts]
      simp [Formula.evaluateAll, Formula.evaluate, Formula.atoms, Connective.holds,
        Bool.and_assoc]

/-- The text of a filter is read, to its end, as a condition on the texts of its
comparisons that has the truth of the filter, and it has no `or` outside of parentheses.
For every query that is accepted, the condition on entries is thus the one of the filter
as a whole and the range. -/
theorem build_conjoins_range :
    (∀ filter : Filter, filter.Built →
      ∃ formula, readFormula? (renderFilter filter) = some formula ∧
        formula.atoms = filter.comparisons.map renderComparison ∧
        (∀ truth, formula.evaluate truth 0 = filter.evaluate truth 0) ∧
        sheltered 0 (words (renderFilter filter)) = true) ∧
    ∀ (request : Request) (query : Query), Query.parse request.query = .ok query →
      ∃ text formula, request.build = .ok text ∧
        readFormula? (filterStage text) = some formula ∧
        formula.atoms = query.comparisons.map renderComparison ++
          [request.rangeItems.1, request.rangeItems.2] ∧
        ∀ truth, formula.evaluate truth 0 =
          (query.filter.all (·.evaluate truth 0) && truth query.comparisons.length &&
            truth (query.comparisons.length + 1)) := by
  constructor
  · intro filter built
    refine ⟨_, readFormula?_filter built.flat, ?_, ?_, ?_⟩
    · rw [Formula.atoms_join, Filter.atomsOf_conjuncts]
    · intro truth
      rw [Formula.evaluate_join, Filter.evaluate_conjuncts]
    · have sheltered := sheltered_filterWords filter 0 []
      rwa [List.append_nil, ← (Reads.filter filter).words_eq] at sheltered
  · intro request query parsed
    rcases (Query.parseWith_eq_ok_iff _ _ _).mp parsed with ⟨_, _, derives⟩
    have flat : ∀ filter, query.filter = some filter → filter.Flat :=
      fun filter present => (derives.regular.1 filter present).flat
    have built : request.build = .ok (request.render query) := by
      rw [build, parsed]; rfl
    refine ⟨_, _, built, request.readFormula?_filterStage flat, ?_, ?_⟩
    · rw [Formula.atoms_join, request.atomsOf_terms]
    · intro truth
      rw [Formula.evaluate_join, request.holds_terms]

def nestedFilter : Filter :=
  .combine .or
    (.combine .and (.comparison ⟨.name "a", .equal, .text "x) or (y", true⟩)
      [.group (.combine .or (.comparison ⟨.name "or", .notEqual, .word "or", false⟩)
        [.comparison ⟨.nested "b" ["c \\\""], .contains, .text "|", true⟩])])
    [.comparison ⟨.name "", .less, .null, false⟩]

def nestedRequest : Request where
  query := "a=\"x | y\" and b!='or' or (c>1 or d~\") or (\") | a d"
  startTime := ⟨0, 0⟩
  endTime := ⟨86400, 0⟩
  limit := 10

theorem build_conjoins_range_nested :
    nestedFilter.Built ∧
      (∃ formula, readFormula? (renderFilter nestedFilter) = some formula ∧
        formula.atoms = nestedFilter.comparisons.map renderComparison ∧
        (∀ truth, formula.evaluate truth 0 = nestedFilter.evaluate truth 0) ∧
        sheltered 0 (words (renderFilter nestedFilter)) = true) ∧
      ∃ query text formula, Query.parse nestedRequest.query = .ok query ∧
        query.comparisons.length = 4 ∧ nestedRequest.build = .ok text ∧
        readFormula? (filterStage text) = some formula ∧
        ∀ truth, formula.evaluate truth 0 =
          (query.filter.all (·.evaluate truth 0) && truth 4 && truth 5) := by
  have built : nestedFilter.Built := by
    apply Filter.Built.combine
    · apply Filter.Built.combine
      · exact .comparison _
      · simpa using
          .group (.combine .or (.comparison _) (by simp [Filter.Built.comparison]))
    · simp [Filter.Built.comparison]
  have succeeds :
      (Query.parse nestedRequest.query).toOption.map (·.comparisons.length) =
        some 4 := by
    decide +kernel
  refine ⟨built, build_conjoins_range.1 nestedFilter built, ?_⟩
  cases parsed : Query.parse nestedRequest.query with
  | error error =>
      rw [parsed] at succeeds
      cases succeeds
  | ok query =>
      rw [parsed] at succeeds
      have four : query.comparisons.length = 4 := Option.some.inj succeeds
      rcases build_conjoins_range.2 nestedRequest query parsed with
        ⟨text, formula, built, read, -, meaning⟩
      rw [four] at meaning
      exact ⟨query, text, formula, rfl, four, built, read, meaning⟩

end Request

end LogsQl

end LogQuery
