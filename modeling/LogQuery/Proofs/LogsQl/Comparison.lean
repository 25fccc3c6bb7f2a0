import LogQuery.Proofs.LogsQl.Quoting

/-!
Comparisons that are written alike. Field, sign and value stand side by side in a
comparison, with only the field marked off. A value without quotes can therefore be
taken for a part of the sign: `>` and a value that starts with `=` look like `>=` and
the rest of the value. This is the only way in which two comparisons that ask something
different come to have the same text.
-/

namespace LogQuery.LogsQl

/-! ## Fields -/

def askedText (comparison : Comparison) : String :=
  comparison.operator.render ++ renderText (literalText comparison.literal)

theorem toList_renderComparison (comparison : Comparison) :
    (renderComparison comparison).toList =
      (renderText comparison.field.dotted).toList ++ ':' ::
        (askedText comparison).toList := by
  simp [renderComparison, renderField, renderLiteral_eq, askedText]

theorem renderComparison_inj {first second : Comparison} :
    renderComparison first = renderComparison second ↔
      first.field.dotted = second.field.dotted ∧
        askedText first = askedText second := by
  rw [← String.toList_inj, toList_renderComparison, toList_renderComparison]
  constructor
  · intro same
    have one := readText?_renderText first.field.dotted
      (show (':' :: (askedText first).toList).head?.all isStop = true from rfl)
    have two := readText?_renderText second.field.dotted
      (show (':' :: (askedText second).toList).head?.all isStop = true from rfl)
    rw [same, two] at one
    rcases Prod.mk.inj (Option.some.inj one) with ⟨field, asked⟩
    exact ⟨field.symm, String.toList_inj.mp (List.cons.inj asked).2.symm⟩
  · rintro ⟨field, asked⟩
    rw [field, asked]

/-! ## Signs -/

def orEqual? : Operator → Option Operator
  | .greater => some .greaterOrEqual
  | .less => some .lessOrEqual
  | _ => none

theorem render_of_orEqual? {operator wider : Operator}
    (widened : orEqual? operator = some wider) :
    wider.render.toList = operator.render.toList ++ ['='] := by
  cases operator with
  | greater =>
      cases widened
      rfl
  | less =>
      cases widened
      rfl
  | _ => cases widened

theorem render_append_cases {operator other : Operator} {value value' : List Char}
    (same : operator.render.toList ++ value = other.render.toList ++ value') :
    (operator = other ∧ value = value') ∨
      (orEqual? operator = some other ∧ value = '=' :: value') ∨
      (orEqual? other = some operator ∧ value' = '=' :: value) := by
  cases operator <;> cases other <;> simp_all [Operator.render, orEqual?]

/-! ## Values -/

theorem needsQuotes_equal_append (value : String) :
    needsQuotes ("=" ++ value) = false ↔ ∀ c ∈ value.toList, isSpecial c = false := by
  have equal : isSpecial '=' = false := by decide
  simp [needsQuotes_eq_false_iff, equal]

theorem renderText_eq_equal_cons {value value' : String} :
    (renderText value).toList = '=' :: (renderText value').toList ↔
      value = "=" ++ value' ∧ needsQuotes value' = false := by
  constructor
  · intro same
    cases needs : needsQuotes value with
    | true =>
        rw [toList_renderText_of_needsQuotes needs] at same
        cases (List.cons.inj same).1
    | false =>
        have characters := ((needsQuotes_eq_false_iff value).mp needs).2
        rw [renderText_of_plain needs] at same
        cases needs' : needsQuotes value' with
        | true =>
            -- The quote of the second value would be a character of the first, which
            -- then had quotes.
            rw [toList_renderText_of_needsQuotes needs'] at same
            cases characters '"' (by simp [same])
        | false =>
            rw [renderText_of_plain needs'] at same
            refine ⟨?_, rfl⟩
            rw [← String.toList_inj, same, String.toList_append]
            rfl
  · rintro ⟨rfl, plain⟩
    have plain' : needsQuotes ("=" ++ value') = false :=
      (needsQuotes_equal_append value').mpr
        ((needsQuotes_eq_false_iff value').mp plain).2
    rw [renderText_of_plain plain, renderText_of_plain plain', String.toList_append]
    rfl

/-! ## Comparisons -/

structure SameQuestion (first second : Comparison) : Prop where
  field : first.field.dotted = second.field.dotted
  operator : first.operator = second.operator
  value : literalText first.literal = literalText second.literal

/-- The value of the first comparison starts with the `=` that ends the sign of the
second. -/
structure Overlap (first second : Comparison) : Prop where
  field : first.field.dotted = second.field.dotted
  operator : orEqual? first.operator = some second.operator
  value : literalText first.literal = "=" ++ literalText second.literal
  plain : needsQuotes (literalText second.literal) = false

theorem askedText_eq_of_overlap {first second : Comparison}
    (overlap : Overlap first second) : askedText first = askedText second := by
  have values := renderText_eq_equal_cons.mpr ⟨overlap.value, overlap.plain⟩
  rw [← String.toList_inj, askedText, askedText, String.toList_append,
    String.toList_append, values, render_of_orEqual? overlap.operator,
    List.append_assoc, List.singleton_append]

/-- Two comparisons have the same text exactly if they ask the same, or if one of them
has a value that is taken for the end of the other's sign. -/
theorem renderFilter_comparison_eq_iff (first second : Comparison) :
    renderFilter (.comparison first) = renderFilter (.comparison second) ↔
      SameQuestion first second ∨ Overlap first second ∨ Overlap second first := by
  rw [renderFilter, renderFilter, renderComparison_inj]
  constructor
  · rintro ⟨field, asked⟩
    rw [← String.toList_inj, askedText, askedText, String.toList_append,
      String.toList_append] at asked
    rcases render_append_cases asked with
      ⟨operator, value⟩ | ⟨operator, value⟩ | ⟨operator, value⟩
    · exact .inl ⟨field, operator, renderText_inj.mp (String.toList_inj.mp value)⟩
    · rcases renderText_eq_equal_cons.mp value with ⟨value, plain⟩
      exact .inr (.inl ⟨field, operator, value, plain⟩)
    · rcases renderText_eq_equal_cons.mp value with ⟨value, plain⟩
      exact .inr (.inr ⟨field.symm, operator, value, plain⟩)
  · rintro (same | overlap | overlap)
    · exact ⟨same.field, by rw [askedText, askedText, same.operator, same.value]⟩
    · exact ⟨overlap.field, askedText_eq_of_overlap overlap⟩
    · exact ⟨overlap.field.symm, (askedText_eq_of_overlap overlap).symm⟩

/-- More than the text `=5`, and five or more. -/
theorem renderFilter_comparison_overlaps :
    renderFilter (.comparison ⟨.name "a", .greater, .text "=5", true⟩) =
        renderFilter (.comparison
          ⟨.name "a", .greaterOrEqual, .number (.ofRank false 4617315517961601024),
            false⟩) ∧
      ¬ SameQuestion ⟨.name "a", .greater, .text "=5", true⟩
        ⟨.name "a", .greaterOrEqual, .number (.ofRank false 4617315517961601024),
          false⟩ := by
  constructor
  · decide +kernel
  · intro same
    cases same.operator

end LogQuery.LogsQl
