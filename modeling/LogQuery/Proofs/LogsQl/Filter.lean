import LogQuery.Proofs.Conjuncts
import LogQuery.Proofs.LogsQl.Comparison
import LogQuery.Proofs.LogsQl.Words

/-!
Written filters are read back. The reader knows four things: words side by side must all
hold, `or` binds less tightly, parentheses bind tighter, and everything else is a
comparison. To it the text of a filter has the comparisons of the filter and its truth,
and no `or` outside of parentheses, so that what is put beside the text narrows all of
it.
-/

namespace LogQuery.LogsQl

/-! ## Reading conditions -/

namespace Word

def startsTerm : Word → Bool
  | opening => true
  | closing => false
  | item text => text != "or"

def endsTerm : Word → Bool
  | opening => false
  | closing => true
  | item text => text != "or"

def toItem : Word → Formula.Item String
  | opening => .opening
  | closing => .closing
  | item text => if text = "or" then .connective .or else .atom text

end Word

def beside (afterTerm : Bool) : List (Formula.Item String) :=
  if afterTerm then [.connective .and] else []

def items (afterTerm : Bool) : List Word → List (Formula.Item String)
  | [] => []
  | word :: rest =>
      beside (afterTerm && word.startsTerm) ++ word.toItem :: items word.endsTerm rest

def readFormula? (text : String) : Option (Formula String) :=
  if Place.outside.behind text.toList = .outside then
    Formula.ofItems? (items false (words text))
  else none

/-- Whether every `or` stands in parentheses, at some depth of parentheses to begin
with. -/
def sheltered (depth : Nat) : List Word → Bool
  | [] => true
  | .opening :: rest => sheltered (depth + 1) rest
  | .closing :: rest => depth != 0 && sheltered (depth - 1) rest
  | .item text :: rest => (text != "or" || depth != 0) && sheltered depth rest

/-! ## Comparisons -/

theorem operator_chars (operator : Operator) :
    operator.render.toList.all isItemChar = true := by
  cases operator <;> decide

theorem solid_renderComparison (comparison : Comparison) :
    Solid (renderComparison comparison).toList := by
  have colon : Solid [':'] := solid_of_plain (by decide)
  have operator := solid_of_plain (operator_chars comparison.operator)
  have asked := operator.append (solid_renderText (literalText comparison.literal))
  rw [toList_renderComparison, askedText, String.toList_append]
  exact (solid_renderText comparison.field.dotted).append (colon.append asked)

theorem renderComparison_ne (comparison : Comparison) {text : String}
    (noColon : ':' ∉ text.toList) : renderComparison comparison ≠ text := by
  rintro rfl
  exact noColon (by simp [toList_renderComparison])

theorem renderComparison_ne_or (comparison : Comparison) :
    renderComparison comparison ≠ "or" :=
  renderComparison_ne comparison (by decide)

/-! ## Words of filters -/

def connectiveWords : Connective → List Word
  | .and => []
  | .or => [.item "or"]

mutual

def filterWords : Filter → List Word
  | .comparison comparison => [.item (renderComparison comparison)]
  | .group inner => filterWords inner
  | .logical .and children => (connectiveWords .and).intercalate (operandWords children)
  | .logical .or children =>
      .opening ::
        ((connectiveWords .or).intercalate (operandWords children) ++ [.closing])

def operandWords : List Filter → List (List Word)
  | [] => []
  | child :: rest => filterWords child :: operandWords rest

end

theorem operandWords_eq_map (filters : List Filter) :
    operandWords filters = filters.map filterWords := by
  induction filters with
  | nil => rfl
  | cons child rest induction => rw [operandWords, induction, List.map_cons]

theorem renderOperands_eq_map (filters : List Filter) :
    renderOperands filters = filters.map renderFilter := by
  induction filters with
  | nil => rfl
  | cons child rest induction => rw [renderOperands, induction, List.map_cons]

namespace Reads

theorem disjunction {first second : String} {found others : List Word}
    (one : Reads first found) (two : Reads second others) :
    Reads (first ++ " or " ++ second) (found ++ connectiveWords .or ++ others) := by
  have sign : Reads "or" [.item "or"] := item (by decide) (solid_of_plain (by decide))
  have reads := (one.blank sign).blank two
  have same : first ++ " " ++ "or" ++ " " ++ second = first ++ " or " ++ second := by
    simp only [String.append_assoc]
    rfl
  rwa [same] at reads

theorem conjunction {first second : String} {found others : List Word}
    (one : Reads first found) (two : Reads second others) :
    Reads (first ++ " " ++ second) (found ++ connectiveWords .and ++ others) := by
  rw [connectiveWords, List.append_nil]
  exact one.blank two

theorem intercalate {separator : String} {between : List Word}
    (joins : ∀ {first second found others}, Reads first found → Reads second others →
      Reads (first ++ separator ++ second) (found ++ between ++ others))
    {filters : List Filter}
    (each : ∀ child ∈ filters, Reads (renderFilter child) (filterWords child)) :
    Reads (separator.intercalate (filters.map renderFilter))
      (between.intercalate (filters.map filterWords)) := by
  induction filters with
  | nil => exact empty
  | cons first others induction =>
      cases others with
      | nil => simpa using each first
      | cons second others =>
          have onward :=
            induction fun child member => each child (List.mem_cons_of_mem first member)
          simp only [List.map_cons, String.intercalate_cons_cons,
            List.intercalate_cons_cons] at onward ⊢
          exact joins (each first List.mem_cons_self) onward

theorem filter (filter : Filter) :
    Reads (renderFilter filter) (filterWords filter) := by
  cases filter with
  | comparison comparison =>
      exact item (renderComparison_ne comparison (by decide))
        (solid_renderComparison comparison)
  | group inner => exact Reads.filter inner
  | logical connective children =>
      have each : ∀ child ∈ children, Reads (renderFilter child) (filterWords child) :=
        fun child _ => Reads.filter child
      cases connective with
      | and =>
          rw [renderFilter, filterWords, renderOperands_eq_map, operandWords_eq_map]
          exact intercalate conjunction each
      | or =>
          rw [renderFilter, filterWords, renderOperands_eq_map, operandWords_eq_map]
          exact (intercalate disjunction each).enclosed

end Reads

/-! ## Items of filters -/

/-- Words are read as these items wherever a term can stand. -/
def Itemized (found : List Word) (row : List (Formula.Item String)) : Prop :=
  ∀ afterTerm rest,
    items afterTerm (found ++ rest) = beside afterTerm ++ row ++ items true rest

namespace Itemized

theorem item {text : String} (ordinary : text ≠ "or") :
    Itemized [.item text] [.atom text] := by
  intro afterTerm rest
  have term : (text != "or") = true := bne_iff_ne.mpr ordinary
  simp [items, Word.startsTerm, Word.endsTerm, Word.toItem, ordinary, term]

/-- A term behind another one brings the `and` between them, unless there is an `or`. -/
theorem connected (connective : Connective) {found others : List Word}
    {row row' : List (Formula.Item String)} (one : Itemized found row)
    (two : Itemized others row') :
    Itemized (found ++ connectiveWords connective ++ others)
      (row ++ [.connective connective] ++ row') := by
  intro afterTerm rest
  rw [List.append_assoc, List.append_assoc, one]
  cases connective with
  | and =>
      rw [connectiveWords, List.nil_append, two]
      simp [beside]
  | or =>
      have fresh : items false (others ++ rest) = row' ++ items true rest :=
        two false rest
      simp [connectiveWords, items, Word.startsTerm, Word.endsTerm, Word.toItem, fresh,
        beside]

theorem enclosed {found : List Word} {row : List (Formula.Item String)}
    (inner : Itemized found row) :
    Itemized (.opening :: (found ++ [.closing])) (.opening :: (row ++ [.closing])) := by
  intro afterTerm rest
  have inside :
      items false (found ++ .closing :: rest) = row ++ .closing :: items true rest :=
    inner false (.closing :: rest)
  simp [items, Word.startsTerm, Word.endsTerm, Word.toItem, inside]

theorem intercalate (connective : Connective) (first : Filter) (others : List Filter)
    (each : ∀ child ∈ first :: others,
      Itemized (filterWords child) (child.looseItems renderComparison)) :
    Itemized
      ((connectiveWords connective).intercalate ((first :: others).map filterWords))
      ([.connective connective].intercalate
        ((first :: others).map (Filter.looseItems renderComparison))) := by
  induction others generalizing first with
  | nil => simpa using each first
  | cons second others induction =>
      have onward :=
        induction second fun child member =>
          each child (List.mem_cons_of_mem first member)
      simp only [List.map_cons, List.intercalate_cons_cons] at onward ⊢
      exact connected connective (each first List.mem_cons_self) onward

theorem filter : ∀ filter : Filter, filter.Flat →
    Itemized (filterWords filter) (filter.looseItems renderComparison)
  | .comparison comparison, _ => item (renderComparison_ne_or comparison)
  | .group inner, flat => Itemized.filter inner flat
  | .logical connective [], flat => absurd flat.1 (by simp)
  | .logical connective (first :: others), flat => by
      have each : ∀ child ∈ first :: others,
          Itemized (filterWords child) (child.looseItems renderComparison) :=
        fun child member =>
          Itemized.filter child ((Filter.allFlat_iff _).mp flat.2.2 child member)
      have row := intercalate connective first others each
      rw [← operandWords_eq_map, ← Filter.looseItemsOf_eq_map] at row
      cases connective with
      | and => exact row
      | or => exact row.enclosed

end Itemized

/-! ## Filters read back -/

theorem readFormula?_of_reads {text : String} {found : List Word}
    {row : List (Formula.Item String)} {terms : List (Formula String)}
    (reads : Reads text found) (itemized : Itemized found row)
    (readsAsTerms : Filter.ReadsAsTerms row terms) :
    readFormula? text = some (.join .and terms) := by
  have whole := itemized false []
  rw [List.append_nil, items, List.append_nil] at whole
  rw [readFormula?, if_pos reads.closed, reads.words_eq, whole]
  exact Filter.ofItems?_of_readsAsTerms readsAsTerms

theorem readFormula?_filter {filter : Filter} (flat : filter.Flat) :
    readFormula? (renderFilter filter) =
      some (.join .and (filter.conjuncts renderComparison)) :=
  readFormula?_of_reads (.filter filter) (.filter filter flat)
    (Filter.readsAsTerms_looseItems renderComparison filter flat)

theorem renderFilter_ne_empty {filter : Filter} (flat : filter.Flat) :
    renderFilter filter ≠ "" := by
  intro empty
  have read := readFormula?_filter flat
  rw [empty] at read
  cases read

/-! ## Alternatives in parentheses -/

theorem sheltered_row (connective : Connective) (depth : Nat)
    (joins : ∀ rest,
      sheltered depth (connectiveWords connective ++ rest) = sheltered depth rest)
    {filters : List Filter}
    (each : ∀ child ∈ filters, ∀ rest,
      sheltered depth (filterWords child ++ rest) = sheltered depth rest)
    (rest : List Word) :
    sheltered depth
      ((connectiveWords connective).intercalate (filters.map filterWords) ++ rest) =
      sheltered depth rest := by
  induction filters with
  | nil => rfl
  | cons first others induction =>
      cases others with
      | nil => simpa using each first List.mem_cons_self rest
      | cons second others =>
          have onward :=
            induction fun child member => each child (List.mem_cons_of_mem first member)
          simp only [List.map_cons, List.intercalate_cons_cons,
            List.append_assoc] at onward ⊢
          rw [each first List.mem_cons_self, joins, onward]

theorem sheltered_filterWords : ∀ (filter : Filter) (depth : Nat) (rest : List Word),
    sheltered depth (filterWords filter ++ rest) = sheltered depth rest
  | .comparison comparison, depth, rest => by
      simp [filterWords, sheltered, renderComparison_ne_or comparison]
  | .group inner, depth, rest => sheltered_filterWords inner depth rest
  | .logical .and children, depth, rest => by
      rw [filterWords, operandWords_eq_map]
      exact sheltered_row .and depth (fun _ => rfl)
        (fun child _ => sheltered_filterWords child depth) rest
  | .logical .or children, depth, rest => by
      have inside := sheltered_row .or (depth + 1)
        (by simp [connectiveWords, sheltered])
        (fun child (_ : child ∈ children) => sheltered_filterWords child (depth + 1))
        (.closing :: rest)
      rw [filterWords, operandWords_eq_map, List.cons_append, List.append_assoc,
        sheltered, List.singleton_append, inside]
      simp [sheltered]

end LogQuery.LogsQl
