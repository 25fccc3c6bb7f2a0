import LogQuery.Proofs.LogsQl.Filter
import Mathlib.Data.List.DropRight

/-!
White space in the text of a filter. Blanks stand between the comparisons and beside
`or`. Whatever other white space is outside of quotes belongs to a name or a value, and
takes it apart for a reader that divides the text at white space of all kinds. Only some
kinds call for quotes, so this happens exactly where a name or a value has white space
and no quotes.
-/

namespace LogQuery.LogsQl

/-! ## Dividing at white space -/

def isGap (piece : Char × Place) : Bool :=
  piece.2 == .outside && Text.isSpace piece.1

def stretches (text : String) : List (List (Char × Place)) :=
  (placed .outside text.toList).splitOnP isGap

def unparenthesized (text : List Char) : List Char :=
  (text.dropWhile (· == '(')).rdropWhile (· == ')')

def stretchItem (row : List (Char × Place)) : String :=
  String.ofList (unparenthesized (row.map Prod.fst))

/-- The items between the white space outside of quotes, without parentheses and without
`or`. -/
def spacedItems (text : String) : List String :=
  ((stretches text).map stretchItem).filter fun item => item != "" && item != "or"

example : spacedItems "(a:=\"x y\" or (b:=1 or c:=\")\")) d:=2" =
    ["a:=\"x y\"", "b:=1", "c:=\")\"", "d:=2"] := by
  decide +kernel

theorem unparenthesized_closing (text : List Char) :
    unparenthesized (text ++ [')']) = unparenthesized text := by
  rw [unparenthesized, List.dropWhile_append]
  split
  · next nothing =>
      rw [unparenthesized, List.isEmpty_iff.mp nothing]
      rfl
  · exact List.rdropWhile_concat_pos (· == ')') _ ')' rfl

theorem mem_unparenthesized {text : List Char} {c : Char} (member : c ∈ text)
    (noOpening : c ≠ '(') (noClosing : c ≠ ')') : c ∈ unparenthesized text := by
  have kept {test : Char → Bool} {text : List Char} (member : c ∈ text)
      (fails : ¬ test c = true) : c ∈ text.dropWhile test := by
    rw [← List.takeWhile_append_dropWhile (p := test) (l := text),
      List.mem_append] at member
    exact member.resolve_left fun taken => fails (List.mem_takeWhile_imp taken)
  rw [unparenthesized, List.rdropWhile, List.mem_reverse]
  apply kept
  · rw [List.mem_reverse]
    exact kept member (by simpa using noOpening)
  · simpa using noClosing

theorem length_unparenthesized_le (text : List Char) :
    (unparenthesized text).length ≤ text.length := by
  have front := (List.dropWhile_sublist (l := text) (· == '(')).length_le
  have back :=
    (List.rdropWhile_prefix (· == ')') (l := text.dropWhile (· == '('))).length_le
  exact Nat.le_trans back front

theorem Solid.unparenthesized_eq {text : List Char} (solid : Solid text) :
    unparenthesized text = text := by
  have front : text.dropWhile (· == '(') = text := by
    cases text with
    | nil => rfl
    | cons c rest =>
        have mark := solid.whole (c, .outside) List.mem_cons_self rfl
        apply List.dropWhile_cons_of_neg
        intro opening
        rw [eq_of_beq opening] at mark
        cases mark
  rw [unparenthesized, front, List.rdropWhile_eq_self_iff]
  intro nonempty closing
  have parts := List.dropLast_append_getLast nonempty
  rw [eq_of_beq closing] at parts
  have closed := solid.closed
  rw [← parts, behind_append] at closed
  -- Only outside of quotes is a parenthesis followed by what is outside.
  have outside : Place.outside.behind text.dropLast = .outside := by
    cases place : Place.outside.behind text.dropLast with
    | outside => rfl
    | quoted =>
        rw [place] at closed
        cases closed
    | escaped =>
        rw [place] at closed
        cases closed
  have last : (')', Place.outside) ∈ placed .outside text := by
    rw [← parts, placed_append, outside]
    exact List.mem_append_right _ List.mem_cons_self
  cases solid.whole _ last rfl

/-! ## Names and values with white space -/

/-- The name and the value of a comparison have quotes if they have white space. -/
def SpacesQuoted (comparison : Comparison) : Prop :=
  ∀ text ∈ [comparison.field.dotted, literalText comparison.literal],
    text.toList.any Text.isSpace = true → needsQuotes text = true

theorem not_isSpace_operator (operator : Operator) :
    operator.render.toList.any Text.isSpace = false := by
  cases operator <;> rfl

theorem mem_placed_renderComparison_iff (comparison : Comparison) {c : Char}
    (space : Text.isSpace c = true) :
    (c, Place.outside) ∈ placed .outside (renderComparison comparison).toList ↔
      ∃ text ∈ [comparison.field.dotted, literalText comparison.literal],
        needsQuotes text = false ∧ c ∈ text.toList := by
  have noQuote : c ≠ '"' := by
    rintro rfl
    cases space
  have noColon : c ≠ ':' := by
    rintro rfl
    cases space
  have sign :
      (c, Place.outside) ∉ placed .outside comparison.operator.render.toList := by
    intro member
    have inside := List.mem_map_of_mem (f := Prod.fst) member
    rw [map_fst_placed] at inside
    have found := List.any_eq_true.mpr ⟨c, inside, space⟩
    rw [not_isSpace_operator] at found
    cases found
  have asked : placed .outside (':' :: (askedText comparison).toList) =
      (':', .outside) :: (placed .outside comparison.operator.render.toList ++
        placed .outside (renderText (literalText comparison.literal)).toList) := by
    have operator := solid_of_plain (operator_chars comparison.operator)
    have colon : Place.outside.next ':' = .outside := rfl
    rw [placed, colon, askedText, String.toList_append, placed_append, operator.closed]
  rw [toList_renderComparison, placed_append, (solid_renderText _).closed, asked]
  simp [mem_placed_renderText_iff _ noQuote, sign, noColon]

theorem spacesQuoted_iff (comparison : Comparison) :
    SpacesQuoted comparison ↔
      ∀ piece ∈ placed .outside (renderComparison comparison).toList,
        isGap piece = false := by
  constructor
  · rintro quoted ⟨c, place⟩ member
    rw [Bool.eq_false_iff]
    intro gap
    simp only [isGap, Bool.and_eq_true, beq_iff_eq] at gap
    rw [gap.1] at member
    rcases (mem_placed_renderComparison_iff comparison gap.2).mp member with
      ⟨text, source, bare, inside⟩
    rw [quoted text source (List.any_eq_true.mpr ⟨c, inside, gap.2⟩)] at bare
    cases bare
  · intro gapless text source spaces
    rcases List.any_eq_true.mp spaces with ⟨c, inside, space⟩
    by_contra bare
    rw [Bool.not_eq_true] at bare
    have member :=
      (mem_placed_renderComparison_iff comparison space).mpr
        ⟨text, source, bare, inside⟩
    have noGap := gapless _ member
    rw [isGap, space] at noGap
    cases noGap

theorem stretches_of_spacesQuoted {comparison : Comparison}
    (quoted : SpacesQuoted comparison) :
    stretches (renderComparison comparison) =
      [placed .outside (renderComparison comparison).toList] :=
  List.splitOnP_eq_singleton ((spacesQuoted_iff comparison).mp quoted)

theorem colon_mem_renderComparison (comparison : Comparison) :
    (':', Place.outside) ∈ placed .outside (renderComparison comparison).toList := by
  rw [toList_renderComparison, placed_append, (solid_renderText _).closed]
  exact List.mem_append_right _ List.mem_cons_self

theorem spacedItems_renderComparison_ne_nil (comparison : Comparison) :
    spacedItems (renderComparison comparison) ≠ [] := by
  rcases @Text.mem_splitOnP _ isGap _ _ (colon_mem_renderComparison comparison) with
    gap | ⟨row, member, inside⟩
  · cases gap
  · have colon : ':' ∈ (stretchItem row).toList := by
      rw [stretchItem, String.toList_ofList]
      exact mem_unparenthesized (List.mem_map_of_mem (f := Prod.fst) inside) (by decide)
        (by decide)
    have noWord (word : String) (noColon : ':' ∉ word.toList) :
        stretchItem row ≠ word := by
      rintro rfl
      exact noColon colon
    apply List.ne_nil_of_mem (a := stretchItem row)
    rw [spacedItems, List.mem_filter]
    refine ⟨List.mem_map_of_mem member, ?_⟩
    simp [noWord "" (by decide), noWord "or" (by decide)]

theorem spacedItems_renderComparison_iff (comparison : Comparison) :
    spacedItems (renderComparison comparison) = [renderComparison comparison] ↔
      SpacesQuoted comparison := by
  constructor
  · intro single
    have member :
        renderComparison comparison ∈ spacedItems (renderComparison comparison) := by
      rw [single]
      exact List.mem_cons_self
    rcases List.mem_map.mp (List.mem_filter.mp member).1 with ⟨row, source, same⟩
    have longer := length_unparenthesized_le (row.map Prod.fst)
    rw [← String.toList_inj, stretchItem, String.toList_ofList] at same
    rw [same, List.length_map] at longer
    rw [spacesQuoted_iff]
    intro piece inside
    rw [Bool.eq_false_iff]
    intro gap
    -- A gap is in none of the runs, so all of them are shorter than the text.
    have shorter := Text.length_lt_of_mem_splitOnP source inside gap
    have width :=
      congrArg List.length
        (map_fst_placed .outside (renderComparison comparison).toList)
    rw [List.length_map] at width
    omega
  · intro quoted
    have item : stretchItem (placed .outside (renderComparison comparison).toList) =
        renderComparison comparison := by
      rw [stretchItem, map_fst_placed,
        (solid_renderComparison comparison).unparenthesized_eq, String.ofList_toList]
    have nonempty : renderComparison comparison ≠ "" :=
      renderComparison_ne comparison (by decide)
    rw [spacedItems, stretches_of_spacesQuoted quoted, List.map_singleton, item]
    simp [renderComparison_ne_or, nonempty]

/-! ## Filters -/

def gapCount (text : String) : Nat :=
  (placed .outside text.toList).countP isGap

def foreignGaps (comparisons : List Comparison) : Nat :=
  (comparisons.flatMap fun comparison =>
    placed .outside (renderComparison comparison).toList).countP isGap

theorem foreignGaps_append (first second : List Comparison) :
    foreignGaps (first ++ second) = foreignGaps first + foreignGaps second := by
  rw [foreignGaps, List.flatMap_append, List.countP_append]
  rfl

theorem foreignGaps_eq_zero {comparisons : List Comparison}
    (quoted : ∀ comparison ∈ comparisons, SpacesQuoted comparison) :
    foreignGaps comparisons = 0 := by
  rw [foreignGaps, List.countP_eq_zero]
  intro piece member
  rcases List.mem_flatMap.mp member with ⟨comparison, source, inside⟩
  rw [(spacesQuoted_iff comparison).mp (quoted comparison source) piece inside]
  exact Bool.false_ne_true

mutual

def ownBlanks : Filter → Nat
  | .comparison _ => 0
  | .group inner => ownBlanks inner
  | .logical .and children => (children.length - 1) + ownBlanksOf children
  | .logical .or children => 2 * (children.length - 1) + ownBlanksOf children

def ownBlanksOf : List Filter → Nat
  | [] => 0
  | child :: rest => ownBlanks child + ownBlanksOf rest

end

structure Blanked (text : String) (count : Nat) : Prop where
  blanks : ∀ piece ∈ placed .outside text.toList, isGap piece = true → piece.1 = ' '
  counted : gapCount text = count

theorem stretches_beside {first : String} (second : String)
    (closed : Place.outside.behind first.toList = .outside) :
    stretches (first ++ " " ++ second) = stretches first ++ stretches second := by
  rw [stretches, placed_beside closed]
  exact List.splitOnP_append_cons _ _ rfl

theorem stretches_enclosed {text : String}
    (closed : Place.outside.behind text.toList = .outside) :
    ∃ front last, stretches text = front ++ [last] ∧
      stretches ("(" ++ text ++ ")") =
        (front ++ [last ++ [(')', .outside)]]).modifyHead (('(', .outside) :: ·) := by
  have stays : isGap (')', .outside) = false := rfl
  have opening : isGap ('(', .outside) = false := rfl
  rcases Text.splitOnP_concat stays (placed .outside text.toList) with
    ⟨front, last, inner, outer⟩
  refine ⟨front, last, inner, ?_⟩
  rw [stretches, placed_enclosed closed, List.splitOnP_cons_eq_if_modifyHead, opening,
    outer]
  rfl

theorem stretchItem_opening (row : List (Char × Place)) :
    stretchItem (('(', .outside) :: row) = stretchItem row :=
  rfl

theorem stretchItem_closing (row : List (Char × Place)) :
    stretchItem (row ++ [(')', .outside)]) = stretchItem row := by
  rw [stretchItem, List.map_append]
  exact congrArg String.ofList (unparenthesized_closing _)

/-- What the reader finds in a text that these comparisons are written in, with so many
blanks of its own. -/
structure Spaced (text : String) (comparisons : List Comparison) (own : Nat) :
    Prop where
  closed : Place.outside.behind text.toList = .outside
  items : spacedItems text = comparisons.flatMap fun comparison =>
    spacedItems (renderComparison comparison)
  blanks : (∀ piece ∈ placed .outside text.toList, isGap piece = true → piece.1 = ' ') ↔
    ∀ comparison ∈ comparisons, SpacesQuoted comparison
  gaps : gapCount text = own + foreignGaps comparisons

namespace Spaced

variable {first second : String} {comparisons others : List Comparison} {own more : Nat}

theorem comparison (comparison : Comparison) :
    Spaced (renderComparison comparison) [comparison] 0 where
  closed := (solid_renderComparison comparison).closed
  items := by simp
  blanks := by
    rw [List.forall_mem_singleton, spacesQuoted_iff]
    constructor
    · intro blanks piece member
      rw [Bool.eq_false_iff]
      intro gap
      have outside : piece.2 = .outside := by
        simp only [isGap, Bool.and_eq_true, beq_iff_eq] at gap
        exact gap.1
      have mark := (solid_renderComparison comparison).whole piece member outside
      rw [blanks piece member gap] at mark
      cases mark
    · intro gapless piece member gap
      rw [gapless piece member] at gap
      cases gap
  gaps := by simp [gapCount, foreignGaps]

theorem nothing : Spaced "" [] 0 where
  closed := rfl
  items := by decide +kernel
  blanks := iff_of_true (by decide) (List.forall_mem_nil _)
  gaps := rfl

theorem orSign : Spaced "or" [] 0 where
  closed := by decide
  items := by decide +kernel
  blanks := iff_of_true (by decide +kernel) (List.forall_mem_nil _)
  gaps := by decide +kernel

theorem beside (one : Spaced first comparisons own) (two : Spaced second others more) :
    Spaced (first ++ " " ++ second) (comparisons ++ others) (own + 1 + more) where
  closed := by
    rw [behind_beside one.closed]
    exact two.closed
  items := by
    rw [spacedItems, stretches_beside second one.closed, List.map_append,
      List.filter_append, List.flatMap_append, ← one.items, ← two.items]
    rfl
  blanks := by
    rw [placed_beside one.closed, List.forall_mem_append, List.forall_mem_cons,
      List.forall_mem_append, one.blanks, two.blanks]
    simp
  gaps := by
    have blank : isGap (' ', .outside) = true := rfl
    have joined :
        gapCount (first ++ " " ++ second) = gapCount first + (gapCount second + 1) := by
      rw [gapCount, placed_beside one.closed, List.countP_append,
        List.countP_cons_of_pos blank]
      rfl
    rw [joined, one.gaps, two.gaps, foreignGaps_append]
    omega

theorem either (one : Spaced first comparisons own) (two : Spaced second others more) :
    Spaced (first ++ " or " ++ second) (comparisons ++ others) (own + 2 + more) := by
  have spaced := (one.beside orSign).beside two
  have same : first ++ " " ++ "or" ++ " " ++ second = first ++ " or " ++ second := by
    simp only [String.append_assoc]
    rfl
  rwa [same, List.append_nil] at spaced

theorem enclosed (inner : Spaced first comparisons own) :
    Spaced ("(" ++ first ++ ")") comparisons own := by
  have opening : isGap ('(', .outside) = false := rfl
  have closing : isGap (')', .outside) = false := rfl
  refine ⟨behind_enclosed inner.closed, ?_, ?_, ?_⟩
  · rcases stretches_enclosed inner.closed with ⟨front, last, inside, outside⟩
    have same : (stretches ("(" ++ first ++ ")")).map stretchItem =
        (stretches first).map stretchItem := by
      rw [outside, inside]
      cases front with
      | nil => simp [stretchItem_opening, stretchItem_closing]
      | cons row front => simp [stretchItem_opening, stretchItem_closing]
    rw [spacedItems, same]
    exact inner.items
  · rw [placed_enclosed inner.closed, List.forall_mem_cons, List.forall_mem_append,
      inner.blanks]
    simp [opening, closing]
  · rw [← inner.gaps, gapCount, placed_enclosed inner.closed]
    simp [gapCount, opening, closing]

theorem row {separator : String} {width : Nat}
    (joins : ∀ {first second comparisons others own more},
      Spaced first comparisons own →
      Spaced second others more →
        Spaced (first ++ separator ++ second) (comparisons ++ others)
          (own + width + more))
    (children : List Filter)
    (each : ∀ child ∈ children,
      Spaced (renderFilter child) child.comparisons (ownBlanks child)) :
    Spaced (separator.intercalate (children.map renderFilter))
      (Filter.comparisonsOf children)
      (width * (children.length - 1) + ownBlanksOf children) := by
  induction children with
  | nil => exact nothing
  | cons first others induction =>
      rw [List.forall_mem_cons] at each
      cases others with
      | nil => simpa [Filter.comparisonsOf, ownBlanksOf] using each.1
      | cons second others =>
          have joined := joins each.1 (induction each.2)
          have total : ownBlanks first + width +
              (width * ((second :: others).length - 1) +
                ownBlanksOf (second :: others)) =
              width * ((first :: second :: others).length - 1) +
                ownBlanksOf (first :: second :: others) := by
            rw [ownBlanksOf.eq_2 first]
            simp only [List.length_cons, Nat.add_sub_cancel, Nat.mul_succ]
            omega
          rw [List.map_cons, List.map_cons, String.intercalate_cons_cons,
            Filter.comparisonsOf, ← total]
          exact joined

theorem filter (filter : Filter) :
    Spaced (renderFilter filter) filter.comparisons (ownBlanks filter) := by
  cases filter with
  | comparison value => exact comparison value
  | group inner => exact Spaced.filter inner
  | logical connective children =>
      have each : ∀ child ∈ children,
          Spaced (renderFilter child) child.comparisons (ownBlanks child) :=
        fun child _ => Spaced.filter child
      cases connective with
      | and =>
          have spaced := row beside children each
          rw [Nat.one_mul, ← renderOperands_eq_map] at spaced
          exact spaced
      | or =>
          have spaced := (row either children each).enclosed
          rw [← renderOperands_eq_map] at spaced
          exact spaced

end Spaced

/-- The white space outside of quotes is that of the filter's own text, and an item is
found for each comparison, its own text, exactly if every name and every value with
white space has quotes. -/
theorem renderFilter_spaced_iff (filter : Filter) :
    (Blanked (renderFilter filter) (ownBlanks filter) ↔
      ∀ comparison ∈ filter.comparisons, SpacesQuoted comparison) ∧
    (spacedItems (renderFilter filter) = filter.comparisons.map renderComparison ↔
      ∀ comparison ∈ filter.comparisons, SpacesQuoted comparison) := by
  have spaced := Spaced.filter filter
  constructor
  · constructor
    · intro blanked
      exact spaced.blanks.mp blanked.blanks
    · intro quoted
      refine ⟨spaced.blanks.mpr quoted, ?_⟩
      rw [spaced.gaps, foreignGaps_eq_zero quoted, Nat.add_zero]
  · have found :
        ∀ comparison ∈ filter.comparisons,
          spacedItems (renderComparison comparison) ≠ [] :=
      fun comparison _ => spacedItems_renderComparison_ne_nil comparison
    rw [spaced.items, Text.flatMap_eq_map_iff found]
    exact forall₂_congr fun comparison _ => spacedItems_renderComparison_iff comparison

def spaciousFilter : Filter :=
  .combine .or
    (.comparison ⟨.nested "a b" ["\u3000:"], .equal, .text "x\u00a0 y", true⟩)
    [.group (.combine .and (.comparison ⟨.name "or", .notEqual, .word "or", false⟩)
      [.comparison ⟨.name "c", .contains, .text "\t(\x0b", true⟩])]

theorem renderFilter_spaced_iff_spacious :
    (∀ comparison ∈ spaciousFilter.comparisons, SpacesQuoted comparison) ∧
      Blanked (renderFilter spaciousFilter) 3 ∧
      spacedItems (renderFilter spaciousFilter) =
        spaciousFilter.comparisons.map renderComparison := by
  have quoted : ∀ comparison ∈ spaciousFilter.comparisons, SpacesQuoted comparison := by
    unfold SpacesQuoted
    decide +kernel
  rcases renderFilter_spaced_iff spaciousFilter with ⟨blanked, items⟩
  exact ⟨quoted, blanked.mpr quoted, items.mpr quoted⟩

def unbrokenFilter : Filter :=
  .comparison ⟨.name "a", .equal, .text "x\u00a0y", true⟩

/-- A no-break space without quotes makes two items of one comparison. -/
theorem renderFilter_comes_apart :
    spacedItems (renderFilter unbrokenFilter) = ["a:=x", "y"] ∧
      ¬ Blanked (renderFilter unbrokenFilter) (ownBlanks unbrokenFilter) := by
  refine ⟨by decide +kernel, ?_⟩
  intro blanked
  have shown :
      ('\u00a0', Place.outside) ∈ placed .outside
        (renderFilter unbrokenFilter).toList := by
    decide +kernel
  exact absurd (blanked.blanks _ shown rfl) (by decide)

end LogQuery.LogsQl
