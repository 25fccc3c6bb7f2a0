import LogQuery.Proofs.Derivation

/-!
The shape of filters. However a filter is put together from comparisons, joining splices
in what is already joined in the same way, and the comparisons stay in their order. The
filter of a query that was read has more shape than that: an `or` never stands directly
under an `and`.
-/

namespace LogQuery

namespace Filter

/-! ## Nodes -/

/-- A filter that is a part of another one, or all of it. -/
inductive Occurs (node : Filter) : Filter → Prop
  | here : Occurs node node
  | group {inner : Filter} (inside : Occurs node inner) : Occurs node (.group inner)
  | child {connective : Connective} {children : List Filter} {filter : Filter}
      (member : filter ∈ children) (inside : Occurs node filter) :
      Occurs node (.logical connective children)

def EveryJoin (Joined : Connective → List Filter → Prop) (filter : Filter) : Prop :=
  ∀ connective children, Occurs (.logical connective children) filter →
    Joined connective children

def Spliced (connective : Connective) (children : List Filter) : Prop :=
  2 ≤ children.length ∧ ∀ child ∈ children, ∀ inner, child ≠ .logical connective inner

/-- Whether a filter can stand under a connective without parentheses: comparisons and
groups can, and under `or` a chain of `and` can. -/
def fits : Connective → Filter → Bool
  | _, comparison _ => true
  | _, group _ => true
  | outer, logical inner _ => outer == .or && inner == .and

mutual

def nesting : Filter → Nat
  | comparison _ => 0
  | group inner => inner.nesting + 1
  | logical _ children => nestingOf children

def nestingOf : List Filter → Nat
  | [] => 0
  | child :: rest => max child.nesting (nestingOf rest)

end

theorem nestingOf_le_iff (limit : Nat) (filters : List Filter) :
    nestingOf filters ≤ limit ↔ ∀ filter ∈ filters, filter.nesting ≤ limit := by
  induction filters with
  | nil => simp [nestingOf]
  | cons child rest induction =>
      rw [nestingOf, Nat.max_le, induction, List.forall_mem_cons]

theorem Flat.of_occurs {node filter : Filter} (flat : filter.Flat)
    (occurs : Occurs node filter) : node.Flat := by
  induction occurs with
  | here => exact flat
  | group inside induction => exact induction flat
  | child member inside induction =>
      exact induction ((allFlat_iff _).mp flat.2.2 _ member)

theorem Flat.spliced {filter : Filter} (flat : filter.Flat) :
    filter.EveryJoin Spliced := by
  intro connective children occurs
  rcases flat.of_occurs occurs with ⟨several, whole, flat⟩
  refine ⟨several, ?_⟩
  rintro child member inner rfl
  -- A chain under the same connective would have itself as its only member.
  have same := whole _ member
  have length := ((allFlat_iff _).mp flat _ member).1
  rw [Filter.operands, if_pos rfl] at same
  rw [same, List.length_singleton] at length
  omega

section EveryJoin

variable {Joined : Connective → List Filter → Prop}

theorem everyJoin_comparison (value : Comparison) :
    (comparison value).EveryJoin Joined := by
  intro connective children occurs
  cases occurs

theorem EveryJoin.group {inner : Filter} (every : inner.EveryJoin Joined) :
    (group inner).EveryJoin Joined := by
  intro connective children occurs
  cases occurs with
  | group inside => exact every connective children inside

theorem everyJoin_logical {connective : Connective} {children : List Filter}
    (joined : Joined connective children)
    (every : ∀ child ∈ children, child.EveryJoin Joined) :
    (logical connective children).EveryJoin Joined := by
  intro inner others occurs
  cases occurs with
  | here => exact joined
  | child member inside => exact every _ member inner others inside

end EveryJoin

/-! ## Filters as they are put together -/

inductive Recipe
  | comparison (value : Comparison)
  | group (inner : Recipe)
  | combine (connective : Connective) (first : Recipe) (rest : List Recipe)

namespace Recipe

mutual

def build : Recipe → Filter
  | comparison value => .comparison value
  | group inner => .group inner.build
  | combine connective first rest => .combine connective first.build (buildAll rest)

def buildAll : List Recipe → List Filter
  | [] => []
  | recipe :: rest => recipe.build :: buildAll rest

end

mutual

def inputs : Recipe → List Comparison
  | comparison value => [value]
  | group inner => inner.inputs
  | combine _ first rest => first.inputs ++ inputsOf rest

def inputsOf : List Recipe → List Comparison
  | [] => []
  | recipe :: rest => recipe.inputs ++ inputsOf rest

end

mutual

theorem built : ∀ recipe : Recipe, recipe.build.Built
  | comparison value => .comparison value
  | group inner => .group inner.built
  | combine connective first rest => .combine connective first.built (builtAll rest)

theorem builtAll : ∀ recipes : List Recipe, ∀ filter ∈ buildAll recipes, filter.Built
  | [] => List.forall_mem_nil _
  | recipe :: rest => List.forall_mem_cons.mpr ⟨recipe.built, builtAll rest⟩

end

end Recipe

theorem comparisonsOf_operands (connective : Connective) (filter : Filter) :
    comparisonsOf (filter.operands connective) = filter.comparisons := by
  cases filter with
  | comparison value => rfl
  | group inner => exact List.append_nil _
  | logical inner children =>
      by_cases same : inner = connective
      · rw [operands, if_pos same, comparisons]
      · rw [operands, if_neg same, comparisonsOf, comparisonsOf, List.append_nil]

theorem comparisons_combine (connective : Connective) (first : Filter)
    (rest : List Filter) :
    (combine connective first rest).comparisons =
      first.comparisons ++ comparisonsOf rest := by
  have spliced : ∀ filters : List Filter,
      comparisonsOf (filters.flatMap (operands connective)) =
        comparisonsOf filters := by
    intro filters
    induction filters with
    | nil => rfl
    | cons filter filters induction =>
        rw [comparisonsOf, ← induction, ← comparisonsOf_operands connective filter,
          List.flatMap_cons]
        simp only [comparisonsOf_eq_flatMap, List.flatMap_append]
  cases rest with
  | nil => exact (List.append_nil _).symm
  | cons second rest => exact spliced (first :: second :: rest)

namespace Recipe

mutual

theorem comparisons_build : ∀ recipe : Recipe, recipe.build.comparisons = recipe.inputs
  | comparison _ => rfl
  | group inner => inner.comparisons_build
  | combine connective first rest => by
      rw [build, comparisons_combine, first.comparisons_build,
        comparisonsOf_buildAll rest, inputs]

theorem comparisonsOf_buildAll :
    ∀ recipes : List Recipe, comparisonsOf (buildAll recipes) = inputsOf recipes
  | [] => rfl
  | recipe :: rest => by
      rw [buildAll, comparisonsOf, recipe.comparisons_build,
        comparisonsOf_buildAll rest, inputsOf]

end

end Recipe

end Filter

/-! ## Filters as they are read -/

namespace Grammar

/-- What reading adds to the shape of a filter, with the depth to which its groups may
be nested. -/
structure Layered (depth : Nat) (filter : Filter) : Prop where
  fits :
    filter.EveryJoin fun connective children => ∀ child ∈ children,
      child.fits connective = true
  nesting : filter.nesting ≤ depth
  quoted :
    ∀ comparison ∈ filter.comparisons, comparison.quoted = comparison.literal.isText

theorem layered_fold {depth : Nat} {connective : Connective} {filters : List Filter}
    (fits : ∀ filter ∈ filters, filter.fits connective = true)
    (each : ∀ filter ∈ filters, Layered depth filter) :
    Layered depth (fold connective filters) := by
  have joined : Layered depth (.logical connective filters) := by
    refine ⟨?_, ?_, ?_⟩
    · exact Filter.everyJoin_logical fits fun filter member => (each filter member).fits
    · rw [Filter.nesting, Filter.nestingOf_le_iff]
      exact fun filter member => (each filter member).nesting
    · intro comparison member
      rw [Filter.comparisons, Filter.comparisonsOf_eq_flatMap] at member
      rcases List.mem_flatMap.mp member with ⟨filter, source, inside⟩
      exact (each filter source).quoted comparison inside
  simp only [fold]
  split
  · exact each _ List.mem_cons_self
  · exact joined

section

variable {options : ParseOptions} {depth : Nat} {tokens : List Token}

theorem Term.fits {filter : Filter} (term : Term options depth tokens filter)
    (connective : Connective) : filter.fits connective = true := by
  cases term <;> rfl

theorem Terms.fits {filters : List Filter} (terms : Terms options depth tokens filters)
    (connective : Connective) : ∀ filter ∈ filters, filter.fits connective = true :=
  terms.each fun term => term.fits connective

theorem Terms.fits_fold {filters : List Filter}
    (terms : Terms options depth tokens filters) :
    (fold .and filters).fits .or = true := by
  have fits := terms.fits .or
  simp only [fold]
  split
  · exact fits _ List.mem_cons_self
  · rfl

theorem Alternatives.fits {filters : List Filter}
    (alternatives : Alternatives options depth tokens filters) :
    ∀ filter ∈ filters, filter.fits .or = true :=
  alternatives.each fun terms => terms.fits_fold

end

section

variable {options : ParseOptions}

mutual

theorem Term.layered : ∀ {depth : Nat} {tokens : List Token} {filter : Filter},
    Term options depth tokens filter → Layered depth filter
  | _, _, _, .comparison _ _ _ _ => by
      refine ⟨Filter.everyJoin_comparison _, Nat.zero_le _, ?_⟩
      intro comparison member
      rw [List.mem_singleton.mp member, Literal.isText_ofToken]
  | _, _, _, .group _ _ inner => by
      have folded := layered_fold inner.fits inner.layered
      exact ⟨folded.fits.group, Nat.succ_le_succ folded.nesting, folded.quoted⟩

theorem Terms.layered : ∀ {depth : Nat} {tokens : List Token} {filters : List Filter},
    Terms options depth tokens filters → ∀ filter ∈ filters, Layered depth filter
  | _, _, _, .one term => List.forall_mem_singleton.mpr term.layered
  | _, _, _, .more term _ terms =>
      List.forall_mem_cons.mpr ⟨term.layered, terms.layered⟩

theorem Alternatives.layered :
    ∀ {depth : Nat} {tokens : List Token} {filters : List Filter},
    Alternatives options depth tokens filters → ∀ filter ∈ filters, Layered depth filter
  | _, _, _, .one terms =>
      List.forall_mem_singleton.mpr (layered_fold (terms.fits .and) terms.layered)
  | _, _, _, .more terms _ others =>
      List.forall_mem_cons.mpr
        ⟨layered_fold (terms.fits .and) terms.layered, others.layered⟩

end

theorem Derives.layered {tokens : List Token} {query : Query}
    (derives : Derives options tokens query) :
    ∀ filter, query.filter = some filter → Layered maxNesting filter := by
  intro filter same
  cases derives with
  | query filterPart projectionPart =>
      cases filterPart with
      | absent => cases same
      | present alternatives =>
          cases same
          exact layered_fold alternatives.fits alternatives.layered

end

end Grammar

/-! ## Trees -/

/-- A filter that is put together from comparisons joins only what is spliced and has
the comparisons that went into it. A filter that is read also needs no parentheses but
its groups, which are not nested too deep; its fields have paths where they are nested,
only its texts are quoted, and its numbers are finite. -/
theorem Query.trees_well_shaped :
    (∀ recipe : Filter.Recipe,
      recipe.build.EveryJoin Filter.Spliced ∧
        recipe.build.comparisons = recipe.inputs) ∧
    ∀ options tokens query, ofTokens options tokens = .ok query →
      (∀ filter, query.filter = some filter →
        filter.EveryJoin Filter.Spliced ∧ Grammar.Layered maxNesting filter) ∧
      (∀ field ∈ query.fields, ∀ base, field ≠ .nested base []) ∧
      ∀ comparison ∈ query.comparisons, ∀ value,
        comparison.literal = .number value → value.isFinite = true := by
  refine ⟨fun recipe => ⟨recipe.built.flat.spliced, recipe.comparisons_build⟩, ?_⟩
  intro options tokens query accepted
  have derives := derives_of_ofTokens accepted
  rcases derives.regular with ⟨regular, projection⟩
  have comparisons : ∀ comparison ∈ query.comparisons, comparison.Regular := by
    intro comparison member
    rcases List.mem_flatMap.mp member with ⟨filter, source, inside⟩
    exact (regular filter (Option.mem_toList.mp source)).comparisons comparison inside
  refine ⟨fun filter same =>
    ⟨(regular filter same).flat.spliced, derives.layered filter same⟩, ?_, ?_⟩
  · rw [fields, List.forall_mem_append, List.forall_mem_map]
    exact ⟨fun comparison member => (comparisons comparison member).1, projection⟩
  · exact fun comparison member => (comparisons comparison member).2

def branchedText : String :=
  "a=1 or (b.'c d'=\"x\" or e~f) and g!=null or h=-0 | i.j"

def branchedRecipe : Filter.Recipe :=
  let leaf field operator literal : Filter.Recipe :=
    .comparison { field, operator, literal, quoted := literal.isText }
  let inner := .combine .or (leaf (.nested "b" ["c d"]) .equal (.text "x"))
    [leaf (.name "e") .contains (.word "f")]
  .combine .or
    (.combine .or
      (leaf (.name "a") .equal (.number (.ofRank false 4607182418800017408)))
      [.combine .and (.group inner) [leaf (.name "g") .notEqual .null]])
    [leaf (.name "h") .equal (.number (.ofRank true 0))]

theorem Query.trees_well_shaped_branched :
    ofTokens {} (Scan.ofText branchedText).tokens =
        .ok { filter := some branchedRecipe.build, projection := [.nested "i" ["j"]] } ∧
      branchedRecipe.build.EveryJoin Filter.Spliced ∧
      branchedRecipe.build.comparisons = branchedRecipe.inputs ∧
      Grammar.Layered maxNesting branchedRecipe.build := by
  have accepted : ofTokens {} (Scan.ofText branchedText).tokens =
      .ok
        { filter := some branchedRecipe.build, projection := [.nested "i" ["j"]] } := by
    decide +kernel
  rcases trees_well_shaped with ⟨built, read⟩
  exact ⟨accepted, (built branchedRecipe).1, (built branchedRecipe).2,
    ((read {} _ _ accepted).1 _ rfl).2⟩

end LogQuery
