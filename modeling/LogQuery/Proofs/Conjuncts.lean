import LogQuery.Proofs.Formula

/-!
Filters as rows of terms. Where terms side by side must all hold, a conjunction needs no
parentheses, and one inside another leaves no trace: the terms of both are one row. Only
a disjunction stands in parentheses. The formula that is read from such a row need not
have the shape of the filter, but it has the same atoms in the same order and the same
truth.
-/

namespace LogQuery

/-! ## Joined formulas -/

namespace Formula

variable {α : Type}

theorem atomsOf_append (front back : List (Formula α)) :
    atomsOf (front ++ back) = atomsOf front ++ atomsOf back := by
  induction front with
  | nil => rfl
  | cons part front induction =>
      rw [List.cons_append, atomsOf, atomsOf, induction, List.append_assoc]

theorem evaluateAll_append (truth : Nat → Bool) (first : Nat)
    (front back : List (Formula α)) :
    evaluateAll truth first (front ++ back) =
      evaluateAll truth first front ++
        evaluateAll truth (first + (atomsOf front).length) back := by
  induction front generalizing first with
  | nil => rfl
  | cons part front induction =>
      rw [List.cons_append, evaluateAll, evaluateAll, induction, atomsOf,
        List.length_append, List.cons_append, Nat.add_assoc]

theorem atoms_join (connective : Connective) (parts : List (Formula α)) :
    (join connective parts).atoms = atomsOf parts := by
  match parts with
  | [] => rfl
  | [part] => simp [join, atomsOf]
  | _ :: _ :: _ => rfl

theorem evaluate_join (connective : Connective) (truth : Nat → Bool) (first : Nat)
    (parts : List (Formula α)) :
    (join connective parts).evaluate truth first =
      connective.holds (evaluateAll truth first parts) := by
  match parts with
  | [] => rfl
  | [part] => cases connective <;> simp [join, evaluateAll, Connective.holds]
  | _ :: _ :: _ => rfl

end Formula

theorem Connective.and_holds_append (front back : List Bool) :
    and.holds (front ++ back) = (and.holds front && and.holds back) :=
  List.all_append

/-! ## Terms of filters -/

namespace Filter

variable {α : Type}

mutual

def conjuncts (leaf : Comparison → α) : Filter → List (Formula α)
  | comparison value => [.atom (leaf value)]
  | group inner => inner.conjuncts leaf
  | logical .and children => conjunctsOf leaf children
  | logical .or children => [.joined .or (alternativesOf leaf children)]

def conjunctsOf (leaf : Comparison → α) : List Filter → List (Formula α)
  | [] => []
  | child :: rest => child.conjuncts leaf ++ conjunctsOf leaf rest

def alternativesOf (leaf : Comparison → α) : List Filter → List (Formula α)
  | [] => []
  | child :: rest => .join .and (child.conjuncts leaf) :: alternativesOf leaf rest

end

theorem conjunctsOf_eq_flatMap (leaf : Comparison → α) (filters : List Filter) :
    conjunctsOf leaf filters = filters.flatMap (conjuncts leaf) := by
  induction filters with
  | nil => rfl
  | cons child rest induction => rw [conjunctsOf, induction, List.flatMap_cons]

theorem alternativesOf_eq_map (leaf : Comparison → α) (filters : List Filter) :
    alternativesOf leaf filters =
      filters.map fun child => .join .and (child.conjuncts leaf) := by
  induction filters with
  | nil => rfl
  | cons child rest induction => rw [alternativesOf, induction, List.map_cons]

mutual

theorem atomsOf_conjuncts (leaf : Comparison → α) :
    ∀ filter : Filter,
      Formula.atomsOf (filter.conjuncts leaf) = filter.comparisons.map leaf
  | comparison _ => rfl
  | group inner => atomsOf_conjuncts leaf inner
  | logical .and children => atomsOf_conjunctsOf leaf children
  | logical .or children => by
      rw [conjuncts, Formula.atomsOf, Formula.atomsOf, List.append_nil]
      exact atomsOf_alternativesOf leaf children

theorem atomsOf_conjunctsOf (leaf : Comparison → α) :
    ∀ filters : List Filter,
      Formula.atomsOf (conjunctsOf leaf filters) = (comparisonsOf filters).map leaf
  | [] => rfl
  | child :: rest => by
      rw [conjunctsOf, Formula.atomsOf_append, atomsOf_conjuncts leaf child,
        atomsOf_conjunctsOf leaf rest, comparisonsOf, List.map_append]

theorem atomsOf_alternativesOf (leaf : Comparison → α) :
    ∀ filters : List Filter,
      Formula.atomsOf (alternativesOf leaf filters) = (comparisonsOf filters).map leaf
  | [] => rfl
  | child :: rest => by
      rw [alternativesOf, Formula.atomsOf, Formula.atoms_join,
        atomsOf_conjuncts leaf child, atomsOf_alternativesOf leaf rest, comparisonsOf,
        List.map_append]

end

theorem length_atomsOf_conjuncts (leaf : Comparison → α) (filter : Filter) :
    (Formula.atomsOf (filter.conjuncts leaf)).length = filter.comparisons.length := by
  rw [atomsOf_conjuncts, List.length_map]

mutual

theorem evaluate_conjuncts (leaf : Comparison → α) (truth : Nat → Bool) (first : Nat) :
    ∀ filter : Filter,
      Connective.and.holds (Formula.evaluateAll truth first (filter.conjuncts leaf)) =
        filter.evaluate truth first
  | comparison _ => by
      simp [conjuncts, Formula.evaluateAll, Formula.evaluate, evaluate,
        Connective.holds]
  | group inner => evaluate_conjuncts leaf truth first inner
  | logical .and children => evaluate_conjunctsOf leaf truth first children
  | logical .or children => by
      simp [conjuncts, Formula.evaluateAll, Formula.evaluate, evaluate,
        evaluateAll_alternativesOf leaf truth first children, Connective.holds]

theorem evaluate_conjunctsOf (leaf : Comparison → α) (truth : Nat → Bool)
    (first : Nat) :
    ∀ filters : List Filter,
      Connective.and.holds
          (Formula.evaluateAll truth first (conjunctsOf leaf filters)) =
        Connective.and.holds (evaluateAll truth first filters)
  | [] => rfl
  | child :: rest => by
      rw [conjunctsOf, Formula.evaluateAll_append, Connective.and_holds_append,
        evaluate_conjuncts leaf truth first child, length_atomsOf_conjuncts,
        evaluate_conjunctsOf leaf truth _ rest]
      rfl

theorem evaluateAll_alternativesOf (leaf : Comparison → α) (truth : Nat → Bool)
    (first : Nat) :
    ∀ filters : List Filter,
      Formula.evaluateAll truth first (alternativesOf leaf filters) =
        evaluateAll truth first filters
  | [] => rfl
  | child :: rest => by
      rw [alternativesOf, Formula.evaluateAll, Formula.evaluate_join,
        Formula.atoms_join, evaluate_conjuncts leaf truth first child,
        length_atomsOf_conjuncts, evaluateAll_alternativesOf leaf truth _ rest]
      rfl

end

/-! ## Rows of items -/

mutual

/-- The items of a filter with parentheses around disjunctions only. -/
def looseItems (leaf : Comparison → α) : Filter → List (Formula.Item α)
  | comparison value => [.atom (leaf value)]
  | group inner => inner.looseItems leaf
  | logical .and children => [.connective .and].intercalate (looseItemsOf leaf children)
  | logical .or children =>
      .opening ::
        ([.connective .or].intercalate (looseItemsOf leaf children) ++ [.closing])

def looseItemsOf (leaf : Comparison → α) : List Filter → List (List (Formula.Item α))
  | [] => []
  | child :: rest => child.looseItems leaf :: looseItemsOf leaf rest

end

theorem looseItemsOf_eq_map (leaf : Comparison → α) (filters : List Filter) :
    looseItemsOf leaf filters = filters.map (looseItems leaf) := by
  induction filters with
  | nil => rfl
  | cons child rest induction => rw [looseItemsOf, induction, List.map_cons]

/-- A row of items is read, on any level, as terms that are added to those already
there. -/
def ReadsAsTerms (items : List (Formula.Item α)) (terms : List (Formula α)) : Prop :=
  ∃ initial last, terms = initial ++ [last] ∧ ∀ outer (level : Formula.Level α) rest,
    Formula.readOn outer level none (items ++ rest) =
      Formula.readOn outer { level with terms := initial.reverse ++ level.terms }
        (some last) rest

theorem readsAsTerms_atom (value : α) : ReadsAsTerms [.atom value] [.atom value] :=
  ⟨[], .atom value, rfl, fun _ _ _ => rfl⟩

theorem ReadsAsTerms.beside {items others : List (Formula.Item α)}
    {terms terms' : List (Formula α)} (one : ReadsAsTerms items terms)
    (two : ReadsAsTerms others terms') :
    ReadsAsTerms (items ++ .connective .and :: others) (terms ++ terms') := by
  rcases one with ⟨initial, last, shape, read⟩
  rcases two with ⟨initial', last', shape', read'⟩
  refine ⟨initial ++ last :: initial', last', by rw [shape, shape']; simp, ?_⟩
  intro outer level rest
  rw [List.append_assoc, read, List.cons_append, Formula.readOn, read']
  simp

section Rows

variable {items : Filter → List (Formula.Item α)} {terms : Filter → List (Formula α)}

theorem readsAsTerms_conjunction (first : Filter) (others : List Filter)
    (each : ∀ child ∈ first :: others, ReadsAsTerms (items child) (terms child)) :
    ReadsAsTerms ([.connective .and].intercalate ((first :: others).map items))
      ((first :: others).flatMap terms) := by
  induction others generalizing first with
  | nil => simpa using each first List.mem_cons_self
  | cons second others induction =>
      have onward :=
        induction second fun child member =>
          each child (List.mem_cons_of_mem first member)
      simpa using (each first List.mem_cons_self).beside onward

theorem readOn_alternatives (first : Filter) (others : List Filter)
    (each : ∀ child ∈ first :: others, ReadsAsTerms (items child) (terms child)) :
    ∃ front initial last,
      (first :: others).map (fun child => Formula.join .and (terms child)) =
        front ++ [Formula.join .and (initial ++ [last])] ∧
      ∀ outer alternatives rest,
        Formula.readOn outer { alternatives } none
            ([.connective .or].intercalate ((first :: others).map items) ++ rest) =
          Formula.readOn outer
            { alternatives := front.reverse ++ alternatives, terms := initial.reverse }
            (some last) rest := by
  induction others generalizing first with
  | nil =>
      rcases each first List.mem_cons_self with ⟨initial, last, shape, read⟩
      refine ⟨[], initial, last, by rw [← shape]; rfl, ?_⟩
      intro outer alternatives rest
      rw [List.map_singleton, List.intercalate_singleton, read]
      simp
  | cons second others induction =>
      rcases each first List.mem_cons_self with ⟨initial, last, shape, read⟩
      rcases induction second
        (fun child member => each child (List.mem_cons_of_mem first member)) with
        ⟨front, initial', last', shape', read'⟩
      refine ⟨.join .and (terms first) :: front, initial', last',
        by rw [List.map_cons, shape']; rfl, ?_⟩
      intro outer alternatives rest
      rw [List.map_cons] at read'
      rw [List.map_cons, List.map_cons, List.intercalate_cons_cons, List.append_assoc,
        List.append_assoc, read, List.singleton_append, Formula.readOn, read', shape]
      simp

end Rows

theorem readsAsTerms_looseItems (leaf : Comparison → α) :
    ∀ filter : Filter, filter.Flat →
    ReadsAsTerms (filter.looseItems leaf) (filter.conjuncts leaf)
  | comparison value, _ => readsAsTerms_atom (leaf value)
  | group inner, flat => readsAsTerms_looseItems leaf inner flat
  | logical connective [], flat => absurd flat.1 (by simp)
  | logical connective (first :: others), flat => by
      have each : ∀ child ∈ first :: others,
          ReadsAsTerms (child.looseItems leaf) (child.conjuncts leaf) :=
        fun child member =>
          readsAsTerms_looseItems leaf child ((allFlat_iff _).mp flat.2.2 child member)
      cases connective with
      | and =>
          rw [looseItems, conjuncts, looseItemsOf_eq_map, conjunctsOf_eq_flatMap]
          exact readsAsTerms_conjunction first others each
      | or =>
          rcases readOn_alternatives first others each with
            ⟨front, initial, last, shape, read⟩
          have several :
              2 ≤ (front ++ [Formula.join .and (initial ++ [last])]).length := by
            rw [← shape, List.length_map]
            exact flat.1
          have closed : Formula.Level.close
              { alternatives := front.reverse ++ [], terms := initial.reverse } last =
                .joined .or (alternativesOf leaf (first :: others)) := by
            rw [alternativesOf_eq_map, shape, ← Formula.join_of_two .or several]
            simp [Formula.Level.close]
          refine ⟨[], .joined .or (alternativesOf leaf (first :: others)), rfl, ?_⟩
          intro outer level rest
          -- The parenthesis puts the level aside, and it is taken up again where the
          -- other one closes.
          have inside := read (level :: outer) [] (.closing :: rest)
          rw [looseItems, looseItemsOf_eq_map, List.cons_append, List.append_assoc,
            Formula.readOn]
          exact inside.trans (by rw [Formula.readOn, closed]; rfl)

theorem ofItems?_of_readsAsTerms {items : List (Formula.Item α)}
    {terms : List (Formula α)} (reads : ReadsAsTerms items terms) :
    Formula.ofItems? items = some (.join .and terms) := by
  rcases reads with ⟨initial, last, shape, read⟩
  have whole := read [] {} []
  rw [List.append_nil] at whole
  rw [Formula.ofItems?, whole, Formula.readOn, shape]
  simp [Formula.Level.close, Formula.join]

end Filter

end LogQuery
