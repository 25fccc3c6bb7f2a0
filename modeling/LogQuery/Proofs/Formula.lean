import LogQuery.Filter

/-!
Formulas: atoms of some kind joined by `and` and `or`. This is what is left of a filter
when groups and the contents of comparisons are forgotten, and it is what a reader of a
condition arrives at. A formula is true or false once its atoms are, and the atoms are
told apart by their place and not by what they are, so two that look alike may differ.
-/

namespace LogQuery

def Connective.holds : Connective → List Bool → Bool
  | and, values => values.all id
  | or, values => values.any id

inductive Formula (α : Type)
  | atom (value : α)
  | joined (connective : Connective) (parts : List (Formula α))

namespace Formula

variable {α : Type}

mutual

def atoms : Formula α → List α
  | atom value => [value]
  | joined _ parts => atomsOf parts

def atomsOf : List (Formula α) → List α
  | [] => []
  | part :: rest => part.atoms ++ atomsOf rest

end

mutual

/-- The truth of a formula whose first atom has the given number. -/
def evaluate (truth : Nat → Bool) (first : Nat) : Formula α → Bool
  | atom _ => truth first
  | joined connective parts => connective.holds (evaluateAll truth first parts)

def evaluateAll (truth : Nat → Bool) (first : Nat) : List (Formula α) → List Bool
  | [] => []
  | part :: rest =>
      part.evaluate truth first :: evaluateAll truth (first + part.atoms.length) rest

end

def join (connective : Connective) : List (Formula α) → Formula α
  | [part] => part
  | parts => joined connective parts

theorem join_of_two {parts : List (Formula α)} (connective : Connective)
    (several : 2 ≤ parts.length) : join connective parts = joined connective parts := by
  match parts with
  | [] => rfl
  | [_] => simp at several
  | _ :: _ :: _ => rfl

/-! ## Reading a row of items

`and` binds tighter than `or`, and parentheses bind tighter than both. What was read of
a level is kept latest first, as is the stack of the levels around it. -/

inductive Item (α : Type)
  | opening
  | closing
  | connective (connective : Connective)
  | atom (value : α)

structure Level (α : Type) where
  alternatives : List (Formula α) := []
  terms : List (Formula α) := []

def Level.close (level : Level α) (term : Formula α) : Formula α :=
  join .or (join .and (term :: level.terms).reverse :: level.alternatives).reverse

def readOn :
    List (Level α) → Level α → Option (Formula α) → List (Item α) → Option (Formula α)
  | outer, level, none, .atom value :: rest =>
      readOn outer level (some (.atom value)) rest
  | outer, level, none, .opening :: rest => readOn (level :: outer) {} none rest
  | outer, level, some term, .connective .and :: rest =>
      readOn outer { level with terms := term :: level.terms } none rest
  | outer, level, some term, .connective .or :: rest =>
      readOn outer
        { alternatives :=
          join .and (term :: level.terms).reverse :: level.alternatives } none rest
  | around :: outer, level, some term, .closing :: rest =>
      readOn outer around (some (level.close term)) rest
  | [], level, some term, [] => some (level.close term)
  | _, _, _, _ => none

def ofItems? (items : List (Item α)) : Option (Formula α) :=
  readOn [] {} none items

def Level.of : Connective → List (Formula α) → Level α
  | .and, members => { terms := members }
  | .or, members => { alternatives := members }

theorem Level.close_of (connective : Connective) (members : List (Formula α))
    (term : Formula α) :
    (Level.of connective members).close term =
      join connective (term :: members).reverse := by
  cases connective <;> rfl

theorem readOn_connective (connective : Connective) (outer : List (Level α))
    (members : List (Formula α)) (term : Formula α) (rest : List (Item α)) :
    readOn outer (Level.of connective members) (some term)
        (.connective connective :: rest) =
      readOn outer (Level.of connective (term :: members)) none rest := by
  cases connective <;> rfl

end Formula

/-- A comparison whose nested field has a path and whose number is finite. -/
def Comparison.Regular (comparison : Comparison) : Prop :=
  (∀ base, comparison.field ≠ .nested base []) ∧
    ∀ value, comparison.literal = .number value → value.isFinite = true

/-! ## Filters as formulas -/

namespace Filter

variable {α : Type}

mutual

def formula (leaf : Comparison → α) : Filter → Formula α
  | comparison value => .atom (leaf value)
  | group inner => inner.formula leaf
  | logical connective children => .joined connective (formulas leaf children)

def formulas (leaf : Comparison → α) : List Filter → List (Formula α)
  | [] => []
  | child :: rest => child.formula leaf :: formulas leaf rest

end

mutual

def evaluate (truth : Nat → Bool) (first : Nat) : Filter → Bool
  | comparison _ => truth first
  | group inner => inner.evaluate truth first
  | logical connective children => connective.holds (evaluateAll truth first children)

def evaluateAll (truth : Nat → Bool) (first : Nat) : List Filter → List Bool
  | [] => []
  | child :: rest =>
      child.evaluate truth first ::
        evaluateAll truth (first + child.comparisons.length) rest

end

mutual

theorem atoms_formula (leaf : Comparison → α) :
    ∀ filter : Filter, (filter.formula leaf).atoms = filter.comparisons.map leaf
  | comparison _ => rfl
  | group inner => atoms_formula leaf inner
  | logical _ children => atomsOf_formulas leaf children

theorem atomsOf_formulas (leaf : Comparison → α) :
    ∀ filters : List Filter,
      Formula.atomsOf (formulas leaf filters) = (comparisonsOf filters).map leaf
  | [] => rfl
  | child :: rest => by
      simp only [formulas, Formula.atomsOf, comparisonsOf, List.map_append,
        atoms_formula leaf child, atomsOf_formulas leaf rest]

end

mutual

theorem evaluate_formula (leaf : Comparison → α) (truth : Nat → Bool) (first : Nat) :
    ∀ filter : Filter,
      (filter.formula leaf).evaluate truth first = filter.evaluate truth first
  | comparison _ => rfl
  | group inner => evaluate_formula leaf truth first inner
  | logical connective children =>
      congrArg connective.holds (evaluateAll_formulas leaf truth first children)

theorem evaluateAll_formulas (leaf : Comparison → α) (truth : Nat → Bool)
    (first : Nat) :
    ∀ filters : List Filter,
      Formula.evaluateAll truth first (formulas leaf filters) =
        evaluateAll truth first filters
  | [] => rfl
  | child :: rest => by
      simp only [formulas, Formula.evaluateAll, evaluateAll, atoms_formula,
        List.length_map, evaluate_formula leaf truth first child,
        evaluateAll_formulas leaf truth _ rest]

end

theorem comparisonsOf_eq_flatMap (filters : List Filter) :
    comparisonsOf filters = filters.flatMap comparisons := by
  induction filters with
  | nil => rfl
  | cons child rest induction => rw [comparisonsOf, induction, List.flatMap_cons]

theorem formulas_eq_map (leaf : Comparison → α) (filters : List Filter) :
    formulas leaf filters = filters.map (formula leaf) := by
  induction filters with
  | nil => rfl
  | cons child rest induction => rw [formulas, induction, List.map_cons]

/-! ## Filters as they are built -/

/-- The filters that joining and grouping make out of comparisons. -/
inductive Built : Filter → Prop
  | comparison (value : Comparison) : Built (.comparison value)
  | group {inner : Filter} (built : Built inner) : Built (.group inner)
  | combine (connective : Connective) {first : Filter} {rest : List Filter}
      (built : Built first) (others : ∀ filter ∈ rest, Built filter) :
      Built (combine connective first rest)

mutual

/-- Every node joins two or more filters, none of which joins with the same
connective. -/
def Flat : Filter → Prop
  | comparison _ => True
  | group inner => inner.Flat
  | logical connective children =>
      2 ≤ children.length ∧ (∀ child ∈ children, child.operands connective = [child]) ∧
        AllFlat children

def AllFlat : List Filter → Prop
  | [] => True
  | child :: rest => child.Flat ∧ AllFlat rest

end

theorem allFlat_iff (filters : List Filter) :
    AllFlat filters ↔ ∀ filter ∈ filters, filter.Flat := by
  induction filters with
  | nil => simp [AllFlat]
  | cons child rest induction => simp [AllFlat, induction]

theorem Flat.operands {filter : Filter} (flat : filter.Flat) (connective : Connective) :
    0 < (filter.operands connective).length ∧
      ∀ operand ∈ filter.operands connective,
        operand.operands connective = [operand] ∧ operand.Flat := by
  cases filter with
  | comparison value => simp [Filter.operands, Flat]
  | group inner => simpa [Filter.operands] using flat
  | logical inner children =>
      by_cases same : inner = connective
      · subst same
        rcases flat with ⟨several, whole, flat⟩
        rw [allFlat_iff] at flat
        simp only [Filter.operands, if_true]
        exact ⟨by omega,
          fun operand member => ⟨whole operand member, flat operand member⟩⟩
      · simpa [Filter.operands, same] using flat

theorem Built.flat {filter : Filter} (built : Built filter) : filter.Flat := by
  induction built with
  | comparison value => trivial
  | group built induction => exact induction
  | @combine connective first rest built others induction inductions =>
      cases rest with
      | nil => exact induction
      | cons second rest =>
          have flat : ∀ filter ∈ first :: second :: rest, filter.Flat :=
            List.forall_mem_cons.mpr ⟨induction, inductions⟩
          refine ⟨?_, ?_, ?_⟩
          · have one := (flat first (by simp)).operands connective
            have two := (flat second (by simp)).operands connective
            simp only [List.flatMap_cons, List.length_append]
            omega
          · intro operand member
            rcases List.mem_flatMap.mp member with ⟨filter, source, member⟩
            exact (((flat filter source).operands connective).2 operand member).1
          · rw [allFlat_iff]
            intro operand member
            rcases List.mem_flatMap.mp member with ⟨filter, source, member⟩
            exact (((flat filter source).operands connective).2 operand member).2

/-! ## Filters as rows of items

Every part of a joined filter stands in parentheses, and groups leave no trace of their
own. -/

mutual

def items (leaf : Comparison → α) : Filter → List (Formula.Item α)
  | comparison value => [.atom (leaf value)]
  | group inner => inner.items leaf
  | logical connective children =>
      [.connective connective].intercalate (operandItems leaf children)

def operandItems (leaf : Comparison → α) : List Filter → List (List (Formula.Item α))
  | [] => []
  | child :: rest =>
      (.opening :: (child.items leaf ++ [.closing])) :: operandItems leaf rest

end

theorem operandItems_eq_map (leaf : Comparison → α) (filters : List Filter) :
    operandItems leaf filters =
      filters.map fun child => .opening :: (child.items leaf ++ [.closing]) := by
  induction filters with
  | nil => rfl
  | cons child rest induction => rw [operandItems, induction, List.map_cons]

theorem readOn_row (connective : Connective) (outer : List (Formula.Level α))
    {part : Filter → List (Formula.Item α)} {value : Filter → Formula α}
    (first : Filter) (others : List Filter)
    (each : ∀ child ∈ first :: others, ∀ level rest,
      Formula.readOn outer level none (part child ++ rest) =
        Formula.readOn outer level (some (value child)) rest)
    (members : List (Formula α)) :
    ∃ initial last, (first :: others).map value = initial ++ [last] ∧ ∀ rest,
      Formula.readOn outer (.of connective members) none
          ([.connective connective].intercalate ((first :: others).map part) ++ rest) =
        Formula.readOn outer (.of connective (initial.reverse ++ members)) (some last)
          rest := by
  induction others generalizing first members with
  | nil =>
      refine ⟨[], value first, rfl, ?_⟩
      intro rest
      simpa using each first List.mem_cons_self _ rest
  | cons second others induction =>
      rcases induction second
        (fun child member => each child (List.mem_cons_of_mem first member))
        (value first :: members) with ⟨initial, last, shape, onward⟩
      refine ⟨value first :: initial, last, by rw [List.map_cons, shape]; rfl, ?_⟩
      intro rest
      have step := each first List.mem_cons_self (.of connective members)
      have tail := onward rest
      rw [List.map_cons] at tail
      rw [List.map_cons, List.map_cons, List.intercalate_cons_cons, List.append_assoc,
        List.append_assoc, step, List.singleton_append, Formula.readOn_connective, tail]
      simp

theorem readOn_items (leaf : Comparison → α) : ∀ (filter : Filter), filter.Flat →
    ∀ outer, ∃ level term, level.close term = filter.formula leaf ∧ ∀ rest,
      Formula.readOn outer {} none (filter.items leaf ++ rest) =
        Formula.readOn outer level (some term) rest
  | comparison value, _, outer => ⟨{}, .atom (leaf value), rfl, fun _ => rfl⟩
  | group inner, flat, outer => readOn_items leaf inner flat outer
  | logical connective [], flat, outer => absurd flat.1 (by simp)
  | logical connective (first :: others), flat, outer => by
      -- An operand opens a level, which waits on the stack until its parenthesis closes
      -- it again.
      have parts : ∀ child ∈ first :: others, ∀ level rest,
          Formula.readOn outer level none
              ((.opening :: (child.items leaf ++ [.closing])) ++ rest) =
            Formula.readOn outer level (some (child.formula leaf)) rest := by
        intro child member level rest
        rcases readOn_items leaf child ((allFlat_iff _).mp flat.2.2 child member)
          (level :: outer) with ⟨inner, term, closed, onward⟩
        rw [List.cons_append, List.append_assoc, Formula.readOn, onward, ← closed]
        rfl
      rcases readOn_row connective outer first others parts [] with
        ⟨initial, last, shape, onward⟩
      refine ⟨.of connective initial.reverse, last, ?_, ?_⟩
      · -- A chain of one would be read as its only member.
        have several : 2 ≤ (initial ++ [last]).length := by
          rw [← shape, List.length_map]
          exact flat.1
        rw [Formula.Level.close_of, formula, formulas_eq_map, shape, List.reverse_cons,
          List.reverse_reverse, Formula.join_of_two connective several]
      · intro rest
        have start : Formula.Level.of connective [] = ({} : Formula.Level α) := by
          cases connective <;> rfl
        rw [items, operandItems_eq_map, ← start, onward rest, List.append_nil]

theorem ofItems?_items (leaf : Comparison → α) {filter : Filter} (flat : filter.Flat) :
    Formula.ofItems? (filter.items leaf) = some (filter.formula leaf) := by
  rcases readOn_items leaf filter flat [] with ⟨level, term, closed, onward⟩
  have whole := onward []
  rw [List.append_nil] at whole
  rw [Formula.ofItems?, whole, ← closed]
  rfl

end Filter

end LogQuery
