import LogQuery.Proofs.Grammar
import LogQuery.Proofs.Text

/-!
The automaton and the grammar agree. What the automaton has read is described by
`Reading`: the groups that are open, what was read of the innermost level, and the part
of a term under way. Every step keeps this description, so an accepted row of tokens is
derivable; and every derivation tells the automaton how to get through its tokens.
-/

namespace LogQuery

open Grammar

/-! ## Chains as flat nodes -/

namespace Grammar

def Whole (connective : Connective) (filter : Filter) : Prop :=
  filter.operands connective = [filter]

section

variable {options : ParseOptions} {depth : Nat} {tokens : List Token}

theorem Term.whole {filter : Filter} (term : Term options depth tokens filter)
    (connective : Connective) : Whole connective filter := by
  cases term <;> rfl

theorem Terms.each {Holds : Filter → Prop}
    (term : ∀ {tokens filter}, Term options depth tokens filter → Holds filter) :
    ∀ {tokens : List Token} {filters : List Filter},
      Terms options depth tokens filters →
      ∀ filter ∈ filters, Holds filter
  | _, _, .one first => by
      intro filter member
      rcases List.mem_singleton.mp member with rfl
      exact term first
  | _, _, .more first _ terms => by
      intro filter member
      rcases List.mem_cons.mp member with rfl | member
      · exact term first
      · exact Terms.each term terms filter member

theorem Terms.whole (connective : Connective) {tokens : List Token}
    {filters : List Filter} (terms : Terms options depth tokens filters) :
    ∀ filter ∈ filters, Whole connective filter :=
  terms.each fun term => term.whole connective

theorem fold_whole {filters : List Filter}
    (whole : ∀ filter ∈ filters, Whole .or filter) : Whole .or (fold .and filters) := by
  simp only [fold]
  split
  · exact whole _ (List.mem_singleton_self _)
  · rfl

theorem Alternatives.each {Holds : Filter → Prop}
    (chain : ∀ {tokens filters}, Terms options depth tokens filters →
      Holds (fold .and filters)) :
    ∀ {tokens : List Token} {filters : List Filter},
      Alternatives options depth tokens filters →
      ∀ filter ∈ filters, Holds filter
  | _, _, .one terms => by
      intro filter member
      rcases List.mem_singleton.mp member with rfl
      exact chain terms
  | _, _, .more terms _ others => by
      intro filter member
      rcases List.mem_cons.mp member with rfl | member
      · exact chain terms
      · exact Alternatives.each chain others filter member

theorem Alternatives.whole {tokens : List Token} {filters : List Filter}
    (alternatives : Alternatives options depth tokens filters) :
    ∀ filter ∈ filters, Whole .or filter :=
  alternatives.each fun terms => fold_whole (terms.whole .or)

end

theorem chain_eq_fold {connective : Connective} {earlier : List Filter} {last : Filter}
    (whole : ∀ filter ∈ last :: earlier, Whole connective filter) :
    Parser.chain connective earlier last =
      fold connective (last :: earlier).reverse := by
  have pieces : ∀ filters : List Filter, (∀ filter ∈ filters, Whole connective filter) →
      filters.flatMap (Filter.operands connective) = filters := by
    intro filters
    induction filters with
    | nil => intro _; rfl
    | cons filter filters induction =>
        intro whole
        rw [List.flatMap_cons, whole filter List.mem_cons_self,
          induction fun other member => whole other (List.mem_cons_of_mem _ member)]
        rfl
  rw [Parser.chain]
  cases order : earlier.reverse with
  | nil =>
      rw [List.reverse_cons, order]
      rfl
  | cons first rest =>
      have flat := pieces (last :: earlier).reverse fun filter member =>
        whole filter (List.mem_reverse.mp member)
      rw [List.reverse_cons, order] at flat ⊢
      cases joined : rest ++ [last] with
      | nil => simp at joined
      | cons second others =>
          rw [List.cons_append, joined] at flat ⊢
          simp only [Filter.combine, joined, flat, fold]

end Grammar

/-! ## Runs of the automaton -/

theorem bind_eq_ok_iff {ε α β : Type} {first : Except ε α} {next : α → Except ε β}
    {result : β} :
    (first >>= next) = .ok result ↔
      ∃ middle, first = .ok middle ∧ next middle = .ok result := by
  cases first with
  | error error => simp [bind, Except.bind]
  | ok middle => simp [bind, Except.bind]

theorem bind_eq_error_iff {ε α β : Type} {first : Except ε α} {next : α → Except ε β}
    {error : ε} :
    (first >>= next) = .error error ↔
      first = .error error ∨
        ∃ middle, first = .ok middle ∧ next middle = .error error := by
  cases first with
  | error other => simp [bind, Except.bind]
  | ok middle => simp [bind, Except.bind]

theorem map_eq_error_iff {ε α β : Type} {first : Except ε α} {transform : α → β}
    {error : ε} : first.map transform = .error error ↔ first = .error error := by
  cases first with
  | error other => simp [Except.map]
  | ok middle => simp [Except.map]

namespace Parser

section

variable {options : ParseOptions}

def feed (options : ParseOptions) (state : State) (tokens : List Token) :
    Except QueryError State :=
  tokens.foldlM (step options) state

theorem feed_append {state middle : State} {first : List Token} (second : List Token)
    (through : feed options state first = .ok middle) :
    feed options state (first ++ second) = feed options middle second := by
  rw [feed] at *
  rw [List.foldlM_append, through]
  rfl

theorem feed_cons {state middle : State} {token : Token} (rest : List Token)
    (taken : step options state token = .ok middle) :
    feed options state (token :: rest) = feed options middle rest := by
  rw [feed]
  rw [List.foldlM_cons, taken]
  rfl

def Accepts (state : State) (filter : Filter) : Prop :=
  ∃ term, state.expected = .connective term ∧ state.groups = [] ∧
    state.level.close term = filter

theorem finish_eq_ok_iff (state : State) (last : Position) (filter : Filter) :
    finish state last = .ok filter ↔ Accepts state filter := by
  rcases state with ⟨groups, level, expected⟩
  rw [finish, Accepts]
  cases expected with
  | term after => simp
  | operator key => simp
  | literal key operator => simp
  | connective term =>
      cases groups with
      | nil => simp
      | cons group groups => simp

theorem run_eq_ok_iff (state : State) (last : Position) (tokens : List Token)
    (filter : Filter) :
    run options state last tokens = .ok filter ↔
      ∃ final, feed options state tokens = .ok final ∧ Accepts final filter := by
  induction tokens generalizing state last with
  | nil =>
      rw [run, finish_eq_ok_iff]
      simp [feed, pure, Except.pure]
  | cons token rest induction =>
      rw [run, feed, List.foldlM_cons]
      cases step options state token with
      | error error => simp [bind, Except.bind]
      | ok middle => exact induction middle token.position

/-! ### From derivations to runs -/

theorem step_and {groups : List (Position × Level)} {level : Level} {term : Filter}
    {token : Token} (joins : Joins .and token) :
    step options { groups, level, expected := .connective term } token =
      .ok { groups
            level := { level with terms := term :: level.terms }
            expected := .term "and" } := by
  have keyword := (Connective.ofKeyword?_eq_some_iff token.text .and).mpr joins.2
  simp only [step, stepConnective, joins.1, if_true, keyword]

theorem step_or {groups : List (Position × Level)} {level : Level} {term : Filter}
    {token : Token} (joins : Joins .or token) :
    step options { groups, level, expected := .connective term } token =
      .ok { groups
            level :=
              { alternatives := chain .and level.terms term :: level.alternatives }
            expected := .term "or" } := by
  have keyword := (Connective.ofKeyword?_eq_some_iff token.text .or).mpr joins.2
  simp only [step, stepConnective, joins.1, if_true, keyword]

theorem feed_comparison {groups : List (Position × Level)} {level : Level}
    {after : String} {key sign value : Token} {operator : Operator}
    (isKey : key.kind = .key) (isOperator : sign.kind = .operator)
    (known : sign.text = operator.render)
    (isLiteral : value.kind = .value ∨ value.kind = .number) :
    feed options { groups, level, expected := .term after } [key, sign, value] =
      .ok { groups
            level
            expected := .connective (.comparison
              { field := .read key.text
                operator
                literal := .ofToken options value
                quoted := value.quoted }) } := by
  have keyStep : step options { groups, level, expected := .term after } key =
      .ok { groups, level, expected := .operator key } := by
    simp [step, stepTerm, Token.isParen, isKey]
  have operatorStep : step options { groups, level, expected := .operator key } sign =
      .ok { groups, level, expected := .literal key operator } := by
    simp [step, stepOperator, isOperator, known, Operator.read?_render]
  have literalKind := (TokenKind.isLiteral_iff value.kind).mpr isLiteral
  have literalStep :
      step options { groups, level, expected := .literal key operator } value =
      .ok { groups
            level
            expected := .connective (.comparison
              { field := .read key.text
                operator
                literal := .ofToken options value
                quoted := value.quoted }) } := by
    simp [step, stepLiteral, literalKind]
  rw [feed_cons _ keyStep, feed_cons _ operatorStep, feed_cons _ literalStep]
  rfl

theorem step_opening {groups : List (Position × Level)} {level : Level} {after : String}
    {token : Token} (opens : token.isParen '(' = true)
    (fits : groups.length < maxNesting) :
    step options { groups, level, expected := .term after } token =
      .ok { groups := (token.position, level) :: groups, expected := .term "(" } := by
  have room : ¬ maxNesting ≤ groups.length := by omega
  simp [step, stepTerm, opens, room]

theorem step_closing {groups : List (Position × Level)} {opened : Position}
    {outer level : Level} {term : Filter} {token : Token}
    (closes : token.isParen ')' = true) :
    step options
        { groups := (opened, outer) :: groups, level, expected := .connective term }
        token =
      .ok { groups
            level := outer
            expected := .connective (.group (level.close term)) } := by
  have notBoolean : token.kind ≠ .boolean := by
    intro boolean
    simp [Token.isParen, boolean] at closes
  simp [step, stepConnective, notBoolean, closes]

theorem chain_terms {depth : Nat} {tokens : List Token} {filters earlier : List Filter}
    {last : Filter} (terms : Terms options depth tokens filters)
    (order : last :: earlier = filters.reverse) :
    chain .and earlier last = fold .and filters := by
  rw [chain_eq_fold, order, List.reverse_reverse]
  intro filter member
  rw [order, List.mem_reverse] at member
  exact terms.whole .and filter member

theorem chain_alternatives {depth : Nat} {tokens : List Token}
    {filters earlier : List Filter} {last : Filter}
    (alternatives : Alternatives options depth tokens filters)
    (order : last :: earlier = filters.reverse) :
    chain .or earlier last = fold .or filters := by
  rw [chain_eq_fold, order, List.reverse_reverse]
  intro filter member
  rw [order, List.mem_reverse] at member
  exact alternatives.whole filter member

mutual

theorem feed_term (groups : List (Position × Level)) (level : Level) (after : String) :
    ∀ {depth : Nat} {tokens : List Token} {filter : Filter},
      Term options depth tokens filter →
      groups.length + depth ≤ maxNesting →
      feed options { groups, level, expected := .term after } tokens =
        .ok { groups, level, expected := .connective filter }
  | _, _, _, .comparison isKey isOperator known isLiteral, _ =>
      feed_comparison isKey isOperator known isLiteral
  | _, _, _, @Term.group _ depth opening _ _ filters opens closes inner, fits => by
      have room :
          ((opening.position, level) :: groups).length + depth ≤ maxNesting := by
        rw [List.length_cons]
        omega
      rcases feed_alternatives ((opening.position, level) :: groups) [] "(" inner
        room with ⟨innerLevel, last, order, through⟩
      have closed : innerLevel.close last = fold .or filters :=
        chain_alternatives inner (by simpa using order)
      rw [feed_cons _ (step_opening opens (by omega)), feed_append _ through,
        feed_cons _ (step_closing closes), closed]
      rfl

theorem feed_terms (groups : List (Position × Level)) (level : Level) (after : String) :
    ∀ {depth : Nat} {tokens : List Token} {filters : List Filter},
      Terms options depth tokens filters → groups.length + depth ≤ maxNesting →
      ∃ last earlier, last :: earlier = filters.reverse ++ level.terms ∧
        feed options { groups, level, expected := .term after } tokens =
          .ok { groups, level := { level with terms := earlier },
                expected := .connective last }
  | _, _, _, .one term, fits => ⟨_, _, rfl, feed_term groups level after term fits⟩
  | _, _, _, @Terms.more _ _ _ _ _ filter _ term joins terms, fits => by
      -- Behind the connective the term counts as one of the terms that the level has.
      rcases feed_terms groups { level with terms := filter :: level.terms } "and" terms
        fits with ⟨last, earlier, order, through⟩
      refine ⟨last, earlier, ?_, ?_⟩
      · rw [order, List.reverse_cons, List.append_assoc]
        rfl
      · rw [feed_append _ (feed_term groups level after term fits),
          feed_cons _ (step_and joins), through]

theorem feed_alternatives (groups : List (Position × Level))
    (alternatives : List Filter) (after : String) :
    ∀ {depth : Nat} {tokens : List Token} {filters : List Filter},
      Alternatives options depth tokens filters → groups.length + depth ≤ maxNesting →
      ∃ level last,
        chain .and level.terms last :: level.alternatives =
          filters.reverse ++ alternatives ∧
        feed options { groups, level := { alternatives }, expected := .term after }
          tokens = .ok { groups, level, expected := .connective last }
  | _, _, _, .one terms, fits => by
      rcases feed_terms groups { alternatives } after terms fits with
        ⟨last, earlier, order, through⟩
      refine ⟨{ alternatives, terms := earlier }, last, ?_, through⟩
      rw [chain_terms terms (by simpa using order)]
      rfl
  | _, _, _, @Alternatives.more _ _ _ _ _ filters _ terms joins others, fits => by
      rcases feed_terms groups { alternatives } after terms fits with
        ⟨last, earlier, order, through⟩
      rcases feed_alternatives groups (fold .and filters :: alternatives) "or" others
        fits with ⟨level, final, closed, onward⟩
      refine ⟨level, final, ?_, ?_⟩
      · rw [closed, List.reverse_cons, List.append_assoc]
        rfl
      · rw [feed_append _ through, feed_cons _ (step_or joins),
          chain_terms terms (by simpa using order)]
        exact onward

end

/-! ### From runs to derivations -/

/-- What was read of a chain whose next member is still to come. The members are given
latest first. -/
inductive Pending (Chain : List Token → List Filter → Prop) (connective : Connective) :
    List Token → List Filter → Prop
  | start : Pending Chain connective [] []
  | joined {tokens : List Token} {token : Token} {filters : List Filter}
      (chain : Chain tokens filters.reverse) (joins : Joins connective token) :
      Pending Chain connective (tokens ++ [token]) filters

theorem Pending.terms {depth : Nat} {tokens rest : List Token} {filters : List Filter}
    {filter : Filter} (pending : Pending (Terms options depth) .and tokens filters)
    (term : Term options depth rest filter) :
    Terms options depth (tokens ++ rest) (filter :: filters).reverse := by
  cases pending with
  | start => exact .one term
  | joined chain joins =>
      rw [List.append_assoc, List.reverse_cons]
      exact chain.snoc joins term

theorem Pending.alternatives {depth : Nat} {tokens rest : List Token}
    {filters terms : List Filter}
    (pending : Pending (Alternatives options depth) .or tokens filters)
    (last : Terms options depth rest terms) :
    Alternatives options depth (tokens ++ rest)
      (fold .and terms :: filters).reverse := by
  cases pending with
  | start => exact .one last
  | joined chain joins =>
      rw [List.append_assoc, List.reverse_cons]
      exact chain.snoc joins last

/-- What was read of a level before the term under way. -/
structure LevelRead (options : ParseOptions) (depth : Nat) (tokens : List Token)
    (level : Level) : Prop where
  split : ∃ front back, tokens = front ++ back ∧
    Pending (Alternatives options depth) .or front level.alternatives ∧
    Pending (Terms options depth) .and back level.terms

theorem LevelRead.and {depth : Nat} {tokens rest : List Token} {token : Token}
    {level : Level} {term : Filter} (read : LevelRead options depth tokens level)
    (last : Term options depth rest term) (joins : Joins .and token) :
    LevelRead options depth (tokens ++ rest ++ [token])
      { level with terms := term :: level.terms } := by
  rcases read.split with ⟨front, back, rfl, alternatives, terms⟩
  refine ⟨front, back ++ rest ++ [token], ?_, alternatives,
    .joined (terms.terms last) joins⟩
  simp only [List.append_assoc]

theorem LevelRead.or {depth : Nat} {tokens rest : List Token} {token : Token}
    {level : Level} {term : Filter} (read : LevelRead options depth tokens level)
    (last : Term options depth rest term) (joins : Joins .or token) :
    LevelRead options depth (tokens ++ rest ++ [token])
      { alternatives := chain .and level.terms term :: level.alternatives } := by
  rcases read.split with ⟨front, back, rfl, alternatives, terms⟩
  refine ⟨front ++ (back ++ rest) ++ [token], [], ?_, .joined ?_ joins, .start⟩
  · simp only [List.append_assoc, List.append_nil]
  · have joined := terms.terms last
    rw [chain_terms joined (List.reverse_reverse _).symm]
    exact alternatives.alternatives joined

theorem LevelRead.close {depth : Nat} {tokens rest : List Token} {level : Level}
    {term : Filter} (read : LevelRead options depth tokens level)
    (last : Term options depth rest term) :
    ∃ filters, Alternatives options depth (tokens ++ rest) filters ∧
      level.close term = fold .or filters := by
  rcases read.split with ⟨front, back, rfl, alternatives, terms⟩
  have joined := terms.terms last
  have all := alternatives.alternatives joined
  rw [← List.append_assoc] at all
  refine ⟨_, all, ?_⟩
  rw [Level.close, chain_terms joined (List.reverse_reverse _).symm]
  exact chain_alternatives all (List.reverse_reverse _).symm

/-- What was read before the innermost level: for every open group the level around it
and its opening parenthesis. -/
inductive GroupsRead (options : ParseOptions) :
    List Token → List (Position × Level) → Prop
  | none : GroupsRead options [] []
  | opened {tokens inner : List Token} {opening : Token} {level : Level}
      {groups : List (Position × Level)} (outer : GroupsRead options tokens groups)
      (fits : groups.length < maxNesting)
      (read : LevelRead options (maxNesting - groups.length) inner level)
      (opens : opening.isParen '(' = true) :
      GroupsRead options (tokens ++ inner ++ [opening])
        ((opening.position, level) :: groups)

def UnderWay (options : ParseOptions) (depth : Nat) : Expectation → List Token → Prop
  | .term _, tokens => tokens = []
  | .operator key, tokens => tokens = [key] ∧ key.kind = .key
  | .literal key operator, tokens =>
      ∃ sign : Token, tokens = [key, sign] ∧ key.kind = .key ∧ sign.kind = .operator ∧
        sign.text = operator.render
  | .connective term, tokens => Term options depth tokens term

/-- The state after the tokens, told from the grammar. -/
structure Reading (options : ParseOptions) (tokens : List Token) (state : State) :
    Prop where
  split : ∃ outer level rest, tokens = outer ++ level ++ rest ∧
    GroupsRead options outer state.groups ∧
    LevelRead options (maxNesting - state.groups.length) level state.level ∧
    UnderWay options (maxNesting - state.groups.length) state.expected rest

theorem reading_initial : Reading options [] .initial :=
  ⟨[], [], [], rfl, .none, ⟨[], [], rfl, .start, .start⟩, rfl⟩

theorem Reading.term {tokens : List Token} {groups : List (Position × Level)}
    {level : Level} {after : String} {token : Token} {next : State}
    (reading : Reading options tokens { groups, level, expected := .term after })
    (taken : stepTerm { groups, level, expected := .term after } token = .ok next) :
    Reading options (tokens ++ [token]) next := by
  rcases reading.split with ⟨outer, read, rest, rfl, groupsRead, levelRead, rfl⟩
  rw [stepTerm] at taken
  split at taken
  · next opens =>
      split at taken
      · cases taken
      · next room =>
          cases taken
          refine ⟨outer ++ read ++ [token], [], [], ?_, ?_,
            ⟨[], [], rfl, .start, .start⟩, rfl⟩
          · simp only [List.append_nil]
          · exact .opened groupsRead (by omega) levelRead opens
  · split at taken
    · next isKey =>
        cases taken
        exact ⟨outer, read, [token], by simp only [List.append_nil], groupsRead,
          levelRead, rfl, isKey⟩
    · cases taken

theorem Reading.operator {tokens : List Token} {groups : List (Position × Level)}
    {level : Level} {key token : Token} {next : State}
    (reading : Reading options tokens { groups, level, expected := .operator key })
    (taken : stepOperator { groups, level, expected := .operator key } key token =
      .ok next) :
    Reading options (tokens ++ [token]) next := by
  rcases reading.split with ⟨outer, read, rest, rfl, groupsRead, levelRead, rfl, isKey⟩
  rw [stepOperator] at taken
  split at taken
  · next isOperator =>
      split at taken
      · next operator known =>
          cases taken
          refine ⟨outer, read, [key, token], ?_, groupsRead, levelRead, token, rfl,
            isKey, isOperator, ?_⟩
          · simp only [List.append_assoc, List.cons_append, List.nil_append]
          · have same := List.find?_some known
            exact (beq_iff_eq.mp same).symm
      · cases taken
  · cases taken

theorem Reading.literal {tokens : List Token} {groups : List (Position × Level)}
    {level : Level} {key token : Token} {operator : Operator} {next : State}
    (reading : Reading options tokens
      { groups, level, expected := .literal key operator })
    (taken : stepLiteral options { groups, level, expected := .literal key operator }
      key operator
      token = .ok next) :
    Reading options (tokens ++ [token]) next := by
  rcases reading.split with
    ⟨outer, read, rest, rfl, groupsRead, levelRead, sign, rfl, isKey, isOperator, known⟩
  rw [stepLiteral] at taken
  split at taken
  · next isLiteral =>
      cases taken
      refine ⟨outer, read, [key, sign, token], ?_, groupsRead, levelRead,
        .comparison isKey isOperator known ?_⟩
      · simp only [List.append_assoc, List.cons_append, List.nil_append]
      · exact (TokenKind.isLiteral_iff token.kind).mp isLiteral
  · cases taken

theorem Reading.connective {tokens : List Token} {groups : List (Position × Level)}
    {level : Level} {term : Filter} {token : Token} {next : State}
    (reading : Reading options tokens { groups, level, expected := .connective term })
    (taken : stepConnective { groups, level, expected := .connective term } term token =
      .ok next) :
    Reading options (tokens ++ [token]) next := by
  rcases reading.split with ⟨outer, read, rest, rfl, groupsRead, levelRead, complete⟩
  rw [stepConnective] at taken
  dsimp only at taken
  split at taken
  · next isBoolean =>
      split at taken
      · next keyword =>
          cases taken
          have joins := (Connective.ofKeyword?_eq_some_iff token.text .and).mp keyword
          refine ⟨outer, read ++ rest ++ [token], [], ?_, groupsRead,
            levelRead.and complete ⟨isBoolean, joins⟩, rfl⟩
          simp only [List.append_assoc, List.append_nil]
      · next keyword =>
          cases taken
          have joins := (Connective.ofKeyword?_eq_some_iff token.text .or).mp keyword
          refine ⟨outer, read ++ rest ++ [token], [], ?_, groupsRead,
            levelRead.or complete ⟨isBoolean, joins⟩, rfl⟩
          simp only [List.append_assoc, List.append_nil]
      · cases taken
  · cases groupsRead with
    | none => cases taken
    | @opened before inner opening outerLevel groups outerRead fits outerLevelRead
        opens =>
        dsimp only at taken
        split at taken
        · next closes =>
            -- The innermost level becomes one term of the level around it.
            cases taken
            rcases levelRead.close complete with ⟨filters, alternatives, closed⟩
            -- One group is closed, so one more may be opened from here on.
            have deeper : maxNesting - groups.length =
                maxNesting - ((opening.position, outerLevel) :: groups).length + 1 := by
              rw [List.length_cons]
              omega
            refine ⟨before, inner, opening :: (read ++ rest ++ [token]), ?_, outerRead,
              outerLevelRead, ?_⟩
            · simp only [List.append_assoc, List.cons_append, List.nil_append]
            · rw [deeper]
              dsimp only [UnderWay]
              rw [closed]
              exact .group opens closes alternatives
        · cases taken

theorem Reading.step {tokens : List Token} {state next : State} {token : Token}
    (reading : Reading options tokens state)
    (taken : Parser.step options state token = .ok next) :
    Reading options (tokens ++ [token]) next := by
  rcases state with ⟨groups, level, expected⟩
  cases expected with
  | term after => exact reading.term taken
  | operator key => exact reading.operator taken
  | literal key operator => exact reading.literal taken
  | connective term => exact reading.connective taken

theorem Reading.feed {tokens rest : List Token} {state final : State}
    (reading : Reading options tokens state)
    (through : Parser.feed options state rest = .ok final) :
    Reading options (tokens ++ rest) final := by
  induction rest generalizing tokens state with
  | nil =>
      cases through
      rw [List.append_nil]
      exact reading
  | cons token rest induction =>
      rw [Parser.feed, List.foldlM_cons] at through
      rcases bind_eq_ok_iff.mp through with ⟨next, taken, through⟩
      have onward := induction (reading.step taken) through
      rwa [List.append_assoc] at onward

theorem derivable_of_run {tokens : List Token} {last : Position} {filter : Filter}
    (accepted : run options .initial last tokens = .ok filter) :
    ∃ filters, Alternatives options maxNesting tokens filters ∧
      filter = fold .or filters := by
  rcases (run_eq_ok_iff ..).mp accepted with
    ⟨final, through, term, expected, noGroups, closed⟩
  rcases (reading_initial.feed through).split with
    ⟨outer, read, rest, order, groupsRead, levelRead, complete⟩
  rw [noGroups] at groupsRead levelRead complete
  cases groupsRead
  rw [expected] at complete
  rcases levelRead.close complete with ⟨filters, alternatives, folded⟩
  refine ⟨filters, ?_, ?_⟩
  · rw [List.nil_append, List.nil_append] at order
    rw [order]
    exact alternatives
  · rw [← closed, folded]

theorem run_of_derivable {tokens : List Token} {last : Position} {filters : List Filter}
    (alternatives : Alternatives options maxNesting tokens filters) :
    run options .initial last tokens = .ok (fold .or filters) := by
  rcases feed_alternatives [] [] "" alternatives (by simp) with
    ⟨level, final, order, through⟩
  rw [run_eq_ok_iff]
  refine ⟨_, through, final, rfl, rfl, ?_⟩
  exact chain_alternatives alternatives (by simpa using order)

/-! ## Whole queries -/

theorem parseField_eq_ok_iff (token : Token) (field : FieldPath) :
    parseField token = .ok field ↔ token.kind = .key ∧ field = .read token.text := by
  rw [parseField]
  cases token.kind <;> simp [eq_comm]

theorem mapM_parseField_eq_ok_iff (names : List Token) (fields : List FieldPath) :
    names.mapM parseField = .ok fields ↔
      (∀ name ∈ names, name.kind = .key) ∧
        fields = names.map fun name => .read name.text := by
  induction names generalizing fields with
  | nil => simp [pure, Except.pure, eq_comm]
  | cons name names induction =>
      rw [List.mapM_cons, bind_eq_ok_iff]
      simp only [bind_eq_ok_iff, parseField_eq_ok_iff, induction, List.forall_mem_cons,
        List.map_cons]
      constructor
      · rintro ⟨field, ⟨isKey, rfl⟩, others, ⟨areKeys, rfl⟩, same⟩
        cases same
        exact ⟨⟨isKey, areKeys⟩, rfl⟩
      · rintro ⟨⟨isKey, areKeys⟩, rfl⟩
        exact ⟨_, ⟨isKey, rfl⟩, _, ⟨areKeys, rfl⟩, rfl⟩

theorem parseFilter_eq_ok_iff (tokens : List Token) (filter : Option Filter) :
    parseFilter options tokens = .ok filter ↔ FilterPart options tokens filter := by
  simp only [parseFilter]
  constructor
  · intro accepted
    split at accepted
    · cases accepted
      exact .absent
    · cases result : run options .initial .start tokens with
      | error error =>
          rw [result] at accepted
          cases accepted
      | ok node =>
          rw [result] at accepted
          cases accepted
          rcases derivable_of_run result with ⟨filters, alternatives, rfl⟩
          exact .present alternatives
  · intro part
    cases part with
    | absent => rfl
    | present alternatives =>
        split
        · exact absurd rfl alternatives.ne_nil
        · rw [run_of_derivable alternatives]
          rfl

theorem parseProjection_eq_ok_iff {tokens : List Token} (fields : List FieldPath)
    (startsWithPipe : tokens.head?.all (·.kind == .pipe) = true) :
    parseProjection tokens = .ok fields ↔ ProjectionPart tokens fields := by
  simp only [parseProjection]
  constructor
  · intro accepted
    split at accepted
    · cases accepted
      exact .absent
    · cases accepted
    · next pipe names nonempty =>
        rcases (mapM_parseField_eq_ok_iff names fields).mp accepted with ⟨areKeys, rfl⟩
        exact .present (by simpa using startsWithPipe)
          (fun empty => nonempty (by rw [empty])) areKeys
  · intro part
    cases part with
    | absent => rfl
    | @present pipe names isPipe some areKeys =>
        split
        · next impossible => cases impossible
        · next same => simp_all
        · next same =>
            rcases List.cons.inj same with ⟨rfl, rfl⟩
            exact (mapM_parseField_eq_ok_iff _ _).mpr ⟨areKeys, rfl⟩

end

end Parser

/-! ## The parser and the grammar -/

namespace Query

theorem split_at_pipe {options : ParseOptions} {front back : List Token}
    {filter : Option Filter} {projection : List FieldPath}
    (filterPart : FilterPart options front filter)
    (projectionPart : ProjectionPart back projection) :
    (front ++ back).takeWhile (·.kind != .pipe) = front ∧
      (front ++ back).dropWhile (·.kind != .pipe) = back := by
  have inside : ∀ token ∈ front, (token.kind != .pipe) = true := by
    cases filterPart with
    | absent => simp
    | present alternatives =>
        intro token member
        simpa using alternatives.ne_pipe token member
  have ends : back.head?.all (! ·.kind != .pipe) = true := by
    simpa [bne] using projectionPart.startsWithPipe
  exact ⟨Text.takeWhile_run inside ends, Text.dropWhile_run inside ends⟩

theorem derives_of_ofTokens {options : ParseOptions} {tokens : List Token}
    {query : Query} (accepted : ofTokens options tokens = .ok query) :
    Derives options tokens query := by
  rw [ofTokens] at accepted
  rcases bind_eq_ok_iff.mp accepted with ⟨filter, front, accepted⟩
  rcases bind_eq_ok_iff.mp accepted with ⟨projection, back, accepted⟩
  cases accepted
  have startsWithPipe :
      (tokens.dropWhile (·.kind != .pipe)).head?.all (·.kind == .pipe) = true := by
    simpa [bne] using
      Text.head_dropWhile (fun token : Token => token.kind != .pipe) tokens
  rw [← List.takeWhile_append_dropWhile (p := fun token : Token => token.kind != .pipe)
    (l := tokens)]
  exact .query ((Parser.parseFilter_eq_ok_iff _ _).mp front)
    ((Parser.parseProjection_eq_ok_iff _ startsWithPipe).mp back)

theorem ofTokens_of_derives {options : ParseOptions} {tokens : List Token}
    {query : Query} (derives : Derives options tokens query) :
    ofTokens options tokens = .ok query := by
  cases derives with
  | query filterPart projectionPart =>
      rcases split_at_pipe filterPart projectionPart with ⟨front, back⟩
      rw [ofTokens]
      rw [front, back, (Parser.parseFilter_eq_ok_iff _ _).mpr filterPart,
        (Parser.parseProjection_eq_ok_iff _ projectionPart.startsWithPipe).mpr
          projectionPart]
      rfl

/-- The parser accepts exactly the rows of tokens that the grammar derives, with the
same query. -/
theorem ofTokens_eq_ok_iff (options : ParseOptions) (tokens : List Token)
    (query : Query) :
    ofTokens options tokens = .ok query ↔ Derives options tokens query :=
  ⟨derives_of_ofTokens, ofTokens_of_derives⟩

end Query

end LogQuery
