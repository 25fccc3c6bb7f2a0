import LogQuery.Proofs.Parser
import Mathlib.Data.List.TakeWhile
import Mathlib.Logic.Basic

/-!
What the parser blames. From every state of the automaton some tokens lead to the end of
a filter, so a row of tokens through which the automaton gets is at worst incomplete.
The token it refuses is therefore the first one that spoils the row, and the error
stands at this token.
-/

namespace LogQuery

namespace Parser

section

variable {options : ParseOptions}

/-! ## Completing what was read -/

def fillerKey : Token := { kind := .key, text := "field", position := .start }

def fillerSign : Token :=
  { kind := .operator, text := Operator.equal.render, position := .start }

def fillerValue : Token := { kind := .value, text := "value", position := .start }

def fillerClosing : Token := { kind := .paren, text := ")", position := .start }

def fillers : Expectation → List Token
  | .term _ => [fillerKey, fillerSign, fillerValue]
  | .operator _ => [fillerSign, fillerValue]
  | .literal _ _ => [fillerValue]
  | .connective _ => []

/-- The rest of the term under way and the end of every open group. -/
def completion (state : State) : List Token :=
  fillers state.expected ++ List.replicate state.groups.length fillerClosing

theorem feed_fillers (options : ParseOptions) (groups : List (Position × Level))
    (level : Level) (expected : Expectation) :
    ∃ term, feed options { groups, level, expected } (fillers expected) =
      .ok { groups, level, expected := .connective term } := by
  cases expected with
  | term after =>
      have known : fillerSign.text = Operator.equal.render := rfl
      exact ⟨_, feed_comparison rfl rfl known (.inl rfl)⟩
  | operator key => exact ⟨_, rfl⟩
  | literal key operator => exact ⟨_, rfl⟩
  | connective term => exact ⟨term, rfl⟩

theorem feed_closings (options : ParseOptions) (groups : List (Position × Level))
    (level : Level) (term : Filter) :
    ∃ final filter,
      feed options { groups, level, expected := .connective term }
        (List.replicate groups.length fillerClosing) = .ok final ∧
          Accepts final filter := by
  induction groups generalizing level term with
  | nil => exact ⟨_, _, rfl, term, rfl, rfl, rfl⟩
  | cons group groups induction =>
      rcases group with ⟨opened, outer⟩
      rcases induction outer (.group (level.close term)) with
        ⟨final, filter, through, accepts⟩
      refine ⟨final, filter, ?_, accepts⟩
      rw [List.length_cons, List.replicate_succ, feed_cons _ (step_closing (by decide)),
        through]

theorem feed_completion (options : ParseOptions) (state : State) :
    ∃ final filter, feed options state (completion state) = .ok final ∧
      Accepts final filter := by
  rcases state with ⟨groups, level, expected⟩
  rcases feed_fillers options groups level expected with ⟨term, filled⟩
  rcases feed_closings options groups level term with ⟨final, filter, closed, accepts⟩
  refine ⟨final, filter, ?_, accepts⟩
  rw [completion, feed_append _ filled, closed]

theorem completion_ne_pipe (state : State) :
    ∀ token ∈ completion state, token.kind ≠ .pipe := by
  intro token member
  rcases List.mem_append.mp member with member | member
  · have kinds : (fillers state.expected).all (·.kind != .pipe) = true := by
      cases state.expected <;> rfl
    simpa using List.all_eq_true.mp kinds token member
  · rw [List.eq_of_mem_replicate member]
    decide

/-! ## Refused tokens and unfinished filters -/

inductive Refuses (token : Token) : Fault → Prop
  | unexpected : Refuses token (.unexpectedToken token.kind token.text)
  | nestedTooDeep : Refuses token .nestedTooDeep
  | missingOperator (key : String) :
      Refuses token (.missingOperator key (some token.text))
  | unknownOperator : Refuses token (.unknownOperator token.text)
  | missingValue (operator : String) :
      Refuses token (.missingValue operator (some token.text))
  | unclosedGroup (opened : Position) :
      Refuses token (.unclosedGroup (some (opened, token.text)))
  | unknownConnective (isBoolean : token.kind = .boolean)
      (unknown : Connective.ofKeyword? token.text = none) :
      Refuses token (.unknownConnective token.text)

theorem refuses_of_step {state : State} {token : Token} {error : QueryError}
    (failed : step options state token = .error error) :
    ∃ fault, Refuses token fault ∧ error = .within fault token.position := by
  rcases state with ⟨groups, level, expected⟩
  cases expected with
  | term after =>
      simp only [step, stepTerm] at failed
      split at failed
      · split at failed
        · cases failed
          exact ⟨_, .nestedTooDeep, rfl⟩
        · cases failed
      · split at failed
        · cases failed
        · cases failed
          exact ⟨_, .unexpected, rfl⟩
  | operator key =>
      simp only [step, stepOperator] at failed
      split at failed
      · split at failed
        · cases failed
        · cases failed
          exact ⟨_, .unknownOperator, rfl⟩
      · cases failed
        exact ⟨_, .missingOperator key.text, rfl⟩
  | literal key operator =>
      simp only [step, stepLiteral] at failed
      split at failed
      · cases failed
      · cases failed
        exact ⟨_, .missingValue operator.render, rfl⟩
  | connective term =>
      simp only [step, stepConnective] at failed
      split at failed
      · next isBoolean =>
          split at failed
          · cases failed
          · cases failed
          · next unknown =>
              cases failed
              exact ⟨_, .unknownConnective isBoolean unknown, rfl⟩
      · split at failed
        · cases failed
          exact ⟨_, .unexpected, rfl⟩
        · next opened outer groups =>
            split at failed
            · cases failed
            · cases failed
              exact ⟨_, .unclosedGroup opened, rfl⟩

inductive Unfinished (state : State) (last : Position) : Fault → Position → Prop
  | missingTerm {after : String} (expected : state.expected = .term after) :
      Unfinished state last (.missingTerm after) last
  | missingOperator {key : Token} (expected : state.expected = .operator key) :
      Unfinished state last (.missingOperator key.text none) key.position
  | missingValue {key : Token} {operator : Operator}
      (expected : state.expected = .literal key operator) :
      Unfinished state last (.missingValue operator.render none) last
  | unclosedGroup {opened : Position} {outer : Level} {groups : List (Position × Level)}
      (remain : state.groups = (opened, outer) :: groups) :
      Unfinished state last (.unclosedGroup none) opened

theorem unfinished_of_finish {state : State} {last : Position} {error : QueryError}
    (failed : finish state last = .error error) :
    ∃ fault position, Unfinished state last fault position ∧
      error = .within fault position := by
  rcases state with ⟨groups, level, expected⟩
  cases expected with
  | term after =>
      cases failed
      exact ⟨_, _, .missingTerm rfl, rfl⟩
  | operator key =>
      cases failed
      exact ⟨_, _, .missingOperator rfl, rfl⟩
  | literal key operator =>
      cases failed
      exact ⟨_, _, .missingValue rfl, rfl⟩
  | connective term =>
      cases groups with
      | nil => cases failed
      | cons group groups =>
          cases failed
          exact ⟨_, _, .unclosedGroup rfl, rfl⟩

def unfinishedCodes : List FaultCode :=
  [.unexpectedEnd, .expectedOperator, .expectedValue, .expectedClosingParen]

theorem Unfinished.code {state : State} {last position : Position} {fault : Fault}
    (unfinished : Unfinished state last fault position) :
    fault.code ∈ unfinishedCodes := by
  cases unfinished <;> simp [Fault.code, unfinishedCodes]

/-! ## Failing runs -/

def lastPlace (tokens : List Token) (otherwise : Position) : Position :=
  (tokens.getLast?.map (·.position)).getD otherwise

theorem lastPlace_cons (token : Token) (rest : List Token) (otherwise : Position) :
    lastPlace (token :: rest) otherwise = lastPlace rest token.position := by
  cases rest with
  | nil => rfl
  | cons next rest =>
      rw [lastPlace, lastPlace, List.getLast?_cons_cons, List.getLast?_cons]
      rfl

/-- A run that fails stops at the first token that is refused, or comes to the end in a
state that is not accepting. -/
theorem run_eq_error {state : State} {last : Position} {tokens : List Token}
    {error : QueryError} (failed : run options state last tokens = .error error) :
    (∃ final, feed options state tokens = .ok final ∧
        finish final (lastPlace tokens last) = .error error) ∨
      ∃ index token middle, tokens[index]? = some token ∧
        feed options state (tokens.take index) = .ok middle ∧
        step options middle token = .error error := by
  induction tokens generalizing state last with
  | nil => exact .inl ⟨state, rfl, failed⟩
  | cons token rest induction =>
      rw [run] at failed
      cases taken : step options state token with
      | error refused =>
          rw [taken] at failed
          cases failed
          exact .inr ⟨0, token, state, rfl, rfl, taken⟩
      | ok next =>
          rw [taken] at failed
          rcases induction failed with
            ⟨final, through, unfinished⟩ |
            ⟨index, refused, middle, place, through, stopped⟩
          · refine .inl ⟨final, ?_, ?_⟩
            · rw [feed_cons _ taken, through]
            · rw [lastPlace_cons, unfinished]
          · refine .inr ⟨index + 1, refused, middle, ?_, ?_, stopped⟩
            · rw [List.getElem?_cons_succ, place]
            · rw [List.take_succ_cons, feed_cons _ taken, through]

/-! ## Rows of tokens without a bar -/

theorem feed_of_append {state final : State} {first second : List Token}
    (through : feed options state (first ++ second) = .ok final) :
    ∃ middle, feed options state first = .ok middle ∧
      feed options middle second = .ok final := by
  rw [feed, List.foldlM_append] at through
  exact bind_eq_ok_iff.mp through

end

end Parser

namespace Query

def NoBar (tokens : List Token) : Prop :=
  ∀ token ∈ tokens, token.kind ≠ .pipe

/-- Some accepted row of tokens without a bar begins with these tokens. -/
def Viable (options : ParseOptions) (tokens : List Token) : Prop :=
  ∃ rest query, NoBar (tokens ++ rest) ∧ ofTokens options (tokens ++ rest) = .ok query

/-- Up to here, but not to the token at this index, the tokens can become an accepted
row. -/
structure FirstHopeless (options : ParseOptions) (tokens : List Token) (index : Nat) :
    Prop where
  hopeless : ¬ Viable options (tokens.take (index + 1))
  viable : ∀ earlier < index, Viable options (tokens.take (earlier + 1))

section

variable {options : ParseOptions} {tokens : List Token}

theorem ofTokens_noBar (nonempty : tokens ≠ []) (noBar : NoBar tokens) :
    ofTokens options tokens =
      (Parser.run options .initial .start tokens).map fun filter =>
        { filter := some filter, projection := [] } := by
  have inside : ∀ token ∈ tokens, (token.kind != .pipe) = true := by
    simpa [NoBar] using noBar
  have front : tokens.takeWhile (·.kind != .pipe) = tokens :=
    List.takeWhile_eq_self_iff.mpr inside
  have back : tokens.dropWhile (·.kind != .pipe) = [] :=
    List.dropWhile_eq_nil_iff.mpr inside
  rw [ofTokens]
  rw [front, back, Parser.parseFilter]
  · cases Parser.run options .initial .start tokens <;> rfl
  · exact nonempty

theorem viable_iff (noBar : NoBar tokens) :
    Viable options tokens ↔
      ∃ state, Parser.feed options .initial tokens = .ok state := by
  constructor
  · intro viable
    rcases viable with ⟨rest, query, allowed, accepted⟩
    by_cases empty : tokens ++ rest = []
    · rw [(List.append_eq_nil_iff.mp empty).1]
      exact ⟨_, rfl⟩
    · rw [ofTokens_noBar empty allowed] at accepted
      cases result : Parser.run options .initial .start (tokens ++ rest) with
      | error error =>
          rw [result] at accepted
          cases accepted
      | ok filter =>
          rcases (Parser.run_eq_ok_iff ..).mp result with ⟨final, through, _⟩
          rcases Parser.feed_of_append through with ⟨middle, front, _⟩
          exact ⟨middle, front⟩
  · intro reached
    rcases reached with ⟨state, through⟩
    rcases Parser.feed_completion options state with ⟨final, filter, completed, accepts⟩
    have allowed : NoBar (tokens ++ Parser.completion state) := by
      intro token member
      rcases List.mem_append.mp member with member | member
      · exact noBar token member
      · exact Parser.completion_ne_pipe state token member
    have result :
        Parser.run options .initial .start (tokens ++ Parser.completion state) =
          .ok filter := by
      rw [Parser.run_eq_ok_iff, Parser.feed_append _ through]
      exact ⟨final, completed, accepts⟩
    have nonempty : tokens ++ Parser.completion state ≠ [] := by
      intro empty
      rw [empty] at result
      cases result
    refine ⟨Parser.completion state, { filter := some filter, projection := [] },
      allowed, ?_⟩
    rw [ofTokens_noBar nonempty allowed, result]
    rfl

theorem Viable.take (viable : Viable options tokens) (count : Nat) :
    Viable options (tokens.take count) := by
  rcases viable with ⟨rest, query, allowed, accepted⟩
  rw [← List.take_append_drop count tokens, List.append_assoc] at allowed accepted
  exact ⟨tokens.drop count ++ rest, query, allowed, accepted⟩

theorem firstHopeless_of_refused (noBar : NoBar tokens) {index : Nat} {token : Token}
    {middle : Parser.State} {error : QueryError} (place : tokens[index]? = some token)
    (through : Parser.feed options .initial (tokens.take index) = .ok middle)
    (refused : Parser.step options middle token = .error error) :
    FirstHopeless options tokens index := by
  have part : ∀ count, NoBar (tokens.take count) := fun count token member =>
    noBar token (List.mem_of_mem_take member)
  constructor
  · -- The automaton gets to the token and no further.
    have row : tokens.take (index + 1) = tokens.take index ++ [token] := by
      rw [List.take_add_one, place]
      rfl
    have stopped : Parser.feed options middle [token] = .error error := by
      rw [Parser.feed, List.foldlM_cons, refused]
      rfl
    rw [viable_iff (part _), row, Parser.feed_append _ through, stopped]
    intro reached
    rcases reached with ⟨state, impossible⟩
    cases impossible
  · intro earlier before
    have viable : Viable options (tokens.take index) :=
      (viable_iff (part _)).mpr ⟨middle, through⟩
    have shorter := viable.take (earlier + 1)
    rwa [List.take_take, Nat.min_eq_left before] at shorter

/-- Tokens without a bar that are rejected are either incomplete or wrong. Incomplete
ones can become an accepted row, and the error says what is missing. Wrong ones cannot,
and the error stands at the first token that no accepted row has there. -/
theorem ofTokens_blames_first_hopeless {error : QueryError} (nonempty : tokens ≠ [])
    (noBar : NoBar tokens) (rejected : ofTokens options tokens = .error error) :
    Xor (Viable options tokens ∧
        error.code ∈ [.unexpectedEnd, .expectedOperator, .expectedValue,
          .expectedClosingParen])
      (¬ Viable options tokens ∧ ∃ index token, tokens[index]? = some token ∧
        FirstHopeless options tokens index ∧ error.position = some token.position) := by
  have failed : Parser.run options .initial .start tokens = .error error := by
    rw [ofTokens_noBar nonempty noBar] at rejected
    exact map_eq_error_iff.mp rejected
  rcases Parser.run_eq_error failed with
    ⟨final, through, ended⟩ | ⟨index, token, middle, place, through, refused⟩
  · have viable : Viable options tokens := (viable_iff noBar).mpr ⟨final, through⟩
    rcases Parser.unfinished_of_finish ended with ⟨fault, position, unfinished, rfl⟩
    exact .inl ⟨⟨viable, unfinished.code⟩, fun wrong => wrong.1 viable⟩
  · have first := firstHopeless_of_refused noBar place through refused
    have wrong : ¬ Viable options tokens :=
      fun viable => first.hopeless (viable.take (index + 1))
    rcases Parser.refuses_of_step refused with ⟨fault, _, rfl⟩
    exact .inr
      ⟨⟨wrong, index, token, place, first, rfl⟩, fun incomplete => wrong incomplete.1⟩

end

def crowdedTokens : List Token :=
  (List.range (maxNesting + 2)).map fun index =>
    { kind := .paren, text := "(", position := { line := 1, column := index + 1 } }

theorem ofTokens_blames_first_hopeless_crowded :
    ofTokens {} crowdedTokens =
      .error (.within .nestedTooDeep { line := 1, column := 129 }) ∧
      ¬ Viable {} crowdedTokens ∧ ∃ index token, crowdedTokens[index]? = some token ∧
        FirstHopeless {} crowdedTokens index ∧
        token.position = { line := 1, column := 129 } := by
  have rejected : ofTokens {} crowdedTokens =
      .error (.within .nestedTooDeep { line := 1, column := 129 }) := by
    decide +kernel
  have noBar : NoBar crowdedTokens := by
    intro token member
    rcases List.mem_map.mp member with ⟨index, _, rfl⟩
    simp
  refine ⟨rejected, ?_⟩
  rcases ofTokens_blames_first_hopeless (by decide) noBar rejected with
    ⟨⟨_, code⟩, _⟩ | ⟨⟨wrong, index, token, place, first, position⟩, _⟩
  · exact absurd code (by decide)
  · exact ⟨wrong, index, token, place, first, (Option.some.inj position).symm⟩

end Query

end LogQuery
