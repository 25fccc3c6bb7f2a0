import LogQuery.Proofs.Text
import LogQuery.Query.Parser

/-!
The grammar of queries, as a relation between tokens and trees:

    query      := filter? ('|' field+)?
    filter     := and ('or' and)*
    and        := term ('and' term)*
    term       := '(' filter ')' | comparison
    comparison := key operator literal

The relation knows nothing of states or of the order in which tokens are read. Each
chain becomes one flat node, a chain of one becomes its only member, and each pair of
parentheses becomes a group. The number that goes along is how many groups may still be
opened inside.

The marks are classes of tokens. `(` and `)` are told by `Token.isParen`, that is by the
kind of the token and its first character, and `|` by its kind alone. The tokens of a
text have just these three texts there (`Scan.text_of_mark`).
-/

namespace LogQuery

/-! ## Keywords and literals -/

theorem TokenKind.isLiteral_iff (kind : TokenKind) :
    kind.isLiteral = true ↔ kind = .value ∨ kind = .number := by
  simp [isLiteral]

theorem Connective.ofKeyword?_eq_some_iff (word : String) (connective : Connective) :
    ofKeyword? word = some connective ↔ word.toLower = connective.keyword := by
  have andLower : "and".toLower = "and" := by decide +kernel
  have orLower : "or".toLower = "or" := by decide +kernel
  unfold ofKeyword? Text.sameWord
  rw [andLower, orLower]
  cases connective with
  | and => simp [keyword]
  | or =>
      by_cases isAnd : word.toLower = "and"
      · simp [isAnd, keyword]
      · simp [isAnd, keyword]

theorem Connective.letters_of_ofKeyword? {word : String} {connective : Connective}
    (keyword : ofKeyword? word = some connective) :
    ∀ c ∈ word.toList, Text.isAlphabetic c = true := by
  intro c member
  rw [← Text.isAlphabetic_toLower]
  have lower : c.toLower ∈ connective.keyword.toList := by
    rw [← (ofKeyword?_eq_some_iff _ _).mp keyword]
    unfold String.toLower
    rw [String.toList_map]
    exact List.mem_map_of_mem member
  have letters : connective.keyword.toList.all Text.isAlphabetic = true := by
    cases connective <;> decide +kernel
  exact List.all_eq_true.mp letters _ lower

namespace Grammar

def fold (connective : Connective) : List Filter → Filter
  | [filter] => filter
  | filters => .logical connective filters

/-- A token that joins with the connective, in letters of any case. -/
def Joins (connective : Connective) (token : Token) : Prop :=
  token.kind = .boolean ∧ token.text.toLower = connective.keyword

/-! ## Filters -/

mutual

inductive Term (options : ParseOptions) : Nat → List Token → Filter → Prop
  | comparison {depth : Nat} {key sign value : Token} {operator : Operator}
      (isKey : key.kind = .key) (isOperator : sign.kind = .operator)
      (known : sign.text = operator.render)
      (isLiteral : value.kind = .value ∨ value.kind = .number) :
      Term options depth [key, sign, value]
        (.comparison
          { field := .read key.text
            operator
            literal := .ofToken options value
            quoted := value.quoted })
  | group {depth : Nat} {opening closing : Token} {tokens : List Token}
      {filters : List Filter} (opens : opening.isParen '(' = true)
      (closes : closing.isParen ')' = true)
      (inner : Alternatives options depth tokens filters) :
      Term options (depth + 1) (opening :: (tokens ++ [closing]))
        (.group (fold .or filters))

inductive Terms (options : ParseOptions) : Nat → List Token → List Filter → Prop
  | one {depth : Nat} {tokens : List Token} {filter : Filter}
      (term : Term options depth tokens filter) :
      Terms options depth tokens [filter]
  | more {depth : Nat} {tokens rest : List Token} {token : Token} {filter : Filter}
      {filters : List Filter} (term : Term options depth tokens filter)
      (joins : Joins .and token) (terms : Terms options depth rest filters) :
      Terms options depth (tokens ++ token :: rest) (filter :: filters)

inductive Alternatives (options : ParseOptions) : Nat → List Token → List Filter → Prop
  | one {depth : Nat} {tokens : List Token} {filters : List Filter}
      (terms : Terms options depth tokens filters) :
      Alternatives options depth tokens [fold .and filters]
  | more {depth : Nat} {tokens rest : List Token} {token : Token}
      {filters alternatives : List Filter} (terms : Terms options depth tokens filters)
      (joins : Joins .or token)
      (others : Alternatives options depth rest alternatives) :
      Alternatives options depth (tokens ++ token :: rest)
        (fold .and filters :: alternatives)

end

/-! ## Queries -/

inductive FilterPart (options : ParseOptions) : List Token → Option Filter → Prop
  | absent : FilterPart options [] none
  | present {tokens : List Token} {filters : List Filter}
      (alternatives : Alternatives options maxNesting tokens filters) :
      FilterPart options tokens (some (fold .or filters))

inductive ProjectionPart : List Token → List FieldPath → Prop
  | absent : ProjectionPart [] []
  | present {pipe : Token} {names : List Token} (isPipe : pipe.kind = .pipe)
      (some : names ≠ []) (areKeys : ∀ name ∈ names, name.kind = .key) :
      ProjectionPart (pipe :: names) (names.map fun name => .read name.text)

inductive Derives (options : ParseOptions) : List Token → Query → Prop
  | query {front back : List Token} {filter : Option Filter}
      {projection : List FieldPath} (filterPart : FilterPart options front filter)
      (projectionPart : ProjectionPart back projection) :
      Derives options (front ++ back) { filter, projection }

/-! ## Chains -/

section Chains

variable {options : ParseOptions} {depth : Nat} {rest : List Token} {token : Token}

/-- The grammar takes terms off the front; they can be put at the end as well. -/
theorem Terms.snoc {filter : Filter} (joins : Joins .and token)
    (last : Term options depth rest filter) :
    ∀ {tokens : List Token} {filters : List Filter},
      Terms options depth tokens filters →
      Terms options depth (tokens ++ token :: rest) (filters ++ [filter])
  | _, _, .one term => .more term joins (.one last)
  | _, _, .more term joinsFirst terms => by
      rw [List.append_assoc, List.cons_append]
      exact .more term joinsFirst (terms.snoc joins last)

theorem Alternatives.snoc {filters : List Filter} (joins : Joins .or token)
    (last : Terms options depth rest filters) :
    ∀ {tokens : List Token} {alternatives : List Filter},
      Alternatives options depth tokens alternatives →
      Alternatives options depth (tokens ++ token :: rest)
        (alternatives ++ [fold .and filters])
  | _, _, .one terms => .more terms joins (.one last)
  | _, _, .more terms joinsFirst others => by
      rw [List.append_assoc, List.cons_append]
      exact .more terms joinsFirst (others.snoc joins last)

end Chains

/-! ## Tokens of a filter -/

section Tokens

variable {options : ParseOptions}

mutual

theorem Term.ne_pipe :
    ∀ {depth : Nat} {tokens : List Token} {filter : Filter},
      Term options depth tokens filter →
      ∀ token ∈ tokens, token.kind ≠ .pipe
  | _, _, _, .comparison isKey isOperator _ isLiteral => by
      intro token member
      simp only [List.mem_cons, List.not_mem_nil, or_false] at member
      rcases member with rfl | rfl | rfl
      · simp [isKey]
      · simp [isOperator]
      · rcases isLiteral with kind | kind <;> simp [kind]
  | _, _, _, .group opens closes inner => by
      intro token member
      rcases List.mem_cons.mp member with rfl | member
      · intro isPipe
        simp [Token.isParen, isPipe] at opens
      · rcases List.mem_append.mp member with member | member
        · exact inner.ne_pipe token member
        · rcases List.mem_singleton.mp member with rfl
          intro isPipe
          simp [Token.isParen, isPipe] at closes

theorem Terms.ne_pipe :
    ∀ {depth : Nat} {tokens : List Token} {filters : List Filter},
      Terms options depth tokens filters → ∀ token ∈ tokens, token.kind ≠ .pipe
  | _, _, _, .one term => term.ne_pipe
  | _, _, _, .more term joins terms => by
      intro token member
      rcases List.mem_append.mp member with member | member
      · exact term.ne_pipe token member
      · rcases List.mem_cons.mp member with rfl | member
        · simp [joins.1]
        · exact terms.ne_pipe token member

theorem Alternatives.ne_pipe :
    ∀ {depth : Nat} {tokens : List Token} {filters : List Filter},
      Alternatives options depth tokens filters → ∀ token ∈ tokens, token.kind ≠ .pipe
  | _, _, _, .one terms => terms.ne_pipe
  | _, _, _, .more terms joins others => by
      intro token member
      rcases List.mem_append.mp member with member | member
      · exact terms.ne_pipe token member
      · rcases List.mem_cons.mp member with rfl | member
        · simp [joins.1]
        · exact others.ne_pipe token member

end

theorem Term.ne_nil {depth : Nat} {tokens : List Token} {filter : Filter}
    (term : Term options depth tokens filter) : tokens ≠ [] := by
  cases term <;> simp

theorem Terms.ne_nil {depth : Nat} {tokens : List Token} {filters : List Filter}
    (terms : Terms options depth tokens filters) : tokens ≠ [] := by
  cases terms with
  | one term => exact term.ne_nil
  | more term joins terms => simp

theorem Alternatives.ne_nil {depth : Nat} {tokens : List Token} {filters : List Filter}
    (alternatives : Alternatives options depth tokens filters) : tokens ≠ [] := by
  cases alternatives with
  | one terms => exact terms.ne_nil
  | more terms joins others => simp

theorem ProjectionPart.startsWithPipe {tokens : List Token} {fields : List FieldPath}
    (part : ProjectionPart tokens fields) :
    tokens.head?.all (·.kind == .pipe) = true := by
  cases part with
  | absent => rfl
  | present isPipe some areKeys => simp [isPipe]

end Tokens

end Grammar

end LogQuery
