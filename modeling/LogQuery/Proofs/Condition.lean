import LogQuery.Condition
import LogQuery.Proofs.Derivation
import Mathlib.Data.List.Forall2

/-!
What is read off the tokens of a query agrees with its tree. The tokens are looked at
three and two at a time, without regard to parentheses, connectives and the bar. Still
every comparison of the tree is found once and in its place, and nothing else is found.
-/

namespace LogQuery

/-! ## Conditions and comparisons -/

/-- Whether a text is how a literal was written. A number can be written in many
ways. -/
def Literal.WrittenAs : Literal → String → Prop
  | text contents, written => written = contents
  | word contents, written => written = contents
  | number value, written => Double.read? written = some value
  | boolean true, written => written = "true"
  | boolean false, written => written = "false"
  | null, written => written = "null"

structure Condition.Describes (condition : Condition) (comparison : Comparison) :
    Prop where
  field : condition.field = comparison.field.dotted
  operator : condition.operator = comparison.operator.render
  value : comparison.literal.WrittenAs condition.value
  isContainment : condition.isContainment = comparison.operator.isContainment

theorem Literal.writtenAs_ofToken (options : ParseOptions) (token : Token) :
    (ofToken options token).WrittenAs token.text := by
  have means := token.means_ofToken options
  generalize ofToken options token = literal at means ⊢
  cases means with
  | text quoted => rfl
  | number unquoted read => exact (Option.filter_eq_some_iff.mp read).1
  | @boolean value unquoted fixed => cases value <;> exact fixed
  | null unquoted fixed => exact fixed
  | word unquoted => rfl

theorem Condition.describes_ofTokens (options : ParseOptions) {key sign value : Token}
    {operator : Operator} (known : sign.text = operator.render) :
    (ofTokens key sign value).Describes
      { field := .read key.text
        operator
        literal := .ofToken options value
        quoted := value.quoted } where
  field := rfl
  operator := known
  value := Literal.writtenAs_ofToken options value
  isContainment := by
    change (sign.text == "~" || sign.text == "!~") = operator.isContainment
    rw [known]
    cases operator <;> decide

/-! ## Rows of tokens -/

theorem Condition.all_cons {token : Token} (other : token.kind ≠ .key)
    (rest : List Token) : all (token :: rest) = all rest := by
  match rest with
  | [] => rfl
  | [_] => rfl
  | _ :: _ :: _ => simp [all, looksLikeComparison, other]

theorem comparedColumns_cons {token : Token} (other : token.kind ≠ .key)
    (rest : List Token) : comparedColumns (token :: rest) = comparedColumns rest := by
  cases rest with
  | nil => rfl
  | cons next rest => simp [comparedColumns, other]

theorem Condition.all_eq_nil {tokens : List Token}
    (none : ∀ token ∈ tokens, token.kind ≠ .operator) : all tokens = [] := by
  fun_induction all tokens with
  | case1 key operator value rest others looks induction =>
      simp only [looksLikeComparison, Bool.and_eq_true, beq_iff_eq] at looks
      exact absurd looks.1.2 (none operator (by simp))
  | case2 key operator value rest others looks induction =>
      exact induction fun token member => none token (List.mem_cons_of_mem key member)
  | case3 => rfl

theorem comparedColumns_eq_nil {tokens : List Token}
    (none : ∀ token ∈ tokens, token.kind ≠ .operator) :
    comparedColumns tokens = [] := by
  fun_induction comparedColumns tokens with
  | case1 key operator rest others compared induction =>
      exact absurd compared.2 (none operator (by simp))
  | case2 key operator rest others compared induction =>
      exact induction fun token member => none token (List.mem_cons_of_mem key member)
  | case3 => rfl

/-- In front of any other tokens, these tell of exactly the comparisons given. -/
structure Tells (tokens : List Token) (comparisons : List Comparison) : Prop where
  conditions : ∃ conditions, List.Forall₂ Condition.Describes conditions comparisons ∧
    ∀ rest, Condition.all (tokens ++ rest) = conditions ++ Condition.all rest
  columns : ∀ rest, comparedColumns (tokens ++ rest) =
    comparisons.map (·.field.base) ++ comparedColumns rest

namespace Tells

theorem append {first second : List Token} {comparisons others : List Comparison}
    (one : Tells first comparisons) (two : Tells second others) :
    Tells (first ++ second) (comparisons ++ others) where
  conditions := by
    rcases one.conditions with ⟨conditions, described, found⟩
    rcases two.conditions with ⟨conditions', described', found'⟩
    refine ⟨conditions ++ conditions', List.rel_append described described', ?_⟩
    intro rest
    rw [List.append_assoc, found, found', List.append_assoc]
  columns rest := by
    rw [List.append_assoc, one.columns, two.columns, List.map_append, List.append_assoc]

theorem silent {token : Token} (other : token.kind ≠ .key) : Tells [token] [] where
  conditions := ⟨[], .nil, Condition.all_cons other⟩
  columns := comparedColumns_cons other

theorem comparison (options : ParseOptions) {key sign value : Token}
    {operator : Operator} (isKey : key.kind = .key) (isOperator : sign.kind = .operator)
    (known : sign.text = operator.render)
    (isLiteral : value.kind = .value ∨ value.kind = .number) :
    Tells [key, sign, value]
      [{ field := .read key.text
         operator
         literal := .ofToken options value
         quoted := value.quoted }] where
  conditions := by
    refine ⟨[.ofTokens key sign value],
      .cons (Condition.describes_ofTokens options known) .nil, ?_⟩
    intro rest
    have looks : looksLikeComparison key sign value = true := by
      simp [looksLikeComparison, isKey, isOperator,
        (TokenKind.isLiteral_iff _).mpr isLiteral]
    have noKey : value.kind ≠ .key := by
      rcases isLiteral with kind | kind <;> simp [kind]
    change Condition.all (key :: sign :: value :: rest) = _
    rw [Condition.all, if_pos looks, Condition.all_cons (by simp [isOperator]),
      Condition.all_cons noKey]
    rfl
  columns rest := by
    have noKey : value.kind ≠ .key := by
      rcases isLiteral with kind | kind <;> simp [kind]
    change comparedColumns (key :: sign :: value :: rest) = _
    rw [comparedColumns, if_pos ⟨isKey, isOperator⟩,
      comparedColumns_cons (by simp [isOperator]), comparedColumns_cons noKey]
    rfl

end Tells

/-! ## Derivations -/

namespace Grammar

variable {options : ParseOptions}

mutual

theorem Term.tells : ∀ {depth : Nat} {tokens : List Token} {filter : Filter},
    Term options depth tokens filter → Tells tokens filter.comparisons
  | _, _, _, .comparison isKey isOperator known isLiteral =>
      .comparison options isKey isOperator known isLiteral
  | _, _, _, .group opens closes inner => by
      have opening := Tells.silent (ne_of_eq_of_ne (Token.kind_of_isParen opens) nofun)
      have closing := Tells.silent (ne_of_eq_of_ne (Token.kind_of_isParen closes) nofun)
      simpa [Filter.comparisons, comparisons_fold] using
        opening.append (inner.tells.append closing)

theorem Terms.tells : ∀ {depth : Nat} {tokens : List Token} {filters : List Filter},
    Terms options depth tokens filters →
      Tells tokens (filters.flatMap Filter.comparisons)
  | _, _, _, .one term => by
      simpa using term.tells
  | _, _, _, .more term joins terms => by
      have keyword := Tells.silent (ne_of_eq_of_ne joins.1 nofun)
      simpa using term.tells.append (keyword.append terms.tells)

theorem Alternatives.tells :
    ∀ {depth : Nat} {tokens : List Token} {filters : List Filter},
    Alternatives options depth tokens filters →
      Tells tokens (filters.flatMap Filter.comparisons)
  | _, _, _, .one terms => by
      simpa [comparisons_fold] using terms.tells
  | _, _, _, .more terms joins others => by
      have keyword := Tells.silent (ne_of_eq_of_ne joins.1 nofun)
      simpa [comparisons_fold] using terms.tells.append (keyword.append others.tells)

end

theorem ProjectionPart.no_operator {tokens : List Token} {fields : List FieldPath}
    (part : ProjectionPart tokens fields) :
    ∀ token ∈ tokens, token.kind ≠ .operator := by
  cases part with
  | absent => nofun
  | present isPipe some areKeys =>
      rw [List.forall_mem_cons]
      exact ⟨by simp [isPipe], fun name member => by simp [areKeys name member]⟩

theorem Derives.tells {tokens : List Token} {query : Query}
    (derives : Derives options tokens query) :
    List.Forall₂ Condition.Describes (Condition.all tokens) query.comparisons ∧
      comparedColumns tokens = query.comparisons.map (·.field.base) := by
  cases derives with
  | @query front back filter projection filterPart projectionPart =>
      have noConditions := Condition.all_eq_nil projectionPart.no_operator
      have noColumns := comparedColumns_eq_nil projectionPart.no_operator
      have tells : Tells front (Query.comparisons { filter, projection }) := by
        cases filterPart with
        | absent => exact ⟨⟨[], .nil, fun _ => rfl⟩, fun _ => rfl⟩
        | present alternatives =>
            simpa [Query.comparisons, comparisons_fold] using alternatives.tells
      rcases tells.conditions with ⟨conditions, described, found⟩
      constructor
      · rw [found, noConditions, List.append_nil]
        exact described
      · rw [tells.columns, noColumns, List.append_nil]

end Grammar

/-! ## Names in the order of their first appearance -/

theorem fieldsUsed_eq_eraseDups (tokens : List Token) :
    fieldsUsed tokens = ((comparedColumns tokens).filter (! ·.isEmpty)).eraseDups := by
  rw [fieldsUsed]
  -- From the back: the last name is added to what the names before it have left.
  induction comparedColumns tokens using List.reverseRecOn with
  | nil => rfl
  | append_singleton columns column induction =>
      rw [List.foldl_append, induction, List.filter_append, List.eraseDups_append,
        List.foldl_cons, List.foldl_nil, addName]
      by_cases empty : column = ""
      · simp [empty]
      · by_cases known : column ∈ columns
        · simp [empty, known, List.removeAll]
        · simp [empty, known, List.removeAll, List.eraseDups_cons]

/-- The conditions read off the tokens of a query are its comparisons, one for each and
in order, and the fields used are their columns, each once. The projection adds nothing
to either. -/
theorem Query.tokens_describe_comparisons {options : ParseOptions} {text : String}
    {query : Query} (parsed : Query.parseWith options text = .ok query) :
    List.Forall₂ Condition.Describes (Condition.all (Scan.ofText text).tokens)
      query.comparisons ∧
      fieldsUsed (Scan.ofText text).tokens =
        ((query.comparisons.map (·.field.base)).filter (! ·.isEmpty)).eraseDups := by
  rcases (Query.parseWith_eq_ok_iff options text query).mp parsed with ⟨_, _, derives⟩
  rcases derives.tells with ⟨described, columns⟩
  exact ⟨described, by rw [fieldsUsed_eq_eraseDups, columns]⟩

def scatteredText : String :=
  "(status>=5.0 or log.level!~'x y') and (ok=true and \"\"=null)" ++
    " and log.msg=word | service log"

theorem Query.tokens_describe_comparisons_scattered :
    ∃ query, Query.parseWith {} scatteredText = .ok query ∧
      query.comparisons.length = 5 ∧
      List.Forall₂ Condition.Describes
        (Condition.all (Scan.ofText scatteredText).tokens)
        query.comparisons ∧
      fieldsUsed (Scan.ofText scatteredText).tokens = ["status", "log", "ok"] := by
  have read :
      (Query.parseWith {} scatteredText).toOption.map
          (·.comparisons.map (·.field.base)) =
        some ["status", "log", "ok", "", "log"] := by
    decide +kernel
  cases parsed : Query.parseWith {} scatteredText with
  | error error =>
      rw [parsed] at read
      cases read
  | ok query =>
      rw [parsed] at read
      have columns :
          query.comparisons.map (·.field.base) = ["status", "log", "ok", "", "log"] :=
        Option.some.inj read
      rcases Query.tokens_describe_comparisons parsed with ⟨described, used⟩
      refine ⟨query, rfl, ?_, described, ?_⟩
      · simpa using congrArg List.length columns
      · rw [used, columns]
        decide

end LogQuery
