import LogQuery.Proofs.Formula
import LogQuery.Proofs.Parser
import Mathlib.Data.List.Chain

/-!
What a derivation says about the tree it derives and about the tokens it is made of.
-/

namespace LogQuery

/-! ## Fields and literals of tokens -/

theorem FieldPath.read_ne_nested_nil (text base : String) :
    read text ≠ .nested base [] := by
  rw [read]
  cases (readSegments? text.toList).getD (splitAtDots text) with
  | nil => nofun
  | cons first rest =>
      cases rest with
      | nil => nofun
      | cons second rest => nofun

theorem finite_of_finiteNumber? {text : String} {value : Double}
    (read : finiteNumber? text = some value) : value.isFinite = true :=
  (Option.filter_eq_some_iff.mp read).2

/-- What a token can stand for. A quoted one is a text; any other one is a finite
number, one of the fixed words or some other word. -/
inductive Token.Means (token : Token) : Literal → Prop
  | text (quoted : token.quoted = true) : token.Means (.text token.text)
  | number {value : Double} (unquoted : token.quoted = false)
      (read : finiteNumber? token.text = some value) : token.Means (.number value)
  | boolean {value : Bool} (unquoted : token.quoted = false)
      (fixed : token.text = if value then "true" else "false") :
      token.Means (.boolean value)
  | null (unquoted : token.quoted = false) (fixed : token.text = "null") :
      token.Means .null
  | word (unquoted : token.quoted = false) : token.Means (.word token.text)

theorem Token.means_ofToken (options : ParseOptions) (token : Token) :
    token.Means (.ofToken options token) := by
  rw [Literal.ofToken]
  cases quoted : token.quoted with
  | true => exact .text quoted
  | false =>
      rw [if_neg Bool.false_ne_true]
      -- A numeral counts as a number both in number tokens and, with the option, in
      -- words.
      have numeric :
          token.Means
            (((finiteNumber? token.text).map .number).getD (.word token.text)) := by
        cases read : finiteNumber? token.text with
        | none => exact .word quoted
        | some value => exact .number quoted read
      split
      · exact numeric
      · split
        · next fixed => exact .boolean quoted fixed
        · split
          · next fixed => exact .boolean quoted fixed
          · split
            · next fixed => exact .null quoted fixed
            · split
              · exact numeric
              · exact .word quoted

theorem Literal.ofToken_cases (options : ParseOptions) (token : Token) :
    (token.quoted = true ∧ ofToken options token = .text token.text) ∨
      (token.quoted = false ∧
        ∃ negative rank, ofToken options token = .number (.finite negative rank)) ∨
      (token.quoted = false ∧ (ofToken options token).render = token.text ∧
        ∀ value, ofToken options token ≠ .number value) := by
  have means := token.means_ofToken options
  generalize ofToken options token = literal at means ⊢
  cases means with
  | text quoted => exact .inl ⟨quoted, rfl⟩
  | @number value unquoted read =>
      cases value with
      | finite negative rank => exact .inr (.inl ⟨unquoted, negative, rank, rfl⟩)
      | infinite negative => cases finite_of_finiteNumber? read
      | nan => cases finite_of_finiteNumber? read
  | boolean unquoted fixed => exact .inr (.inr ⟨unquoted, fixed.symm, by simp⟩)
  | null unquoted fixed => exact .inr (.inr ⟨unquoted, fixed.symm, by simp⟩)
  | word unquoted => exact .inr (.inr ⟨unquoted, rfl, by simp⟩)

theorem Literal.finite_of_ofToken {options : ParseOptions} {token : Token}
    {value : Double} (isNumber : ofToken options token = number value) :
    value.isFinite = true := by
  have means := token.means_ofToken options
  rw [isNumber] at means
  cases means with
  | number unquoted read => exact finite_of_finiteNumber? read

theorem Literal.isText_ofToken (options : ParseOptions) (token : Token) :
    (ofToken options token).isText = token.quoted := by
  have means := token.means_ofToken options
  generalize ofToken options token = literal at means ⊢
  cases means with
  | text quoted => exact quoted.symm
  | number unquoted read => exact unquoted.symm
  | boolean unquoted fixed => exact unquoted.symm
  | null unquoted fixed => exact unquoted.symm
  | word unquoted => exact unquoted.symm

theorem Token.kind_of_isParen {token : Token} {paren : Char}
    (isParen : token.isParen paren = true) : token.kind = .paren := by
  simp only [Token.isParen, Bool.and_eq_true, beq_iff_eq] at isParen
  exact isParen.1

def Query.comparisons (query : Query) : List Comparison :=
  query.filter.toList.flatMap Filter.comparisons

def Query.fields (query : Query) : List FieldPath :=
  query.comparisons.map (·.field) ++ query.projection

namespace Grammar

/-! ## Trees -/

structure Regular (filter : Filter) : Prop where
  flat : filter.Flat
  comparisons : ∀ comparison ∈ filter.comparisons, comparison.Regular

theorem regular_fold {connective : Connective} {filters : List Filter}
    (nonempty : filters ≠ []) (regular : ∀ filter ∈ filters, Regular filter)
    (whole : ∀ filter ∈ filters, Whole connective filter) :
    Regular (fold connective filters) := by
  match filters with
  | [] => exact absurd rfl nonempty
  | [filter] => exact regular filter (List.mem_singleton_self filter)
  | first :: second :: rest =>
      refine ⟨⟨by simp, whole, ?_⟩, ?_⟩
      · rw [Filter.allFlat_iff]
        exact fun filter member => (regular filter member).flat
      · intro comparison member
        change comparison ∈ Filter.comparisonsOf _ at member
        rw [Filter.comparisonsOf_eq_flatMap] at member
        rcases List.mem_flatMap.mp member with ⟨filter, source, inside⟩
        exact (regular filter source).comparisons comparison inside

section Trees

variable {options : ParseOptions}

theorem Terms.filters_ne_nil {depth : Nat} {tokens : List Token} {filters : List Filter}
    (terms : Terms options depth tokens filters) : filters ≠ [] := by
  cases terms <;> exact List.cons_ne_nil _ _

theorem Alternatives.filters_ne_nil {depth : Nat} {tokens : List Token}
    {filters : List Filter} (alternatives : Alternatives options depth tokens filters) :
    filters ≠ [] := by
  cases alternatives <;> exact List.cons_ne_nil _ _

mutual

theorem Term.regular : ∀ {depth : Nat} {tokens : List Token} {filter : Filter},
    Term options depth tokens filter → Regular filter
  | _, _, _, .comparison _ _ _ _ => by
      refine ⟨trivial, ?_⟩
      intro comparison member
      rw [List.mem_singleton.mp member]
      exact ⟨FieldPath.read_ne_nested_nil _, fun _ => Literal.finite_of_ofToken⟩
  | _, _, _, .group _ _ inner => by
      have folded := regular_fold inner.filters_ne_nil inner.regular inner.whole
      exact ⟨folded.flat, folded.comparisons⟩

theorem Terms.regular : ∀ {depth : Nat} {tokens : List Token} {filters : List Filter},
    Terms options depth tokens filters → ∀ filter ∈ filters, Regular filter
  | _, _, _, .one term => by
      simpa using term.regular
  | _, _, _, .more term _ terms => by
      rw [List.forall_mem_cons]
      exact ⟨term.regular, terms.regular⟩

theorem Alternatives.regular :
    ∀ {depth : Nat} {tokens : List Token} {filters : List Filter},
    Alternatives options depth tokens filters → ∀ filter ∈ filters, Regular filter
  | _, _, _, .one terms => by
      simpa using regular_fold terms.filters_ne_nil terms.regular (terms.whole .and)
  | _, _, _, .more terms _ others => by
      rw [List.forall_mem_cons]
      exact ⟨regular_fold terms.filters_ne_nil terms.regular (terms.whole .and),
        others.regular⟩

end

theorem Derives.regular {tokens : List Token} {query : Query}
    (derives : Derives options tokens query) :
    (∀ filter, query.filter = some filter → Regular filter) ∧
      ∀ field ∈ query.projection, ∀ base, field ≠ .nested base [] := by
  cases derives with
  | query filterPart projectionPart =>
      constructor
      · intro filter same
        cases filterPart with
        | absent => cases same
        | present alternatives =>
            cases same
            exact regular_fold alternatives.filters_ne_nil alternatives.regular
              alternatives.whole
      · cases projectionPart with
        | absent => nofun
        | present isPipe some areKeys =>
            intro field member
            rcases List.mem_map.mp member with ⟨name, _, rfl⟩
            exact FieldPath.read_ne_nested_nil name.text

end Trees

/-! ## Keys -/

theorem comparisons_fold (connective : Connective) {filters : List Filter} :
    (fold connective filters).comparisons = filters.flatMap Filter.comparisons := by
  match filters with
  | [] => rfl
  | [filter] => simp [fold]
  | first :: second :: rest => exact Filter.comparisonsOf_eq_flatMap _

def keyFields (tokens : List Token) : List FieldPath :=
  (tokens.filter (·.kind == .key)).map fun token => .read token.text

theorem keyFields_append (first second : List Token) :
    keyFields (first ++ second) = keyFields first ++ keyFields second := by
  simp [keyFields]

theorem keyFields_cons {token : Token} (other : token.kind ≠ .key)
    (tokens : List Token) : keyFields (token :: tokens) = keyFields tokens := by
  simp [keyFields, other]

section Keys

variable {options : ParseOptions}

mutual

theorem Term.keyFields_eq : ∀ {depth : Nat} {tokens : List Token} {filter : Filter},
    Term options depth tokens filter →
      keyFields tokens = filter.comparisons.map (·.field)
  | _, _, _, .comparison isKey isOperator _ isLiteral => by
      rcases isLiteral with value | number
      · simp [keyFields, isKey, isOperator, value, Filter.comparisons]
      · simp [keyFields, isKey, isOperator, number, Filter.comparisons]
  | _, _, _, .group opens closes inner => by
      rw [keyFields_cons (by simp [Token.kind_of_isParen opens]), keyFields_append,
        keyFields_cons (by simp [Token.kind_of_isParen closes]), inner.keyFields_eq,
        Filter.comparisons, comparisons_fold]
      simp [keyFields]

theorem Terms.keyFields_eq :
    ∀ {depth : Nat} {tokens : List Token} {filters : List Filter},
    Terms options depth tokens filters →
      keyFields tokens = (filters.flatMap Filter.comparisons).map (·.field)
  | _, _, _, .one term => by
      rw [term.keyFields_eq, List.flatMap_singleton]
  | _, _, _, .more term joins terms => by
      rw [keyFields_append, keyFields_cons (by simp [joins.1]), term.keyFields_eq,
        terms.keyFields_eq, List.flatMap_cons, List.map_append]

theorem Alternatives.keyFields_eq :
    ∀ {depth : Nat} {tokens : List Token} {filters : List Filter},
    Alternatives options depth tokens filters →
      keyFields tokens = (filters.flatMap Filter.comparisons).map (·.field)
  | _, _, _, .one terms => by
      rw [terms.keyFields_eq, List.flatMap_singleton, comparisons_fold]
  | _, _, _, .more terms joins others => by
      rw [keyFields_append, keyFields_cons (by simp [joins.1]), terms.keyFields_eq,
        others.keyFields_eq, List.flatMap_cons, comparisons_fold, List.map_append]

end

theorem Derives.keyFields_eq {tokens : List Token} {query : Query}
    (derives : Derives options tokens query) : keyFields tokens = query.fields := by
  cases derives with
  | query filterPart projectionPart =>
      rw [keyFields_append, Query.fields, Query.comparisons]
      congr 1
      · cases filterPart with
        | absent => rfl
        | present alternatives =>
            rw [alternatives.keyFields_eq, Option.toList_some, List.flatMap_singleton,
              comparisons_fold]
      · cases projectionPart with
        | absent => rfl
        | present isPipe some areKeys =>
            rw [keyFields_cons (by simp [isPipe]), keyFields, List.filter_eq_self.mpr]
            exact fun name member => by simp [areKeys name member]

end Keys

/-! ## Neighbours -/

def endsTerm (token : Token) : Bool :=
  token.kind.isLiteral || token.isParen ')'

def Adjacent (token next : Token) : Prop :=
  (token.kind = .operator → next.kind.isLiteral = true) ∧
    (endsTerm token = true →
      next.kind = .boolean ∨ next.kind = .pipe ∨ next.isParen ')' = true)

structure Ordered (tokens : List Token) : Prop where
  chain : tokens.IsChain Adjacent
  last : ∃ token, tokens.getLast? = some token ∧ endsTerm token = true

theorem kind_of_endsTerm {token : Token} (ends : endsTerm token = true) :
    token.kind ≠ .operator := by
  intro operator
  simp [endsTerm, Token.isParen, operator, TokenKind.isLiteral] at ends

theorem adjacent_of_not {token : Token} (noOperator : token.kind ≠ .operator)
    (noEnd : endsTerm token = false) (next : Token) : Adjacent token next := by
  refine ⟨fun operator => absurd operator noOperator, fun ends => ?_⟩
  rw [noEnd] at ends
  cases ends

theorem adjacent_of_kind {token : Token}
    (kind : token.kind = .key ∨ token.kind = .boolean ∨ token.kind = .pipe)
    (next : Token) : Adjacent token next := by
  apply adjacent_of_not
  · rcases kind with kind | kind | kind <;> simp [kind]
  · rcases kind with kind | kind | kind <;>
      simp [endsTerm, Token.isParen, kind, TokenKind.isLiteral]

theorem Ordered.append {tokens rest : List Token} {token : Token}
    (ordered : Ordered tokens)
    (next : token.kind = .boolean ∨ token.kind = .pipe ∨ token.isParen ')' = true)
    (chain : (token :: rest).IsChain Adjacent) :
    (tokens ++ token :: rest).IsChain Adjacent := by
  rcases ordered.last with ⟨last, isLast, ends⟩
  refine ordered.chain.append chain ?_
  intro token member following head
  rw [isLast, Option.mem_some_iff] at member
  rw [List.head?_cons, Option.mem_some_iff] at head
  subst member head
  exact ⟨fun operator => absurd operator (kind_of_endsTerm ends), fun _ => next⟩

theorem Ordered.join {tokens rest : List Token} {token : Token}
    (ordered : Ordered tokens) (boolean : token.kind = .boolean)
    (others : Ordered rest) : Ordered (tokens ++ token :: rest) := by
  rcases others.last with ⟨last, isLast, ends⟩
  refine ⟨ordered.append (.inl boolean) ?_, last, ?_, ends⟩
  · rw [List.isChain_cons]
    exact ⟨fun next _ => adjacent_of_kind (.inr (.inl boolean)) next, others.chain⟩
  · simp [List.getLast?_append, List.getLast?_cons, isLast]

theorem Ordered.enclose {tokens : List Token} {opening closing : Token}
    (ordered : Ordered tokens) (opens : opening.isParen '(' = true)
    (closes : closing.isParen ')' = true) :
    Ordered (opening :: (tokens ++ [closing])) := by
  have noEnd : endsTerm opening = false := by
    simp only [Token.isParen, Bool.and_eq_true, beq_iff_eq] at opens
    simp [endsTerm, Token.isParen, opens, TokenKind.isLiteral]
  have free := adjacent_of_not (by simp [Token.kind_of_isParen opens]) noEnd
  refine ⟨List.isChain_cons.mpr ⟨fun next _ => free next,
    ordered.append (.inr (.inr closes)) (List.isChain_singleton _)⟩, closing, ?_, ?_⟩
  · rw [← List.cons_append, List.getLast?_concat]
  · simp [endsTerm, closes]

section Neighbours

variable {options : ParseOptions}

mutual

theorem Term.ordered : ∀ {depth : Nat} {tokens : List Token} {filter : Filter},
    Term options depth tokens filter → Ordered tokens
  | _, _, _, @Term.comparison _ _ key sign value _ isKey isOperator _ isLiteral => by
      have literal := (TokenKind.isLiteral_iff _).mpr isLiteral
      have ends : endsTerm value = true := by simp [endsTerm, literal]
      have first : Adjacent key sign :=
        adjacent_of_kind (.inl isKey) sign
      have second : Adjacent sign value :=
        ⟨fun _ => literal, fun ends => absurd isOperator (kind_of_endsTerm ends)⟩
      exact ⟨by simp [first, second], value, rfl, ends⟩
  | _, _, _, .group opens closes inner => inner.ordered.enclose opens closes

theorem Terms.ordered : ∀ {depth : Nat} {tokens : List Token} {filters : List Filter},
    Terms options depth tokens filters → Ordered tokens
  | _, _, _, .one term => term.ordered
  | _, _, _, .more term joins terms => term.ordered.join joins.1 terms.ordered

theorem Alternatives.ordered :
    ∀ {depth : Nat} {tokens : List Token} {filters : List Filter},
    Alternatives options depth tokens filters → Ordered tokens
  | _, _, _, .one terms => terms.ordered
  | _, _, _, .more terms joins others => terms.ordered.join joins.1 others.ordered

end

theorem chain_of_kinds {tokens : List Token}
    (kinds : ∀ token ∈ tokens, token.kind = .key ∨ token.kind = .boolean ∨
      token.kind = .pipe) :
    tokens.IsChain Adjacent := by
  induction tokens with
  | nil => exact .nil
  | cons token tokens induction =>
      rw [List.forall_mem_cons] at kinds
      rw [List.isChain_cons]
      exact ⟨fun next _ => adjacent_of_kind kinds.1 next, induction kinds.2⟩

theorem ProjectionPart.chain {tokens : List Token} {fields : List FieldPath}
    (part : ProjectionPart tokens fields) : tokens.IsChain Adjacent := by
  cases part with
  | absent => exact .nil
  | present isPipe some areKeys =>
      apply chain_of_kinds
      rw [List.forall_mem_cons]
      exact ⟨.inr (.inr isPipe), fun name member => .inl (areKeys name member)⟩

theorem Derives.chain {tokens : List Token} {query : Query}
    (derives : Derives options tokens query) : tokens.IsChain Adjacent := by
  cases derives with
  | query filterPart projectionPart =>
      cases filterPart with
      | absent => exact projectionPart.chain
      | present alternatives =>
          cases projectionPart with
          | absent => simpa using alternatives.ordered.chain
          | present isPipe some areKeys =>
              exact alternatives.ordered.append (.inr (.inl isPipe))
                (ProjectionPart.present isPipe some areKeys).chain

end Neighbours

theorem followingKey?_eq_none {token : Token} {rest : List Token}
    (ends : endsTerm token = true) (chain : (token :: rest).IsChain Adjacent) :
    followingKey? rest = none := by
  induction rest generalizing token with
  | nil => rfl
  | cons next rest induction =>
      rw [List.isChain_cons_cons] at chain
      rcases chain.1.2 ends with boolean | pipe | closes
      · simp [followingKey?, boolean]
      · simp [followingKey?, pipe]
      · -- A closing parenthesis ends a term as well, and the search goes on behind it.
        have paren := Token.kind_of_isParen closes
        have same : followingKey? (next :: rest) = followingKey? rest := by
          simp [followingKey?, paren]
        rw [same]
        exact induction (by simp [endsTerm, closes]) chain.2

theorem missingConnective?_eq_none {tokens : List Token}
    (chain : tokens.IsChain Adjacent) : missingConnective? tokens = none := by
  fun_induction missingConnective? tokens with
  | case1 key operator value rest next found =>
      split at found
      · next looks =>
          simp only [looksLikeComparison, Bool.and_eq_true, beq_iff_eq] at looks
          simp only [List.isChain_cons_cons] at chain
          -- Behind an operator stands a literal, which ends a term.
          have literal := chain.2.1.1 looks.1.2
          rw [followingKey?_eq_none (by simp [endsTerm, literal]) chain.2.2] at found
          cases found
      · cases found
  | case2 key operator value rest none induction =>
      exact induction chain.tail
  | case3 => rfl

end Grammar

/-! ## Texts -/

theorem Scan.check_eq_ok_iff (scan : Scan) (tokens : List Token) :
    scan.check = .ok tokens ↔
      scan.errors = [] ∧ missingConnective? scan.tokens = none ∧
        scan.tokens = tokens := by
  rw [Scan.check]
  split
  · next found => simp [found]
  · next none missing => simp [none, missing]
  · next none silent => simp [none, silent]

theorem Query.parseWith_eq_ok_iff (options : ParseOptions) (text : String)
    (query : Query) :
    parseWith options text = .ok query ↔
      (Scan.ofText text).errors = [] ∧
        missingConnective? (Scan.ofText text).tokens = none ∧
        Grammar.Derives options (Scan.ofText text).tokens query := by
  constructor
  · intro parsed
    rcases bind_eq_ok_iff.mp parsed with ⟨tokens, checked, accepted⟩
    rcases (Scan.check_eq_ok_iff _ _).mp checked with ⟨none, silent, rfl⟩
    exact ⟨none, silent, derives_of_ofTokens accepted⟩
  · rintro ⟨none, silent, derives⟩
    rw [parseWith, (Scan.check_eq_ok_iff _ _).mpr ⟨none, silent, rfl⟩]
    exact ofTokens_of_derives derives

/-- The search for comparisons side by side finds nothing among tokens that are a query.
So it rejects no query: a text is one exactly when all its quotes are closed and its
tokens are accepted. -/
theorem Query.missingConnective?_passes_queries (options : ParseOptions) :
    (∀ tokens query, ofTokens options tokens = .ok query →
      missingConnective? tokens = none) ∧
      ∀ text query, parseWith options text = .ok query ↔
        (Scan.ofText text).errors = [] ∧
          ofTokens options (Scan.ofText text).tokens = .ok query := by
  have passes : ∀ tokens query, ofTokens options tokens = .ok query →
      missingConnective? tokens = none := by
    intro tokens query accepted
    exact Grammar.missingConnective?_eq_none (derives_of_ofTokens accepted).chain
  refine ⟨passes, ?_⟩
  intro text query
  rw [parseWith_eq_ok_iff]
  constructor
  · intro parsed
    exact ⟨parsed.1, ofTokens_of_derives parsed.2.2⟩
  · intro accepted
    exact ⟨accepted.1, passes _ query accepted.2, derives_of_ofTokens accepted.2⟩

def nestedText : String :=
  "((a=1) or (b~\"x\" and c!=d)) and (((e=null))) | f g"

theorem Query.missingConnective?_passes_queries_nested :
    (∃ query, ofTokens {} (Scan.ofText nestedText).tokens = .ok query ∧
      parseWith {} nestedText = .ok query) ∧
    missingConnective? (Scan.ofText nestedText).tokens = none := by
  have closed : (Scan.ofText nestedText).errors = [] := by decide +kernel
  have accepted : (ofTokens {} (Scan.ofText nestedText).tokens).isOk = true := by
    decide +kernel
  rcases missingConnective?_passes_queries {} with ⟨passes, parsed⟩
  cases result : ofTokens {} (Scan.ofText nestedText).tokens with
  | error error =>
      rw [result] at accepted
      cases accepted
  | ok query =>
      exact ⟨⟨query, rfl, (parsed nestedText query).mpr ⟨closed, result⟩⟩,
        passes _ query result⟩

end LogQuery
