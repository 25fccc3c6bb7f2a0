import LogQuery.Proofs.Derivation
import LogQuery.Proofs.Parameter
import LogQuery.Proofs.Rejection
import LogQuery.Proofs.Slices

/-!
Where the errors of a text stand. Every error has a place in the text, and there is a
character at this place: the open quote, or the first character of a token.
-/

namespace LogQuery

/-! ## Errors of the parser -/

def grammarCodes : List FaultCode :=
  Parser.unfinishedCodes ++ [.unexpectedToken, .unknownOperator]

/-- An error that stands at a token. A connective that is not known is held against its
own token. -/
structure QueryError.Blames (error : QueryError) (token : Token) : Prop where
  position : error.position = some token.position
  code : error.code ∈ grammarCodes ∨
    token.kind = .boolean ∧ Connective.ofKeyword? token.text = none

namespace Parser

section

variable {options : ParseOptions}

theorem Refuses.blames {token : Token} {fault : Fault} (refuses : Refuses token fault) :
    (QueryError.within fault token.position).Blames token := by
  refine ⟨rfl, ?_⟩
  cases refuses with
  | unknownConnective isBoolean unknown => exact .inr ⟨isBoolean, unknown⟩
  | _ =>
      left
      simp [QueryError.within, QueryError.code, Fault.code, grammarCodes,
        unfinishedCodes]

theorem GroupsRead.opening_mem {tokens : List Token} {opened : Position} {outer : Level}
    {groups : List (Position × Level)}
    (read : GroupsRead options tokens ((opened, outer) :: groups)) :
    ∃ token ∈ tokens, token.position = opened := by
  cases read with
  | @opened before inner opening _ _ _ _ _ _ => exact ⟨opening, by simp, rfl⟩

theorem Unfinished.place_mem {tokens : List Token} {state : State}
    {last position : Position} {fault : Fault}
    (unfinished : Unfinished state last fault position)
    (reading : Reading options tokens state)
    (ends : ∃ token ∈ tokens, token.position = last) :
    ∃ token ∈ tokens, token.position = position := by
  rcases reading.split with ⟨outer, level, rest, rfl, groupsRead, _, underWay⟩
  cases unfinished with
  | missingTerm expected => exact ends
  | @missingOperator key expected =>
      rw [expected] at underWay
      exact ⟨key, by simp [underWay.1], rfl⟩
  | missingValue expected => exact ends
  | unclosedGroup remain =>
      rw [remain] at groupsRead
      rcases groupsRead.opening_mem with ⟨token, member, place⟩
      exact ⟨token, by simp [member], place⟩

theorem run_error_blames {tokens : List Token} {error : QueryError}
    (nonempty : tokens ≠ [])
    (failed : run options .initial .start tokens = .error error) :
    ∃ token ∈ tokens, error.Blames token := by
  rcases run_eq_error failed with
    ⟨final, through, ended⟩ | ⟨index, token, middle, place, _, refused⟩
  · have reading : Reading options tokens final := reading_initial.feed through
    have ends : ∃ token ∈ tokens, token.position = lastPlace tokens .start := by
      have last := List.getLast?_eq_some_getLast nonempty
      exact ⟨tokens.getLast nonempty, List.getLast_mem nonempty,
        by rw [lastPlace, last]; rfl⟩
    rcases unfinished_of_finish ended with ⟨fault, position, unfinished, rfl⟩
    rcases unfinished.place_mem reading ends with ⟨token, member, rfl⟩
    exact ⟨token, member, rfl, .inl (List.mem_append_left _ unfinished.code)⟩
  · rcases refuses_of_step refused with ⟨fault, refuses, rfl⟩
    exact ⟨token, List.mem_of_getElem? place, refuses.blames⟩

theorem parseFilter_error_blames {tokens : List Token} {error : QueryError}
    (failed : parseFilter options tokens = .error error) :
    ∃ token ∈ tokens, error.Blames token := by
  cases tokens with
  | nil => cases failed
  | cons token rest =>
      apply run_error_blames (List.cons_ne_nil token rest)
      exact map_eq_error_iff.mp failed

theorem parseField_error_blames {token : Token} {error : QueryError}
    (failed : parseField token = .error error) : error.Blames token := by
  rw [parseField] at failed
  split at failed
  · cases failed
  · cases failed
    exact ⟨rfl,
      .inl (by simp [QueryError.within, QueryError.code, Fault.code, grammarCodes])⟩
  · cases failed
    exact ⟨rfl,
      .inl (by simp [QueryError.within, QueryError.code, Fault.code, grammarCodes])⟩

theorem mapM_error_mem {ε α β : Type} {read : α → Except ε β} {values : List α}
    {error : ε} (failed : values.mapM read = .error error) :
    ∃ value ∈ values, read value = .error error := by
  induction values with
  | nil => cases failed
  | cons value values induction =>
      rw [List.mapM_cons] at failed
      rcases bind_eq_error_iff.mp failed with cause | ⟨_, _, failed⟩
      · exact ⟨value, List.mem_cons_self, cause⟩
      · rcases bind_eq_error_iff.mp failed with others | ⟨_, _, impossible⟩
        · rcases induction others with ⟨blamed, member, cause⟩
          exact ⟨blamed, List.mem_cons_of_mem value member, cause⟩
        · cases impossible

theorem parseProjection_error_blames {tokens : List Token} {error : QueryError}
    (failed : parseProjection tokens = .error error) :
    ∃ token ∈ tokens, error.Blames token := by
  simp only [parseProjection] at failed
  split at failed
  · cases failed
  · next pipe =>
      cases failed
      refine ⟨pipe, List.mem_singleton_self pipe, rfl, .inl ?_⟩
      simp [QueryError.within, QueryError.code, Fault.code, grammarCodes,
        unfinishedCodes]
  · next pipe fields _ =>
      rcases mapM_error_mem failed with ⟨token, member, cause⟩
      exact ⟨token, List.mem_cons_of_mem pipe member, parseField_error_blames cause⟩

end

end Parser

theorem Query.ofTokens_error_blames {options : ParseOptions} {tokens : List Token}
    {error : QueryError} (rejected : ofTokens options tokens = .error error) :
    ∃ token ∈ tokens, error.Blames token := by
  rw [ofTokens] at rejected
  rcases bind_eq_error_iff.mp rejected with front | ⟨_, _, rejected⟩
  · rcases Parser.parseFilter_error_blames front with ⟨token, member, blames⟩
    exact ⟨token, (List.takeWhile_sublist _).mem member, blames⟩
  · rcases bind_eq_error_iff.mp rejected with back | ⟨_, _, impossible⟩
    · rcases Parser.parseProjection_error_blames back with ⟨token, member, blames⟩
      exact ⟨token, (List.dropWhile_sublist _).mem member, blames⟩
    · cases impossible

theorem missingConnective?_blames {tokens : List Token} {error : QueryError}
    (found : missingConnective? tokens = some error) :
    error.code = .missingBooleanOperator ∧
      ∃ token ∈ tokens, error.position = some token.position := by
  fun_induction missingConnective? tokens with
  | case1 key operator value rest next following =>
      cases found
      refine ⟨rfl, next, ?_, rfl⟩
      split at following
      · have member : next ∈ rest :=
          List.mem_of_find?_eq_some (Option.filter_eq_some_iff.mp following).1
        simp [member]
      · cases following
  | case2 key operator value rest none induction =>
      rcases induction found with ⟨code, token, member, position⟩
      exact ⟨code, token, List.mem_cons_of_mem key member, position⟩
  | case3 => cases found

/-! ## Errors of a scan -/

namespace Scan

/-- The quote behind the characters `before` opens a literal, or a segment in a word,
and is never closed. In front of the quote its token has at most a part of a word with
all segments closed. -/
structure OpenQuote (text : String) (before : List Char) (quote : Char)
    (after : List Char) : Prop where
  isQuote : Text.isQuote quote = true
  unclosed : ∃ contents, Text.Quoted.Spells quote after contents false
  token : ∃ start word token, before = start ++ word ∧ Lexeme.IsWord word ∧
    token.incomplete = true ∧ TokenAt text start (word ++ quote :: after) token

theorem openQuote_of_mem_errors {text : String} {error : QueryError}
    (member : error ∈ (ofText text).errors) :
    error.code = .unterminatedString ∧ ∃ before quote after,
      text.toList = before ++ quote :: after ∧ error.position = some (.behind before) ∧
      OpenQuote text before quote after := by
  rcases List.mem_filterMap.mp member with ⟨placed, inside, reported⟩
  rcases Option.map_eq_some_iff.mp reported with ⟨unclosed, found, rfl⟩
  rcases mem_lexemes_behind _ _ _ _ placed [] rfl inside with
    ⟨start, first, rest, after, parts, visible, outcome, place⟩
  have stands := tokenAt_of_outcome inside parts outcome place
  rcases outcome.unclosed found with
    ⟨word, tail, split, length, isWord, isQuote, spells, source⟩
  rw [source, split] at stands
  refine ⟨rfl, start ++ word, unclosed.delimiter, tail, ?_, ?_, isQuote, spells, start,
    word, _, rfl, isWord, ?_, stands⟩
  · rw [parts, split, List.append_assoc]
  · rw [place, List.nil_append, source, split, ← length, List.take_left,
      Position.advance_behind]
    rfl
  · simp [Lexeme.toToken, found]

theorem connective_of_mem {text : String} {token : Token}
    (member : token ∈ (ofText text).tokens) (isBoolean : token.kind = .boolean) :
    Connective.ofKeyword? token.text ≠ none := by
  rcases List.mem_map.mp member with ⟨placed, inside, rfl⟩
  rcases mem_lexemes_behind _ _ _ _ placed [] rfl inside with
    ⟨start, first, rest, after, parts, visible, outcome, place⟩
  exact outcome.connective isBoolean

theorem check_eq_error {scan : Scan} {error : QueryError}
    (failed : scan.check = .error error) :
    error ∈ scan.errors ∨ missingConnective? scan.tokens = some error := by
  rw [check] at failed
  split at failed
  · next found =>
      cases failed
      simp [found]
  · next missing =>
      cases failed
      exact .inr missing
  · cases failed

end Scan

/-! ## Errors of a text -/

/-- What is never wrong with a text: its connectives, and what a statement is made of
besides. -/
def foreignCodes : List FaultCode :=
  .unknownBooleanOperator :: Parameter.faultCodes

theorem Query.parseWith_error_cases {options : ParseOptions} {text : String}
    {error : QueryError} (rejected : parseWith options text = .error error) :
    error ∈ (Scan.ofText text).errors ∨
      error.code ∉ .unterminatedString :: foreignCodes ∧
        ∃ token ∈ (Scan.ofText text).tokens, error.position = some token.position := by
  rcases bind_eq_error_iff.mp rejected with failed | ⟨tokens, checked, failed⟩
  · rcases Scan.check_eq_error failed with reported | missing
    · exact .inl reported
    · rcases missingConnective?_blames missing with ⟨code, token, member, position⟩
      rw [code]
      exact .inr ⟨by decide, token, member, position⟩
  · rcases (Scan.check_eq_ok_iff _ _).mp checked with ⟨_, _, rfl⟩
    rcases ofTokens_error_blames failed with ⟨token, member, blames⟩
    refine .inr ⟨?_, token, member, blames.position⟩
    have ownCodes :
        ∀ code ∈ grammarCodes, code ∉ .unterminatedString :: foreignCodes := by decide
    rcases blames.code with code | ⟨isBoolean, unknown⟩
    · exact ownCodes _ code
    · exact absurd unknown (Scan.connective_of_mem member isBoolean)

/-- Every error of a text has a place where the text has a character other than white
space. It is the open quote if a quote is not closed, and otherwise the first character
of a token. What could only be wrong with other tokens, or with the rest of a statement,
is never reported. -/
theorem Query.parseWith_error_place {options : ParseOptions} {text : String}
    {error : QueryError} (rejected : parseWith options text = .error error) :
    (∃ before c after, text.toList = before ++ c :: after ∧
        error.position = some (.behind before) ∧ Text.isSpace c = false ∧
        (error.code = .unterminatedString → Scan.OpenQuote text before c after) ∧
        (error.code ≠ .unterminatedString →
          ∃ word token, Scan.TokenAt text before (c :: word) token)) ∧
      error.code ∉ [.unknownBooleanOperator, .invalidTimeFormat, .invalidTimezone,
        .invalidTableName, .invalidTimestampField] := by
  rcases parseWith_error_cases rejected with reported | ⟨code, token, member, position⟩
  · rcases Scan.openQuote_of_mem_errors reported with
      ⟨code, before, quote, after, parts, position, openQuote⟩
    have visible := (ordinary_of_not_boundary
      (Lexeme.not_boundary_of_isQuote openQuote.isQuote)).1
    refine ⟨⟨before, quote, after, parts, position, visible, fun _ => openQuote, ?_⟩,
      ?_⟩
    · exact fun other => absurd code other
    · rw [code]
      decide
  · rw [List.mem_cons, not_or] at code
    rcases Scan.tokenAt_of_mem member with ⟨before, first, word, visible, stands⟩
    rcases stands.inside with ⟨more, parts⟩
    refine ⟨⟨before, first, word ++ more, ?_, ?_, visible, ?_, ?_⟩, code.2⟩
    · rw [← parts, List.append_assoc, List.cons_append]
    · rw [position, stands.position]
    · exact fun same => absurd same code.1
    · exact fun _ => ⟨word, token, stands⟩

def openSegmentText : String :=
  "é=1\nand x.'b c"

def openGroupText : String :=
  "(a=1 or\n  b"

theorem Query.parseWith_error_place_segment :
    (parseWith {} openSegmentText =
        .error (.within (.unterminatedString '\'' "b c") { line := 2, column := 7 }) ∧
      ∃ before c after, openSegmentText.toList = before ++ c :: after ∧
        Position.behind before = { line := 2, column := 7 } ∧
        Scan.OpenQuote openSegmentText before c after) ∧
    (parseWith {} openGroupText =
        .error (.within (.missingOperator "b" none) { line := 2, column := 3 }) ∧
      ∃ before c word token, Position.behind before = { line := 2, column := 3 } ∧
        Scan.TokenAt openGroupText before (c :: word) token) := by
  have segment : parseWith {} openSegmentText =
      .error (.within (.unterminatedString '\'' "b c") { line := 2, column := 7 }) := by
        decide +kernel
  have group : parseWith {} openGroupText =
      .error (.within (.missingOperator "b" none) { line := 2, column := 3 }) := by
        decide +kernel
  refine ⟨⟨segment, ?_⟩, group, ?_⟩
  · rcases (parseWith_error_place segment).1 with
      ⟨before, c, after, parts, position, _, openQuote, _⟩
    exact ⟨before, c, after, parts, (Option.some.inj position).symm, openQuote rfl⟩
  · rcases (parseWith_error_place group).1 with ⟨before, c, _, _, position, _, _, token⟩
    rcases token (by decide) with ⟨word, token, stands⟩
    exact ⟨before, c, word, token, (Option.some.inj position).symm, stands⟩

end LogQuery
