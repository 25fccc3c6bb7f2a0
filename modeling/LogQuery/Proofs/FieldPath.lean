import LogQuery.FieldPath
import LogQuery.Proofs.Number
import LogQuery.Proofs.Scan

/-!
What is written for a field path is read as the same path, and it is one word of a
query. The word is a key, unless all of it is a keyword or a numeral.
-/

namespace LogQuery.FieldPath

/-! ## Reading what was written -/

theorem isPlain_chars {segment : String} (plain : isPlain segment = true) :
    ∀ c ∈ segment.toList, isBoundary c = false ∧ Text.isQuote c = false ∧
      isSegmentChar c = true := by
  intro c member
  simp only [isPlain, Bool.and_eq_true, List.all_eq_true] at plain
  have inside := plain.2 c member
  rw [Bool.or_eq_true, List.contains_iff_mem] at inside
  rcases inside with inside | mark
  · have noQuote : Text.isQuote c = false :=
      Lexeme.not_isQuote (by decide +kernel) inside
    have noDot : c ≠ '.' := by
      rintro rfl
      revert inside
      decide +kernel
    have isSegment : isSegmentChar c = true := by simp [isSegmentChar, noQuote, noDot]
    exact ⟨Lexeme.not_boundary_of_isAlphanumeric inside, noQuote, isSegment⟩
  · have marks : "_-:@".toList.all (fun c =>
        !isBoundary c && !Text.isQuote c && isSegmentChar c) = true := by
      decide
    simpa [and_assoc] using List.all_eq_true.mp marks c mark

theorem readSegment?_render (segment : String) (rest : List Char)
    (ends : rest.head?.all (! isSegmentChar ·) = true) :
    readSegment? ((renderSegment segment).toList ++ rest) =
      some (segment.toList, rest) := by
  by_cases plain : isPlain segment = true
  · have chars := isPlain_chars plain
    rw [renderSegment, if_pos plain]
    cases written : segment.toList with
    | nil => simp [isPlain, written] at plain
    | cons c more =>
        rw [written, List.forall_mem_cons] at chars
        have segmentChars : ∀ c ∈ more, isSegmentChar c = true := fun c member =>
          (chars.2 c member).2.2
        rw [List.cons_append, readSegment?, if_neg (by simp [chars.1]),
          if_pos chars.1.2.2, Text.takeWhile_run segmentChars ends,
          Text.dropWhile_run segmentChars ends]
  · rw [renderSegment, if_neg plain, Text.toList_quote, List.cons_append, readSegment?,
      if_pos (show Text.isQuote '"' = true from rfl), Text.Quoted.read_quoteBody]
    simp only [if_true, List.drop_left]

theorem readSegments?_of_readSegment? {text segment rest : List Char}
    (found : readSegment? text = some (segment, rest)) :
    readSegments? text =
      match rest with
      | [] => some [String.ofList segment]
      | c :: rest =>
          if c = '.' then (readSegments? rest).map (String.ofList segment :: ·)
          else none := by
  rw [readSegments?]
  split
  · next none =>
      rw [none] at found
      cases found
  · next single =>
      rw [single] at found
      cases found
      rfl
  · next several =>
      rw [several] at found
      cases found
      rfl

theorem toList_render_cons (segment next : String) (segments : List String) :
    (String.intercalate "." ((segment :: next :: segments).map renderSegment)).toList =
      (renderSegment segment).toList ++
        '.' ::
          (String.intercalate "." ((next :: segments).map renderSegment)).toList := by
  simp only [List.map_cons, String.intercalate_cons_cons]
  simp

theorem readSegments?_render {segments : List String} (nonempty : segments ≠ []) :
    readSegments? (String.intercalate "." (segments.map renderSegment)).toList =
      some segments := by
  induction segments with
  | nil => exact absurd rfl nonempty
  | cons segment segments induction =>
      cases segments with
      | nil =>
          have found := readSegment?_render segment [] rfl
          rw [List.append_nil] at found
          rw [List.map_singleton, String.intercalate_singleton,
            readSegments?_of_readSegment? found, String.ofList_toList]
      | cons next segments =>
          -- What follows the segment starts with a dot, where a plain and a quoted
          -- segment both end.
          have found := readSegment?_render segment
            ('.' ::
              (String.intercalate "." ((next :: segments).map renderSegment)).toList)
                rfl
          rw [toList_render_cons, readSegments?_of_readSegment? found]
          simp only [if_true, induction nofun, Option.map_some, String.ofList_toList]

theorem read_render {field : FieldPath} (proper : ∀ base, field ≠ nested base []) :
    read field.render = field := by
  rw [read, render, readSegments?_render (by simp [segments])]
  cases field with
  | name name => rfl
  | nested base path =>
      cases path with
      | nil => exact absurd rfl (proper base)
      | cons first path => rfl

theorem read_render_eq_iff (field : FieldPath) :
    read field.render = field ↔ ∀ base, field ≠ nested base [] := by
  constructor
  · rintro same base rfl
    have single : readSegments? (nested base []).render.toList = some [base] :=
      readSegments?_render (List.cons_ne_nil base [])
    rw [read, single] at same
    cases same
  · exact read_render

/-! ## Words -/

theorem isWord_renderSegment (segment : String) :
    Lexeme.IsWord (renderSegment segment).toList := by
  by_cases plain : isPlain segment = true
  · rw [renderSegment, if_pos plain]
    exact Lexeme.isWord_of_chars fun c member =>
      ⟨(isPlain_chars plain c member).1, (isPlain_chars plain c member).2.1⟩
  · have quoted := Text.Quoted.read_quoteBody segment []
    rw [List.append_nil] at quoted
    rw [renderSegment, if_neg plain, Text.toList_quote,
      ← List.append_nil (Text.quoteBody segment)]
    exact .quoted ⟨rfl, by rw [quoted], by rw [quoted]⟩ .nil

theorem isWord_render (field : FieldPath) : Lexeme.IsWord field.render.toList := by
  rw [render]
  induction field.segments with
  | nil => exact .nil
  | cons segment segments induction =>
      cases segments with
      | nil =>
          rw [List.map_singleton, String.intercalate_singleton]
          exact isWord_renderSegment segment
      | cons next segments =>
          rw [toList_render_cons]
          exact (isWord_renderSegment segment).append (.plain rfl rfl induction)

theorem head_renderSegment (segment : String) :
    ∃ first rest, (renderSegment segment).toList = first :: rest ∧ first ≠ '+' := by
  by_cases plain : isPlain segment = true
  · rw [renderSegment, if_pos plain]
    cases written : segment.toList with
    | nil => simp [isPlain, written] at plain
    | cons first rest =>
        refine ⟨first, rest, rfl, ?_⟩
        rintro rfl
        simp only [isPlain, written, Bool.and_eq_true, List.all_cons] at plain
        exact absurd plain.2.1 (by decide +kernel)
  · rw [renderSegment, if_neg plain, Text.toList_quote]
    exact ⟨'"', _, rfl, by decide⟩

theorem head_render (field : FieldPath) :
    ∃ first rest, field.render.toList = first :: rest ∧ first ≠ '+' := by
  rcases head_renderSegment field.base with ⟨first, rest, written, noPlus⟩
  rw [render, segments]
  cases field.path with
  | nil =>
      rw [List.map_singleton, String.intercalate_singleton]
      exact ⟨first, rest, written, noPlus⟩
  | cons next path =>
      rw [toList_render_cons, written, List.cons_append]
      exact ⟨first, _, rfl, noPlus⟩

/-! ## Keys -/

/-- The field is written like a keyword or like a numeral. -/
def Ambiguous (field : FieldPath) : Prop :=
  field.render.toLower = "and" ∨ field.render.toLower = "or" ∨
    Text.isNumeral field.render.toList = true

instance (field : FieldPath) : Decidable field.Ambiguous :=
  inferInstanceAs (Decidable (_ ∨ _ ∨ _))

theorem not_ambiguous_iff (field : FieldPath) :
    ¬ field.Ambiguous ↔
      Connective.ofKeyword? field.render = none ∧
        Text.isNumeral field.render.toList = false := by
  have noKeyword : Connective.ofKeyword? field.render = none ↔
      field.render.toLower ≠ "and" ∧ field.render.toLower ≠ "or" := by
    rw [Option.eq_none_iff_forall_ne_some]
    constructor
    · intro none
      exact ⟨fun same => none .and ((Connective.ofKeyword?_eq_some_iff _ _).mpr same),
        fun same => none .or ((Connective.ofKeyword?_eq_some_iff _ _).mpr same)⟩
    · rintro ⟨notAnd, notOr⟩ connective same
      have lower := (Connective.ofKeyword?_eq_some_iff _ _).mp same
      cases connective with
      | and => exact notAnd lower
      | or => exact notOr lower
  rw [noKeyword, Ambiguous, not_or, not_or, Bool.not_eq_true, and_assoc]

/-- A field is written as one lexeme. That is a key unless the field is ambiguous. -/
theorem cut_render (field : FieldPath) :
    ∃ lexeme : Lexeme, (∀ more, startsAtBoundary more = true →
        cut true false (field.render.toList ++ more) = lexeme :: cut true false more) ∧
      lexeme.unclosed = none ∧ (lexeme.kind = .key ↔ ¬ field.Ambiguous) ∧
      (lexeme.kind = .key → lexeme.text = field.render) := by
  have isWord := field.isWord_render
  rcases field.head_render with ⟨first, rest, written, noPlus⟩
  rw [written] at isWord
  have noLiteral : (Text.isQuote first && false) = false := Bool.and_false _
  have keyword := Lexeme.readBoolean?_eq_none_iff isWord
  have numeral := Lexeme.readNumeral?_eq_none_iff isWord (by simpa using noPlus)
  rw [← written, String.ofList_toList] at keyword
  rw [← written] at numeral
  refine ⟨Lexeme.read true false first rest, ?_,
    (Lexeme.source_read _ _ isWord noLiteral).2, ?_⟩
  · intro more ends
    rw [written, List.cons_append, cut_word false isWord noLiteral ends]
  · rw [not_ambiguous_iff, ← keyword, ← numeral, written]
    rcases Lexeme.read_cases true false isWord.head noLiteral rest with
      ⟨boolean, kind⟩ | ⟨boolean, number, kind⟩ | ⟨boolean, number, other⟩
    · simp [boolean, kind]
    · simp [number, kind]
    · have text := (Lexeme.source_readWord false isWord).2.1
      rw [← written, String.ofList_toList] at text
      rw [boolean, number, other]
      exact ⟨⟨fun _ => ⟨rfl, rfl⟩, fun _ => rfl⟩, fun _ => written ▸ text⟩

end LogQuery.FieldPath
