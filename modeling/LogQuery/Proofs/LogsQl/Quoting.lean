import LogQuery.LogsQl.Filter
import LogQuery.Proofs.Number
import LogQuery.Proofs.Text

/-!
Texts of LogsQL and their reader. A text that stands as it is goes up to the next mark,
one in quotes up to its closing quote; either way what is read is what was written.
Literals of all kinds are written as texts, so what holds for texts holds for them.
-/

namespace LogQuery

namespace Double

def isRenderChar (c : Char) : Bool :=
  c.isAlphanum || c == '-' || c == '.'

theorem render_chars (value : Double) :
    value.render ≠ "" ∧ value.render.toList.all isRenderChar = true := by
  cases value with
  | finite negative rank =>
      have numeral := (render_finite negative rank).1
      constructor
      · intro empty
        rw [empty] at numeral
        cases numeral
      · rcases (Text.isNumeral_iff _).mp numeral with
          ⟨sign, whole, fraction, parts, wholeDigits, fractionDigits⟩
        rw [parts, List.all_eq_true]
        intro c member
        rcases List.mem_append.mp member with member | member
        · cases sign with
          | true =>
              rw [List.mem_singleton.mp member]
              rfl
          | false => cases member
        · rcases Text.numeral_chars wholeDigits fractionDigits c member with rfl | digit
          · rfl
          · simp [isRenderChar, Char.isAlphanum, digit]
  | infinite negative => cases negative <;> decide
  | nan => decide

end Double

namespace LogsQl

/-! ## Texts as they are written -/

theorem escapeChar_eq (c : Char) : escapeChar c = Text.escape c := by
  simp only [escapeChar, Text.escape]
  split <;> simp_all

theorem toList_renderText_of_needsQuotes {text : String}
    (needs : needsQuotes text = true) :
    (renderText text).toList = '"' :: Text.quoteBody text := by
  have same : escapeChar = Text.escape := funext escapeChar_eq
  simp [renderText, needs, escape, Text.quoteBody, same]

theorem renderText_of_plain {text : String} (plain : needsQuotes text = false) :
    renderText text = text := by
  simp [renderText, plain]

theorem needsQuotes_eq_false_iff (text : String) :
    needsQuotes text = false ↔ text ≠ "" ∧ ∀ c ∈ text.toList, isSpecial c = false := by
  simp [needsQuotes]

theorem isSpecial_eq_false {test : Char → Bool}
    (excluded : " \"'():|\\\n\r\t".toList.all (! test ·) = true) {c : Char}
    (passes : test c = true) : isSpecial c = false := by
  rw [isSpecial, List.contains_eq_mem, decide_eq_false_iff_not]
  exact Text.not_mem_of_test excluded passes

def literalText : Literal → String
  | .text contents => contents
  | .word contents => contents
  | .number value => value.render
  | .boolean value => if value then "true" else "false"
  | .null => ""

theorem renderLiteral_eq (literal : Literal) :
    renderLiteral literal = renderText (literalText literal) := by
  cases literal with
  | text contents => rfl
  | word contents => rfl
  | number value =>
      rcases value.render_chars with ⟨nonempty, characters⟩
      have plain : needsQuotes value.render = false := by
        rw [needsQuotes_eq_false_iff]
        exact ⟨nonempty, fun c member => isSpecial_eq_false (by decide)
          (List.all_eq_true.mp characters c member)⟩
      exact (renderText_of_plain plain).symm
  | boolean value => cases value <;> decide +kernel
  | null => decide +kernel

/-! ## Reading texts -/

def isStop (c : Char) : Bool :=
  " :()|".toList.contains c

theorem isStop_eq_false {c : Char} (plain : isSpecial c = false) :
    isStop c = false := by
  rw [isStop, List.contains_eq_mem, decide_eq_false_iff_not]
  exact @Text.not_mem_of_test _ (! isSpecial ·) _ (by decide) c (by simp [plain])

/-- Reads a text off the front: one in quotes up to its closing quote, another one up to
a mark. -/
def readText? : List Char → Option (String × List Char)
  | '"' :: rest =>
      let quoted := Text.Quoted.read '"' rest
      if quoted.closed then some (String.ofList quoted.contents, rest.drop quoted.width)
      else none
  | text =>
      some (String.ofList (text.takeWhile (! isStop ·)), text.dropWhile (! isStop ·))

theorem readText?_quoted (text : String) (rest : List Char) :
    readText? ('"' :: Text.quoteBody text ++ rest) = some (text, rest) := by
  simp [readText?, Text.Quoted.read_quoteBody]

theorem readText?_bare {text : List Char} (bare : text.head? ≠ some '"') :
    readText? text =
      some
        (String.ofList (text.takeWhile (! isStop ·)), text.dropWhile (! isStop ·)) := by
  rw [readText?]
  rintro rest rfl
  exact bare rfl

theorem head_of_plain {text : String} (plain : needsQuotes text = false)
    (rest : List Char) : (text.toList ++ rest).head? ≠ some '"' := by
  rcases (needsQuotes_eq_false_iff text).mp plain with ⟨nonempty, characters⟩
  cases shape : text.toList with
  | nil => exact absurd (String.toList_eq_nil_iff.mp shape) nonempty
  | cons c tail =>
      intro same
      cases same
      cases characters '"' (by simp [shape])

theorem readText?_renderText (text : String) {rest : List Char}
    (ends : rest.head?.all isStop = true) :
    readText? ((renderText text).toList ++ rest) = some (text, rest) := by
  cases needs : needsQuotes text with
  | true => rw [toList_renderText_of_needsQuotes needs, readText?_quoted]
  | false =>
      have passes : ∀ c ∈ text.toList, (! isStop c) = true := by
        intro c member
        rw [isStop_eq_false (((needsQuotes_eq_false_iff text).mp needs).2 c member)]
        rfl
      have stops : rest.head?.all (! ! isStop ·) = true := by simpa using ends
      rw [renderText_of_plain needs, readText?_bare (head_of_plain needs rest),
        Text.takeWhile_run passes stops, Text.dropWhile_run passes stops,
        String.ofList_toList]

theorem renderText_inj {first second : String} :
    renderText first = renderText second ↔ first = second := by
  refine ⟨fun same => ?_, fun same => by rw [same]⟩
  have one := @readText?_renderText first [] rfl
  have two := @readText?_renderText second [] rfl
  rw [same, two] at one
  cases one
  rfl

end LogsQl

end LogQuery
