import LogQuery.Proofs.LogsQl.Quoting
import LogQuery.Proofs.Sql.Pieces

/-!
Escaping as a row of passes over the whole text, and the way back. Each pass puts
something in the place of one character. As no pass comes upon what an earlier one has
put in, they make one substitution of the characters, and a reader that goes through the
text once undoes it.
-/

namespace LogQuery

/-! ## Passes -/

namespace Text

def replaced (text : List Char) (pass : Char × List Char) : List Char :=
  text.flatMap fun c => if c = pass.1 then pass.2 else [c]

/-- What becomes of a character if no more than one pass comes upon it. -/
def substitute : List (Char × List Char) → Char → List Char
  | [], c => [c]
  | pass :: passes, c => if c = pass.1 then pass.2 else substitute passes c

section Passes

variable {passes : List (Char × List Char)}

theorem substitute_of_ne {c : Char} (other : ∀ pass ∈ passes, pass.1 ≠ c) :
    substitute passes c = [c] := by
  induction passes with
  | nil => rfl
  | cons pass passes induction =>
      rw [List.forall_mem_cons] at other
      rw [substitute, if_neg (Ne.symm other.1), induction other.2]

theorem flatMap_substitute_of_not_mem {text : List Char}
    (apart : ∀ pass ∈ passes, pass.1 ∉ text) :
    text.flatMap (substitute passes) = text := by
  have alone : ∀ c ∈ text, substitute passes c = [c] := by
    intro c member
    apply substitute_of_ne
    intro pass source same
    rw [← same] at member
    exact apart pass source member
  rw [List.flatMap_def, List.map_congr_left alone, ← List.flatMap_def,
    List.flatMap_singleton']

/-- Passes of which none comes upon what an earlier one has put in make one
substitution. -/
theorem foldl_replaced
    (apart : passes.Pairwise fun earlier later => later.1 ∉ earlier.2)
    (text : List Char) :
    passes.foldl replaced text = text.flatMap (substitute passes) := by
  induction passes generalizing text with
  | nil => exact (List.flatMap_singleton' text).symm
  | cons pass passes induction =>
      rw [List.pairwise_cons] at apart
      rw [List.foldl_cons, induction apart.2, replaced, List.flatMap_assoc]
      congr 1
      funext c
      rw [substitute]
      split
      · exact flatMap_substitute_of_not_mem apart.1
      · rw [List.flatMap_singleton]

end Passes

end Text

/-! ## String literals of SQL -/

namespace Sql

def escapePasses : List (Char × List Char) :=
  [('\\', ['\\', '\\']), ('\'', ['\'', '\'']), ('\x00', ['\\', '0']),
    ('\r', ['\\', 'r']), ('\n', ['\\', 'n'])]

theorem substitute_escapePasses (c : Char) :
    Text.substitute escapePasses c = escapeChar c := by
  unfold escapeChar
  split
  · rfl
  · rfl
  · rfl
  · rfl
  · rfl
  · next backslash quote zero carriage line =>
      simp only [escapePasses, Text.substitute, if_neg backslash, if_neg quote,
        if_neg zero, if_neg carriage, if_neg line]

theorem toList_escape (text : String) :
    (escape text).toList = escapePasses.foldl Text.replaced text.toList := by
  rw [Text.foldl_replaced (by decide), funext substitute_escapePasses, escape,
    String.toList_ofList]

-- With the backslashes last, those of the other passes are doubled.
example : escapePasses.reverse.foldl Text.replaced ['\n'] = ['\\', '\\', 'n'] := by
  decide

def readLiteral? : List Char → Option (String × List Char)
  | '\'' :: rest =>
      (runBody? '\'' rest).map fun (body, after) =>
        (String.ofList (bodyText '\'' body), after)
  | _ => none

theorem readLiteral?_escape (text : String) {rest : List Char}
    (ends : rest.head? ≠ some '\'') :
    readLiteral? ('\'' :: ((escape text).toList ++ '\'' :: rest)) =
      some (text, rest) := by
  have body := encodes_escapeChar.runBody? text.toList ends
  simp only [readLiteral?, escape, String.toList_ofList, body, Option.map_some,
    encodes_escapeChar.bodyText, String.ofList_toList]

end Sql

/-! ## Texts of LogsQL -/

namespace LogsQl

def escapePasses : List (Char × List Char) :=
  [('\\', ['\\', '\\']), ('"', ['\\', '"']), ('\n', ['\\', 'n']), ('\r', ['\\', 'r']),
    ('\t', ['\\', 't'])]

theorem substitute_escapePasses (c : Char) :
    Text.substitute escapePasses c = escapeChar c := by
  unfold escapeChar
  split
  · rfl
  · rfl
  · rfl
  · rfl
  · rfl
  · next backslash quote line carriage tab =>
      simp only [escapePasses, Text.substitute, if_neg backslash, if_neg quote,
        if_neg line, if_neg carriage, if_neg tab]

theorem toList_escape (text : String) :
    (escape text).toList = escapePasses.foldl Text.replaced text.toList := by
  rw [Text.foldl_replaced (by decide), funext substitute_escapePasses, escape,
    String.toList_ofList]

theorem head_renderText {text : String} (needs : needsQuotes text = true) :
    (renderText text).toList.head? = some '"' := by
  rw [toList_renderText_of_needsQuotes needs, List.head?_cons]

end LogsQl

/-! ## Both ways -/

/-- Escaping can be undone in both languages. A string literal is read back up to the
quote that closes it. A text of LogsQL is read back whatever follows if it stands in
quotes, and otherwise if a mark that ends it follows or nothing does. What is escaped is
the text after all passes, one after the other. -/
theorem escapes_read_back (text : String) :
    (∀ rest, rest.head? ≠ some '\'' →
      Sql.readLiteral? ('\'' :: ((Sql.escape text).toList ++ '\'' :: rest)) =
        some (text, rest)) ∧
    (LogsQl.needsQuotes text = true →
      (LogsQl.renderText text).toList.head? = some '"' ∧
        ∀ rest,
          LogsQl.readText? ((LogsQl.renderText text).toList ++ rest) =
            some (text, rest)) ∧
    (LogsQl.needsQuotes text = false → ∀ rest, rest.head?.all LogsQl.isStop = true →
      ((LogsQl.renderText text).toList ++ rest).head? ≠ some '"' ∧
        LogsQl.readText? ((LogsQl.renderText text).toList ++ rest) =
          some (text, rest)) ∧
    (Sql.escape text).toList = Sql.escapePasses.foldl Text.replaced text.toList ∧
    (LogsQl.escape text).toList =
      LogsQl.escapePasses.foldl Text.replaced text.toList := by
  refine ⟨?_, ?_, ?_, Sql.toList_escape text, LogsQl.toList_escape text⟩
  · intro rest ends
    exact Sql.readLiteral?_escape text ends
  · intro needs
    refine ⟨LogsQl.head_renderText needs, ?_⟩
    intro rest
    rw [LogsQl.toList_renderText_of_needsQuotes needs, LogsQl.readText?_quoted]
  · intro plain rest ends
    refine ⟨?_, LogsQl.readText?_renderText text ends⟩
    rw [LogsQl.renderText_of_plain plain]
    exact LogsQl.head_of_plain plain rest

theorem escapes_read_back_knotted :
    ("` -- ".toList.head? ≠ some '\'' ∧
      Sql.readLiteral?
        ('\'' :: ((Sql.escape "\\'\\''\x00").toList ++ '\'' :: "` -- ".toList)) =
        some ("\\'\\''\x00", "` -- ".toList)) ∧
      (LogsQl.needsQuotes "\\\"\t" = true ∧
        LogsQl.readText? ((LogsQl.renderText "\\\"\t").toList ++ "\"x".toList) =
          some ("\\\"\t", "\"x".toList)) ∧
      (LogsQl.needsQuotes "a,b" = false ∧ ":c".toList.head?.all LogsQl.isStop = true ∧
        LogsQl.readText? ((LogsQl.renderText "a,b").toList ++ ":c".toList) =
          some ("a,b", ":c".toList)) := by
  have ends : "` -- ".toList.head? ≠ some '\'' := by decide
  have needs : LogsQl.needsQuotes "\\\"\t" = true := by decide
  have plain : LogsQl.needsQuotes "a,b" = false := by decide
  have stops : ":c".toList.head?.all LogsQl.isStop = true := by decide
  exact ⟨⟨ends, (escapes_read_back _).1 _ ends⟩,
    ⟨needs, ((escapes_read_back _).2.1 needs).2 _⟩,
    ⟨plain, stops, ((escapes_read_back _).2.2.1 plain _ stops).2⟩⟩

end LogQuery
