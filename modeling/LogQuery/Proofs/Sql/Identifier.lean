import LogQuery.Proofs.Sql.Pieces

/-!
Names in backticks under a reader that knows escapes in names as well as in strings,
where a backslash takes the next character along. Writing a name doubles its backticks
and leaves its backslashes alone, so for such a reader a name stays in its quotes
exactly if it has no backslash. One with a backslash before a backtick ends early, and
the rest of it is read as SQL.
-/

namespace LogQuery.Sql

/-! ## Reading names with escapes -/

/-- Reads on from an opening backtick: the name, and what follows its closing backtick.
What a backslash and the character after it stand for is left open. -/
def readName? (meaning : Char → Char) : List Char → Option (List Char × List Char)
  | [] => none
  | ['\\'] => none
  | '\\' :: c :: rest =>
      (readName? meaning rest).map fun (name, after) => (meaning c :: name, after)
  | '`' :: '`' :: rest =>
      (readName? meaning rest).map fun (name, after) => ('`' :: name, after)
  | '`' :: rest => some ([], rest)
  | c :: rest => (readName? meaning rest).map fun (name, after) => (c :: name, after)

def readIdentifier? (meaning : Char → Char) : List Char → Option (List Char × List Char)
  | '`' :: rest => readName? meaning rest
  | _ => none

example :
    readIdentifier? unescape "`a``b` = 1".toList =
      some ("a`b".toList, " = 1".toList) := rfl
example :
    readIdentifier? unescape "`a\\`b` = 1".toList =
      some ("a`b".toList, " = 1".toList) := rfl

section

variable {meaning : Char → Char}

theorem readName?_ordinary {c : Char} (noBackslash : c ≠ '\\') (noBacktick : c ≠ '`')
    (rest : List Char) :
    readName? meaning (c :: rest) =
      (readName? meaning rest).map fun (name, after) => (c :: name, after) := by
  rw [readName?]
  · exact fun same _ => noBackslash same
  · exact fun _ _ same _ => noBackslash same
  · exact fun _ same _ => noBacktick same
  · exact fun same => noBacktick same

theorem readName?_closing {rest : List Char} (ends : rest.head? ≠ some '`') :
    readName? meaning ('`' :: rest) = some ([], rest) := by
  cases rest with
  | nil => rfl
  | cons c rest =>
      rw [readName?]
      exact fun more same => ends (by rw [same]; rfl)

theorem readName?_doubled {name : List Char} (clean : '\\' ∉ name) (rest : List Char) :
    readName? meaning (name.flatMap doubleBacktick ++ rest) =
      (readName? meaning rest).map fun (tail, after) => (name ++ tail, after) := by
  induction name with
  | nil => simp
  | cons c name induction =>
      rw [List.mem_cons, not_or] at clean
      have onward := induction clean.2
      by_cases backtick : c = '`'
      · subst backtick
        rw [List.flatMap_cons, doubleBacktick, if_pos rfl, List.append_assoc]
        simp only [List.cons_append, List.nil_append, readName?, onward, Option.map_map]
        rfl
      · rw [List.flatMap_cons, doubleBacktick, if_neg backtick, List.append_assoc,
          List.singleton_append, readName?_ordinary (Ne.symm clean.1) backtick, onward,
          Option.map_map]
        rfl

/-! ## Counting what a name costs

A backtick weighs half of what any other character does, so every character of a name
weighs the same once it is written. A reader that pays more for a character than that
has lost the place. -/

def weight : List Char → Nat
  | [] => 0
  | c :: rest => (if c = '`' then 1 else 2) + weight rest

theorem weight_append (first second : List Char) :
    weight (first ++ second) = weight first + weight second := by
  induction first with
  | nil => simp [weight]
  | cons c first induction =>
      rw [List.cons_append, weight, weight, induction, Nat.add_assoc]

theorem weight_doubled (name : List Char) :
    weight (name.flatMap doubleBacktick) = 2 * name.length := by
  induction name with
  | nil => rfl
  | cons c name induction =>
      have each : weight (doubleBacktick c) = 2 := by
        rw [doubleBacktick]
        split
        · rfl
        · next other => simp [weight, other]
      rw [List.flatMap_cons, weight_append, each, induction, List.length_cons]
      omega

theorem weight_of_readName? {text name after : List Char}
    (read : readName? meaning text = some (name, after)) :
    2 * name.length + weight after < weight text := by
  fun_induction readName? meaning text generalizing name after with
  | case1 => cases read
  | case2 => cases read
  | case3 c rest induction =>
      rcases Option.map_eq_some_iff.mp read with ⟨⟨name, after⟩, found, same⟩
      cases same
      have onward := induction found
      simp only [weight, List.length_cons, Char.reduceEq, if_false]
      omega
  | case4 rest induction =>
      rcases Option.map_eq_some_iff.mp read with ⟨⟨name, after⟩, found, same⟩
      cases same
      have onward := induction found
      simp only [weight, List.length_cons, if_true]
      omega
  | case5 rest single =>
      cases read
      simp [weight]
  | case6 c rest notEnd notEscape notDoubled notClosing induction =>
      rcases Option.map_eq_some_iff.mp read with ⟨⟨name, after⟩, found, same⟩
      cases same
      have onward := induction found
      simp only [weight, List.length_cons, if_neg notClosing]
      omega

theorem readName?_backslash_ne (name rest : List Char) :
    readName? meaning ('\\' :: (name.flatMap doubleBacktick ++ '`' :: rest)) ≠
      some ('\\' :: name, rest) := by
  intro read
  have total : weight (name.flatMap doubleBacktick ++ '`' :: rest) =
      2 * name.length + 1 + weight rest := by
    rw [weight_append, weight_doubled, weight, if_pos rfl]
    omega
  cases shape : name.flatMap doubleBacktick ++ '`' :: rest with
  | nil => simp at shape
  | cons c tail =>
      -- The backslash and `c` together stand for one character, which is one too few.
      rw [shape] at read total
      rcases Option.map_eq_some_iff.mp read with ⟨⟨onward, after⟩, found, same⟩
      rcases Prod.mk.inj same with ⟨taken, rfl⟩
      rw [(List.cons.inj taken).2] at found
      have cost := weight_of_readName? found
      rw [weight] at total
      split at total <;> omega

end

/-! ## Written identifiers -/

/-- A name is read back, up to the backtick that closes it, exactly if it has no
backslash. -/
theorem readIdentifier?_identifier_iff (meaning : Char → Char) (name : String)
    {rest : List Char} (ends : rest.head? ≠ some '`') :
    readIdentifier? meaning ((identifier name).toList ++ rest) =
        some (name.toList, rest) ↔
      '\\' ∉ name.toList := by
  rw [toList_identifier, List.cons_append, readIdentifier?, List.append_assoc,
    List.singleton_append]
  constructor
  · intro read member
    rcases List.eq_append_cons_of_mem member with ⟨front, back, shape, clean⟩
    rw [shape, List.flatMap_append, List.append_assoc, readName?_doubled clean] at read
    rcases Option.map_eq_some_iff.mp read with ⟨⟨tail, after⟩, found, same⟩
    rcases Prod.mk.inj same with ⟨joined, rfl⟩
    rw [List.append_cancel_left joined] at found
    exact readName?_backslash_ne back after found
  · intro clean
    rw [readName?_doubled clean, readName?_closing ends]
    simp

theorem readIdentifier?_identifier_iff_doubled :
    " = 'x'".toList.head? ≠ some '`' ∧ '\\' ∉ "a` OR `b".toList ∧
      readIdentifier? unescape ((identifier "a` OR `b").toList ++ " = 'x'".toList) =
        some ("a` OR `b".toList, " = 'x'".toList) := by
  have ends : " = 'x'".toList.head? ≠ some '`' := by decide
  have clean : '\\' ∉ "a` OR `b".toList := by decide
  exact ⟨ends, clean,
    (readIdentifier?_identifier_iff unescape "a` OR `b" ends).mpr clean⟩

theorem readIdentifier?_broken_out (meaning : Char → Char) {front : List Char}
    {c : Char} (injected rest : List Char) (clean : '\\' ∉ front) (other : c ≠ '`') :
    readIdentifier? meaning
        ((identifier (String.ofList (front ++ '\\' :: '`' :: c :: injected))).toList ++
          rest) =
      some (front ++ [meaning '`'],
        c :: (injected.flatMap doubleBacktick ++ '`' :: rest)) := by
  have escape :
      readName? meaning ('\\' :: '`' :: '`' :: c ::
          (injected.flatMap doubleBacktick ++ '`' :: rest)) =
        some ([meaning '`'],
          c :: (injected.flatMap doubleBacktick ++ '`' :: rest)) := by
    rw [readName?, readName?_closing (by simpa using other)]
    rfl
  have written :
      (identifier (String.ofList (front ++ '\\' :: '`' :: c :: injected))).toList ++
          rest =
        '`' :: (front.flatMap doubleBacktick ++ '\\' :: '`' :: '`' :: c ::
          (injected.flatMap doubleBacktick ++ '`' :: rest)) := by
    simp [toList_identifier, doubleBacktick, other]
  rw [written, readIdentifier?, readName?_doubled clean, escape]
  rfl

/-- The condition of one column turned into another one, with the rest commented out. -/
theorem identifier_broken_out :
    readIdentifier? unescape
      ((identifier "x\\` OR 1 = 1 -- ").toList ++ " = 'y'".toList) =
        some ("x`".toList, " OR 1 = 1 -- ` = 'y'".toList) ∧
      readIdentifier? unescape
        ((identifier "x\\` OR 1 = 1 -- ").toList ++ " = 'y'".toList) ≠
        some ("x\\` OR 1 = 1 -- ".toList, " = 'y'".toList) := by
  have parts : "x\\` OR 1 = 1 -- " =
      String.ofList (['x'] ++ '\\' :: '`' :: ' ' :: "OR 1 = 1 -- ".toList) := by
    decide +kernel
  rw [parts, readIdentifier?_broken_out unescape _ _ (by decide) (by decide)]
  decide +kernel

end LogQuery.Sql
