import LogQuery.Proofs.Text
import LogQuery.Schema
import Mathlib.Data.List.TakeWhile

/-!
Column types within wrappers. The loop that takes wrappers off a type takes off exactly
those that were put around it, one in each round, and goes on as it would with the type
alone.
-/

namespace LogQuery

/-! ## White space at the ends -/

namespace Text

theorem trim_map_toLower (text : List Char) :
    trim (text.map Char.toLower) = (trim text).map Char.toLower := by
  have same : isSpace ∘ Char.toLower = isSpace := funext isSpace_toLower
  simp only [trim, List.dropWhile_map, ← List.map_reverse, same]

section Ends

variable {left right : List Char}

theorem trim_pad (leftSpace : left.all isSpace = true)
    (rightSpace : right.all isSpace = true) (text : List Char) :
    trim (left ++ text ++ right) = trim text := by
  rw [List.all_eq_true] at leftSpace rightSpace
  have rightReverse : ∀ c ∈ right.reverse, isSpace c = true := by simpa using rightSpace
  rw [trim, trim, List.append_assoc, List.dropWhile_append_of_pos leftSpace,
    List.dropWhile_append]
  split
  · next blank =>
      rw [List.isEmpty_iff] at blank
      rw [blank, List.dropWhile_eq_nil_iff.mpr rightSpace]
  · rw [List.reverse_append, List.dropWhile_append_of_pos rightReverse]

theorem trim_enclosed {first last : Char} (opens : isSpace first = false)
    (closes : isSpace last = false) (text : List Char) :
    trim (first :: text ++ [last]) = first :: text ++ [last] := by
  simp [trim, opens, closes]

end Ends

end Text

namespace ColumnKind

/-! ## Wrappers -/

abbrev Blank := { text : List Char // text.all Text.isSpace = true }

def wrapperWords : List String :=
  ["nullable", "lowcardinality"]

/-- What stands around a wrapped type: a word in letters of any case, and white space on
both sides of the type between the parentheses. -/
structure Wrapper where
  word : List Char
  known : String.ofList (word.map Char.toLower) ∈ wrapperWords
  left : Blank
  right : Blank

def Wrapper.around (wrapper : Wrapper) (type : List Char) : List Char :=
  wrapper.word ++ '(' :: (wrapper.left.val ++ type ++ wrapper.right.val) ++ [')']

def wrapped (stack : List Wrapper) (type : List Char) : List Char :=
  stack.foldr Wrapper.around type

def bared (type : List Char) : List Char :=
  (Text.trim type).map Char.toLower

/-- Some rounds of the loop, each of which takes off one wrapper. -/
def rounds : Nat → List Char → Option (List Char)
  | 0, type => some type
  | count + 1, type => (unwrapAny? type).bind (rounds count)

/-! ## One round -/

theorem unwrap?_enclosed (opening : String) (type : List Char) :
    unwrap? opening (opening.toList ++ type ++ [')']) = some (Text.trim type) := by
  have rest :
      (opening.toList ++ type ++ [')']).drop opening.length = type ++ [')'] := by
    rw [List.append_assoc, List.drop_left' String.length_toList]
  have opens : opening.toList.isPrefixOf (opening.toList ++ type ++ [')']) = true := by
    rw [List.isPrefixOf_iff_prefix, List.append_assoc]
    exact List.prefix_append _ _
  rw [unwrap?, rest, if_pos ⟨opens, List.getLast?_concat⟩, List.dropLast_concat]

theorem unwrapAny?_enclosed {word : String} (known : word ∈ wrapperWords)
    (type : List Char) :
    unwrapAny? (Text.trim (word.toList ++ '(' :: type ++ [')'])) =
      some (Text.trim type) := by
  simp only [wrapperWords, List.mem_cons, List.not_mem_nil, or_false] at known
  rcases known with same | same
  · have kept : Text.trim (word.toList ++ '(' :: type ++ [')']) =
        "nullable(".toList ++ type ++ [')'] := by
      rw [same]
      exact Text.trim_enclosed rfl rfl _
    rw [kept, unwrapAny?, unwrap?_enclosed, Option.some_or]
  · have kept : Text.trim (word.toList ++ '(' :: type ++ [')']) =
        "lowcardinality(".toList ++ type ++ [')'] := by
      rw [same]
      exact Text.trim_enclosed rfl rfl _
    have other :
        unwrap? "nullable(" ("lowcardinality(".toList ++ type ++ [')']) = none := by
      rw [unwrap?, if_neg]
      intro wraps
      cases wraps.1
    rw [kept, unwrapAny?, other, unwrap?_enclosed, Option.none_or]

theorem bared_pad (left right : Blank) (type : List Char) :
    bared (left.val ++ type ++ right.val) = bared type := by
  rw [bared, Text.trim_pad left.property right.property, bared]

theorem unwrapAny?_around (wrapper : Wrapper) (type : List Char) :
    unwrapAny? (bared (wrapper.around type)) = some (bared type) := by
  have inside :
      Text.trim ((wrapper.left.val ++ type ++ wrapper.right.val).map Char.toLower) =
        bared type := by
    rw [Text.trim_map_toLower, ← bared, bared_pad]
  have round := unwrapAny?_enclosed wrapper.known
    ((wrapper.left.val ++ type ++ wrapper.right.val).map Char.toLower)
  rw [inside, String.toList_ofList] at round
  rw [bared, ← Text.trim_map_toLower, ← round, Wrapper.around, List.map_append,
    List.map_append, List.map_cons]
  rfl

/-! ## The loop -/

theorem rounds_wrapped (stack : List Wrapper) (type : List Char) :
    rounds stack.length (bared (wrapped stack type)) = some (bared type) := by
  induction stack with
  | nil => rfl
  | cons wrapper stack induction =>
      rw [List.length_cons, rounds, wrapped, List.foldr_cons, unwrapAny?_around,
        Option.bind_some]
      exact induction

theorem stripWrappers_of_rounds {count : Nat} {type inner : List Char}
    (reached : rounds count type = some inner) :
    stripWrappers type = stripWrappers inner := by
  induction count generalizing type with
  | zero =>
      cases reached
      rfl
  | succ count induction =>
      obtain ⟨next, unwrapped, onward⟩ := Option.bind_eq_some_iff.mp reached
      rw [← induction onward, stripWrappers]
      split
      · next found =>
          rw [unwrapped] at found
          cases found
          rfl
      · next missing =>
          rw [unwrapped] at missing
          cases missing

theorem rounds_stripWrappers (type : List Char) :
    unwrapAny? (stripWrappers type) = none ∧
      ∃ count, count ≤ type.length ∧ rounds count type = some (stripWrappers type) := by
  fun_induction stripWrappers type with
  | case1 type inner unwrapped shorter induction =>
      obtain ⟨last, count, fits, reached⟩ := induction
      refine ⟨last, count + 1, by omega, ?_⟩
      rw [rounds, unwrapped]
      exact reached
  | case2 type bare => exact ⟨bare, 0, Nat.zero_le _, rfl⟩

/-- Wrappers are transparent. Whatever type is wrapped, in whatever stack of wrappers
and with whatever white space, the loop takes off the stack in as many rounds, and what
it has then is what it starts with for the type alone, so that the kind is the same. The
loop ends on every text. -/
theorem ofType_wrapped (stack : List Wrapper) (left right : Blank) (type : String) :
    ofType (String.ofList (left.val ++ wrapped stack type.toList ++ right.val)) =
      ofType type ∧
      rounds stack.length (bared (left.val ++ wrapped stack type.toList ++ right.val)) =
        some (bared type.toList) ∧
      ∀ text : String, ∃ count last, count ≤ text.toList.length ∧
        rounds count (bared text.toList) = some last ∧ unwrapAny? last = none ∧
        ofType text = ofBareType last := by
  have unwound := rounds_wrapped stack type.toList
  rw [← bared_pad left right] at unwound
  refine ⟨?_, unwound, ?_⟩
  · have same := stripWrappers_of_rounds unwound
    rw [bared, bared] at same
    rw [ofType, ofType, String.toList_ofList, same]
  · intro text
    obtain ⟨last, count, fits, reached⟩ := rounds_stripWrappers (bared text.toList)
    have shorter : (bared text.toList).length ≤ text.toList.length := by
      rw [bared, List.length_map]
      exact length_trim_le _
    exact ⟨count, _, Nat.le_trans fits shorter, reached, last, rfl⟩

theorem ofType_wrapped_mixed :
    ofType " lowCARDINALITY(\u3000Nullable( Map(String, String) )\n)\t" = .map ∧
      ofType " lowCARDINALITY(\u3000Nullable( Map(String, String) )\n)\t" =
        ofType "Map(String, String)" := by
  have same := (ofType_wrapped
    [⟨"lowCARDINALITY".toList, by decide +kernel, ⟨['\u3000'], by decide⟩,
      ⟨['\n'], by decide⟩⟩,
      ⟨"Nullable".toList, by decide +kernel, ⟨[' '], by decide⟩, ⟨[' '], by decide⟩⟩]
    ⟨[' '], by decide⟩ ⟨['\t'], by decide⟩ "Map(String, String)").1
  have map : ofType "Map(String, String)" = .map := by decide +kernel
  exact ⟨same.trans map, same⟩

example : ofType "Nullable(LowCardinality(String)" = .other := by decide +kernel

end ColumnKind

end LogQuery
