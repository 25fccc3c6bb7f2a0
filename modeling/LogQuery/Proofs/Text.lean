import LogQuery.Text.Basic
import LogQuery.Text.Numeric
import LogQuery.Text.Quoted

/-!
Runs of characters, pieces of lists, case and quoted text: where a run ends, when every
member of a list is a piece of its own, which classes of characters take no notice of
case, and that what was put in quotes is read back.
-/

namespace LogQuery.Text

/-! ## Runs -/

section Runs

variable {α : Type} {test : α → Bool} {run rest : List α}

theorem not_mem_of_test {excluded : List α} (fails : excluded.all (! test ·) = true)
    {value : α} (passes : test value = true) : value ∉ excluded := by
  intro member
  have failed := List.all_eq_true.mp fails value member
  rw [passes] at failed
  cases failed

theorem takeWhile_run (passes : ∀ value ∈ run, test value = true)
    (ends : rest.head?.all (! test ·) = true) :
    (run ++ rest).takeWhile test = run := by
  rw [List.takeWhile_append_of_pos passes]
  cases rest with
  | nil => simp
  | cons value rest =>
      have fails : test value = false := by simpa using ends
      simp [fails]

theorem dropWhile_run (passes : ∀ value ∈ run, test value = true)
    (ends : rest.head?.all (! test ·) = true) :
    (run ++ rest).dropWhile test = rest := by
  rw [List.dropWhile_append_of_pos passes]
  cases rest with
  | nil => simp
  | cons value rest =>
      have fails : test value = false := by simpa using ends
      simp [fails]

theorem takeWhile_append_stop (text : List α)
    (ends : rest.head?.all (! test ·) = true) :
    (text ++ rest).takeWhile test = text.takeWhile test := by
  induction text with
  | nil =>
      cases rest with
      | nil => rfl
      | cons value rest =>
          have fails : test value = false := by simpa using ends
          simp [fails]
  | cons value text induction =>
      rw [List.cons_append, List.takeWhile_cons, List.takeWhile_cons, induction]

theorem head_dropWhile (test : α → Bool) (values : List α) :
    (values.dropWhile test).head?.all (! test ·) = true := by
  cases remaining : values.dropWhile test with
  | nil => rfl
  | cons value rest =>
      have fails := List.head_dropWhile_not test (l := values) (by simp [remaining])
      simp only [remaining, List.head_cons] at fails
      simp [fails]

end Runs

/-! ## Pieces -/

section Breaks

variable {α : Type} {test : α → Bool} {values : List α}

theorem mem_splitOnP {value : α} (member : value ∈ values) :
    test value = true ∨ ∃ piece ∈ values.splitOnP test, value ∈ piece := by
  induction values with
  | nil => cases member
  | cons first values induction =>
      rcases List.exists_cons_of_ne_nil (List.splitOnP_ne_nil test values) with
        ⟨piece, rest, split⟩
      rw [List.splitOnP_cons_eq_if_modifyHead]
      rw [split] at induction ⊢
      split
      · next breaks =>
          rcases List.mem_cons.mp member with rfl | member
          · exact .inl breaks
          · rcases induction member with breaks | ⟨other, source, inside⟩
            · exact .inl breaks
            · exact .inr ⟨other, List.mem_cons_of_mem _ source, inside⟩
      · rcases List.mem_cons.mp member with rfl | member
        · exact .inr ⟨_, List.mem_cons_self, List.mem_cons_self⟩
        · rcases induction member with breaks | ⟨other, source, inside⟩
          · exact .inl breaks
          · rcases List.mem_cons.mp source with rfl | source
            · exact .inr ⟨_, List.mem_cons_self, List.mem_cons_of_mem _ inside⟩
            · exact .inr ⟨other, List.mem_cons_of_mem _ source, inside⟩

theorem length_of_mem_splitOnP {piece : List α}
    (member : piece ∈ values.splitOnP test) : piece.length ≤ values.length := by
  induction values generalizing piece with
  | nil =>
      rw [List.mem_singleton.mp member]
      exact Nat.le_refl 0
  | cons first values induction =>
      rcases List.exists_cons_of_ne_nil (List.splitOnP_ne_nil test values) with
        ⟨head, rest, split⟩
      rw [split] at induction
      rw [List.splitOnP_cons_eq_if_modifyHead, split] at member
      rw [List.length_cons]
      split at member
      · rcases List.mem_cons.mp member with rfl | member
        · exact Nat.zero_le _
        · exact Nat.le_succ_of_le (induction member)
      · rcases List.mem_cons.mp member with rfl | member
        · exact Nat.succ_le_succ (induction List.mem_cons_self)
        · exact Nat.le_succ_of_le (induction (List.mem_cons_of_mem _ member))

theorem length_lt_of_mem_splitOnP {piece : List α}
    (member : piece ∈ values.splitOnP test) {value : α} (inside : value ∈ values)
    (breaks : test value = true) : piece.length < values.length := by
  rcases List.append_of_mem inside with ⟨front, back, rfl⟩
  rw [List.splitOnP_append_cons front back breaks, List.mem_append] at member
  rw [List.length_append, List.length_cons]
  rcases member with member | member
  · have shorter := length_of_mem_splitOnP member
    omega
  · have shorter := length_of_mem_splitOnP member
    omega

theorem splitOnP_concat {value : α} (stays : test value = false) (values : List α) :
    ∃ front last, values.splitOnP test = front ++ [last] ∧
      (values ++ [value]).splitOnP test = front ++ [last ++ [value]] := by
  induction values with
  | nil => exact ⟨[], [], rfl, List.splitOnP_eq_singleton (by simpa using stays)⟩
  | cons first values induction =>
      rcases induction with ⟨front, last, split, split'⟩
      rw [List.cons_append, List.splitOnP_cons_eq_if_modifyHead,
        List.splitOnP_cons_eq_if_modifyHead, split, split']
      by_cases breaks : test first = true
      · rw [if_pos breaks, if_pos breaks]
        exact ⟨[] :: front, last, rfl, rfl⟩
      · rw [if_neg breaks, if_neg breaks]
        cases front with
        | nil => exact ⟨[], first :: last, rfl, rfl⟩
        | cons piece front => exact ⟨(first :: piece) :: front, last, rfl, rfl⟩

end Breaks

section Splitting

variable {α β : Type} {split : α → List β} {single : α → β} {members : List α}
  (nonempty : ∀ member ∈ members, split member ≠ [])

include nonempty

theorem length_le_flatMap : members.length ≤ (members.flatMap split).length := by
  induction members with
  | nil => exact Nat.le_refl 0
  | cons member members induction =>
      rw [List.forall_mem_cons] at nonempty
      have first := List.length_pos_iff.mpr nonempty.1
      have others := induction nonempty.2
      rw [List.flatMap_cons, List.length_append, List.length_cons]
      omega

/-- Where every member comes apart into something, and all together into one piece for
each, every member comes apart into its own piece. -/
theorem flatMap_eq_map_iff :
    members.flatMap split = members.map single ↔
      ∀ member ∈ members, split member = [single member] := by
  constructor
  · intro same
    induction members with
    | nil => exact List.forall_mem_nil _
    | cons member members induction =>
        rw [List.forall_mem_cons] at nonempty ⊢
        rcases List.exists_cons_of_ne_nil nonempty.1 with ⟨piece, more, parts⟩
        rw [List.flatMap_cons, parts, List.map_cons, List.cons_append,
          List.cons.injEq] at same
        have length := congrArg List.length same.2
        have longer := length_le_flatMap nonempty.2
        rw [List.length_append, List.length_map] at length
        have nothing : more = [] := List.eq_nil_of_length_eq_zero (by omega)
        rw [nothing, List.nil_append] at same
        exact ⟨by rw [parts, nothing, same.1], induction nonempty.2 same.2⟩
  · intro each
    rw [List.flatMap_def, List.map_congr_left each, ← List.flatMap_def,
      List.map_eq_flatMap]

end Splitting

/-! ## Case -/

/-- A class of characters that the capitals share with their small letters takes no
notice of case: `Char.toLower` leaves everything else alone. -/
theorem test_toLower {test : Char → Bool}
    (capitals : ∀ code ∈ List.range' 65 26,
      test (Char.ofNat code).toLower = test (Char.ofNat code)) (c : Char) :
    test c.toLower = test c := by
  by_cases upper : 'A'.val ≤ c.val ∧ c.val ≤ 'Z'.val
  · have code : c.toNat ∈ List.range' 65 26 := by
      have least : 65 ≤ c.toNat := upper.1
      have most : c.toNat ≤ 90 := upper.2
      rw [List.mem_range'_1]
      omega
    rw [← Char.ofNat_toNat c]
    exact capitals _ code
  · unfold Char.toLower
    rw [dif_neg upper]

theorem isSpace_toLower (c : Char) : isSpace c.toLower = isSpace c :=
  test_toLower (by decide +kernel) c

theorem isAlphabetic_toLower (c : Char) : isAlphabetic c.toLower = isAlphabetic c :=
  test_toLower (by decide +kernel) c

/-! ## Quoted text -/

theorem Quoted.read_escape (c : Char) (rest : List Char) :
    Quoted.read '"' (escape c ++ rest) =
      (Quoted.read '"' rest).push c (escape c).length := by
  simp only [escape]
  split <;> simp_all [Quoted.read, unescape]

def quoteBody (text : String) : List Char :=
  text.toList.flatMap escape ++ ['"']

theorem toList_quote (text : String) : (quote text).toList = '"' :: quoteBody text := by
  simp [quote, quoteBody]

theorem Quoted.read_quoteBody (text : String) (rest : List Char) :
    Quoted.read '"' (quoteBody text ++ rest) =
      { contents := text.toList, width := (quoteBody text).length,
        closed := true } := by
  rw [quoteBody, List.append_assoc]
  induction text.toList with
  | nil => simp [Quoted.read]
  | cons c text induction =>
      rw [List.flatMap_cons, List.append_assoc, Quoted.read_escape, induction]
      simp only [Quoted.push, List.length_append, Quoted.mk.injEq, true_and, and_true]
      omega

theorem Quoted.width_le (delimiter : Char) (text : List Char) :
    (Quoted.read delimiter text).width ≤ text.length := by
  fun_induction Quoted.read delimiter text with
  | case1 => simp
  | case2 => simp
  | case3 c rest induction =>
      simp only [push, List.length_cons]
      omega
  | case4 rest notEnd notEscape => simp
  | case5 c rest notEnd notEscape different induction =>
      simp only [push, List.length_cons]
      omega

theorem ordinary_of_cases {c : Char} {rest : List Char}
    (notEnd : c = '\\' → rest = [] → False)
    (notEscape : ∀ d more, c = '\\' → rest = d :: more → False) : c ≠ '\\' := by
  intro same
  cases rest with
  | nil => exact notEnd same rfl
  | cons d more => exact notEscape d more same rfl

theorem Quoted.read_ordinary (delimiter : Char) {c : Char} (ordinary : c ≠ '\\')
    (rest : List Char) :
    Quoted.read delimiter (c :: rest) =
      if c = delimiter then { contents := [], width := 1, closed := true }
      else push c 1 (Quoted.read delimiter rest) := by
  rw [Quoted.read]
  · exact fun same _ => ordinary same
  · exact fun _ _ same _ => ordinary same

theorem Quoted.read_append {delimiter : Char} {text : List Char} (more : List Char)
    (closed : (Quoted.read delimiter text).closed = true) :
    Quoted.read delimiter (text ++ more) = Quoted.read delimiter text := by
  fun_induction Quoted.read delimiter text with
  | case1 => cases closed
  | case2 => cases closed
  | case3 c rest induction =>
      rw [List.cons_append, List.cons_append, Quoted.read, induction closed]
  | case4 rest notEnd notEscape =>
      rw [List.cons_append, Quoted.read_ordinary _ (ordinary_of_cases notEnd notEscape),
        if_pos rfl]
  | case5 c rest notEnd notEscape different induction =>
      rw [List.cons_append, Quoted.read_ordinary _ (ordinary_of_cases notEnd notEscape),
        if_neg different, induction closed]

theorem Quoted.read_take {delimiter : Char} {text : List Char}
    (closed : (Quoted.read delimiter text).closed = true) :
    Quoted.read delimiter (text.take (Quoted.read delimiter text).width) =
      Quoted.read delimiter text := by
  fun_induction Quoted.read delimiter text with
  | case1 => cases closed
  | case2 => cases closed
  | case3 c rest induction =>
      rw [push, List.take_succ_cons, List.take_succ_cons, Quoted.read, induction closed]
      rfl
  | case4 rest notEnd notEscape =>
      rw [List.take_succ_cons, List.take_zero,
        Quoted.read_ordinary _ (ordinary_of_cases notEnd notEscape), if_pos rfl]
  | case5 c rest notEnd notEscape different induction =>
      rw [push, List.take_succ_cons,
        Quoted.read_ordinary _ (ordinary_of_cases notEnd notEscape), if_neg different,
        induction closed]
      rfl

end LogQuery.Text
