import LogQuery.Proofs.LogsQl.Words

/-!
Field lists of LogsQL as their reader sees them. The reader cuts a list at the commas
outside of quotes. A name with a comma has quotes only if something else in it calls for
them, so the list is read back exactly if no name with a comma stands without quotes.
-/

namespace LogQuery.LogsQl

/-! ## Cutting at commas -/

def bareComma : Char × Place :=
  (',', .outside)

def dropBlank : List (Char × Place) → List (Char × Place)
  | (' ', .outside) :: rest => rest
  | row => row

def tidied : List (List (Char × Place)) → List (List (Char × Place))
  | [] => []
  | first :: rest => first :: rest.map dropBlank

def rowText (row : List (Char × Place)) : String :=
  String.ofList (row.map Prod.fst)

/-- The texts between the commas outside of quotes. -/
def fieldTexts (text : String) : List String :=
  (tidied ((placed .outside text.toList).splitOn bareComma)).map rowText

example : fieldTexts "a, \"b, c\",d" = ["a", "\"b, c\"", "d"] := by
  decide +kernel

def readField? (text : String) : Option String :=
  (readText? text.toList).bind fun (name, rest) =>
    if rest.isEmpty then some name else none

theorem rowText_placed (place : Place) (text : String) :
    rowText (placed place text.toList) = text := by
  rw [rowText, map_fst_placed, String.ofList_toList]

theorem tidied_comma {rows more : List (List (Char × Place))} (some : rows ≠ [])
    (others : more ≠ []) :
    tidied (rows ++ more.modifyHead ((' ', .outside) :: ·)) =
      tidied rows ++ tidied more := by
  rcases List.exists_cons_of_ne_nil some with ⟨first, rest, rfl⟩
  rcases List.exists_cons_of_ne_nil others with ⟨second, rest', rfl⟩
  simp [tidied, dropBlank]

theorem fieldTexts_append {first : String} (rest : String)
    (closed : Place.outside.behind first.toList = .outside) :
    fieldTexts (first ++ ", " ++ rest) = fieldTexts first ++ fieldTexts rest := by
  have row : placed .outside (first ++ ", " ++ rest).toList =
      placed .outside first.toList ++
        bareComma :: (' ', .outside) :: placed .outside rest.toList := by
    rw [String.toList_append, String.toList_append, List.append_assoc, placed_append,
      closed]
    rfl
  have blank : ((' ', Place.outside) == bareComma) = false := by decide
  rw [fieldTexts, row, List.splitOn_append_cons_self,
    List.splitOn_cons_eq_if_modifyHead, blank, if_neg Bool.false_ne_true,
    tidied_comma (List.splitOn_ne_nil _ _) (List.splitOn_ne_nil _ _), List.map_append]
  rfl

theorem fieldTexts_intercalate {texts : List String} (nonempty : texts ≠ [])
    (closed : ∀ text ∈ texts, Place.outside.behind text.toList = .outside) :
    fieldTexts (String.intercalate ", " texts) = texts.flatMap fieldTexts := by
  induction texts with
  | nil => exact absurd rfl nonempty
  | cons first rest induction =>
      rw [List.forall_mem_cons] at closed
      cases rest with
      | nil => simp
      | cons second rest =>
          rw [String.intercalate_cons_cons, fieldTexts_append _ closed.1,
            induction (List.cons_ne_nil _ _) closed.2]
          exact List.flatMap_cons.symm

theorem fieldTexts_of_not_mem {text : String}
    (uncut : bareComma ∉ placed .outside text.toList) : fieldTexts text = [text] := by
  rw [fieldTexts, List.splitOn_eq_singleton uncut]
  simp [tidied, rowText_placed]

theorem two_le_length_fieldTexts {text : String}
    (cut : bareComma ∈ placed .outside text.toList) : 2 ≤ (fieldTexts text).length := by
  rcases List.append_of_mem cut with ⟨front, back, parts⟩
  rcases List.exists_cons_of_ne_nil (List.splitOn_ne_nil bareComma front) with
    ⟨one, more, first⟩
  rcases List.exists_cons_of_ne_nil (List.splitOn_ne_nil bareComma back) with
    ⟨two, others, second⟩
  rw [fieldTexts, parts, List.splitOn_append_cons_self, first, second]
  simp only [tidied, List.cons_append, List.length_map, List.length_cons,
    List.length_append]
  omega

/-! ## Written fields -/

theorem fieldTexts_ne_nil (text : String) : fieldTexts text ≠ [] := by
  rcases List.exists_cons_of_ne_nil
    (List.splitOn_ne_nil bareComma (placed .outside text.toList)) with
    ⟨first, rest, split⟩
  simp [fieldTexts, split, tidied]

theorem readField?_renderText (text : String) :
    readField? (renderText text) = some text := by
  have read := @readText?_renderText text [] rfl
  rw [List.append_nil] at read
  rw [readField?, read]
  rfl

theorem map_readField?_renderText_iff (text : String) :
    (fieldTexts (renderText text)).map readField? = [some text] ↔
      (',' ∈ text.toList → needsQuotes text = true) := by
  have cut : bareComma ∈ placed .outside (renderText text).toList ↔
      needsQuotes text = false ∧ ',' ∈ text.toList :=
    mem_placed_renderText_iff text (by decide)
  by_cases member : bareComma ∈ placed .outside (renderText text).toList
  · rcases cut.mp member with ⟨bare, comma⟩
    refine iff_of_false ?_ fun quoted => ?_
    · intro same
      have single := congrArg List.length same
      rw [List.length_map, List.length_singleton] at single
      have several := two_le_length_fieldTexts member
      omega
    · rw [quoted comma] at bare
      cases bare
  · rw [fieldTexts_of_not_mem member, List.map_singleton, readField?_renderText]
    refine iff_of_true rfl fun comma => ?_
    by_contra bare
    exact member (cut.mpr ⟨by simpa using bare, comma⟩)

/-- A field list is read back, one text for each field, exactly if every name with a
comma in it has quotes for some other reason. -/
theorem renderProjection?_reads_back_iff {fields : List FieldPath}
    (nonempty : fields ≠ []) :
    ∃ text, renderProjection? fields = some text ∧
      ((fieldTexts text).map readField? = fields.map (fun field => some field.dotted) ↔
        ∀ field ∈ fields, ',' ∈ field.dotted.toList →
          needsQuotes field.dotted = true) := by
  have closed :
      ∀ text ∈ fields.map renderField, Place.outside.behind text.toList = .outside := by
    intro text member
    rcases List.mem_map.mp member with ⟨field, _, rfl⟩
    exact (solid_renderText field.dotted).closed
  have found :
      ∀ field ∈ fields, (fieldTexts (renderField field)).map readField? ≠ [] := by
    intro field _
    simpa using fieldTexts_ne_nil (renderField field)
  refine ⟨String.intercalate ", " (fields.map renderField), ?_, ?_⟩
  · rw [renderProjection?, if_neg (by simpa using nonempty)]
  · rw [fieldTexts_intercalate (by simpa using nonempty) closed, List.flatMap_map,
      List.map_flatMap, Text.flatMap_eq_map_iff found]
    exact forall₂_congr fun field _ => map_readField?_renderText_iff field.dotted

def listedFields : List FieldPath :=
  [.nested "a" ["b, c", ","], .name ",:\"", .name "d"]

theorem renderProjection?_reads_back_iff_listed :
    listedFields ≠ [] ∧
      (∀ field ∈ listedFields, ',' ∈ field.dotted.toList →
        needsQuotes field.dotted = true) ∧
      ∃ text, renderProjection? listedFields = some text ∧
        (fieldTexts text).map readField? =
          listedFields.map fun field => some field.dotted := by
  have nonempty : listedFields ≠ [] := List.cons_ne_nil _ _
  have quoted : ∀ field ∈ listedFields,
      ',' ∈ field.dotted.toList → needsQuotes field.dotted = true := by
    decide +kernel
  rcases renderProjection?_reads_back_iff nonempty with ⟨text, rendered, read⟩
  exact ⟨nonempty, quoted, text, rendered, read.mpr quoted⟩

/-- A field with a comma in its name is read as two. -/
theorem renderProjection?_comes_apart :
    ∃ text, renderProjection? [.name "a,b", .name "c"] = some text ∧
      (fieldTexts text).map readField? = [some "a", some "b", some "c"] := by
  refine ⟨_, rfl, ?_⟩
  decide +kernel

end LogQuery.LogsQl
