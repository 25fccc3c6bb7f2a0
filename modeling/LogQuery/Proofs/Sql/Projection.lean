import LogQuery.Proofs.Sql.Statement

/-!
Column lists as a reader of SQL sees them. The reader cuts a list at the commas that
stand outside of quoted runs and of brackets, and reads each cell by itself. Names, keys
and labels may hold commas, brackets and quotes of their own, and still every field has
its one cell.
-/

namespace LogQuery.Sql

/-! ## Cells -/

def bracketsBehind (stack : List Bracket) (piece : Piece) : List Bracket :=
  (bracketStep? stack piece.outside).getD stack

def bracketed (stack : List Bracket) : List Piece → List (Piece × List Bracket)
  | [] => []
  | piece :: rest => (piece, stack) :: bracketed (bracketsBehind stack piece) rest

def topComma : Piece × List Bracket :=
  (.plain ',', [])

def cellText (row : List (Piece × List Bracket)) : String :=
  String.ofList (row.flatMap (·.1.source))

/-- The texts between the commas outside of quoted runs and brackets. -/
def cells (text : String) : List String :=
  ((bracketed [] (pieces text.toList)).splitOn topComma).map cellText

example :
    cells "f(`a`, 'x'), `b,c`['],'] AS `d`" =
      ["f(`a`, 'x')", " `b,c`['],'] AS `d`"] := by
  decide +kernel

theorem bracketed_append (stack : List Bracket) (first second : List Piece) :
    bracketed stack (first ++ second) =
      bracketed stack first ++ bracketed (first.foldl bracketsBehind stack) second := by
  induction first generalizing stack with
  | nil => rfl
  | cons piece first induction =>
      rw [List.cons_append, bracketed, bracketed, induction]
      rfl

theorem map_fst_bracketed (stack : List Bracket) (row : List Piece) :
    (bracketed stack row).map Prod.fst = row := by
  induction row generalizing stack with
  | nil => rfl
  | cons piece row induction => rw [bracketed, List.map_cons, induction]

theorem cellText_bracketed (stack : List Bracket) (text : String) :
    cellText (bracketed stack (pieces text.toList)) = text := by
  rw [cellText, ← List.flatMap_map, map_fst_bracketed, source_pieces,
    String.ofList_toList]

/-! ## Texts in one cell -/

structure Whole (stack : List Bracket) (row : List Piece) : Prop where
  returns : row.foldl bracketsBehind stack = stack
  uncut : topComma ∉ bracketed stack row

namespace Whole

variable {stack : List Bracket} {row second : List Piece}

theorem append (one : Whole stack row) (two : Whole stack second) :
    Whole stack (row ++ second) where
  returns := by rw [List.foldl_append, one.returns, two.returns]
  uncut := by
    rw [bracketed_append, one.returns, List.mem_append, not_or]
    exact ⟨one.uncut, two.uncut⟩

theorem quoted (stack : List Bracket) (delimiter : Char) (body : List Char) :
    Whole stack [.quoted delimiter body] where
  returns := rfl
  uncut := by simp [bracketed, topComma]

theorem flat {text : List Char} (flat : text.all isFlat = true)
    (safe : stack ≠ [] ∨ ',' ∉ text) : Whole stack (text.map .plain) := by
  induction text with
  | nil => exact ⟨rfl, by simp [bracketed]⟩
  | cons c text induction =>
      rw [List.all_cons, Bool.and_eq_true] at flat
      have first : Whole stack [.plain c] :=
        { returns := by simp [bracketsBehind, Piece.outside, bracketStep?_flat flat.1]
          uncut := by
            rcases safe with inside | noComma
            · simp [bracketed, topComma, Ne.symm inside]
            · simp only [List.mem_cons, not_or] at noComma
              simp [bracketed, topComma, noComma.1] }
      have others := safe.imp_right fun noComma => mt (List.mem_cons_of_mem c) noComma
      exact first.append (induction flat.2 others)

theorem enclosed (bracket : Bracket) (inner : Whole (bracket :: stack) row) :
    Whole stack (.plain bracket.opening :: (row ++ [.plain bracket.closing])) := by
  have opens : bracketsBehind stack (.plain bracket.opening) = bracket :: stack := by
    cases bracket <;> rfl
  have closes : bracketsBehind (bracket :: stack) (.plain bracket.closing) = stack := by
    cases bracket <;>
      simp [bracketsBehind, bracketStep?, Piece.outside, Bracket.closing]
  constructor
  · rw [List.foldl_cons, opens, List.foldl_append, inner.returns, List.foldl_cons,
      closes, List.foldl_nil]
  · have marks : Bracket.opening bracket ≠ ',' ∧ Bracket.closing bracket ≠ ',' := by
      cases bracket <;> decide
    rw [bracketed, opens, bracketed_append, inner.returns, List.mem_cons,
      List.mem_append]
    rintro (same | inside | last)
    · exact marks.1 (Piece.plain.inj (Prod.mk.inj same).1).symm
    · exact inner.uncut inside
    · rw [bracketed, bracketed, List.mem_singleton] at last
      exact marks.2 (Piece.plain.inj (Prod.mk.inj last).1).symm

end Whole

/-- A text that stays in one cell where these brackets are open. -/
structure InCell (stack : List Bracket) (text : String) : Prop where
  closed : Closed text.toList
  whole : Whole stack (pieces text.toList)

namespace InCell

variable {stack : List Bracket} {first second : String}

theorem append (one : InCell stack first) (two : InCell stack second)
    (parted : Parted first.toList second.toList) : InCell stack (first ++ second) where
  closed := by
    rw [String.toList_append]
    exact one.closed.append two.closed parted.apart
  whole := by
    rw [String.toList_append, pieces_append second.toList one.closed parted.apart]
    exact one.whole.append two.whole

theorem flat (plain : first.toList.all isFlat = true)
    (safe : stack ≠ [] ∨ ',' ∉ first.toList) : InCell stack first := by
  have cut := pieces_of_flat plain
  constructor
  · rw [Closed, cut]
    simp [Piece.isClosed]
  · rw [cut]
    exact .flat plain safe

theorem quotedRun {delimiter : Char} {body : List Char}
    (cut : pieces first.toList = [.quoted delimiter body]) : InCell stack first := by
  constructor
  · rw [Closed, cut]
    simp [Piece.isClosed]
  · rw [cut]
    exact .quoted stack delimiter body

theorem identifier (name : String) : InCell stack (identifier name) :=
  quotedRun (pieces_of_identifier name)

theorem quote (text : String) : InCell stack (quote text) :=
  quotedRun (pieces_of_quote text)

theorem enclosed (bracket : Bracket) (inner : InCell (bracket :: stack) first) :
    InCell stack (bracket.left ++ first ++ bracket.right) := by
  have cut := pieces_enclosed bracket inner.closed
  have whole := inner.whole.enclosed bracket
  rw [← cut] at whole
  refine ⟨?_, whole⟩
  rw [Closed, cut, List.forall_mem_cons, List.forall_mem_append,
    List.forall_mem_singleton]
  exact ⟨rfl, inner.closed, rfl⟩

theorem applied (bracket : Bracket) (one : InCell stack first)
    (inner : InCell (bracket :: stack) second) :
    InCell stack (first ++ bracket.left ++ second ++ bracket.right) := by
  have starts : isBreak bracket.opening = true := by cases bracket <;> rfl
  have both :=
    one.append (inner.enclosed bracket)
      (.before (by simp [Bracket.toList_left, starts]))
  simpa only [String.append_assoc] using both

theorem commas {texts : List String} (each : ∀ text ∈ texts, InCell stack text)
    (inside : stack ≠ []) : InCell stack (String.intercalate ", " texts) := by
  induction texts with
  | nil => exact flat rfl (.inl inside)
  | cons text texts induction =>
      rw [List.forall_mem_cons] at each
      cases texts with
      | nil => simpa using each.1
      | cons next texts =>
          have comma : InCell stack ", " := flat (by decide) (.inl inside)
          rw [String.intercalate_cons_cons]
          exact (each.1.append comma (.before rfl)).append (induction each.2)
            (.after _ rfl)

theorem access (access : Access) : InCell [] access.render := by
  cases access with
  | column name => exact identifier name
  | mapValue base key => exact (identifier base).applied .square (quote key)
  | jsonValue base keys =>
      have function : InCell [] "JSONExtractString" :=
        flat (by decide) (.inr (by decide))
      have comma : InCell [.round] ", " :=
        flat (by decide) (.inl (List.cons_ne_nil _ _))
      have literals :
          InCell [.round] (String.intercalate ", " (keys.map Sql.quote)) := by
        apply commas
        · intro text member
          rcases List.mem_map.mp member with ⟨key, _, rfl⟩
          exact quote key
        · exact List.cons_ne_nil _ _
      have column := (identifier base).append comma (.before rfl)
      have arguments := column.append literals (.after _ rfl)
      have whole := function.applied .round arguments
      unfold Access.render
      simpa [Bracket.left, Bracket.right, ← String.append_assoc] using whole

theorem entry (entry : Entry) : InCell [] entry.render := by
  rcases entry with ⟨access, label⟩
  cases label with
  | none => exact InCell.access access
  | some name =>
      have keyword : InCell [] " AS " := flat (by decide) (.inr (by decide))
      exact ((InCell.access access).append keyword (.before rfl)).append
        (identifier name) (.after _ rfl)

end InCell

/-! ## Rows of cells -/

theorem cells_cons {first : String} (rest : String) (one : InCell [] first) :
    cells (first ++ "," ++ rest) = first :: cells rest := by
  have parted : Parted first.toList (',' :: rest.toList) := .before rfl
  have cut : pieces (first ++ "," ++ rest).toList =
      pieces first.toList ++ .plain ',' :: pieces rest.toList := by
    rw [String.toList_append, String.toList_append, List.append_assoc]
    change pieces (first.toList ++ ',' :: rest.toList) = _
    rw [pieces_append _ one.closed parted.apart, pieces_plain rfl]
  have split := List.splitOn_append_cons_self_of_not_mem one.whole.uncut
    (bracketed [] (pieces rest.toList))
  rw [cells, cut, bracketed_append, one.whole.returns]
  change ((bracketed [] (pieces first.toList) ++ topComma ::
    bracketed [] (pieces rest.toList)).splitOn
    topComma).map cellText = _
  rw [split, List.map_cons, cellText_bracketed]
  rfl

theorem cells_last {text : String} (one : InCell [] text) : cells text = [text] := by
  rw [cells, List.splitOn_eq_singleton one.whole.uncut, List.map_singleton,
    cellText_bracketed]

theorem cells_intercalate {first : String} {rest : List String} (one : InCell [] first)
    (others : ∀ text ∈ rest, InCell [] text) :
    cells (String.intercalate ", " (first :: rest)) = first :: rest.map (" " ++ ·) := by
  induction rest generalizing first with
  | nil =>
      rw [String.intercalate_singleton]
      exact cells_last one
  | cons second rest induction =>
      rw [List.forall_mem_cons] at others
      have blank : InCell [] " " := .flat rfl (.inr (by decide))
      have onward := induction (blank.append others.1 (.inl rfl)) others.2
      have moved : String.intercalate ", " (first :: second :: rest) =
          first ++ "," ++ String.intercalate ", " ((" " ++ second) :: rest) := by
        cases rest <;> simp [String.intercalate_cons_cons, ← String.toList_inj]
      rw [moved, cells_cons _ one, onward, List.map_cons]

/-! ## Reading cells -/

def readCell? (text : String) : Option Entry :=
  (column? (words (pieces text.toList))).bind fun (entry, rest) =>
    if rest.isEmpty then some entry else none

theorem readCell?_of_words {text : String} {entry : Entry}
    (keyed : ∀ base, entry.access ≠ .jsonValue base [])
    (reading : words (pieces text.toList) = entryWords entry) :
    readCell? text = some entry := by
  have ends : endsEntry [] := by constructor <;> simp
  have read := column?_words keyed ends
  rw [List.append_nil] at read
  rw [readCell?, reading, read]
  rfl

theorem words_blank (text : String) :
    words (pieces (" " ++ text).toList) = words (pieces text.toList) := by
  rw [String.toList_append]
  change words (pieces (' ' :: text.toList)) = _
  have blank : Char.isWhitespace ' ' = true := rfl
  rw [pieces_plain rfl, words, if_pos blank]

theorem map_readCell?_cells {entries : List Entry} (nonempty : entries ≠ [])
    (keyed : ∀ entry ∈ entries, ∀ base, entry.access ≠ .jsonValue base []) :
    (cells (renderEntries entries)).map readCell? = entries.map some := by
  cases entries with
  | nil => exact absurd rfl nonempty
  | cons first rest =>
      have others : ∀ text ∈ rest.map Entry.render, InCell [] text := by
        intro text member
        rcases List.mem_map.mp member with ⟨entry, _, rfl⟩
        exact .entry entry
      rw [renderEntries, List.map_cons, cells_intercalate (.entry first) others,
        List.map_cons, List.map_cons, List.map_map, List.map_map]
      rw [List.forall_mem_cons] at keyed
      congr 1
      · exact readCell?_of_words keyed.1 (reads_entry keyed.1).reading
      · apply List.map_congr_left
        intro entry member
        have keyed := keyed.2 entry member
        apply readCell?_of_words keyed
        rw [words_blank]
        exact (reads_entry keyed).reading

theorem renderProjection?_reads_back (schema : Option Schema) {fields : List FieldPath}
    (nonempty : fields ≠ [])
    (hasPath : ∀ field ∈ fields, ∀ base, field ≠ .nested base [])
    (timestamp : Option String) :
    ∃ text, renderProjection? schema fields timestamp = some text ∧
      (cells text).map readCell? =
        (timestampEntries fields timestamp ++ fields.map (Entry.ofField schema)).map
          some := by
  have entries :
      timestampEntries fields timestamp ++ fields.map (Entry.ofField schema) ≠ [] := by
    simp [nonempty]
  have read := map_readCell?_cells entries (keyed_projection schema hasPath timestamp)
  refine ⟨_, ?_, read⟩
  rw [renderProjection?, if_neg (by simpa using nonempty)]

/-! ## Fields shown -/

/-- An entry shows a field: a name as the column of that name, or, where the schema has
no such column, as a value of its first map; a nested field by the access that reaches
it, labelled with all its segments. -/
inductive Entry.Shows (schema : Option Schema) : Entry → FieldPath → Prop
  | column {name : String}
      (direct : ∀ table, schema = some table →
        (∃ column ∈ table.columns, column.name = name) ∨
          ∀ column ∈ table.columns, column.kind ≠ .map) :
      Shows schema ⟨.column name, none⟩ (.name name)
  | lookedUp {name : String} {map : Column} {before after : List Column}
      (given : schema = some ⟨before ++ map :: after⟩)
      (missing : ∀ column ∈ before ++ map :: after, column.name ≠ name)
      (isMap : map.kind = .map) (first : ∀ column ∈ before, column.kind ≠ .map) :
      Shows schema ⟨.mapValue map.name name, some name⟩ (.name name)
  | nested {access : Access} {base : String} {path : List String}
      (reaches : access.Reaches schema (.nested base path)) :
      Shows schema ⟨access, some (String.intercalate "_" (base :: path))⟩
        (.nested base path)

theorem Entry.shows_ofName (schema : Option Schema) (name : String) :
    (ofName schema name).Shows schema (.name name) := by
  cases schema with
  | none =>
      apply Shows.column
      intro table given
      cases given
  | some table =>
      by_cases known : table.hasColumn name = true
      · have direct : ofName (some table) name = ofColumn name := by
          simp [ofName, known]
        rw [direct]
        apply Shows.column
        rintro _ ⟨⟩
        left
        rcases List.find?_isSome.mp known with ⟨column, member, same⟩
        exact ⟨column, member, eq_of_beq same⟩
      · cases found : table.firstMap? with
        | none =>
            have direct : ofName (some table) name = ofColumn name := by
              simp [ofName, known, found]
            rw [direct]
            apply Shows.column
            rintro _ ⟨⟩
            right
            intro column member isMap
            exact List.find?_eq_none.mp found column member (beq_iff_eq.mpr isMap)
        | some map =>
            have lookedUp :
                ofName (some table) name = ⟨.mapValue map.name name, some name⟩ := by
              simp [ofName, known, found]
            rcases List.find?_eq_some_iff_append.mp found with
              ⟨isMap, before, after, parts, earlier⟩
            have given : some table = some ⟨before ++ map :: after⟩ := by rw [← parts]
            rw [lookedUp]
            apply Shows.lookedUp given
            · intro column member same
              rw [← parts] at member
              exact known (List.find?_isSome.mpr ⟨column, member, beq_iff_eq.mpr same⟩)
            · exact eq_of_beq isMap
            · intro column member isMap
              have notMap := earlier column member
              simp [isMap] at notMap

theorem Entry.shows_ofField (schema : Option Schema) {field : FieldPath}
    (hasPath : ∀ base, field ≠ .nested base []) :
    (ofField schema field).Shows schema field := by
  cases field with
  | name name => exact shows_ofName schema name
  | nested base path =>
      cases path with
      | nil => exact absurd rfl (hasPath base)
      | cons segment path =>
          have shows :=
            Shows.nested
              (Access.reaches_ofField schema (.nested base (segment :: path)))
          rwa [String.intercalate_cons_cons] at shows

/-- What stands before the fields: the column of the timestamp, if a timestamp is given
and is not among the fields under its own name. -/
inductive Leads (timestamp : Option String) (fields : List FieldPath) :
    List Entry → Prop
  | column {name : String} (given : timestamp = some name) (nonempty : name ≠ "")
      (missing : .name name ∉ fields) : Leads timestamp fields [⟨.column name, none⟩]
  | nothing
      (covered : ∀ name, timestamp = some name → name ≠ "" → .name name ∈ fields) :
      Leads timestamp fields []

theorem leads_timestampEntries (fields : List FieldPath) (timestamp : Option String) :
    Leads timestamp fields (timestampEntries fields timestamp) := by
  cases timestamp with
  | none =>
      apply Leads.nothing
      intro name given
      cases given
  | some name =>
      rw [timestampEntries]
      split
      · next covered =>
          apply Leads.nothing
          rintro _ ⟨⟩ nonempty
          simpa [nonempty] using covered
      · next uncovered =>
          simp only [Bool.or_eq_true, String.isEmpty_iff, List.contains_iff_mem,
            not_or] at uncovered
          exact .column rfl uncovered.1 uncovered.2

/-- Cut at its commas, a column list has the column of the timestamp where it leads, and
then one cell for each field in their order, and each cell is read as what shows that
field. -/
theorem renderProjection?_shows_fields (schema : Option Schema)
    {fields : List FieldPath} (nonempty : fields ≠ [])
    (hasPath : ∀ field ∈ fields, ∀ base, field ≠ .nested base [])
    (timestamp : Option String) :
    ∃ text lead entries, renderProjection? schema fields timestamp = some text ∧
      (cells text).map readCell? = (lead ++ entries).map some ∧
      Leads timestamp fields lead ∧
      List.Forall₂ (Entry.Shows schema) entries fields := by
  rcases renderProjection?_reads_back schema nonempty hasPath timestamp with
    ⟨text, rendered, read⟩
  refine ⟨text, _, _, rendered, read, leads_timestampEntries fields timestamp, ?_⟩
  rw [List.forall₂_map_left_iff, List.forall₂_same]
  intro field member
  exact Entry.shows_ofField schema (hasPath field member)

def crowdedSchema : Schema where
  columns := [⟨"body", "String"⟩, ⟨"tags, [x`", "Nullable(Map(String, String))"⟩]

def crowdedFields : List FieldPath :=
  [.name "ser,vice' AS `x", .name "body", .nested "tags, [x`" ["]", "a'], b"],
    .nested "pay(load" ["', 'x", ") AS `y`"]]

theorem renderProjection?_shows_fields_crowded :
    crowdedFields ≠ [] ∧ (∀ field ∈ crowdedFields, ∀ base, field ≠ .nested base []) ∧
      ∃ text lead entries,
        renderProjection? (some crowdedSchema) crowdedFields (some "@t,s") = some text ∧
        (cells text).map readCell? = (lead ++ entries).map some ∧
        Leads (some "@t,s") crowdedFields lead ∧
        List.Forall₂ (Entry.Shows (some crowdedSchema)) entries crowdedFields := by
  have nonempty : crowdedFields ≠ [] := List.cons_ne_nil _ _
  have hasPath : ∀ field ∈ crowdedFields, ∀ base, field ≠ .nested base [] := by
    simp [crowdedFields]
  exact ⟨nonempty, hasPath,
    renderProjection?_shows_fields (some crowdedSchema) nonempty hasPath _⟩

end LogQuery.Sql
