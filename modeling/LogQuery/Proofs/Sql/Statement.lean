import LogQuery.Proofs.Derivation
import LogQuery.Proofs.Parameter
import LogQuery.Proofs.Sql.Filter
import LogQuery.Sql.Statement

/-!
Statements as a reader of SQL sees them. Names, keys and strings are quoted and the
other parts of a request are held to narrow forms, so no part of a statement can end it,
comment on it, or leave the place it was put in.
-/

namespace LogQuery.Sql

/-! ## Reading statements -/

structure Statement where
  /-- All columns, or these. -/
  columns : Option (List Entry)
  table : String
  timestamp : String
  start : String × String
  stop : String × String
  /-- The words of the condition in parentheses after the time range. -/
  filter : Option (List Word)
  order : String
  limit : Option String
deriving DecidableEq, Repr

def label? : List Word → Option String × List Word
  | .bare "AS" :: .name label :: rest => (some label, rest)
  | rest => (none, rest)

def column? (words : List Word) : Option (Entry × List Word) :=
  (access? words).map fun (access, rest) =>
    ({ access, label := (label? rest).1 }, (label? rest).2)

def entries? (words : List Word) : Option (List Entry × List Word) :=
  match column? words with
  | none => none
  | some (entry, .mark ',' :: rest) =>
      if rest.length < words.length then
        (entries? rest).map fun (entries, rest) => (entry :: entries, rest)
      else none
  | some (entry, rest) => some ([entry], rest)
termination_by words.length

def columns? : List Word → Option (Option (List Entry) × List Word)
  | .mark '*' :: rest => some (none, rest)
  | words => (entries? words).map fun (entries, rest) => (some entries, rest)

def bound? : List Word → Option ((String × String) × List Word)
  | .bare "toDateTime" :: .mark '(' :: .literal time :: .mark ',' :: .literal zone ::
      .mark ')' ::
      rest => some ((time, zone), rest)
  | _ => none

/-- Splits words at the parenthesis that closes the one before them. `stack` has the
brackets that were opened since. -/
def enclosed? (stack : List Bracket) : List Word → Option (List Word × List Word)
  | [] => none
  | word :: rest =>
      if word = .mark ')' ∧ stack = [] then some ([], rest)
      else
        (bracketStep? stack word.outside).bind fun stack =>
          (enclosed? stack rest).map fun (inside, rest) => (word :: inside, rest)

def conjunct? : List Word → Option (Option (List Word) × List Word)
  | .bare "AND" :: .mark '(' :: rest =>
      (enclosed? [] rest).map fun (inside, rest) => (some inside, rest)
  | rest => some (none, rest)

def statement? (words : List Word) : Option Statement := do
  let .bare "SELECT" :: rest := words | none
  let (columns, rest) ← columns? rest
  let .bare "FROM" :: .bare table :: .bare "WHERE" :: .name timestamp ::
    .bare "BETWEEN" :: rest := rest
    | none
  let (start, rest) ← bound? rest
  let .bare "AND" :: rest := rest | none
  let (stop, rest) ← bound? rest
  let (filter, rest) ← conjunct? rest
  let .bare "ORDER" :: .bare "BY" :: .name order :: .bare "DESC" :: rest := rest | none
  match rest with
  | [] => some { columns, table, timestamp, start, stop, filter, order, limit := none }
  | [.bare "LIMIT", .bare count] =>
      some
        { columns, table, timestamp, start, stop, filter, order, limit := some count }
  | _ => none

/-! ## Columns -/

def labelWords : Option String → List Word
  | none => []
  | some label => [.bare "AS", .name label]

def entryWords (entry : Entry) : List Word :=
  entry.access.words ++ labelWords entry.label

def columnWords : Option (List Entry) → List Word
  | none => [.mark '*']
  | some entries => [.mark ','].intercalate (entries.map entryWords)

theorem label?_words (label : Option String) {rest : List Word}
    (ends : rest.head? ≠ some (.bare "AS")) :
    label? (labelWords label ++ rest) = (label, rest) := by
  cases label with
  | some label => rfl
  | none =>
      rw [labelWords, List.nil_append]
      simp only [label?]
      split
      · exact absurd rfl ends
      · rfl

def endsEntry (words : List Word) : Prop :=
  words.head? ≠ some (.mark '[') ∧ words.head? ≠ some (.bare "AS")

theorem column?_words {entry : Entry}
    (keyed : ∀ base, entry.access ≠ .jsonValue base []) {rest : List Word}
    (ends : endsEntry rest) :
    column? (entryWords entry ++ rest) = some (entry, rest) := by
  have noKey : (labelWords entry.label ++ rest).head? ≠ some (.mark '[') := by
    cases entry.label with
    | none => exact ends.1
    | some label => simp [labelWords]
  simp only [column?, entryWords, List.append_assoc, access?_words keyed _ noKey,
    Option.map_some, label?_words _ ends.2]

theorem entries?_last {words rest : List Word} {entry : Entry}
    (read : column? words = some (entry, rest)) (ends : rest.head? ≠ some (.mark ',')) :
    entries? words = some ([entry], rest) := by
  rw [entries?, read]
  split
  · next same => cases same
  · next same =>
      cases same
      exact absurd rfl ends
  · next same =>
      cases same
      rfl

theorem entries?_words {entries : List Entry} (nonempty : entries ≠ [])
    (keyed : ∀ entry ∈ entries, ∀ base, entry.access ≠ .jsonValue base [])
    {rest : List Word} (ends : endsEntry rest)
    (noComma : rest.head? ≠ some (.mark ',')) :
    entries? ([.mark ','].intercalate (entries.map entryWords) ++ rest) =
      some (entries, rest) := by
  induction entries with
  | nil => exact absurd rfl nonempty
  | cons entry entries induction =>
      rw [List.forall_mem_cons] at keyed
      cases entries with
      | nil =>
          rw [List.map_singleton, List.intercalate_singleton]
          exact entries?_last (column?_words keyed.1 ends) noComma
      | cons next entries =>
          have onward := induction nofun keyed.2
          have comma : endsEntry (.mark ',' :: ([.mark ','].intercalate
              ((next :: entries).map entryWords) ++ rest)) := by
            constructor <;> simp
          have read := column?_words keyed.1 comma
          rw [List.map_cons, List.map_cons, List.intercalate_cons_cons,
            List.append_assoc, List.append_assoc, List.singleton_append,
            ← List.map_cons, entries?, read]
          simp only [List.length_append, List.length_cons]
          rw [if_pos (by omega), onward]
          rfl

theorem reads_entry {entry : Entry}
    (keyed : ∀ base, entry.access ≠ .jsonValue base []) :
    Reads entry.render (entryWords entry) := by
  rcases entry with ⟨access, label⟩
  have access := reads_access keyed
  cases label with
  | none => simpa [Entry.render, entryWords, labelWords] using access
  | some label =>
      have keyword : Reads " AS " [.bare "AS"] := reads_fixed (by decide +kernel)
      have reads := (access.append keyword (.before rfl)).append
        (reads_identifier label) (.after _ rfl)
      simpa [Entry.render, entryWords, labelWords] using reads

theorem reads_entries {entries : List Entry}
    (keyed : ∀ entry ∈ entries, ∀ base, entry.access ≠ .jsonValue base []) :
    Reads (renderEntries entries) ([.mark ','].intercalate (entries.map entryWords)) :=
  reads_comma.intercalate rfl rfl fun entry member => reads_entry (keyed entry member)

def Request.selected (request : Request) (fields : List FieldPath) :
    Option (List Entry) :=
  if fields = [] then
    if request.columns = [] then none else some (request.columns.map .ofColumn)
  else
    some (timestampEntries fields (some request.timestampField) ++
      fields.map (Entry.ofField request.schema))

theorem Entry.keyed_ofField (schema : Option Schema) {field : FieldPath}
    (hasPath : ∀ base, field ≠ .nested base []) (base : String) :
    (Entry.ofField schema field).access ≠ .jsonValue base [] := by
  cases field with
  | name name =>
      rw [Entry.ofField, Entry.ofName]
      split
      · nofun
      · nofun
  | nested column path => exact Sql.keyed_ofField schema hasPath base

theorem Entry.keyed_ofColumn (name base : String) :
    (Entry.ofColumn name).access ≠ .jsonValue base [] := by
  intro same
  cases same

theorem keyed_projection (schema : Option Schema) {fields : List FieldPath}
    (hasPath : ∀ field ∈ fields, ∀ base, field ≠ .nested base [])
    (timestamp : Option String) :
    ∀ entry ∈ timestampEntries fields timestamp ++ fields.map (Entry.ofField schema),
      ∀ base, entry.access ≠ .jsonValue base [] := by
  rw [List.forall_mem_append]
  constructor
  · unfold timestampEntries
    split
    · exact List.forall_mem_nil _
    · split
      · exact List.forall_mem_nil _
      · exact List.forall_mem_singleton.mpr (Entry.keyed_ofColumn _)
  · intro entry member
    rcases List.mem_map.mp member with ⟨field, source, rfl⟩
    exact Entry.keyed_ofField schema (hasPath field source)

theorem Request.keyed_selected {request : Request} {fields : List FieldPath}
    {entries : List Entry} (hasPath : ∀ field ∈ fields, ∀ base, field ≠ .nested base [])
    (selected : request.selected fields = some entries) :
    entries ≠ [] ∧ ∀ entry ∈ entries, ∀ base, entry.access ≠ .jsonValue base [] := by
  rw [Request.selected] at selected
  split at selected
  · split at selected
    · cases selected
    · next some =>
        cases selected
        refine ⟨by simpa using some, ?_⟩
        intro entry member
        rcases List.mem_map.mp member with ⟨name, _, rfl⟩
        exact Entry.keyed_ofColumn name
  · next some =>
      cases selected
      exact ⟨by simp [some], keyed_projection request.schema hasPath _⟩

theorem Request.columnList_eq (request : Request) (fields : List FieldPath) :
    request.columnList fields =
      ((request.selected fields).map renderEntries).getD "*" := by
  rw [Request.columnList, renderProjection?, Request.selected]
  by_cases noFields : fields = []
  · by_cases noColumns : request.columns = []
    · simp [noFields, noColumns]
    · simp [noFields, noColumns, renderEntries]
      rfl
  · simp [noFields]

theorem Request.reads_columnList {request : Request} {fields : List FieldPath}
    (hasPath : ∀ field ∈ fields, ∀ base, field ≠ .nested base []) :
    Reads (request.columnList fields) (columnWords (request.selected fields)) := by
  rw [request.columnList_eq]
  cases selected : request.selected fields with
  | none => exact reads_fixed (by decide +kernel)
  | some entries => exact reads_entries (request.keyed_selected hasPath selected).2

/-! ## Bounds and conditions -/

theorem enclosed?_words {inside : List Word} {stack : List Bracket} (rest : List Word)
    (balanced : (inside.map Word.outside).foldlM bracketStep? stack = some []) :
    enclosed? stack (inside ++ .mark ')' :: rest) = some (inside, rest) := by
  induction inside generalizing stack with
  | nil =>
      cases balanced
      simp [enclosed?]
  | cons word inside induction =>
      rw [List.map_cons, List.foldlM_cons] at balanced
      cases step : bracketStep? stack word.outside with
      | none =>
          rw [step] at balanced
          cases balanced
      | some next =>
          rw [step] at balanced
          have notEnd : ¬ (word = .mark ')' ∧ stack = []) := by
            rintro ⟨rfl, rfl⟩
            cases step
          rw [List.cons_append, enclosed?, if_neg notEnd, step, Option.bind_some,
            induction balanced]
          rfl

theorem quote_of_plain {text : String} (plain : ∀ c ∈ text.toList, escapeChar c = [c]) :
    quote text = "'" ++ text ++ "'" := by
  have same : text.toList.flatMap escapeChar = text.toList := by
    rw [List.flatMap_congr plain]
    simp
  rw [quote, escape, same, String.ofList_toList]

def boundWords (bound : String × String) : List Word :=
  [.bare "toDateTime", .mark '(', .literal bound.1, .mark ',', .literal bound.2,
    .mark ')']

theorem bound?_words (bound : String × String) (rest : List Word) :
    bound? (boundWords bound ++ rest) = some (bound, rest) :=
  rfl

theorem Request.reads_bound {request : Request} {time : String}
    (plainTime : ∀ c ∈ time.toList, escapeChar c = [c])
    (plainZone : ∀ c ∈ request.timezone.toList, escapeChar c = [c]) :
    Reads (request.renderBound time) (boundWords (time, request.timezone)) := by
  have function : Reads "toDateTime" [.bare "toDateTime"] :=
    reads_fixed (by decide +kernel)
  have arguments := ((reads_quote time).append reads_comma (.before rfl)).append
    (reads_quote request.timezone) (.after _ rfl)
  have reads := function.applied .round arguments
  have text : request.renderBound time =
      "toDateTime" ++ "(" ++ (quote time ++ ", " ++ quote request.timezone) ++ ")" := by
    unfold Request.renderBound
    rw [quote_of_plain plainTime, quote_of_plain plainZone, ← String.toList_inj]
    simp
  rw [text]
  exact reads

theorem escapeChar_of_isClockChar {c : Char} (clock : Parameter.isClockChar c = true) :
    escapeChar c = [c] := by
  simp only [escapeChar]
  split
  · exact absurd clock (by decide)
  · exact absurd clock (by decide)
  · exact absurd clock (by decide)
  · exact absurd clock (by decide)
  · exact absurd clock (by decide)
  · rfl

theorem reads_table {name : String} (accepted : Parameter.checkTable name = .ok ()) :
    Reads name [.bare name] := by
  rcases Parameter.table_chars accepted with ⟨nonempty, characters⟩
  have bare : name.toList.all isBareChar = true := by
    rw [List.all_eq_true]
    intro c member
    rcases characters c member with inName | rfl
    · simp only [Parameter.isNameChar, Bool.or_eq_true] at inName
      simp only [isBareChar, Bool.or_eq_true]
      exact .inl (.inl inName)
    · rfl
  apply reads_bare nonempty bare
  apply harmless_of_bare bare
  intro member
  rcases characters '-' member with inName | same
  · exact absurd inName (by decide)
  · cases same

theorem reads_limit {limit : Int} (positive : 0 < limit) :
    Reads (toString limit) [.bare (toString limit)] := by
  apply reads_numeral
  rw [Text.isNumeral_iff]
  refine ⟨false, Nat.toDigits 10 limit.toNat, [], ?_, ?_, by simp⟩
  · rw [Int.toString_eq_repr, Int.repr_eq_if, if_pos positive.le, Nat.toList_repr]
    simp [Text.signText, Text.fractionText]
  · rw [Text.isDigits_iff]
    exact ⟨Nat.toDigits_ne_nil,
      fun c => Nat.isDigit_of_mem_toDigits (by omega) (by omega)⟩

theorem filterWords_ne_nil (schema : Option Schema) (filter : Filter)
    (flat : filter.Flat) : filterWords schema filter ≠ [] := by
  cases filter with
  | comparison comparison =>
      rcases comparisonWords_cons schema comparison with ⟨word, tail, shape, _⟩
      rw [filterWords, shape]
      exact List.cons_ne_nil _ _
  | group inner =>
      rw [filterWords]
      exact filterWords_ne_nil schema inner flat
  | logical connective children =>
      cases children with
      | nil => exact absurd flat.1 (by simp)
      | cons first others =>
          rw [filterWords, operandWords, intercalate_cons]
          exact List.cons_ne_nil _ _

theorem renderFilter_ne_empty (schema : Option Schema) {filter : Filter}
    (regular : Grammar.Regular filter) : renderFilter schema filter ≠ "" := by
  intro empty
  have reads := reads_filter schema filter regular.comparisons
  rw [empty] at reads
  have noWords := reads.reading
  exact filterWords_ne_nil schema filter regular.flat (by rw [← noWords]; simp [words])

/-! ## Whole statements -/

def conjunctWords : Option (List Word) → List Word
  | none => []
  | some inside => .bare "AND" :: .mark '(' :: (inside ++ [.mark ')'])

def limitWords : Option String → List Word
  | none => []
  | some count => [.bare "LIMIT", .bare count]

def Request.statement (request : Request) (query : Query) : Statement where
  columns := request.selected query.projection
  table := request.table
  timestamp := request.timestampField
  start := (request.startTime, request.timezone)
  stop := (request.endTime, request.timezone)
  filter :=
    query.filter.map fun filter =>
      words (pieces (renderFilter request.schema filter).toList)
  order := request.timestampField
  limit := if 0 < request.limit then some (toString request.limit) else none

def Statement.words (statement : Statement) : List Word :=
  [.bare "SELECT"] ++ columnWords statement.columns ++
    [.bare "FROM", .bare statement.table, .bare "WHERE", .name statement.timestamp,
      .bare "BETWEEN"] ++
    boundWords statement.start ++ [.bare "AND"] ++ boundWords statement.stop ++
    conjunctWords statement.filter ++
    [.bare "ORDER", .bare "BY", .name statement.order, .bare "DESC"] ++
    limitWords statement.limit

theorem entryWords_cons (entry : Entry) :
    ∃ word tail, entryWords entry = word :: tail ∧ word ≠ .mark '*' := by
  rcases entry with ⟨access, label⟩
  cases access <;> exact ⟨_, _, rfl, nofun⟩

theorem columns?_words {columns : Option (List Entry)}
    (keyed : ∀ entries, columns = some entries →
      entries ≠ [] ∧ ∀ entry ∈ entries, ∀ base, entry.access ≠ .jsonValue base [])
    {rest : List Word} (ends : endsEntry rest)
    (noComma : rest.head? ≠ some (.mark ',')) :
    columns? (columnWords columns ++ rest) = some (columns, rest) := by
  cases columns with
  | none => rfl
  | some entries =>
      rcases keyed entries rfl with ⟨nonempty, keyed⟩
      have read := entries?_words nonempty keyed ends noComma
      simp only [columns?]
      split
      · next star =>
          cases entries with
          | nil => exact absurd rfl nonempty
          | cons entry entries =>
              rcases entryWords_cons entry with ⟨word, tail, shape, different⟩
              rw [columnWords, List.map_cons, intercalate_cons, shape] at star
              cases star
              exact absurd rfl different
      · rw [columnWords, read]
        rfl

theorem conjunct?_words {filter : Option (List Word)}
    (balanced : ∀ inside, filter = some inside →
      (inside.map Word.outside).foldlM bracketStep? [] = some []) {rest : List Word}
    (ends : rest.head? ≠ some (.bare "AND")) :
    conjunct? (conjunctWords filter ++ rest) = some (filter, rest) := by
  cases filter with
  | none =>
      rw [conjunctWords, List.nil_append]
      simp only [conjunct?]
      split
      · exact absurd rfl ends
      · rfl
  | some inside =>
      have read := enclosed?_words rest (balanced inside rfl)
      rw [conjunctWords, List.cons_append, List.cons_append, List.append_assoc,
        List.singleton_append, conjunct?, read]
      rfl

theorem statement?_words {statement : Statement}
    (keyed : ∀ entries, statement.columns = some entries →
      entries ≠ [] ∧ ∀ entry ∈ entries, ∀ base, entry.access ≠ .jsonValue base [])
    (balanced : ∀ inside, statement.filter = some inside →
      (inside.map Word.outside).foldlM bracketStep? [] = some []) :
    statement? statement.words = some statement := by
  rcases statement with ⟨columns, table, timestamp, start, stop, filter, order, limit⟩
  simp only [Statement.words, List.append_assoc, List.cons_append, List.nil_append,
    statement?]
  rw [columns?_words keyed (by constructor <;> simp) (by simp)]
  simp only [Option.bind_eq_bind, Option.bind_some, bound?_words]
  rw [conjunct?_words balanced (by simp)]
  simp only [Option.bind_some]
  cases limit <;> rfl

def conjunctText (schema : Option Schema) : Option Filter → String
  | none => ""
  | some filter => "\n  AND (" ++ renderFilter schema filter ++ ")"

def limitText (limit : Int) : String :=
  if 0 < limit then "\nLIMIT " ++ toString limit else ""

theorem reads_empty : Reads "" [] :=
  reads_fixed (by decide +kernel)

theorem reads_conjunct (schema : Option Schema) {filter : Option Filter}
    (regular : ∀ present, filter = some present → Grammar.Regular present) :
    Reads (conjunctText schema filter) (conjunctWords
      (filter.map fun filter =>
        words (pieces (renderFilter schema filter).toList))) := by
  cases filter with
  | none => exact reads_empty
  | some filter =>
      have keyword : Reads "\n  AND " [.bare "AND"] := reads_fixed (by decide +kernel)
      have inner := reads_filter schema filter (regular filter rfl).comparisons
      rw [Option.map_some, inner.reading]
      exact keyword.applied .round inner

theorem reads_limitText (limit : Int) :
    Reads (limitText limit)
      (limitWords (if 0 < limit then some (toString limit) else none)) := by
  rw [limitText]
  split
  · next positive =>
      have keyword : Reads "\nLIMIT " [.bare "LIMIT"] := reads_fixed (by decide +kernel)
      exact keyword.append (reads_limit positive) (.inl rfl)
  · exact reads_empty

theorem parted_conjunct (first : String) (schema : Option Schema)
    (filter : Option Filter) :
    Parted first.toList (conjunctText schema filter).toList := by
  cases filter with
  | none => exact .inr rfl
  | some filter =>
      apply Parted.before
      simp [conjunctText]
      rfl

theorem parted_limit (first : String) (limit : Int) :
    Parted first.toList (limitText limit).toList := by
  rw [limitText]
  split
  · apply Parted.before
    simp
    rfl
  · exact .inr rfl

def Request.rangeText (request : Request) (fields : List FieldPath) : String :=
  "SELECT " ++ request.columnList fields ++ "\nFROM " ++ request.table ++ "\nWHERE " ++
    identifier request.timestampField ++ " BETWEEN " ++
    request.renderBound request.startTime ++
    " AND " ++ request.renderBound request.endTime

theorem Request.render_eq (request : Request) {query : Query}
    (regular : ∀ filter, query.filter = some filter → Grammar.Regular filter) :
    request.render query =
      request.rangeText query.projection ++ conjunctText request.schema query.filter ++
        "\nORDER BY " ++ identifier request.timestampField ++ " DESC" ++
        limitText request.limit := by
  have condition : (if (renderQuery request.schema query).isEmpty then ""
      else "\n  AND (" ++ renderQuery request.schema query ++ ")") =
        conjunctText request.schema query.filter := by
    cases present : query.filter with
    | none => simp [renderQuery, present, conjunctText]
    | some filter =>
        -- No filter has an empty text, so the condition is dropped only where there is
        -- no filter.
        have nonempty := renderFilter_ne_empty request.schema (regular filter present)
        simp [renderQuery, present, conjunctText, nonempty]
  rw [← condition]
  rfl

structure Request.Checked (request : Request) : Prop where
  startTime : ∀ c ∈ request.startTime.toList, escapeChar c = [c]
  endTime : ∀ c ∈ request.endTime.toList, escapeChar c = [c]
  timezone : ∀ c ∈ request.timezone.toList, escapeChar c = [c]
  table : Parameter.checkTable request.table = .ok ()

theorem Request.checked {request : Request} (accepted : request.check = .ok ()) :
    request.Checked := by
  rcases bind_eq_ok_iff.mp accepted with ⟨startTime, start, accepted⟩
  rcases bind_eq_ok_iff.mp accepted with ⟨endTime, stop, accepted⟩
  rcases bind_eq_ok_iff.mp accepted with ⟨_, zone, accepted⟩
  rcases bind_eq_ok_iff.mp accepted with ⟨_, table, accepted⟩
  exact
    { startTime := fun c member =>
        escapeChar_of_isClockChar (Parameter.time_chars start c member)
      endTime := fun c member =>
        escapeChar_of_isClockChar (Parameter.time_chars stop c member)
      timezone := fun c member =>
        escapeChar_of_isClockChar (Parameter.timezone_chars zone c member)
      table := table }

theorem Request.reads_range {request : Request} (checked : request.Checked)
    {fields : List FieldPath}
    (hasPath : ∀ field ∈ fields, ∀ base, field ≠ .nested base []) :
    Reads (request.rangeText fields)
      ([.bare "SELECT"] ++ columnWords (request.selected fields) ++
        [.bare "FROM", .bare request.table, .bare "WHERE",
          .name request.timestampField, .bare "BETWEEN"] ++
        boundWords (request.startTime, request.timezone) ++ [.bare "AND"] ++
        boundWords (request.endTime, request.timezone)) := by
  have select : Reads "SELECT " [.bare "SELECT"] := reads_fixed (by decide +kernel)
  have source : Reads "\nFROM " [.bare "FROM"] := reads_fixed (by decide +kernel)
  have whereWord : Reads "\nWHERE " [.bare "WHERE"] := reads_fixed (by decide +kernel)
  have between : Reads " BETWEEN " [.bare "BETWEEN"] := reads_fixed (by decide +kernel)
  have andWord : Reads " AND " [.bare "AND"] := reads_fixed (by decide +kernel)
  have columns := select.append (request.reads_columnList hasPath) (.inl rfl)
  have table := (columns.append source (.before rfl)).append
    (reads_table checked.table) (.after _ rfl)
  have field := (table.append whereWord (.before rfl)).append
    (reads_identifier request.timestampField) (.after _ rfl)
  have start := (field.append between (.before rfl)).append
    (request.reads_bound checked.startTime checked.timezone) (.after _ rfl)
  have range := (start.append andWord (.before rfl)).append
    (request.reads_bound checked.endTime checked.timezone) (.after _ rfl)
  unfold Request.rangeText
  simpa only [List.append_assoc, List.cons_append, List.nil_append] using range

theorem Request.reads_render {request : Request} (checked : request.Checked)
    {query : Query}
    (regular : ∀ filter, query.filter = some filter → Grammar.Regular filter)
    (hasPath : ∀ field ∈ query.projection, ∀ base, field ≠ .nested base []) :
    Reads (request.render query) (request.statement query).words := by
  have orderBy : Reads "\nORDER BY " [.bare "ORDER", .bare "BY"] :=
    reads_fixed (by decide +kernel)
  have descending : Reads " DESC" [.bare "DESC"] := reads_fixed (by decide +kernel)
  have filtered := (request.reads_range checked hasPath).append
    (reads_conjunct request.schema regular)
    (parted_conjunct _ request.schema query.filter)
  have ordered := ((filtered.append orderBy (.before rfl)).append
    (reads_identifier request.timestampField) (.after _ rfl)).append
    descending (.before rfl)
  have reads :=
    ordered.append (reads_limitText request.limit) (parted_limit _ request.limit)
  rw [request.render_eq regular]
  simpa only [Statement.words, Request.statement, List.append_assoc, List.cons_append,
    List.nil_append] using reads

/-- A statement is contained and says what was asked for, whatever the request is made
of. The time range holds for all of it, and the parentheses after it enclose the
condition of the query and nothing else. -/
theorem Request.build_contained {request : Request} {text : String}
    (built : request.build = .ok text) :
    ∃ query, Query.parse request.query = .ok query ∧ Contained text ∧
      statement? (words (pieces text.toList)) = some (request.statement query) ∧
      ∀ filter, query.filter = some filter → ∃ before after,
        text =
          before ++ "\n  AND (" ++ renderFilter request.schema filter ++ ")" ++ after ∧
          Contained before ∧ Contained (renderFilter request.schema filter) := by
  rcases bind_eq_ok_iff.mp built with ⟨query, parsed, built⟩
  rcases bind_eq_ok_iff.mp built with ⟨_, accepted, built⟩
  cases built
  rcases (Query.parseWith_eq_ok_iff _ _ _).mp parsed with ⟨_, _, derives⟩
  rcases derives.regular with ⟨regular, hasPath⟩
  have checked := Request.checked accepted
  have reads := Request.reads_render checked regular hasPath
  refine ⟨query, parsed, reads.contained, ?_, ?_⟩
  · rw [reads.reading]
    apply statement?_words
    · exact fun entries selected => request.keyed_selected hasPath selected
    · intro inside present
      rcases Option.map_eq_some_iff.mp present with ⟨filter, found, rfl⟩
      -- The condition is balanced in itself, so the parenthesis that closes it is the
      -- one behind it.
      have inner :=
        reads_filter request.schema filter (regular filter found).comparisons
      rw [brackets_words inner.closed]
      exact inner.balanced []
  · intro filter present
    have inner :=
      reads_filter request.schema filter (regular filter present).comparisons
    refine ⟨request.rangeText query.projection,
      "\nORDER BY " ++ identifier request.timestampField ++ " DESC" ++
        limitText request.limit, ?_,
      (request.reads_range checked hasPath).contained, inner.contained⟩
    rw [request.render_eq regular, present]
    simp only [conjunctText, String.append_assoc]

def hostileRequest : Request where
  query := "a`b=\"') OR (1=1 -- \" and msg~'x; DROP TABLE t' | \"/* x\""
  schema := none
  table := "logs.app"
  timestampField := "@timestamp"
  startTime := "2024-01-01 00:00:00"
  endTime := "2024-01-02 00:00:00"
  timezone := "Etc/GMT-5"
  limit := 10
  columns := ["a` FROM b"]

theorem Request.build_contained_hostile :
    ∃ text query, hostileRequest.build = .ok text ∧
      Query.parse hostileRequest.query = .ok query ∧
      Contained text ∧
      statement? (words (pieces text.toList)) =
        some (hostileRequest.statement query) := by
  have succeeds : hostileRequest.build.toOption.isSome = true := by decide +kernel
  cases built : hostileRequest.build with
  | error error =>
      rw [built] at succeeds
      cases succeeds
  | ok text =>
      rcases Request.build_contained built with ⟨query, parsed, contained, read, -⟩
      exact ⟨text, query, rfl, parsed, contained, read⟩

end LogQuery.Sql
