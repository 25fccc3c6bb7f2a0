import LogQuery.Sql.Filter

/-!
SQL text as a reader sees it before anything else: quoted runs in one piece each, and
the characters outside of them. A backtick opens an identifier and a single quote a
string. In both the delimiter stands for itself when it is doubled, and in a string a
backslash takes the next character along.
-/

namespace LogQuery.Sql

/-! ## Quoted runs -/

def isDelimiter (c : Char) : Bool :=
  c == '`' || c == '\''

def isEscape (delimiter c : Char) : Bool :=
  delimiter == '\'' && c == '\\'

def runBody? (delimiter : Char) : List Char → Option (List Char × List Char)
  | [] => none
  | [c] => if c = delimiter then some ([], []) else none
  | c :: d :: rest =>
      if c = delimiter then
        if d = delimiter then
          (runBody? delimiter rest).map fun (body, after) => (c :: d :: body, after)
        else some ([], d :: rest)
      else if isEscape delimiter c then
        (runBody? delimiter rest).map fun (body, after) => (c :: d :: body, after)
      else (runBody? delimiter (d :: rest)).map fun (body, after) => (c :: body, after)

def unescape (c : Char) : Char :=
  match c with
  | '0' => '\x00'
  | 'n' => '\n'
  | 'r' => '\r'
  | other => other

def bodyText (delimiter : Char) : List Char → List Char
  | [] => []
  | [c] => [c]
  | c :: d :: rest =>
      if c = delimiter then c :: bodyText delimiter rest
      else if isEscape delimiter c then unescape d :: bodyText delimiter rest
      else c :: bodyText delimiter (d :: rest)

theorem eq_of_runBody? {delimiter : Char} {text body after : List Char}
    (split : runBody? delimiter text = some (body, after)) :
    text = body ++ delimiter :: after := by
  fun_induction runBody? delimiter text generalizing body after with
  | case1 => cases split
  | case2 =>
      cases split
      rfl
  | case3 c different => cases split
  | case4 rest induction =>
      rcases Option.map_eq_some_iff.mp split with ⟨⟨inner, final⟩, found, same⟩
      cases same
      rw [induction found]
      rfl
  | case5 d rest different =>
      cases split
      rfl
  | case6 c d rest different escapes induction =>
      rcases Option.map_eq_some_iff.mp split with ⟨⟨inner, final⟩, found, same⟩
      cases same
      rw [induction found]
      rfl
  | case7 c d rest different ordinary induction =>
      rcases Option.map_eq_some_iff.mp split with ⟨⟨inner, final⟩, found, same⟩
      cases same
      rw [induction found]
      rfl

theorem length_of_runBody? {delimiter : Char} {text body after : List Char}
    (split : runBody? delimiter text = some (body, after)) :
    after.length < text.length := by
  rw [eq_of_runBody? split, List.length_append, List.length_cons]
  omega

/-! ## Pieces -/

inductive Piece
  | plain (c : Char)
  | quoted (delimiter : Char) (body : List Char)
  | unclosed (delimiter : Char) (rest : List Char)
deriving DecidableEq, Repr

namespace Piece

def source : Piece → List Char
  | plain c => [c]
  | quoted delimiter body => delimiter :: body ++ [delimiter]
  | unclosed delimiter rest => delimiter :: rest

def isClosed : Piece → Bool
  | unclosed _ _ => false
  | _ => true

end Piece

def pieces (text : List Char) : List Piece :=
  match text with
  | [] => []
  | c :: rest =>
      if isDelimiter c then
        match split : runBody? c rest with
        | some (body, after) =>
            have := length_of_runBody? split
            .quoted c body :: pieces after
        | none => [.unclosed c rest]
      else .plain c :: pieces rest
termination_by text.length
decreasing_by
  · simp only [List.length_cons]
    omega
  · simp

@[simp] theorem pieces_nil : pieces [] = [] := by
  rw [pieces]

theorem pieces_plain {c : Char} (plain : isDelimiter c = false) (rest : List Char) :
    pieces (c :: rest) = .plain c :: pieces rest := by
  rw [pieces, if_neg (by simp [plain])]

theorem pieces_quoted {c : Char} {rest body after : List Char}
    (delimits : isDelimiter c = true) (split : runBody? c rest = some (body, after)) :
    pieces (c :: rest) = .quoted c body :: pieces after := by
  rw [pieces, if_pos delimits]
  split
  · next found =>
      rw [split] at found
      cases found
      rfl
  · next missing =>
      rw [split] at missing
      cases missing

theorem pieces_unclosed {c : Char} {rest : List Char} (delimits : isDelimiter c = true)
    (missing : runBody? c rest = none) : pieces (c :: rest) = [.unclosed c rest] := by
  rw [pieces, if_pos delimits]
  split
  · next found =>
      rw [missing] at found
      cases found
  · rfl

theorem source_pieces (text : List Char) :
    (pieces text).flatMap Piece.source = text := by
  fun_induction pieces text with
  | case1 => rfl
  | case2 c rest delimits body after split shorter induction =>
      rw [List.flatMap_cons, induction, eq_of_runBody? split]
      simp [Piece.source]
  | case3 c rest delimits missing => simp [Piece.source]
  | case4 c rest plain induction =>
      rw [List.flatMap_cons, induction]
      rfl

theorem pieces_ne_nil (c : Char) (rest : List Char) : pieces (c :: rest) ≠ [] := by
  intro empty
  have whole := source_pieces (c :: rest)
  rw [empty] at whole
  cases whole

/-! ## Texts side by side -/

def startsPlain (text : List Char) : Bool :=
  text.head?.all (! isDelimiter ·)

theorem head_ne_of_startsPlain {delimiter : Char} {rest : List Char}
    (delimits : isDelimiter delimiter = true) (ends : startsPlain rest = true) :
    rest.head? ≠ some delimiter := by
  intro head
  rw [startsPlain, head] at ends
  simp [delimits] at ends

def Closed (text : List Char) : Prop :=
  ∀ piece ∈ pieces text, piece.isClosed = true

theorem closed_plain {c : Char} (plain : isDelimiter c = false) (rest : List Char) :
    Closed (c :: rest) ↔ Closed rest := by
  simp [Closed, pieces_plain plain, Piece.isClosed]

theorem closed_quoted {c : Char} {rest body after : List Char}
    (delimits : isDelimiter c = true) (split : runBody? c rest = some (body, after)) :
    Closed (c :: rest) ↔ Closed after := by
  simp [Closed, pieces_quoted delimits split, Piece.isClosed]

theorem not_closed {c : Char} {rest : List Char} (delimits : isDelimiter c = true)
    (missing : runBody? c rest = none) : ¬ Closed (c :: rest) := by
  simp [Closed, pieces_unclosed delimits missing, Piece.isClosed]

theorem getLast?_of_runBody? {c : Char} {rest body after : List Char}
    (split : runBody? c rest = some (body, after)) :
    (c :: rest).getLast? = (c :: after).getLast? := by
  rw [eq_of_runBody? split, ← List.cons_append, List.getLast?_append]
  simp [List.getLast?_cons]

/-- No quoted run at the end of the first text goes on in the second. -/
def Apart (first second : List Char) : Prop :=
  first.getLast?.all (! isDelimiter ·) = true ∨ startsPlain second = true

theorem Apart.tail {c : Char} {rest second : List Char}
    (apart : Apart (c :: rest) second) : Apart rest second := by
  rcases apart with ends | starts
  · left
    cases rest with
    | nil => rfl
    | cons d rest => rwa [List.getLast?_cons_cons] at ends
  · exact .inr starts

theorem runBody?_append {delimiter : Char} {text body after : List Char}
    (more : List Char) (delimits : isDelimiter delimiter = true)
    (split : runBody? delimiter text = some (body, after))
    (apart : after ≠ [] ∨ startsPlain more = true) :
    runBody? delimiter (text ++ more) = some (body, after ++ more) := by
  fun_induction runBody? delimiter text generalizing body after with
  | case1 => cases split
  | case2 =>
      -- The delimiter is the last character, and `more` must not double it.
      cases split
      have ends := apart.resolve_left (fun nonempty => nonempty rfl)
      cases more with
      | nil => simp [runBody?]
      | cons d more =>
          have different : d ≠ delimiter := by
            simpa using head_ne_of_startsPlain delimits ends
          simp [runBody?, different]
  | case3 c different => cases split
  | case4 rest induction =>
      rcases Option.map_eq_some_iff.mp split with ⟨⟨inner, final⟩, found, same⟩
      cases same
      simp [runBody?, induction found apart]
  | case5 d rest different =>
      cases split
      simp [runBody?, different]
  | case6 c d rest different escapes induction =>
      rcases Option.map_eq_some_iff.mp split with ⟨⟨inner, final⟩, found, same⟩
      cases same
      simp [runBody?, different, escapes, induction found apart]
  | case7 c d rest different ordinary induction =>
      rcases Option.map_eq_some_iff.mp split with ⟨⟨inner, final⟩, found, same⟩
      cases same
      have onward := induction found apart
      rw [List.cons_append] at onward
      simp [runBody?, different, ordinary, onward]

theorem pieces_append {first : List Char} (second : List Char) (closed : Closed first)
    (apart : Apart first second) :
    pieces (first ++ second) = pieces first ++ pieces second := by
  fun_induction pieces first with
  | case1 => rfl
  | case2 c rest delimits body after split shorter induction =>
      rw [Apart, getLast?_of_runBody? split] at apart
      have goesOn : after ≠ [] ∨ startsPlain second = true := by
        rcases apart with ends | starts
        · left
          rintro rfl
          simp [delimits] at ends
        · exact .inr starts
      rw [List.cons_append,
        pieces_quoted delimits (runBody?_append second delimits split goesOn),
        induction ((closed_quoted delimits split).mp closed) (Apart.tail apart)]
      rfl
  | case3 c rest delimits missing => exact absurd closed (not_closed delimits missing)
  | case4 c rest plain induction =>
      have ordinary : isDelimiter c = false := by simpa using plain
      rw [List.cons_append, pieces_plain ordinary,
        induction ((closed_plain ordinary rest).mp closed) apart.tail]
      rfl

theorem Closed.append {first second : List Char} (closed : Closed first)
    (others : Closed second) (apart : Apart first second) :
    Closed (first ++ second) := by
  intro piece member
  rw [pieces_append second closed apart] at member
  rcases List.mem_append.mp member with member | member
  · exact closed piece member
  · exact others piece member

theorem pieces_append_of_plain {text : List Char}
    (plain : ∀ c ∈ text, isDelimiter c = false) (rest : List Char) :
    pieces (text ++ rest) = text.map .plain ++ pieces rest := by
  induction text with
  | nil => rfl
  | cons c text induction =>
      rw [List.cons_append, pieces_plain (plain c List.mem_cons_self),
        induction fun other member => plain other (List.mem_cons_of_mem c member)]
      rfl

/-! ## Quoted names and strings -/

def doubleBacktick (c : Char) : List Char :=
  if c = '`' then ['`', '`'] else [c]

theorem toList_identifier (name : String) :
    (identifier name).toList =
      '`' :: (name.toList.flatMap doubleBacktick ++ ['`']) := by
  simp only [identifier, String.toList_append, String.toList_ofList]
  rfl

theorem toList_quote (text : String) :
    (quote text).toList = '\'' :: (text.toList.flatMap escapeChar ++ ['\'']) := by
  simp only [quote, escape, String.toList_append, String.toList_ofList]
  rfl

section Runs

variable {delimiter c d : Char} {rest : List Char}

theorem runBody?_closing (ends : rest.head? ≠ some delimiter) :
    runBody? delimiter (delimiter :: rest) = some ([], rest) := by
  cases rest with
  | nil => simp [runBody?]
  | cons d rest =>
      have different : d ≠ delimiter := by simpa using ends
      simp [runBody?, different]

theorem runBody?_pair
    (taken : c = delimiter ∧ d = delimiter ∨ isEscape delimiter c = true)
    (notEscape : isEscape delimiter delimiter = false) :
    runBody? delimiter (c :: d :: rest) =
      (runBody? delimiter rest).map fun (body, after) => (c :: d :: body, after) := by
  rcases taken with ⟨rfl, rfl⟩ | escapes
  · simp [runBody?]
  · have different : c ≠ delimiter := by
      rintro rfl
      rw [notEscape] at escapes
      cases escapes
    simp [runBody?, different, escapes]

theorem runBody?_ordinary (different : c ≠ delimiter)
    (ordinary : isEscape delimiter c = false) (more : rest ≠ []) :
    runBody? delimiter (c :: rest) =
      (runBody? delimiter rest).map fun (body, after) => (c :: body, after) := by
  cases rest with
  | nil => exact absurd rfl more
  | cons d rest => simp [runBody?, different, ordinary]

theorem bodyText_ordinary (different : c ≠ delimiter)
    (ordinary : isEscape delimiter c = false) :
    bodyText delimiter (c :: rest) = c :: bodyText delimiter rest := by
  cases rest with
  | nil => rfl
  | cons d rest => simp [bodyText, different, ordinary]

end Runs

/-- A way to write characters between delimiters so that each is read back. -/
structure Encodes (delimiter : Char) (encode : Char → List Char) : Prop where
  delimits : isDelimiter delimiter = true
  body : ∀ c rest, rest ≠ [] → runBody? delimiter (encode c ++ rest) =
    (runBody? delimiter rest).map fun (body, after) => (encode c ++ body, after)
  text : ∀ c rest, bodyText delimiter (encode c ++ rest) = c :: bodyText delimiter rest

theorem Encodes.runBody? {delimiter : Char} {encode : Char → List Char}
    (encodes : Encodes delimiter encode) (text : List Char) {rest : List Char}
    (ends : rest.head? ≠ some delimiter) :
    Sql.runBody? delimiter (text.flatMap encode ++ delimiter :: rest) =
      some (text.flatMap encode, rest) := by
  induction text with
  | nil => exact runBody?_closing ends
  | cons c text induction =>
      rw [List.flatMap_cons, List.append_assoc, encodes.body c _ (by simp), induction]
      rfl

theorem Encodes.bodyText {delimiter : Char} {encode : Char → List Char}
    (encodes : Encodes delimiter encode) (text : List Char) :
    Sql.bodyText delimiter (text.flatMap encode) = text := by
  induction text with
  | nil => rfl
  | cons c text induction => rw [List.flatMap_cons, encodes.text, induction]

theorem encodes_doubleBacktick : Encodes '`' doubleBacktick where
  delimits := rfl
  body c rest more := by
    rw [doubleBacktick]
    split
    · next same =>
        subst same
        exact runBody?_pair (.inl ⟨rfl, rfl⟩) rfl
    · next different => exact runBody?_ordinary different rfl more
  text c rest := by
    rw [doubleBacktick]
    split
    · next same =>
        subst same
        rfl
    · next different => exact bodyText_ordinary different rfl

theorem encodes_escapeChar : Encodes '\'' escapeChar where
  delimits := rfl
  body c rest more := by
    simp only [escapeChar]
    split
    · exact runBody?_pair (.inr rfl) rfl
    · exact runBody?_pair (.inl ⟨rfl, rfl⟩) rfl
    · exact runBody?_pair (.inr rfl) rfl
    · exact runBody?_pair (.inr rfl) rfl
    · exact runBody?_pair (.inr rfl) rfl
    · next notBackslash notQuote _ _ _ =>
        exact runBody?_ordinary notQuote (by simpa [isEscape] using notBackslash) more
  text c rest := by
    simp only [escapeChar]
    split
    · rfl
    · rfl
    · rfl
    · rfl
    · rfl
    · next notBackslash notQuote _ _ _ =>
        exact bodyText_ordinary notQuote (by simpa [isEscape] using notBackslash)

theorem pieces_identifier (name : String) {rest : List Char}
    (ends : startsPlain rest = true) :
    pieces ((identifier name).toList ++ rest) =
      .quoted '`' (name.toList.flatMap doubleBacktick) :: pieces rest := by
  rw [toList_identifier, List.cons_append, List.append_assoc]
  have apart := head_ne_of_startsPlain encodes_doubleBacktick.delimits ends
  exact pieces_quoted rfl (encodes_doubleBacktick.runBody? name.toList apart)

theorem pieces_quote (text : String) {rest : List Char}
    (ends : startsPlain rest = true) :
    pieces ((quote text).toList ++ rest) =
      .quoted '\'' (text.toList.flatMap escapeChar) :: pieces rest := by
  rw [toList_quote, List.cons_append, List.append_assoc]
  have apart := head_ne_of_startsPlain encodes_escapeChar.delimits ends
  exact pieces_quoted rfl (encodes_escapeChar.runBody? text.toList apart)

theorem pieces_of_identifier (name : String) :
    pieces (identifier name).toList =
      [.quoted '`' (name.toList.flatMap doubleBacktick)] := by
  have cut := pieces_identifier name (show startsPlain [] = true from rfl)
  rwa [List.append_nil, pieces_nil] at cut

theorem pieces_of_quote (text : String) :
    pieces (quote text).toList = [.quoted '\'' (text.toList.flatMap escapeChar)] := by
  have cut := pieces_quote text (show startsPlain [] = true from rfl)
  rwa [List.append_nil, pieces_nil] at cut

end LogQuery.Sql
