import LogQuery.Proofs.Sql.Pieces
import LogQuery.Proofs.Text

/-!
The words of SQL text. Blanks only divide words. A quoted run is a word of its own, and
so is every run of letters, digits, points and minus signs, every run of comparison
signs, and every other character.
-/

namespace LogQuery.Sql

inductive Word
  | name (name : String)
  | literal (text : String)
  | bare (text : String)
  | sign (text : String)
  | mark (c : Char)
deriving DecidableEq, Repr

/-! ## From pieces to words -/

def isBareChar (c : Char) : Bool :=
  c.isAlphanum || c == '_' || c == '.' || c == '-'

def isSignChar (c : Char) : Bool :=
  c == '=' || c == '!' || c == '<' || c == '>'

def Piece.isIn (test : Char → Bool) : Piece → Bool
  | plain c => test c
  | _ => false

def runText (run : List Piece) : String :=
  String.ofList (run.flatMap Piece.source)

theorem runText_plain (text : List Char) :
    runText (text.map .plain) = String.ofList text := by
  simp [runText, List.flatMap_map, Piece.source]

def words (pieces : List Piece) : List Word :=
  match pieces with
  | [] => []
  | .quoted delimiter body :: rest =>
      let text := String.ofList (bodyText delimiter body)
      (if delimiter = '`' then .name text else .literal text) :: words rest
  | .unclosed delimiter _ :: rest => .mark delimiter :: words rest
  | .plain c :: rest =>
      if c.isWhitespace then words rest
      else if isBareChar c then
        .bare (runText (.plain c :: rest.takeWhile (Piece.isIn isBareChar))) ::
          words (rest.dropWhile (Piece.isIn isBareChar))
      else if isSignChar c then
        .sign (runText (.plain c :: rest.takeWhile (Piece.isIn isSignChar))) ::
          words (rest.dropWhile (Piece.isIn isSignChar))
      else .mark c :: words rest
termination_by pieces.length
decreasing_by
  · simp
  · simp
  · simp
  · exact Nat.lt_succ_of_le (List.dropWhile_sublist _).length_le
  · exact Nat.lt_succ_of_le (List.dropWhile_sublist _).length_le
  · simp

theorem words_mark {c : Char} (visible : c.isWhitespace = false)
    (notBare : isBareChar c = false) (notSign : isSignChar c = false)
    (rest : List Piece) : words (.plain c :: rest) = .mark c :: words rest := by
  rw [words, if_neg (by simp [visible]), if_neg (by simp [notBare]),
    if_neg (by simp [notSign])]

/-! ## Words side by side -/

def isBreak (c : Char) : Bool :=
  !isBareChar c && !isSignChar c && !isDelimiter c

def Broken (first second : List Piece) : Prop :=
  first.getLast?.all (Piece.isIn isBreak) = true ∨
    second.head?.all (Piece.isIn isBreak) = true

theorem Broken.tail {piece : Piece} {rest second : List Piece}
    (broken : Broken (piece :: rest) second) : Broken rest second := by
  rcases broken with ends | starts
  · left
    cases rest with
    | nil => rfl
    | cons next rest => rwa [List.getLast?_cons_cons] at ends
  · exact .inr starts

theorem Broken.run {test : Char → Bool}
    (within : ∀ c, test c = true → isBreak c = false) {c : Char}
    {rest second : List Piece} (starts : test c = true)
    (broken : Broken (.plain c :: rest) second) :
    (rest ++ second).takeWhile (Piece.isIn test) = rest.takeWhile (Piece.isIn test) ∧
      (rest ++ second).dropWhile (Piece.isIn test) =
        rest.dropWhile (Piece.isIn test) ++ second ∧
      Broken (rest.dropWhile (Piece.isIn test)) second := by
  induction rest generalizing c with
  | nil =>
      -- The run reaches the end of the first row, so the break is the start of the
      -- second.
      have stops : second.head?.all (Piece.isIn isBreak) = true := by
        rcases broken with ends | stops
        · simp [Piece.isIn, within c starts] at ends
        · exact stops
      cases second with
      | nil => exact ⟨rfl, rfl, .inr rfl⟩
      | cons piece second =>
          have outside : piece.isIn test = false := by
            cases piece with
            | plain d =>
                rw [Bool.eq_false_iff]
                intro inside
                simp [Piece.isIn, within d inside] at stops
            | quoted delimiter body => rfl
            | unclosed delimiter rest => rfl
          simp [outside, Broken]
  | cons piece rest induction =>
      by_cases inside : piece.isIn test = true
      · cases piece with
        | plain d =>
            rcases induction inside broken.tail with ⟨taken, dropped, broken⟩
            rw [List.cons_append, List.takeWhile_cons_of_pos inside,
              List.dropWhile_cons_of_pos inside, List.takeWhile_cons_of_pos inside,
              List.dropWhile_cons_of_pos inside, taken]
            exact ⟨rfl, dropped, broken⟩
        | quoted delimiter body => cases inside
        | unclosed delimiter rest => cases inside
      · rw [List.cons_append, List.takeWhile_cons_of_neg inside,
          List.dropWhile_cons_of_neg inside, List.takeWhile_cons_of_neg inside,
          List.dropWhile_cons_of_neg inside]
        exact ⟨rfl, rfl, broken.tail⟩

theorem words_append {first second : List Piece} (broken : Broken first second) :
    words (first ++ second) = words first ++ words second := by
  fun_induction words first with
  | case1 => rfl
  | case2 delimiter body rest text induction =>
      rw [List.cons_append, words, induction broken.tail]
      rfl
  | case3 delimiter unread rest induction =>
      rw [List.cons_append, words, induction broken.tail]
      rfl
  | case4 c rest blank induction =>
      rw [List.cons_append, words, if_pos blank, induction broken.tail]
  | case5 c rest visible bare induction =>
      have within : ∀ d, isBareChar d = true → isBreak d = false := by
        intro d inside
        simp [isBreak, inside]
      rcases broken.run within bare with ⟨taken, dropped, broken⟩
      rw [List.cons_append, words, if_neg visible, if_pos bare, taken, dropped,
        induction broken]
      rfl
  | case6 c rest visible notBare sign induction =>
      have within : ∀ d, isSignChar d = true → isBreak d = false := by
        intro d inside
        simp [isBreak, inside]
      rcases broken.run within sign with ⟨taken, dropped, broken⟩
      rw [List.cons_append, words, if_neg visible, if_neg notBare, if_pos sign, taken,
        dropped, induction broken]
      rfl
  | case7 c rest visible notBare notSign induction =>
      rw [List.cons_append, words, if_neg visible, if_neg notBare, if_neg notSign,
        induction broken.tail]
      rfl

/-! ## Outside of quoted runs -/

/-- What is seen of a piece from outside: a blank in the place of a quoted run. -/
def Piece.outside : Piece → Char
  | plain c => c
  | _ => ' '

inductive Bracket
  | round
  | square
deriving DecidableEq, Repr

namespace Bracket

def opening : Bracket → Char
  | round => '('
  | square => '['

def closing : Bracket → Char
  | round => ')'
  | square => ']'

def left : Bracket → String
  | round => "("
  | square => "["

def right : Bracket → String
  | round => ")"
  | square => "]"

theorem toList_left (bracket : Bracket) : bracket.left.toList = [bracket.opening] := by
  cases bracket <;> rfl

theorem toList_right (bracket : Bracket) :
    bracket.right.toList = [bracket.closing] := by
  cases bracket <;> rfl

end Bracket

def bracketStep? (stack : List Bracket) : Char → Option (List Bracket)
  | '(' => some (.round :: stack)
  | '[' => some (.square :: stack)
  | ')' => if stack.head? = some .round then some stack.tail else none
  | ']' => if stack.head? = some .square then some stack.tail else none
  | _ => some stack

def Balanced (text : List Char) : Prop :=
  text.foldlM bracketStep? [] = some []

instance (text : List Char) : Decidable (Balanced text) :=
  inferInstanceAs (Decidable (_ = _))

example : Balanced "f(a[b], (c))".toList := by decide
example : ¬ Balanced "f(a[b)]".toList := by decide

/-- A text in which no statement can end and no string or comment start: a minus sign is
always that of a number. -/
def harmless : List Char → Bool
  | [] => true
  | c :: rest =>
      !(";\"\\/".toList.contains c) && (c != '-' || rest.head?.any Char.isDigit) &&
        harmless rest

theorem harmless_append {first second : List Char} (one : harmless first = true)
    (two : harmless second = true) : harmless (first ++ second) = true := by
  induction first with
  | nil => exact two
  | cons c first induction =>
      simp only [harmless, Bool.and_eq_true] at one
      simp only [List.cons_append, harmless, Bool.and_eq_true, induction one.2, one.1.1,
        true_and, and_true]
      cases first with
      | nil =>
          have noMinus : (c != '-') = true := by simpa using one.1.2
          simp [noMinus]
      | cons d first => exact one.1.2

theorem harmless_of_append {first second : List Char}
    (fine : harmless (first ++ second) = true) : harmless second = true := by
  induction first with
  | nil => exact fine
  | cons c first induction =>
      simp only [List.cons_append, harmless, Bool.and_eq_true] at fine
      exact induction fine.2

theorem not_mem_of_harmless {text : List Char} (fine : harmless text = true) {c : Char}
    (member : c ∈ text) : c ∉ ";\"\\/".toList := by
  rcases List.append_of_mem member with ⟨before, after, rfl⟩
  have fine := harmless_of_append fine
  simp only [harmless, Bool.and_eq_true] at fine
  simpa using fine.1.1

theorem no_comment_of_harmless {text : List Char} (fine : harmless text = true) :
    ¬ "--".toList <:+: text ∧ ¬ "/*".toList <:+: text := by
  constructor
  · rintro ⟨before, after, rfl⟩
    rw [List.append_assoc] at fine
    exact absurd (harmless_of_append fine) (by simp [harmless])
  · rintro ⟨before, after, rfl⟩
    exact not_mem_of_harmless fine (c := '/') (by simp) (by simp)

def Word.outside : Word → Char
  | mark c => c
  | _ => ' '

def isFlat (c : Char) : Bool :=
  !("`'()[]".toList.contains c)

theorem bracketStep?_flat {c : Char} (flat : isFlat c = true) (stack : List Bracket) :
    bracketStep? stack c = some stack := by
  simp only [bracketStep?]
  split
  · cases flat
  · cases flat
  · cases flat
  · cases flat
  · rfl

theorem foldlM_flat {text : List Char} (flat : text.all isFlat = true)
    (stack : List Bracket) : text.foldlM bracketStep? stack = some stack := by
  induction text with
  | nil => rfl
  | cons c text induction =>
      simp only [List.all_cons, Bool.and_eq_true] at flat
      rw [List.foldlM_cons, bracketStep?_flat flat.1]
      exact induction flat.2

theorem flat_of_test {test : Char → Bool}
    (excluded : "`'()[]".toList.all (! test ·) = true) {c : Char}
    (passes : test c = true) : isFlat c = true := by
  simp only [isFlat, Bool.not_eq_true', List.contains_eq_mem, decide_eq_false_iff_not]
  exact Text.not_mem_of_test excluded passes

theorem foldlM_run {test : Char → Bool}
    (excluded : "`'()[]".toList.all (! test ·) = true) (row : List Piece)
    (stack : List Bracket) :
    (row.map Piece.outside).foldlM bracketStep? stack =
      ((row.dropWhile (Piece.isIn test)).map Piece.outside).foldlM bracketStep?
        stack := by
  have flat :
      ((row.takeWhile (Piece.isIn test)).map Piece.outside).all isFlat = true := by
    rw [List.all_map, List.all_eq_true]
    intro piece member
    have inside := List.all_eq_true.mp List.all_takeWhile piece member
    cases piece with
    | plain c => exact flat_of_test excluded inside
    | quoted delimiter body => rfl
    | unclosed delimiter rest => rfl
  have parts := List.takeWhile_append_dropWhile (p := Piece.isIn test) (l := row)
  have whole :=
    congrArg (fun row => (row.map Piece.outside).foldlM bracketStep? stack) parts
  simp only [List.map_append, List.foldlM_append, foldlM_flat flat] at whole
  exact whole.symm

theorem brackets_words {row : List Piece}
    (closed : ∀ piece ∈ row, piece.isClosed = true) (stack : List Bracket) :
    ((words row).map Word.outside).foldlM bracketStep? stack =
      (row.map Piece.outside).foldlM bracketStep? stack := by
  fun_induction words row generalizing stack with
  | case1 => rfl
  | case2 delimiter body rest text induction =>
      rw [List.forall_mem_cons] at closed
      have seen :
          Word.outside (if delimiter = '`' then .name text else .literal text) =
            ' ' := by
        split <;> rfl
      rw [List.map_cons, List.map_cons, List.foldlM_cons, List.foldlM_cons, seen]
      exact induction closed.2 stack
  | case3 delimiter unread rest induction =>
      rw [List.forall_mem_cons] at closed
      cases closed.1
  | case4 c rest blank induction =>
      rw [List.forall_mem_cons] at closed
      rw [List.map_cons, List.foldlM_cons, Piece.outside,
        bracketStep?_flat (flat_of_test (by decide) blank)]
      exact induction closed.2 stack
  | case5 c rest visible bare induction =>
      -- The word stands for a run without brackets, which the fold over the pieces
      -- passes by.
      rw [List.forall_mem_cons] at closed
      have others :
          ∀ piece ∈ rest.dropWhile (Piece.isIn isBareChar), piece.isClosed = true :=
        fun piece member => closed.2 piece ((List.dropWhile_sublist _).mem member)
      rw [List.map_cons, List.map_cons, List.foldlM_cons, List.foldlM_cons,
        Piece.outside, bracketStep?_flat (flat_of_test (by decide) bare)]
      exact (induction others stack).trans (foldlM_run (by decide) rest stack).symm
  | case6 c rest visible notBare sign induction =>
      rw [List.forall_mem_cons] at closed
      have others :
          ∀ piece ∈ rest.dropWhile (Piece.isIn isSignChar), piece.isClosed = true :=
        fun piece member => closed.2 piece ((List.dropWhile_sublist _).mem member)
      rw [List.map_cons, List.map_cons, List.foldlM_cons, List.foldlM_cons,
        Piece.outside, bracketStep?_flat (flat_of_test (by decide) sign)]
      exact (induction others stack).trans (foldlM_run (by decide) rest stack).symm
  | case7 c rest visible notBare notSign induction =>
      rw [List.forall_mem_cons] at closed
      rw [List.map_cons, List.map_cons, List.foldlM_cons, List.foldlM_cons]
      exact bind_congr fun inner => induction closed.2 inner

/-! ## Sound text -/

/-- Pieces with these words that can be put anywhere between two breaks: quoted runs are
closed, brackets match, and nothing ends the statement around them. -/
structure Sound (row : List Piece) (found : List Word) : Prop where
  closed : ∀ piece ∈ row, piece.isClosed = true
  reading : words row = found
  balanced : ∀ stack, (row.map Piece.outside).foldlM bracketStep? stack = some stack
  harmless : harmless (row.map Piece.outside) = true

def Reads (text : String) (found : List Word) : Prop :=
  Sound (pieces text.toList) found

namespace Sound

variable {row second : List Piece} {found others : List Word}

theorem append (one : Sound row found) (two : Sound second others)
    (broken : Broken row second) : Sound (row ++ second) (found ++ others) where
  closed := List.forall_mem_append.mpr ⟨one.closed, two.closed⟩
  reading := by rw [words_append broken, one.reading, two.reading]
  balanced stack := by
    rw [List.map_append, List.foldlM_append, one.balanced]
    exact two.balanced stack
  harmless := by
    rw [List.map_append]
    exact harmless_append one.harmless two.harmless

theorem enclosed (bracket : Bracket) (inner : Sound row found) :
    Sound (.plain bracket.opening :: (row ++ [.plain bracket.closing]))
      (.mark bracket.opening :: (found ++ [.mark bracket.closing])) := by
  have broken : Broken row [.plain bracket.closing] := by
    right
    cases bracket <;> rfl
  refine ⟨?_, ?_, ?_, ?_⟩
  · simpa [Piece.isClosed, or_imp, forall_and] using inner.closed
  · have opens := words_mark (c := bracket.opening) (by cases bracket <;> rfl)
      (by cases bracket <;> rfl) (by cases bracket <;> rfl)
    have closes := words_mark (c := bracket.closing) (by cases bracket <;> rfl)
      (by cases bracket <;> rfl) (by cases bracket <;> rfl) []
    rw [opens, words_append broken, inner.reading, closes, words]
  · intro stack
    rw [List.map_cons, List.map_append, List.foldlM_cons]
    have opens : bracketStep? stack bracket.opening = some (bracket :: stack) := by
      cases bracket <;> rfl
    have closes : bracketStep? (bracket :: stack) bracket.closing = some stack := by
      cases bracket <;> rfl
    simp [Piece.outside, opens, closes, inner.balanced]
  · have closing : Sql.harmless [bracket.closing] = true := by cases bracket <;> rfl
    have rest := harmless_append inner.harmless closing
    rw [List.map_cons, List.map_append]
    cases bracket <;> exact rest

end Sound

def Parted (first second : List Char) : Prop :=
  first.getLast?.all isBreak = true ∨ second.head?.all isBreak = true

theorem not_isDelimiter_of_isBreak {c : Char} (breaks : isBreak c = true) :
    isDelimiter c = false := by
  simp only [isBreak, Bool.and_eq_true, Bool.not_eq_true'] at breaks
  exact breaks.2

theorem Parted.apart {first second : List Char} (parted : Parted first second) :
    Apart first second := by
  rcases parted with ends | starts
  · left
    rw [Option.all_eq_true] at ends ⊢
    intro c last
    simp [not_isDelimiter_of_isBreak (ends c last)]
  · right
    rw [startsPlain]
    rw [Option.all_eq_true] at starts ⊢
    intro c head
    simp [not_isDelimiter_of_isBreak (starts c head)]

theorem getLast?_pieces {text : List Char} (closed : Closed text)
    (ends : text.getLast?.all isBreak = true) :
    (pieces text).getLast?.all (Piece.isIn isBreak) = true := by
  fun_induction pieces text with
  | case1 => rfl
  | case2 c rest delimits body after split shorter induction =>
      rw [getLast?_of_runBody? split] at ends
      cases after with
      | nil => simp [isBreak, delimits] at ends
      | cons d after =>
          have onward := induction ((closed_quoted delimits split).mp closed)
            (by rwa [List.getLast?_cons_cons] at ends)
          rcases List.exists_cons_of_ne_nil (pieces_ne_nil d after) with
            ⟨piece, others, same⟩
          rw [same] at onward ⊢
          rwa [List.getLast?_cons_cons]
  | case3 c rest delimits missing => exact absurd closed (not_closed delimits missing)
  | case4 c rest plain induction =>
      have ordinary : isDelimiter c = false := by simpa using plain
      cases rest with
      | nil => simpa [Piece.isIn] using ends
      | cons d rest =>
          have onward := induction ((closed_plain ordinary (d :: rest)).mp closed)
            (by rwa [List.getLast?_cons_cons] at ends)
          rcases List.exists_cons_of_ne_nil (pieces_ne_nil d rest) with
            ⟨piece, others, same⟩
          rw [same] at onward ⊢
          rwa [List.getLast?_cons_cons]

theorem Parted.broken {first second : List Char} (parted : Parted first second)
    (closed : Closed first) : Broken (pieces first) (pieces second) := by
  rcases parted with ends | starts
  · exact .inl (getLast?_pieces closed ends)
  · right
    cases second with
    | nil => simp
    | cons c second =>
        rw [pieces_plain (not_isDelimiter_of_isBreak starts)]
        exact starts

theorem Parted.after {second third : String} (first : String)
    (ends : second.toList.getLast?.any isBreak = true) :
    Parted (first ++ second).toList third.toList := by
  left
  rw [Option.any_eq_true] at ends
  rcases ends with ⟨c, last, breaks⟩
  simp [List.getLast?_append, last, breaks]

theorem Parted.before {first second : List Char}
    (starts : second.head?.any isBreak = true) : Parted first second := by
  right
  rw [Option.any_eq_true] at starts
  rcases starts with ⟨c, head, breaks⟩
  simp [head, breaks]

theorem pieces_enclosed (bracket : Bracket) {text : String}
    (closed : Closed text.toList) :
    pieces (bracket.left ++ text ++ bracket.right).toList =
      .plain bracket.opening :: (pieces text.toList ++ [.plain bracket.closing]) := by
  have opens : isDelimiter bracket.opening = false := by cases bracket <;> rfl
  have closes : isBreak bracket.closing = true := by cases bracket <;> rfl
  have parted : Parted text.toList [bracket.closing] := .inr closes
  rw [String.toList_append, String.toList_append, Bracket.toList_left,
    Bracket.toList_right, List.append_assoc, List.singleton_append, pieces_plain opens,
    pieces_append _ closed parted.apart,
    pieces_plain (not_isDelimiter_of_isBreak closes), pieces_nil]

namespace Reads

variable {first second : String} {found others : List Word}

theorem append (one : Reads first found) (two : Reads second others)
    (parted : Parted first.toList second.toList) :
    Reads (first ++ second) (found ++ others) := by
  rw [Reads, String.toList_append, pieces_append second.toList one.closed parted.apart]
  exact Sound.append one two (parted.broken one.closed)

theorem enclosed (bracket : Bracket) (inner : Reads first found) :
    Reads (bracket.left ++ first ++ bracket.right)
      (.mark bracket.opening :: (found ++ [.mark bracket.closing])) := by
  rw [Reads, pieces_enclosed bracket inner.closed]
  exact Sound.enclosed bracket inner

theorem applied (bracket : Bracket) (one : Reads first found)
    (inner : Reads second others) :
    Reads (first ++ bracket.left ++ second ++ bracket.right)
      (found ++ .mark bracket.opening :: (others ++ [.mark bracket.closing])) := by
  have starts : isBreak bracket.opening = true := by cases bracket <;> rfl
  have reads :=
    one.append (inner.enclosed bracket)
      (.before (by simp [Bracket.toList_left, starts]))
  simpa only [String.append_assoc] using reads

theorem intercalate {separator : String} {between : List Word}
    (separates : Reads separator between)
    (starts : separator.toList.head?.any isBreak = true)
    (ends : separator.toList.getLast?.any isBreak = true) {α : Type}
    {write : α → String} {found : α → List Word} {values : List α}
    (each : ∀ value ∈ values, Reads (write value) (found value)) :
    Reads (separator.intercalate (values.map write))
      (between.intercalate (values.map found)) := by
  induction values with
  | nil =>
      refine ⟨?_, ?_, ?_, ?_⟩ <;> simp [words, Sql.harmless]
  | cons value values induction =>
      cases values with
      | nil => simpa using each value
      | cons next values =>
          have rest :=
            induction fun other member => each other (List.mem_cons_of_mem value member)
          simp only [List.map_cons, String.intercalate_cons_cons,
            List.intercalate_cons_cons] at rest ⊢
          have first :=
            append (each value List.mem_cons_self) separates (.before starts)
          exact append first rest (.after _ ends)

end Reads

/-! ## Contained text -/

def outside (text : String) : List Char :=
  (pieces text.toList).map Piece.outside

/-- Text that nothing in it can end, comment on or leave. -/
structure Contained (text : String) : Prop where
  closed : ∀ piece ∈ pieces text.toList, piece.isClosed = true
  balanced : Balanced (outside text)
  noEnd : ∀ c ∈ outside text, c ∉ ";\"\\".toList
  noComment : ¬ "--".toList <:+: outside text ∧ ¬ "/*".toList <:+: outside text

theorem Reads.contained {text : String} {found : List Word} (reads : Reads text found) :
    Contained text where
  closed := reads.closed
  balanced := reads.balanced []
  noEnd c member := by
    have clean := not_mem_of_harmless reads.harmless member
    simp at clean ⊢
    exact ⟨clean.1, clean.2.1, clean.2.2.1⟩
  noComment := no_comment_of_harmless reads.harmless

/-! ## Names, strings and fixed text -/

theorem reads_quoted {text : String} {delimiter : Char} {body : List Char}
    (cut : pieces text.toList = [.quoted delimiter body]) :
    Reads text (words [.quoted delimiter body]) := by
  rw [Reads, cut]
  refine ⟨?_, rfl, ?_, rfl⟩
  · simp [Piece.isClosed]
  · intro stack
    rfl

theorem reads_identifier (name : String) : Reads (identifier name) [.name name] := by
  have reads := reads_quoted (pieces_of_identifier name)
  simpa [words, encodes_doubleBacktick.bodyText] using reads

theorem reads_quote (text : String) : Reads (quote text) [.literal text] := by
  have reads := reads_quoted (pieces_of_quote text)
  simpa [words, encodes_escapeChar.bodyText] using reads

theorem pieces_of_flat {text : List Char} (flat : text.all isFlat = true) :
    pieces text = text.map .plain := by
  have plain : ∀ c ∈ text, isDelimiter c = false := by
    intro c member
    have outside := List.all_eq_true.mp flat c member
    simp [isFlat] at outside
    simp [isDelimiter, outside]
  have cut := pieces_append_of_plain plain []
  rwa [List.append_nil, pieces_nil, List.append_nil] at cut

theorem reads_flat {text : String} {found : List Word}
    (flat : text.toList.all isFlat = true) (fine : harmless text.toList = true)
    (reading : words (text.toList.map .plain) = found) : Reads text found := by
  have seen : (text.toList.map Piece.plain).map Piece.outside = text.toList := by
    rw [List.map_map]
    exact List.map_id _
  rw [Reads, pieces_of_flat flat]
  refine ⟨?_, reading, ?_, ?_⟩
  · simp [Piece.isClosed]
  · intro stack
    rw [seen]
    exact foldlM_flat flat stack
  · rwa [seen]

theorem reads_fixed {text : String} {found : List Word}
    (fixed : text.toList.all isFlat = true ∧ harmless text.toList = true ∧
      words (text.toList.map .plain) = found) : Reads text found :=
  reads_flat fixed.1 fixed.2.1 fixed.2.2

theorem visible_of_isBareChar {c : Char} (bare : isBareChar c = true) :
    c.isWhitespace = false := by
  rw [Bool.eq_false_iff]
  intro blank
  simp only [Char.isWhitespace, Bool.or_eq_true, decide_eq_true_eq] at blank
  rcases blank with ((rfl | rfl) | rfl) | rfl <;> cases bare

theorem reads_bare {text : String} (nonempty : text ≠ "")
    (bare : text.toList.all isBareChar = true) (fine : harmless text.toList = true) :
    Reads text [.bare text] := by
  have flat : text.toList.all isFlat = true := by
    rw [List.all_eq_true] at bare ⊢
    exact fun c member => flat_of_test (by decide) (bare c member)
  apply reads_flat flat fine
  cases shape : text.toList with
  | nil => exact absurd (String.toList_eq_nil_iff.mp shape) nonempty
  | cons c rest =>
      rw [shape, List.all_cons, Bool.and_eq_true] at bare
      have passes : ∀ piece ∈ rest.map Piece.plain, piece.isIn isBareChar = true := by
        simpa [Piece.isIn] using bare.2
      have taken :
          (rest.map Piece.plain).takeWhile (Piece.isIn isBareChar) =
            rest.map .plain := by
        rw [← List.append_nil (rest.map Piece.plain), Text.takeWhile_run passes rfl]
        simp
      have dropped : (rest.map Piece.plain).dropWhile (Piece.isIn isBareChar) = [] := by
        rw [← List.append_nil (rest.map Piece.plain), Text.dropWhile_run passes rfl]
      rw [List.map_cons, words, if_neg (by simp [visible_of_isBareChar bare.1]),
        if_pos bare.1, taken, dropped, words, ← List.map_cons, runText_plain, ← shape,
        String.ofList_toList]

end LogQuery.Sql
