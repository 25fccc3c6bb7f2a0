import LogQuery.Proofs.LogsQl.Quoting

/-!
The words of LogsQL text. Blanks and parentheses divide a text unless they stand between
double quotes, where a backslash takes the next character along. What is left in one
piece is an item, whatever it is made of.
-/

namespace LogQuery.LogsQl

/-! ## Inside and outside of quotes -/

/-- Where a character stands. The opening quote itself is still outside. -/
inductive Place
  | outside
  | quoted
  | escaped
deriving DecidableEq, Repr

def Place.next : Place → Char → Place
  | outside, c => if c = '"' then quoted else outside
  | quoted, c => if c = '\\' then escaped else if c = '"' then outside else quoted
  | escaped, _ => quoted

def placed (place : Place) : List Char → List (Char × Place)
  | [] => []
  | c :: rest => (c, place) :: placed (place.next c) rest

def Place.behind (place : Place) (text : List Char) : Place :=
  text.foldl Place.next place

theorem placed_append (place : Place) (first second : List Char) :
    placed place (first ++ second) =
      placed place first ++ placed (place.behind first) second := by
  induction first generalizing place with
  | nil => rfl
  | cons c first induction =>
      rw [List.cons_append, placed, placed, induction]
      rfl

theorem behind_append (place : Place) (first second : List Char) :
    place.behind (first ++ second) = (place.behind first).behind second :=
  List.foldl_append

theorem map_fst_placed (place : Place) (text : List Char) :
    (placed place text).map Prod.fst = text := by
  induction text generalizing place with
  | nil => rfl
  | cons c text induction => rw [placed, List.map_cons, induction]

theorem placed_escape (c : Char) :
    Place.quoted.behind (Text.escape c) = .quoted ∧
      ∀ piece ∈ placed .quoted (Text.escape c), piece.2 ≠ .outside := by
  simp only [Text.escape]
  split
  · decide
  · decide
  · decide
  · decide
  · decide
  · next notBackslash notQuote _ _ _ =>
      simp [Place.behind, Place.next, placed, if_neg notBackslash, if_neg notQuote]

theorem placed_quoteBody (text : String) :
    Place.quoted.behind (Text.quoteBody text) = .outside ∧
      ∀ piece ∈ placed .quoted (Text.quoteBody text), piece.2 ≠ .outside := by
  rw [Text.quoteBody]
  induction text.toList with
  | nil => decide
  | cons c text induction =>
      rcases placed_escape c with ⟨stays, inside⟩
      rw [List.flatMap_cons, List.append_assoc, behind_append, placed_append, stays]
      refine ⟨induction.1, ?_⟩
      rw [List.forall_mem_append]
      exact ⟨inside, induction.2⟩

/-! ## Texts with and without quotes -/

theorem placed_bare {text : List Char} (bare : '"' ∉ text) :
    placed .outside text = text.map (·, .outside) := by
  induction text with
  | nil => rfl
  | cons c text induction =>
      rw [List.mem_cons, not_or] at bare
      rw [placed, Place.next, if_neg (Ne.symm bare.1), induction bare.2, List.map_cons]

/-- The quotes aside, a written text shows its characters to the outside if it has no
quotes, and nothing if it has. -/
theorem mem_placed_renderText_iff (text : String) {c : Char} (other : c ≠ '"') :
    (c, Place.outside) ∈ placed .outside (renderText text).toList ↔
      needsQuotes text = false ∧ c ∈ text.toList := by
  cases needs : needsQuotes text with
  | true =>
      rw [toList_renderText_of_needsQuotes needs, placed, List.mem_cons]
      constructor
      · rintro (same | member)
        · exact absurd (Prod.mk.inj same).1 other
        · exact absurd rfl ((placed_quoteBody text).2 _ member)
      · rintro ⟨bare, -⟩
        cases bare
  | false =>
      have bare : '"' ∉ text.toList := by
        intro member
        cases ((needsQuotes_eq_false_iff text).mp needs).2 '"' member
      rw [renderText_of_plain needs, placed_bare bare]
      simp

/-! ## Words -/

inductive Word
  | opening
  | closing
  | item (text : String)
deriving DecidableEq, Repr

def isDivider (c : Char) : Bool :=
  c == ' ' || c == '(' || c == ')'

def dividerWords : Char → List Word
  | '(' => [.opening]
  | ')' => [.closing]
  | _ => []

def flush (item : List Char) (rest : List Word) : List Word :=
  if item = [] then rest else .item (String.ofList item.reverse) :: rest

def wordsFrom (item : List Char) : List (Char × Place) → List Word
  | [] => flush item []
  | (c, place) :: rest =>
      if place = .outside ∧ isDivider c then
        flush item (dividerWords c ++ wordsFrom [] rest)
      else wordsFrom (c :: item) rest

def words (text : String) : List Word :=
  wordsFrom [] (placed .outside text.toList)

example : words "(a:=\"x (y\" or b:=1) c:=2" =
    [.opening, .item "a:=\"x (y\"", .item "or", .item "b:=1", .closing,
      .item "c:=2"] := by
  decide +kernel

def startsDivided (row : List (Char × Place)) : Bool :=
  row.head?.all fun (c, place) => place == .outside && isDivider c

theorem wordsFrom_divided {row : List (Char × Place)}
    (divided : startsDivided row = true) (item : List Char) :
    wordsFrom item row = flush item (wordsFrom [] row) := by
  cases row with
  | nil => rfl
  | cons piece row =>
      rcases piece with ⟨c, place⟩
      have divides : place = .outside ∧ isDivider c = true := by
        simpa [startsDivided] using divided
      simp [wordsFrom, divides, flush]

theorem wordsFrom_whole {row : List (Char × Place)}
    (whole : ∀ piece ∈ row, piece.2 = .outside → isDivider piece.1 = false)
    (item : List Char) (rest : List (Char × Place)) :
    wordsFrom item (row ++ rest) =
      wordsFrom ((row.map Prod.fst).reverse ++ item) rest := by
  induction row generalizing item with
  | nil => rfl
  | cons piece row induction =>
      rcases piece with ⟨c, place⟩
      rw [List.forall_mem_cons] at whole
      have stays : ¬ (place = .outside ∧ isDivider c = true) := by
        rintro ⟨outside, divides⟩
        rw [whole.1 outside] at divides
        cases divides
      rw [List.cons_append, wordsFrom, if_neg stays, induction whole.2]
      simp

/-! ## Texts side by side -/

def isMark (c : Char) : Bool :=
  isDivider c || c == '|'

structure Solid (text : List Char) : Prop where
  closed : Place.outside.behind text = .outside
  whole : ∀ piece ∈ placed .outside text, piece.2 = .outside → isMark piece.1 = false

theorem Solid.append {first second : List Char} (one : Solid first)
    (two : Solid second) : Solid (first ++ second) where
  closed := by rw [behind_append, one.closed, two.closed]
  whole := by
    rw [placed_append, one.closed, List.forall_mem_append]
    exact ⟨one.whole, two.whole⟩

def isItemChar (c : Char) : Bool :=
  c != '"' && ! isMark c

theorem solid_of_plain {text : List Char} (plain : text.all isItemChar = true) :
    Solid text := by
  induction text with
  | nil => exact ⟨rfl, nofun⟩
  | cons c text induction =>
      simp only [List.all_cons, Bool.and_eq_true, isItemChar, bne_iff_ne,
        Bool.not_eq_true'] at plain
      rcases plain with ⟨⟨notQuote, notMark⟩, onward⟩
      have first : Solid [c] :=
        { closed := by simp [Place.behind, Place.next, notQuote]
          whole := by simp [placed, notMark] }
      exact first.append (induction (by simpa [isItemChar] using onward))

theorem isItemChar_of_test {test : Char → Bool}
    (excluded : "\" ()|".toList.all (! test ·) = true) {c : Char}
    (passes : test c = true) : isItemChar c = true := by
  simpa [isItemChar, isMark, isDivider, and_assoc] using
    Text.not_mem_of_test excluded passes

theorem solid_renderText (text : String) : Solid (renderText text).toList := by
  cases needs : needsQuotes text with
  | true =>
      rcases placed_quoteBody text with ⟨closed, inside⟩
      rw [toList_renderText_of_needsQuotes needs]
      refine ⟨closed, ?_⟩
      rw [placed, List.forall_mem_cons]
      exact ⟨fun _ => rfl,
        fun piece member outside => absurd outside (inside piece member)⟩
  | false =>
      rw [renderText_of_plain needs]
      apply solid_of_plain
      rw [List.all_eq_true]
      intro c member
      have plain := ((needsQuotes_eq_false_iff text).mp needs).2 c member
      exact @isItemChar_of_test (! isSpecial ·) (by decide) c (by simp [plain])

section Closed

variable {first : String} (closed : Place.outside.behind first.toList = .outside)

include closed

theorem placed_beside (second : String) :
    placed .outside (first ++ " " ++ second).toList =
      placed .outside first.toList ++ (' ', .outside) ::
        placed .outside second.toList := by
  rw [String.toList_append, String.toList_append, List.append_assoc, placed_append,
    closed]
  rfl

theorem behind_beside (second : String) :
    Place.outside.behind (first ++ " " ++ second).toList =
      Place.outside.behind second.toList := by
  rw [String.toList_append, String.toList_append, behind_append, behind_append, closed]
  rfl

theorem placed_enclosed :
    placed .outside ("(" ++ first ++ ")").toList =
      ('(', .outside) :: (placed .outside first.toList ++ [(')', .outside)]) := by
  have inner : placed .outside (first.toList ++ [')']) =
      placed .outside first.toList ++ [(')', .outside)] := by
    rw [placed_append, closed]
    rfl
  rw [← inner, String.toList_append, String.toList_append, List.append_assoc]
  rfl

theorem behind_enclosed :
    Place.outside.behind ("(" ++ first ++ ")").toList = .outside := by
  rw [String.toList_append, String.toList_append, behind_append, behind_append]
  change (Place.outside.behind first.toList).behind [')'] = .outside
  rw [closed]
  rfl

end Closed

/-- A text is closed, has no bar outside of quotes, and is read as these words up to the
next divider. -/
structure Reads (text : String) (found : List Word) : Prop where
  closed : Place.outside.behind text.toList = .outside
  noBar : ('|', Place.outside) ∉ placed .outside text.toList
  reading : ∀ rest, startsDivided rest = true →
    wordsFrom [] (placed .outside text.toList ++ rest) = found ++ wordsFrom [] rest

namespace Reads

theorem words_eq {text : String} {found : List Word} (reads : Reads text found) :
    words text = found := by
  have whole := reads.reading [] rfl
  rwa [List.append_nil, wordsFrom, flush, if_pos rfl, List.append_nil] at whole

theorem empty : Reads "" [] where
  closed := rfl
  noBar := by simp [placed]
  reading := fun _ _ => rfl

theorem item {text : String} (nonempty : text ≠ "") (solid : Solid text.toList) :
    Reads text [.item text] where
  closed := solid.closed
  noBar member := by cases solid.whole _ member rfl
  reading rest divided := by
    have whole : ∀ piece ∈ placed .outside text.toList,
        piece.2 = .outside → isDivider piece.1 = false := by
      intro piece member outside
      have mark := solid.whole piece member outside
      simp only [isMark, Bool.or_eq_false_iff] at mark
      exact mark.1
    rw [wordsFrom_whole whole, map_fst_placed, wordsFrom_divided divided,
      List.append_nil, flush, if_neg (by simpa using nonempty), List.reverse_reverse,
      String.ofList_toList]
    rfl

theorem blank {first second : String} {found others : List Word}
    (one : Reads first found) (two : Reads second others) :
    Reads (first ++ " " ++ second) (found ++ others) := by
  have pieces := placed_beside one.closed second
  refine ⟨?_, ?_, ?_⟩
  · rw [behind_beside one.closed]
    exact two.closed
  · rw [pieces, List.mem_append, List.mem_cons]
    rintro (member | same | member)
    · exact one.noBar member
    · cases same
    · exact two.noBar member
  · intro rest divided
    rw [pieces, List.append_assoc, one.reading _ rfl, List.cons_append, wordsFrom,
      if_pos ⟨rfl, rfl⟩, flush, if_pos rfl, two.reading rest divided, List.append_assoc]
    rfl

theorem enclosed {text : String} {found : List Word} (reads : Reads text found) :
    Reads ("(" ++ text ++ ")") (.opening :: (found ++ [.closing])) := by
  have pieces := placed_enclosed reads.closed
  refine ⟨behind_enclosed reads.closed, ?_, ?_⟩
  · rw [pieces, List.mem_cons, List.mem_append, List.mem_singleton]
    rintro (same | member | same)
    · cases same
    · exact reads.noBar member
    · cases same
  · intro rest divided
    rw [pieces, List.cons_append, wordsFrom, if_pos ⟨rfl, rfl⟩, List.append_assoc,
      reads.reading _ rfl]
    simp [wordsFrom, flush, dividerWords, isDivider]

end Reads

end LogQuery.LogsQl
