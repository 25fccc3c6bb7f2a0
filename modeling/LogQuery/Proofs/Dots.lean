import LogQuery.Proofs.FieldPath
import LogQuery.Proofs.Slices

/-!
Dots in keys. Segments can have more dots around them than they need. A key without
quotes is then read as if it had no more than that; in a key with quotes the segments
come apart, because splitting at dots knows nothing of quotes.
-/

namespace LogQuery.FieldPath

/-! ## Splitting at dots -/

def piecesOf (text : List Char) : List (List Char) :=
  (text.splitOn '.').filter (! ·.isEmpty)

theorem splitAtDots_eq (text : String) :
    splitAtDots text = (piecesOf text.toList).map String.ofList :=
  rfl

theorem piecesOf_nil : piecesOf [] = [] :=
  rfl

theorem piecesOf_append_dot (first second : List Char) :
    piecesOf (first ++ '.' :: second) = piecesOf first ++ piecesOf second := by
  have split :
      (first ++ '.' :: second).splitOn '.' = first.splitOn '.' ++ second.splitOn '.' :=
    List.splitOnP_append_cons first second (beq_self_eq_true '.')
  rw [piecesOf, split, List.filter_append]
  rfl

theorem piecesOf_dots (count : Nat) (text : List Char) :
    piecesOf (List.replicate count '.' ++ text) = piecesOf text := by
  induction count with
  | zero => rfl
  | succ count induction =>
      rw [List.replicate_succ, List.cons_append, ← induction]
      exact piecesOf_append_dot [] _

theorem piecesOf_plain {text : List Char} (nonempty : text ≠ [])
    (noDot : ∀ c ∈ text, c ≠ '.') : piecesOf text = [text] := by
  have whole : text.splitOn '.' = [text] := by
    rw [List.splitOn_eq_splitOnP]
    exact List.splitOnP_eq_singleton fun c member => beq_false_of_ne (noDot c member)
  rw [piecesOf, whole]
  simp [nonempty]

theorem flatten_piecesOf (text : List Char) :
    (piecesOf text).flatten = text.filter (· != '.') := by
  rw [piecesOf, List.flatten_filter_not_isEmpty, List.splitOn_eq_splitOnP]
  induction text with
  | nil => rfl
  | cons c text induction =>
      rw [List.splitOnP_cons_eq_if_modifyHead]
      by_cases dot : c = '.'
      · simp [dot, induction]
      · rcases List.exists_cons_of_ne_nil (List.splitOnP_ne_nil (· == '.') text) with
          ⟨piece, rest, split⟩
        rw [split] at induction
        simpa [dot, split] using induction

/-! ## Segments as they are written -/

/-- What a segment is written with, in quotes or not, and what it stands for. -/
inductive Written : Bool → List Char → List Char → Prop
  | plain {source : List Char} (nonempty : source ≠ [])
      (chars : ∀ c ∈ source, c ∉ ".\"'".toList) :
      Written false source source
  | quoted {delimiter : Char} {body contents : List Char}
      (isQuote : Text.isQuote delimiter = true)
      (spells : Text.Quoted.Spells delimiter body contents true) :
      Written true (delimiter :: body) contents

namespace Written

theorem readSegment? {quoted : Bool} {source contents : List Char}
    (written : Written quoted source contents) {rest : List Char}
    (ends : rest.head?.all (· == '.') = true) :
    FieldPath.readSegment? (source ++ rest) = some (contents, rest) := by
  cases written with
  | plain nonempty chars =>
      have segmentChars : ∀ c ∈ source, isSegmentChar c = true := by
        intro c member
        simpa [isSegmentChar, Text.isQuote] using chars c member
      have stops : rest.head?.all (! isSegmentChar ·) = true := by
        rw [Option.all_eq_true] at ends ⊢
        intro c head
        rw [beq_iff_eq.mp (ends c head)]
        rfl
      cases source with
      | nil => exact absurd rfl nonempty
      | cons c more =>
          rw [List.forall_mem_cons] at segmentChars
          have noQuote : Text.isQuote c = false := by
            have isSegment := segmentChars.1
            simp only [isSegmentChar, Bool.and_eq_true, Bool.not_eq_true'] at isSegment
            exact isSegment.2
          rw [List.cons_append, FieldPath.readSegment?, if_neg (by simp [noQuote]),
            if_pos segmentChars.1, Text.takeWhile_run segmentChars.2 stops,
            Text.dropWhile_run segmentChars.2 stops]
  | quoted isQuote spells =>
      rw [List.cons_append, FieldPath.readSegment?, if_pos isQuote,
        spells.read isQuote rest]
      simp only [if_true, List.drop_left]

theorem readSegments? {quoted : Bool} {source contents : List Char}
    (written : Written quoted source contents) :
    FieldPath.readSegments? source = some [String.ofList contents] := by
  have found : FieldPath.readSegment? (source ++ []) = some (contents, []) :=
    written.readSegment? rfl
  rw [List.append_nil] at found
  exact readSegments?_of_readSegment? found

theorem readSegments?_dot {quoted : Bool} {source contents : List Char}
    (written : Written quoted source contents) (rest : List Char) :
    FieldPath.readSegments? (source ++ '.' :: rest) =
      (FieldPath.readSegments? rest).map (String.ofList contents :: ·) := by
  have found :
      FieldPath.readSegment? (source ++ '.' :: rest) = some (contents, '.' :: rest) :=
    written.readSegment? rfl
  rw [readSegments?_of_readSegment? found]
  exact if_pos rfl

/-- Apart from dots, more is written in quotes than what it stands for. -/
theorem countP_lt {delimiter : Char} {body contents : List Char}
    (isQuote : Text.isQuote delimiter = true)
    (spells : Text.Quoted.Spells delimiter body contents true) :
    contents.countP (· != '.') < body.countP (· != '.') := by
  have noDot : delimiter ≠ '.' := by
    rintro rfl
    cases isQuote
  generalize same : true = closed at spells
  induction spells with
  | closing => simp [noDot]
  | ended => cases same
  | cutShort => cases same
  | escaped stands tail induction =>
      have longer := induction same
      have backslash : ('\\' != '.') = true := rfl
      rw [List.countP_cons, List.countP_cons, List.countP_cons, if_pos backslash]
      split <;> omega
  | plain ordinary inside tail induction =>
      rw [List.countP_cons, List.countP_cons]
      exact Nat.add_lt_add_right (induction same) _

theorem piecesOf_eq_iff {quoted : Bool} {source contents : List Char}
    (written : Written quoted source contents) :
    piecesOf source = [contents] ↔ quoted = false := by
  cases written with
  | plain nonempty chars =>
      have noDot : ∀ c ∈ source, c ≠ '.' := by
        rintro c member rfl
        exact chars '.' member (by decide)
      simp [piecesOf_plain nonempty noDot]
  | @quoted delimiter body contents isQuote spells =>
      have longer := countP_lt isQuote spells
      refine ⟨fun pieces => ?_, fun plain => by cases plain⟩
      have kept := flatten_piecesOf (delimiter :: body)
      rw [pieces, List.flatten_singleton] at kept
      have count := congrArg (List.countP (· != '.')) kept
      rw [List.countP_filter, List.countP_cons] at count
      simp only [Bool.and_self] at count
      omega

theorem piecesOf_ne_nil {quoted : Bool} {source contents : List Char}
    (written : Written quoted source contents) : piecesOf source ≠ [] := by
  intro none
  have kept := flatten_piecesOf source
  rw [none, List.flatten_nil] at kept
  have dots := List.filter_eq_nil_iff.mp kept.symm
  cases written with
  | plain nonempty chars =>
      rcases List.exists_cons_of_ne_nil nonempty with ⟨c, rest, rfl⟩
      have dot : c = '.' := by simpa using dots c List.mem_cons_self
      exact chars c List.mem_cons_self (by simp [dot])
  | quoted isQuote spells =>
      have dot := dots _ List.mem_cons_self
      simp only [bne_iff_ne, ne_eq, Decidable.not_not] at dot
      rw [dot] at isQuote
      cases isQuote

end Written

/-! ## Rows of segments -/

/-- A segment as it stands in a key, with the number of dots behind it. -/
structure Segment where
  quoted : Bool
  source : List Char
  contents : List Char
  dots : Nat

def Segment.text (segment : Segment) : List Char :=
  segment.source ++ List.replicate segment.dots '.'

inductive Row : List Segment → Prop
  | last {segment : Segment}
      (written : Written segment.quoted segment.source segment.contents) :
      Row [segment]
  | more {segment : Segment} {rest : List Segment}
      (written : Written segment.quoted segment.source segment.contents)
      (parted : 0 < segment.dots) (tail : Row rest) : Row (segment :: rest)

def keyOf (lead : Nat) (segments : List Segment) : String :=
  String.ofList (List.replicate lead '.' ++ segments.flatMap Segment.text)

def namesOf (segments : List Segment) : List String :=
  segments.map fun segment => String.ofList segment.contents

def isTidy : List Segment → Bool
  | [] => true
  | [last] => last.dots == 0
  | segment :: rest => segment.dots == 1 && isTidy rest

theorem isTidy_cons {segment : Segment} {rest : List Segment} (more : rest ≠ []) :
    isTidy (segment :: rest) = (segment.dots == 1 && isTidy rest) := by
  cases rest with
  | nil => exact absurd rfl more
  | cons next rest => rfl

theorem readSegments?_dot (rest : List Char) : readSegments? ('.' :: rest) = none := by
  rw [readSegments?]
  split
  · rfl
  · next found => cases found
  · next found => cases found

theorem readSegments?_nil : readSegments? [] = none := by
  rw [readSegments?]
  rfl

theorem readSegments?_dots (count : Nat) :
    readSegments? (List.replicate count '.') = none := by
  cases count with
  | zero => exact readSegments?_nil
  | succ count => exact readSegments?_dot _

namespace Row

variable {segments : List Segment}

theorem ne_nil (row : Row segments) : segments ≠ [] := by
  cases row <;> exact List.cons_ne_nil _ _

theorem written (row : Row segments) :
    ∀ segment ∈ segments, Written segment.quoted segment.source segment.contents := by
  induction row with
  | last written => exact List.forall_mem_singleton.mpr written
  | more written parted tail induction =>
      exact List.forall_mem_cons.mpr ⟨written, induction⟩

theorem readSegments? (row : Row segments) :
    FieldPath.readSegments? (segments.flatMap Segment.text) =
      if isTidy segments then some (namesOf segments) else none := by
  induction row with
  | @last segment written =>
      rw [List.flatMap_singleton, Segment.text, isTidy]
      cases segment.dots with
      | zero =>
          rw [List.replicate_zero, List.append_nil, written.readSegments?]
          rfl
      | succ count =>
          rw [List.replicate_succ, written.readSegments?_dot, readSegments?_dots]
          rfl
  | @more segment rest written parted tail induction =>
      rcases Nat.exists_eq_succ_of_ne_zero (Nat.ne_of_gt parted) with ⟨count, dots⟩
      rw [List.flatMap_cons, Segment.text, dots, List.replicate_succ, List.append_assoc,
        List.cons_append, written.readSegments?_dot, isTidy_cons tail.ne_nil, dots]
      cases count with
      | zero =>
          rw [List.replicate_zero, List.nil_append, induction]
          cases isTidy rest <;> rfl
      | succ count =>
          rw [List.replicate_succ, List.cons_append, readSegments?_dot]
          rfl

theorem piecesOf_text (row : Row segments) :
    piecesOf (segments.flatMap Segment.text) =
      segments.flatMap fun segment => piecesOf segment.source := by
  have parted : ∀ (segment : Segment) (rest : List Char), 0 < segment.dots →
      piecesOf (segment.text ++ rest) = piecesOf segment.source ++ piecesOf rest := by
    intro segment rest dotted
    rcases Nat.exists_eq_succ_of_ne_zero (Nat.ne_of_gt dotted) with ⟨count, dots⟩
    rw [Segment.text, dots, List.replicate_succ, List.append_assoc, List.cons_append,
      piecesOf_append_dot, piecesOf_dots]
  induction row with
  | @last segment written =>
      rw [List.flatMap_singleton, List.flatMap_singleton]
      by_cases none : segment.dots = 0
      · rw [Segment.text, none, List.replicate_zero, List.append_nil]
      · have split := parted segment [] (Nat.pos_of_ne_zero none)
        rwa [List.append_nil, piecesOf_nil, List.append_nil] at split
  | more written dotted tail induction =>
      rw [List.flatMap_cons, List.flatMap_cons, parted _ _ dotted, induction]

end Row

/-! ## Reading keys -/

theorem ofSegments?_eq_iff {names others : List String} (nonempty : names ≠ []) :
    ofSegments? names = ofSegments? others ↔ names = others := by
  refine ⟨fun same => ?_, congrArg ofSegments?⟩
  cases names with
  | nil => exact absurd rfl nonempty
  | cons base path =>
      cases others with
      | nil => cases path <;> cases same
      | cons otherBase otherPath =>
          cases path <;> cases otherPath <;> cases same <;> rfl

theorem ofSegments?_getD {names : List String} (nonempty : names ≠ [])
    (otherwise : FieldPath) :
    some ((ofSegments? names).getD otherwise) = ofSegments? names := by
  cases names with
  | nil => exact absurd rfl nonempty
  | cons base path => cases path <;> rfl

theorem namesOf_eq_iff {segments : List Segment} (row : Row segments) :
    namesOf segments =
      (segments.flatMap fun segment => piecesOf segment.source).map String.ofList ↔
      ∀ segment ∈ segments, segment.quoted = false := by
  have names :
      namesOf segments = (segments.map Segment.contents).map String.ofList := by
    rw [namesOf, List.map_map]
    rfl
  rw [names, List.map_inj_right fun _ _ => String.ofList_injective, eq_comm,
    Text.flatMap_eq_map_iff fun segment member =>
      (row.written segment member).piecesOf_ne_nil]
  exact forall₂_congr fun segment member => (row.written segment member).piecesOf_eq_iff

/-- Dots beyond those between the segments are ignored exactly if no segment is
quoted. -/
theorem read_keyOf_iff {segments : List Segment} (row : Row segments) (lead : Nat) :
    ofSegments? (namesOf segments) = some (read (keyOf lead segments)) ↔
      (lead = 0 ∧ isTidy segments = true) ∨
        ∀ segment ∈ segments, segment.quoted = false := by
  have names : namesOf segments ≠ [] := by simpa [namesOf] using row.ne_nil
  have characters : (keyOf lead segments).toList =
      List.replicate lead '.' ++ segments.flatMap Segment.text := String.toList_ofList
  by_cases tidy : lead = 0 ∧ isTidy segments = true
  · have found :
        readSegments? (keyOf lead segments).toList = some (namesOf segments) := by
      rw [characters, tidy.1, List.replicate_zero, List.nil_append, row.readSegments?,
        if_pos tidy.2]
    rw [read, found, Option.getD_some, ofSegments?_getD names]
    exact iff_of_true rfl (.inl tidy)
  · -- One dot too many, and the whole key is split at its dots.
    have fails : readSegments? (keyOf lead segments).toList = none := by
      rw [characters]
      cases lead with
      | zero =>
          rw [List.replicate_zero, List.nil_append, row.readSegments?, if_neg]
          exact fun whole => tidy ⟨rfl, whole⟩
      | succ lead =>
          rw [List.replicate_succ, List.cons_append]
          exact readSegments?_dot _
    have pieces : splitAtDots (keyOf lead segments) =
        (segments.flatMap fun segment => piecesOf segment.source).map
          String.ofList := by
      rw [splitAtDots_eq, characters, piecesOf_dots, row.piecesOf_text]
    have nonempty : splitAtDots (keyOf lead segments) ≠ [] := by
      intro empty
      rw [pieces, List.map_eq_nil_iff] at empty
      have longer := Text.length_le_flatMap fun segment member =>
        (row.written segment member).piecesOf_ne_nil
      rw [empty] at longer
      exact row.ne_nil (List.eq_nil_of_length_eq_zero (Nat.le_zero.mp longer))
    rw [read, fails, Option.getD_none, ofSegments?_getD nonempty,
      ofSegments?_eq_iff names, pieces, namesOf_eq_iff row, or_iff_right tidy]

def quotedRow (dots : Nat) : List Segment :=
  [⟨false, ['a'], ['a'], dots⟩, ⟨true, "\"b.c\"".toList, "b.c".toList, 0⟩]

theorem row_quotedRow {dots : Nat} (parted : 0 < dots) : Row (quotedRow dots) := by
  have letter : Written false ['a'] ['a'] := .plain (List.cons_ne_nil _ _) (by simp)
  have spells : Text.Quoted.Spells '"' "b.c\"".toList "b.c".toList true :=
    .plain (by decide) (by decide) (.plain (by decide) (by decide)
      (.plain (by decide) (by decide) .closing))
  exact .more letter parted (.last (.quoted rfl spells))

def plainRow : List Segment :=
  [⟨false, ['a'], ['a'], 3⟩, ⟨false, ['b', ' '], ['b', ' '], 1⟩]

theorem read_keyOf_iff_quoted :
    Row plainRow ∧ ofSegments? (namesOf plainRow) = some (read (keyOf 2 plainRow)) ∧
      Row (quotedRow 1) ∧
      ofSegments? (namesOf (quotedRow 1)) = some (read (keyOf 0 (quotedRow 1))) ∧
      Row (quotedRow 2) ∧
      ofSegments? (namesOf (quotedRow 2)) ≠ some (read (keyOf 0 (quotedRow 2))) := by
  have plain : Row plainRow :=
    .more (.plain (List.cons_ne_nil _ _) (by simp)) (by decide)
      (.last (.plain (List.cons_ne_nil _ _) (by simp)))
  have tidy : Row (quotedRow 1) := row_quotedRow (by decide)
  have stray : Row (quotedRow 2) := row_quotedRow (by decide)
  exact ⟨plain, (read_keyOf_iff plain 2).mpr (.inr (by decide)),
    tidy, (read_keyOf_iff tidy 0).mpr (.inl (by decide)),
    stray, mt (read_keyOf_iff stray 0).mp (by decide)⟩

/-- A second dot takes a quoted segment apart and leaves its quotes in the names. -/
theorem read_comes_apart :
    Row (quotedRow 2) ∧ keyOf 0 (quotedRow 2) = "a..\"b.c\"" ∧
      ofSegments? (namesOf (quotedRow 2)) = some (.nested "a" ["b.c"]) ∧
      read (keyOf 0 (quotedRow 2)) = .nested "a" ["\"b", "c\""] := by
  exact ⟨row_quotedRow (by decide), by decide +kernel, by decide +kernel,
    by decide +kernel⟩

end LogQuery.FieldPath
