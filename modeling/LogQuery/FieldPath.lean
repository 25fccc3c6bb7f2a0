import LogQuery.Text.Numeric
import LogQuery.Text.Quoted

/-!
Field paths: a column name, or a column and the segments below it. Segments are written
with dots between them, and in quotes when they hold anything else than letters, digits
and a few marks.
-/

namespace LogQuery

inductive FieldPath
  | name (name : String)
  | nested (base : String) (path : List String)
deriving DecidableEq, Repr

namespace FieldPath

/-! ## Parts -/

def ofSegments? : List String → Option FieldPath
  | [] => none
  | [base] => some (name base)
  | base :: path => some (nested base path)

def base : FieldPath → String
  | name base => base
  | nested base _ => base

def path : FieldPath → List String
  | name _ => []
  | nested _ path => path

def isNested : FieldPath → Bool
  | name _ => false
  | nested _ _ => true

def segments (field : FieldPath) : List String :=
  field.base :: field.path

def dotted (field : FieldPath) : String :=
  String.intercalate "." field.segments

/-! ## Reading -/

def isSegmentChar (c : Char) : Bool :=
  c != '.' && !Text.isQuote c

def readSegment? : List Char → Option (List Char × List Char)
  | [] => none
  | c :: rest =>
      if Text.isQuote c then
        let quoted := Text.Quoted.read c rest
        if quoted.closed then some (quoted.contents, rest.drop quoted.width) else none
      else if isSegmentChar c then
        some (c :: rest.takeWhile isSegmentChar, rest.dropWhile isSegmentChar)
      else none

theorem length_of_readSegment? {text segment rest : List Char}
    (read : readSegment? text = some (segment, rest)) : rest.length < text.length := by
  cases text with
  | nil => simp [readSegment?] at read
  | cons head tail =>
      simp only [readSegment?] at read
      split at read
      · split at read
        · obtain ⟨-, rfl⟩ := Prod.mk.inj (Option.some.inj read)
          simp only [List.length_drop, List.length_cons]
          omega
        · cases read
      · split at read
        · obtain ⟨-, rfl⟩ := Prod.mk.inj (Option.some.inj read)
          exact Nat.lt_succ_of_le (List.dropWhile_sublist isSegmentChar).length_le
        · cases read

def readSegments? (text : List Char) : Option (List String) :=
  match read : readSegment? text with
  | none => none
  | some (segment, []) => some [String.ofList segment]
  | some (segment, c :: rest) =>
      have := length_of_readSegment? read
      if c = '.' then (readSegments? rest).map (String.ofList segment :: ·) else none
termination_by text.length
decreasing_by exact Nat.lt_of_succ_lt this

/-- Splits a text at its dots, without regard to quotes, and leaves out the empty
pieces. -/
def splitAtDots (text : String) : List String :=
  ((text.toList.splitOn '.').filter (! ·.isEmpty)).map String.ofList

/-- Reads a key. A text that is not a row of segments is split at its dots, and one that
holds nothing but dots is a name. -/
def read (text : String) : FieldPath :=
  let segments := (readSegments? text.toList).getD (splitAtDots text)
  (ofSegments? segments).getD (name text)

/-! ## Writing -/

def isPlain (segment : String) : Bool :=
  let characters := segment.toList
  !characters.isEmpty && characters.all fun c => Text.isAlphanumeric c ||
    "_-:@".toList.contains c

def renderSegment (segment : String) : String :=
  if isPlain segment then segment else Text.quote segment

def render (field : FieldPath) : String :=
  String.intercalate "." (field.segments.map renderSegment)

end FieldPath

end LogQuery
