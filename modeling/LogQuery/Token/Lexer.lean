import LogQuery.Fault
import LogQuery.Filter

/-!
From characters to tokens. A text is cut from left to right into lexemes, with white
space between them; where a lexeme ends does not depend on its place. The place is added
afterwards, by counting the characters before it.

Reading never fails. A quote that is not closed takes up the rest of the text and is
reported beside the tokens.
-/

namespace LogQuery

/-! ## Roles of characters -/

def isOperatorChar (c : Char) : Bool :=
  c == '=' || c == '!' || c == '~' || c == '>' || c == '<'

def isBoundary (c : Char) : Bool :=
  Text.isSpace c || isOperatorChar c || c == '(' || c == ')' || c == '|'

def startsAtBoundary (text : List Char) : Bool :=
  text.head?.all isBoundary

/-! ## Lexemes -/

/-- A quote that is never closed: what follows it, and how far into its lexeme it
stands. -/
structure Unclosed where
  delimiter : Char
  contents : List Char
  offset : Nat
deriving DecidableEq, Repr

/-- A token without its place, together with the characters it was read from. -/
structure Lexeme where
  kind : TokenKind
  text : String
  source : List Char
  quoted : Bool := false
  unclosed : Option Unclosed := none
deriving DecidableEq, Repr

namespace Lexeme

def verbatim (kind : TokenKind) (source : List Char) : Lexeme :=
  { kind, text := String.ofList source, source }

/-! ### Boolean words and numerals

Both have to end at a boundary, so `order` and `1.2.3` are words. A boolean word also
has to start at one, which matters only right after the closing quote of a literal. -/

def readBoolean? (delimited : Bool) (text : List Char) : Option Lexeme :=
  let word := text.takeWhile Text.isAlphabetic
  match Connective.ofKeyword? (String.ofList word) with
  | none => none
  | some connective =>
      if delimited && startsAtBoundary (text.drop word.length) then
        some { kind := .boolean, text := connective.keyword, source := word }
      else none

def isSign (c : Char) : Bool :=
  c == '+' || c == '-'

def fractionOf : List Char → List Char
  | '.' :: c :: rest =>
      if c.isDigit then '.' :: c :: rest.takeWhile Char.isDigit else []
  | _ => []

def readNumeral? (text : List Char) : Option Lexeme :=
  let sign := (text.take 1).filter isSign
  let unsigned := text.drop sign.length
  let whole := unsigned.takeWhile Char.isDigit
  let numeral := sign ++ whole ++ fractionOf (unsigned.drop whole.length)
  if !whole.isEmpty && startsAtBoundary (text.drop numeral.length) then
    some (verbatim .number numeral)
  else none

/-! ### Literals and words -/

def readLiteral (delimiter : Char) (rest : List Char) : Lexeme :=
  let quoted := Text.Quoted.read delimiter rest
  { kind := .value
    text := String.ofList quoted.contents
    source := delimiter :: rest.take quoted.width
    quoted := true
    unclosed :=
      if quoted.closed then none
      else some { delimiter, contents := quoted.contents, offset := 0 } }

structure Extent where
  width : Nat
  segmented : Bool
  unclosed : Option Unclosed
deriving DecidableEq, Repr

def Extent.grow (extent : Extent) (width : Nat) (segmented : Bool) : Extent :=
  { width := extent.width + width
    segmented := extent.segmented || segmented
    unclosed := extent.unclosed.map fun unclosed =>
      { unclosed with offset := unclosed.offset + width } }

def extent (text : List Char) : Extent :=
  match text with
  | [] => { width := 0, segmented := false, unclosed := none }
  | c :: rest =>
      if isBoundary c then { width := 0, segmented := false, unclosed := none }
      else if Text.isQuote c then
        let quoted := Text.Quoted.read c rest
        if quoted.closed then
          (extent (rest.drop quoted.width)).grow (quoted.width + 1) true
        else
          { width := rest.length + 1
            segmented := true
            unclosed := some { delimiter := c, contents := rest, offset := 0 } }
      else (extent rest).grow 1 false
termination_by text.length
decreasing_by
  · simp only [List.length_drop, List.length_cons]
    omega
  · simp

def readWord (afterOperator : Bool) (text : List Char) : Lexeme :=
  let extent := extent text
  let source := text.take extent.width
  { kind := if afterOperator then .value else .key
    text := String.ofList source
    source
    quoted := extent.segmented && !afterOperator
    unclosed := extent.unclosed }

/-! ### Any lexeme -/

def read (delimited afterOperator : Bool) (first : Char) (rest : List Char) : Lexeme :=
  if first == '(' || first == ')' then verbatim .paren [first]
  else if first == '|' then verbatim .pipe [first]
  else if isOperatorChar first then
    verbatim .operator (first :: rest.takeWhile isOperatorChar)
  else if Text.isQuote first && afterOperator then readLiteral first rest
  else
    ((readBoolean? delimited (first :: rest)).orElse fun _ =>
      readNumeral? (first :: rest)).getD
      (readWord afterOperator (first :: rest))

def delimitsNext (lexeme : Lexeme) : Bool :=
  lexeme.source.getLast?.all isBoundary

end Lexeme

/-! ## Cutting a text -/

/-- The lexemes of a text with their places. `delimited` says whether a boundary, or
nothing, comes before the text, and `afterOperator` whether the last lexeme was an
operator. -/
def lexemes (position : Position) (delimited afterOperator : Bool) (text : List Char) :
    List (Position × Lexeme) :=
  match text with
  | [] => []
  | first :: rest =>
      if Text.isSpace first then lexemes (position.next first) true afterOperator rest
      else
        let lexeme := Lexeme.read delimited afterOperator first rest
        (position, lexeme) ::
          lexemes (position.advance lexeme.source) lexeme.delimitsNext
            (lexeme.kind == .operator)
            (rest.drop (lexeme.source.length - 1))
termination_by text.length
decreasing_by
  · simp
  · simp only [List.length_drop, List.length_cons]
    omega

def Lexeme.toToken (lexeme : Lexeme) (position : Position) : Token :=
  { kind := lexeme.kind
    text := lexeme.text
    position
    quoted := lexeme.quoted
    incomplete := lexeme.unclosed.isSome }

def Lexeme.error? (lexeme : Lexeme) (position : Position) : Option QueryError :=
  lexeme.unclosed.map fun unclosed =>
    .within (.unterminatedString unclosed.delimiter (String.ofList unclosed.contents))
      (position.advance (lexeme.source.take unclosed.offset))

structure Scan where
  tokens : List Token
  errors : List QueryError
deriving DecidableEq, Repr

namespace Scan

def ofText (text : String) : Scan :=
  let placed := lexemes .start true false text.toList
  { tokens := placed.map fun (position, lexeme) => lexeme.toToken position
    errors := placed.filterMap fun (position, lexeme) => lexeme.error? position }

end Scan

end LogQuery
