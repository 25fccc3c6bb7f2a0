/-!
Tokens, the words of a query, and their places in a text, as an editor shows them.
-/

namespace LogQuery

/-! ## Places -/

/-- A line and a column, both counted from one. Columns count characters. -/
structure Position where
  line : Nat
  column : Nat
deriving DecidableEq, Repr

namespace Position

def start : Position :=
  { line := 1, column := 1 }

def next (position : Position) (c : Char) : Position :=
  if c = '\n' then { line := position.line + 1, column := 1 }
  else { position with column := position.column + 1 }

def advance (position : Position) (text : List Char) : Position :=
  text.foldl next position

example : start.advance ['a', '\n', 'b'] = { line := 2, column := 2 } := rfl

end Position

/-! ## Tokens -/

inductive TokenKind
  | key
  /-- A run of operator characters, whether or not it is an operator. -/
  | operator
  | value
  | number
  | paren
  | boolean
  | pipe
deriving DecidableEq, Repr

namespace TokenKind

def name : TokenKind → String
  | key => "key"
  | operator => "operator"
  | value => "value"
  | number => "number"
  | paren => "parenthesis"
  | boolean => "boolean operator"
  | pipe => "pipe"

def isLiteral (kind : TokenKind) : Bool :=
  kind == value || kind == number

end TokenKind

/-- A token. The text of a string literal is what it means, without its quotes; the text
of a key is what was written, quotes included. -/
structure Token where
  kind : TokenKind
  text : String
  position : Position
  /-- A string literal, or a key with a quoted segment. -/
  quoted : Bool := false
  incomplete : Bool := false
deriving DecidableEq, Repr

namespace Token

def isParen (token : Token) (paren : Char) : Bool :=
  token.kind == .paren && token.text.toList.head? == some paren

end Token

end LogQuery
