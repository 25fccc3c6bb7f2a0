/-!
Quoted text. A backslash takes away the meaning of the character after it; only `\n`,
`\t` and `\r` stand for something else than that character. Writing always uses double
quotes, reading takes either delimiter.
-/

namespace LogQuery.Text

def isQuote (c : Char) : Bool :=
  c == '"' || c == '\''

/-! ## Reading -/

def unescape (c : Char) : Char :=
  match c with
  | 'n' => '\n'
  | 't' => '\t'
  | 'r' => '\r'
  | other => other

/-- The result of reading on from an opening delimiter: the text meant, the number of
characters read (the closing delimiter included) and whether there was a closing
delimiter. -/
structure Quoted where
  contents : List Char
  width : Nat
  closed : Bool
deriving DecidableEq, Repr

namespace Quoted

def push (c : Char) (width : Nat) (tail : Quoted) : Quoted :=
  { contents := c :: tail.contents, width := tail.width + width, closed := tail.closed }

/-- Reads up to the closing delimiter. A text that ends first is read to its end, and a
backslash at the very end stands for nothing. -/
def read (delimiter : Char) : List Char → Quoted
  | [] => { contents := [], width := 0, closed := false }
  | ['\\'] => { contents := [], width := 1, closed := false }
  | '\\' :: c :: rest => push (unescape c) 2 (read delimiter rest)
  | c :: rest =>
      if c = delimiter then { contents := [], width := 1, closed := true }
      else push c 1 (read delimiter rest)

example : read '"' ['a', '\\', 'n', '"', 'b'] = ⟨['a', '\n'], 4, true⟩ := rfl
example : read '\'' ['a', '"', '\\'] = ⟨['a', '"'], 3, false⟩ := rfl

end Quoted

/-! ## Writing -/

def escape (c : Char) : List Char :=
  match c with
  | '\\' => ['\\', '\\']
  | '"' => ['\\', '"']
  | '\n' => ['\\', 'n']
  | '\t' => ['\\', 't']
  | '\r' => ['\\', 'r']
  | other => [other]

def quote (text : String) : String :=
  String.ofList ('"' :: (text.toList.flatMap escape ++ ['"']))

end LogQuery.Text
