/-!
White space and small operations on texts. Case matters only for ASCII letters:
`Char.toLower` leaves every other character alone.
-/

namespace LogQuery.Text

/-! ## Classes of characters

A class is given as a list of closed intervals of code points, in increasing order and
without overlap. -/

def within : List (Nat × Nat) → Nat → Bool
  | [], _ => false
  | (first, last) :: rest, code =>
      if code < first then false else if code ≤ last then true else within rest code

example : within [(9, 13), (32, 32)] 13 = true := rfl
example : within [(9, 13), (32, 32)] 14 = false := rfl

/-! ## White space -/

def spaceIntervals : List (Nat × Nat) :=
  [(0x9, 0xd), (0x20, 0x20), (0x85, 0x85), (0xa0, 0xa0), (0x1680, 0x1680),
   (0x2000, 0x200a), (0x2028, 0x2029), (0x202f, 0x202f), (0x205f, 0x205f),
   (0x3000, 0x3000)]

/-- White space in the sense of the Unicode property `White_Space`. The zero-width
space, the byte order mark and the four information separators are not in it. -/
def isSpace (c : Char) : Bool :=
  within spaceIntervals c.toNat

example : isSpace '\n' = true := rfl
example : isSpace '\u3000' = true := rfl
example : isSpace '\u200b' = false := rfl
example : isSpace '\x1c' = false := rfl

/-! ## Texts -/

def trim (text : List Char) : List Char :=
  ((text.dropWhile isSpace).reverse.dropWhile isSpace).reverse

def isBlank (text : String) : Bool :=
  text.toList.all isSpace

def sameWord (left right : String) : Bool :=
  left.toLower == right.toLower

example : trim [' ', 'a', ' ', 'b', '\n'] = ['a', ' ', 'b'] := rfl

end LogQuery.Text
