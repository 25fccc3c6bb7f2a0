import LogQuery.Json.Numeral
import LogQuery.Number.Integer

/-!
The lexemes of a JSON text. The text comes as characters and stray bytes, which are only
tolerated within strings, and there only as long as nobody asks for the contents.
-/

namespace LogQuery.Json

/-- A text in which `none` stands for a stray byte. -/
abbrev Source := List (Option Char)

inductive Lexeme
  | openArray
  | closeArray
  | openObject
  | closeObject
  | comma
  | colon
  | null
  | boolean (value : Bool)
  | number (numeral : Numeral)
  /-- A string has no contents when it holds stray bytes or half a surrogate pair. -/
  | string (contents : Option String)
  | malformed

/-! ## Numbers -/

def isDigit (c : Option Char) : Bool :=
  c.any Char.isDigit

def readDigits (text : Source) : List Char × Source :=
  ((text.takeWhile isDigit).filterMap id, text.dropWhile isDigit)

def readFraction? : Source → Option (List Char × Source)
  | some '.' :: text =>
      let (digits, rest) := readDigits text
      if digits.isEmpty then none else some (digits, rest)
  | text => some ([], text)

def readExponentSign : Source → Bool × Source
  | some '+' :: text => (false, text)
  | some '-' :: text => (true, text)
  | text => (false, text)

def readExponent? : Source → Option (Bool × List Char × Source)
  | some mark :: text =>
      if mark = 'e' ∨ mark = 'E' then
        let (negative, unsigned) := readExponentSign text
        let (digits, rest) := readDigits unsigned
        if digits.isEmpty then none else some (negative, digits, rest)
      else some (false, [], some mark :: text)
  | text => some (false, [], text)

def readNumeral? (negative : Bool) (text : Source) : Option (Numeral × Source) :=
  let (whole, text) := readDigits text
  if whole.isEmpty || (whole.head? == some '0' && whole.length != 1) then none
  else
    match readFraction? text with
    | none => none
    | some (fraction, text) =>
        match readExponent? text with
        | none => none
        | some (exponentNegative, exponent, text) =>
            some ({ negative, whole, fraction, exponentNegative, exponent }, text)

/-! ## Strings -/

inductive StringPart
  | character (c : Option Char)
  | code (value : Nat)

def unescape? : Char → Option Char
  | '"' => some '"'
  | '\\' => some '\\'
  | '/' => some '/'
  | 'b' => some '\x08'
  | 'f' => some '\x0c'
  | 'n' => some '\n'
  | 'r' => some '\r'
  | 't' => some '\t'
  | _ => none

def readCode? (digits : List (Option Char)) : Option Nat :=
  if digits.all fun c => c.any Hexadecimal.isDigit then
    some (Hexadecimal.ofDigits (digits.filterMap id))
  else none

/-- Reads a string up to its closing quote, behind the parts read so far, last part
first. Control characters have to be escaped. -/
def readParts? (done : List StringPart) : Source → Option (List StringPart × Source)
  | [] => none
  | some '"' :: rest => some (done.reverse, rest)
  | some '\\' :: some 'u' :: a :: b :: c :: d :: rest =>
      match readCode? [a, b, c, d] with
      | some code => readParts? (.code code :: done) rest
      | none => none
  | some '\\' :: some letter :: rest =>
      match unescape? letter with
      | some c => readParts? (.character (some c) :: done) rest
      | none => none
  | some '\\' :: _ => none
  | c :: rest =>
      if c.any (·.toNat < 0x20) then none else readParts? (.character c :: done) rest

def isHighSurrogate (code : Nat) : Bool :=
  0xd800 ≤ code && code ≤ 0xdbff

def isLowSurrogate (code : Nat) : Bool :=
  0xdc00 ≤ code && code ≤ 0xdfff

def pairedChar (high low : Nat) : Char :=
  Char.ofNat (0x10000 + (high - 0xd800) * 0x400 + (low - 0xdc00))

def decodeParts? (done : List Char) : List StringPart → Option String
  | [] => some (String.ofList done.reverse)
  | .character (some c) :: rest => decodeParts? (c :: done) rest
  | .character none :: _ => none
  | .code high :: .code low :: rest =>
      if isHighSurrogate high then
        if isLowSurrogate low then decodeParts? (pairedChar high low :: done) rest
        else none
      else if isLowSurrogate high then none
      else decodeParts? (Char.ofNat high :: done) (.code low :: rest)
  | .code code :: rest =>
      if isHighSurrogate code || isLowSurrogate code then none
      else decodeParts? (Char.ofNat code :: done) rest

/-! ## Lexemes -/

def afterWord? : List Char → Source → Option Source
  | [], text => some text
  | letter :: word, some c :: text => if letter = c then afterWord? word text else none
  | _ :: _, _ => none

def readLexeme? : Source → Option (Lexeme × Source)
  | some '[' :: rest => some (.openArray, rest)
  | some ']' :: rest => some (.closeArray, rest)
  | some '\x7b' :: rest => some (.openObject, rest)
  | some '\x7d' :: rest => some (.closeObject, rest)
  | some ',' :: rest => some (.comma, rest)
  | some ':' :: rest => some (.colon, rest)
  | some 'n' :: rest => (afterWord? "ull".toList rest).map (.null, ·)
  | some 't' :: rest => (afterWord? "rue".toList rest).map (.boolean true, ·)
  | some 'f' :: rest => (afterWord? "alse".toList rest).map (.boolean false, ·)
  | some '"' :: rest =>
      (readParts? [] rest).map fun (parts, rest) =>
        (.string (decodeParts? [] parts), rest)
  | some '-' :: rest =>
      (readNumeral? true rest).map fun (numeral, rest) => (.number numeral, rest)
  | text => (readNumeral? false text).map fun (numeral, rest) => (.number numeral, rest)

def isSpace (c : Option Char) : Bool :=
  c == some ' ' || c == some '\n' || c == some '\t' || c == some '\r'

/-! Every lexeme takes up at least one character. -/

theorem length_readDigits_le (text : Source) :
    (readDigits text).2.length ≤ text.length :=
  (List.dropWhile_sublist isDigit).length_le

theorem length_readDigits_lt (text : Source) (found : (readDigits text).1 ≠ []) :
    (readDigits text).2.length < text.length := by
  cases text with
  | nil => exact absurd rfl found
  | cons c rest =>
      cases digit : isDigit c with
      | false => exact absurd (by simp [readDigits, digit]) found
      | true =>
          simp only [readDigits, List.dropWhile_cons_of_pos digit, List.length_cons]
          exact Nat.lt_succ_of_le (List.dropWhile_sublist isDigit).length_le

theorem length_readFraction?_le {text rest : Source} {digits : List Char}
    (read : readFraction? text = some (digits, rest)) : rest.length ≤ text.length := by
  unfold readFraction? at read
  split at read
  · next text =>
      have := length_readDigits_le text
      grind
  · grind

theorem length_readExponentSign_le (text : Source) :
    (readExponentSign text).2.length ≤ text.length := by
  unfold readExponentSign
  split <;> simp

theorem length_readExponent?_le {text rest : Source} {negative : Bool}
    {digits : List Char} (read : readExponent? text = some (negative, digits, rest)) :
    rest.length ≤ text.length := by
  unfold readExponent? at read
  split at read
  · next mark text =>
      have := length_readExponentSign_le text
      have := length_readDigits_le (readExponentSign text).2
      grind
  · grind

theorem length_readNumeral?_lt {negative : Bool} {text rest : Source}
    {numeral : Numeral} (read : readNumeral? negative text = some (numeral, rest)) :
    rest.length < text.length := by
  unfold readNumeral? at read
  have := length_readDigits_lt text
  have := @length_readFraction?_le
  have := @length_readExponent?_le
  grind

theorem length_readParts?_le {done parts : List StringPart} {text rest : Source}
    (read : readParts? done text = some (parts, rest)) : rest.length ≤ text.length := by
  fun_induction readParts? done text <;> simp_all <;> grind

theorem length_afterWord?_le {word : List Char} {text rest : Source}
    (read : afterWord? word text = some rest) : rest.length ≤ text.length := by
  fun_induction afterWord? word text <;> grind

theorem length_readLexeme?_lt {text rest : Source} {lexeme : Lexeme}
    (read : readLexeme? text = some (lexeme, rest)) : rest.length < text.length := by
  have afterWord := @length_afterWord?_le
  have afterParts := @length_readParts?_le []
  have afterNumeral := @length_readNumeral?_lt
  unfold readLexeme? at read
  split at read <;>
    simp only [Option.some.injEq, Option.map_eq_some_iff, Prod.mk.injEq,
      Prod.exists] at read <;>
    grind

def lexemesFrom (done : List Lexeme) (text : Source) : List Lexeme :=
  match read : readLexeme? (text.dropWhile isSpace) with
  | none =>
      if (text.dropWhile isSpace).isEmpty then done.reverse
      else (.malformed :: done).reverse
  | some (lexeme, rest) =>
      have := length_readLexeme?_lt read
      lexemesFrom (lexeme :: done) rest
termination_by text.length
decreasing_by exact Nat.lt_of_lt_of_le this (List.dropWhile_sublist isSpace).length_le

def lexemes (text : Source) : List Lexeme :=
  lexemesFrom [] text

end LogQuery.Json
