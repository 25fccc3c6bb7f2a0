import LogQuery.Number.Decimal
import LogQuery.Number.Integer

/-!
Network addresses in numeric notation. Names of hosts are not looked up.
-/

namespace LogQuery

inductive Address
  | v4 (octets : List Nat)
  /-- Eight groups of sixteen bits, and the number of the network in which the address
  counts; zero stands for none. -/
  | v6 (groups : List Nat) (scope : Nat)
deriving DecidableEq, Repr

namespace Address

/-! ## Reading

Each reader takes a piece off the front of a text and answers the rest. Numbers take all
the digits there are, so that one with a digit too many is no number at all. -/

def readOctet? (text : List Char) : Option (Nat × List Char) :=
  let digits := text.takeWhile Char.isDigit
  let value := Decimal.ofDigits digits
  if 1 ≤ digits.length ∧ digits.length ≤ 3 ∧
      (digits.head? ≠ some '0' ∨ digits.length = 1) ∧
      value < 256 then
    some (value, text.drop digits.length)
  else none

def readOctets? : Nat → List Char → Option (List Nat × List Char)
  | 0, text => some ([], text)
  | 1, text => do
      let (octet, text) ← readOctet? text
      some ([octet], text)
  | count + 1, text => do
      let (octet, text) ← readOctet? text
      if text.head? = some '.' then
        let (octets, text) ← readOctets? count text.tail
        some (octet :: octets, text)
      else none

def readGroup? (text : List Char) : Option (Nat × List Char) :=
  let digits := text.takeWhile Hexadecimal.isDigit
  if 1 ≤ digits.length ∧ digits.length ≤ 4 then
    some (Hexadecimal.ofDigits digits, text.drop digits.length)
  else none

def readOctetGroups? (text : List Char) : Option (List Nat × List Char) :=
  match readOctets? 4 text with
  | some ([a, b, c, d], rest) => some ([256 * a + b, 256 * c + d], rest)
  | _ => none

structure Groups where
  groups : List Nat
  endsInOctets : Bool
  rest : List Char

def readGroups : Nat → Bool → List Char → Groups
  | 0, _, text => { groups := [], endsInOctets := false, rest := text }
  | room + 1, isFirst, text =>
      let item := if isFirst then text else text.tail
      let octets := if 1 ≤ room then readOctetGroups? item else none
      match isFirst || text.head? == some ':', octets, readGroup? item with
      | true, some (groups, rest), _ => { groups, endsInOctets := true, rest }
      | true, none, some (group, rest) =>
          let more := readGroups room false rest
          { more with groups := group :: more.groups }
      | _, _, _ => { groups := [], endsInOctets := false, rest := text }

/-- Eight groups, or fewer with a double colon in place of the zeros that are left out.
Octets stand at the very end only. -/
def readAllGroups? (text : List Char) : Option (List Nat × List Char) :=
  let head := readGroups 8 true text
  if head.groups.length = 8 then some (head.groups, head.rest)
  else if head.endsInOctets then none
  else
    match head.rest with
    | ':' :: ':' :: rest =>
        let tail := readGroups (7 - head.groups.length) true rest
        let zeros := List.replicate (8 - head.groups.length - tail.groups.length) 0
        some (head.groups ++ zeros ++ tail.groups, tail.rest)
    | _ => none

def readScope? : List Char → Option Nat
  | [] => some 0
  | '%' :: digits =>
      let scope := Decimal.ofDigits digits
      if digits ≠ [] ∧ digits.all Char.isDigit ∧ scope < Nat.pow 2 32 then some scope
      else none
  | _ => none

def read? (text : String) : Option Address :=
  match text.toList with
  | '[' :: rest => do
      guard (rest.getLast? = some ']')
      let (groups, rest) ← readAllGroups? rest.dropLast
      return v6 groups (← readScope? rest)
  | characters =>
      match readOctets? 4 characters with
      | some (octets, []) => some (v4 octets)
      | _ => none

/-! ## Writing -/

def renderOctets (octets : List Nat) : String :=
  String.intercalate "." (octets.map toString)

def longestZeros (groups : List Nat) : Nat × Nat :=
  let rows := (List.range groups.length).map fun start =>
    (start, ((groups.drop start).takeWhile (· == 0)).length)
  rows.foldl (fun best row => if best.2 < row.2 then row else best) (0, 0)

def renderGroups (groups : List Nat) : String :=
  String.intercalate ":" (groups.map Hexadecimal.render)

/-- Groups in lower case, with the longest row of two or more zeros left out. Addresses
that stand for four octets are written with them. -/
def renderAllGroups (groups : List Nat) : String :=
  match groups with
  | [0, 0, 0, 0, 0, 0xffff, high, low] =>
      "::ffff:" ++ renderOctets [high / 256, high % 256, low / 256, low % 256]
  | _ =>
      let (start, length) := longestZeros groups
      if 1 < length then
        renderGroups (groups.take start) ++ "::" ++
          renderGroups (groups.drop (start + length))
      else renderGroups groups

def render : Address → String
  | v4 octets => renderOctets octets
  | v6 groups 0 => "[" ++ renderAllGroups groups ++ "]"
  | v6 groups scope => "[" ++ renderAllGroups groups ++ "%" ++ toString scope ++ "]"

end Address

end LogQuery
