import LogQuery.Text.Basic

/-!
Media types, and which of them announce JSON.
-/

namespace LogQuery.Service

def isTokenChar (c : Char) : Bool :=
  c.isAlphanum || "!#$%&'*+-.^_`|~".toList.contains c

/-! ## Parameters

What follows the type is only looked at for its form: names with values, which may be
quoted, and semicolons between them. -/

inductive ParameterState
  | beforeName
  | inName
  | beforeValue
  | inValue
  /-- Right after an opening quote. A quote there is part of the value. -/
  | quoteOpened
  | inQuotes
  | afterQuotes

namespace ParameterState

def isQuotedChar (c : Char) : Bool :=
  ' ' ≤ c && c ≤ '~'

def next? (state : ParameterState) (c : Char) : Option ParameterState :=
  match state with
  | beforeName =>
      if c = ' ' then some beforeName else if isTokenChar c then some inName else none
  | inName =>
      if c = '=' then some beforeValue else if isTokenChar c then some inName else none
  | beforeValue =>
      if c = '"' then some quoteOpened else if isTokenChar c then some inValue else none
  | inValue =>
      if c = ';' then some beforeName else if isTokenChar c then some inValue else none
  | quoteOpened => if isQuotedChar c then some inQuotes else none
  | inQuotes =>
      if c = '"' then some afterQuotes
      else if isQuotedChar c then some inQuotes
      else none
  | afterQuotes =>
      if c = ';' then some beforeName else if c = ' ' then some afterQuotes else none

def isFinal : ParameterState → Bool
  | beforeName => true
  | beforeValue => true
  | inValue => true
  | afterQuotes => true
  | _ => false

end ParameterState

def areParameters (text : List Char) : Bool :=
  (text.foldlM ParameterState.next? .beforeName).any ParameterState.isFinal

/-! ## Types -/

structure MediaType where
  type : List Char
  subtype : List Char
  suffix : Option (List Char)

namespace MediaType

/-- Splits a subtype at its last plus. One at the very start is part of a name. -/
def splitSuffix (name : List Char) : List Char × Option (List Char) :=
  let suffix := (name.reverse.takeWhile (· != '+')).reverse
  let subtype := name.take (name.length - suffix.length - 1)
  if suffix.length < name.length ∧ subtype ≠ [] then (subtype, some suffix)
  else (name, none)

def read? (text : String) : Option MediaType :=
  let characters := text.toList.map Char.toLower
  let type := characters.takeWhile isTokenChar
  match characters.dropWhile isTokenChar with
  | '/' :: rest =>
      let name := rest.takeWhile isTokenChar
      let (subtype, suffix) := splitSuffix name
      let mediaType : MediaType := { type, subtype, suffix }
      match rest.dropWhile isTokenChar with
      | [] => if type.isEmpty then none else some mediaType
      | ';' :: parameters =>
          if type.isEmpty || name.isEmpty || !areParameters parameters then none
          else some mediaType
      | _ => none
  | _ => none

def isJson (mediaType : MediaType) : Bool :=
  mediaType.type == "application".toList &&
    (mediaType.subtype == "json".toList || mediaType.suffix == some "json".toList)

example : (read? "application/problem+json; charset=utf-8").any isJson = true := by
  decide +kernel

end MediaType

end LogQuery.Service
