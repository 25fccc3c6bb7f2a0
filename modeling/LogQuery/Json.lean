import LogQuery.Number.Integer

/-!
JSON values and their texts. The entries of an object keep their order.
-/

namespace LogQuery

inductive Json
  | null
  | boolean (value : Bool)
  | integer (value : Int)
  | string (text : String)
  | array (items : List Json)
  | object (entries : List (String × Json))

namespace Json

def objectOf (entries : List (String × Option Json)) : Json :=
  object (entries.filterMap fun (key, value) => value.map fun value => (key, value))

def strings (texts : List String) : Json :=
  array (texts.map string)

/-! ## Strings -/

def escapeChar (c : Char) : List Char :=
  match c with
  | '"' => ['\\', '"']
  | '\\' => ['\\', '\\']
  | '\x08' => ['\\', 'b']
  | '\x0c' => ['\\', 'f']
  | '\n' => ['\\', 'n']
  | '\r' => ['\\', 'r']
  | '\t' => ['\\', 't']
  | other =>
      if other.toNat < 0x20 then
        let code := (Hexadecimal.render other.toNat).toList
        ['\\', 'u'] ++ List.replicate (4 - code.length) '0' ++ code
      else [other]

def renderString (text : String) : String :=
  "\"" ++ String.ofList (text.toList.flatMap escapeChar) ++ "\""

/-! ## Values on one line -/

mutual

def render : Json → String
  | null => "null"
  | boolean value => if value then "true" else "false"
  | integer value => toString value
  | string text => renderString text
  | array items => "[" ++ String.intercalate "," (renderItems items) ++ "]"
  | object entries => "\x7b" ++ String.intercalate "," (renderEntries entries) ++ "\x7d"

def renderItems : List Json → List String
  | [] => []
  | item :: rest => item.render :: renderItems rest

def renderEntries : List (String × Json) → List String
  | [] => []
  | (key, value) :: rest =>
      (renderString key ++ ":" ++ value.render) :: renderEntries rest

end

/-! ## Values with an item on each line -/

def newline (depth : Nat) : String :=
  "\n" ++ String.ofList (List.replicate (2 * depth) ' ')

def block (opening closing : String) (depth : Nat) (items : List String) : String :=
  if items.isEmpty then opening ++ closing
  else
    opening ++ newline (depth + 1) ++
      String.intercalate ("," ++ newline (depth + 1)) items ++ newline depth ++ closing

mutual

def renderIndented (depth : Nat) : Json → String
  | null => "null"
  | boolean value => if value then "true" else "false"
  | integer value => toString value
  | string text => renderString text
  | array items => block "[" "]" depth (renderIndentedItems (depth + 1) items)
  | object entries =>
      block "\x7b" "\x7d" depth (renderIndentedEntries (depth + 1) entries)

def renderIndentedItems (depth : Nat) : List Json → List String
  | [] => []
  | item :: rest => item.renderIndented depth :: renderIndentedItems depth rest

def renderIndentedEntries (depth : Nat) : List (String × Json) → List String
  | [] => []
  | (key, value) :: rest =>
      (renderString key ++ ": " ++ value.renderIndented depth) ::
        renderIndentedEntries depth rest

end

def renderPretty (value : Json) : String :=
  value.renderIndented 0

example : (array [integer 1, object []]).render = "[1,\x7b\x7d]" := by decide +kernel
example : (array [integer 1, array []]).renderPretty = "[\n  1,\n  []\n]" := by
  decide +kernel

end Json

end LogQuery
