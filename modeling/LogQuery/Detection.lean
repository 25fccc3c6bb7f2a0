import LogQuery.Text.Basic

/-!
Telling SQL from queries. A few keywords give SQL away; all else is taken for a query.
-/

namespace LogQuery

inductive InputLanguage
  | sql
  | logQuery
deriving DecidableEq, Repr

namespace InputLanguage

def name : InputLanguage → String
  | sql => "sql"
  | logQuery => "logchefql"

/-- Whether a character is a lower-case letter of a keyword in some case. The long s
counts as an s. -/
def sameLetter (letter c : Char) : Bool :=
  c.toLower == letter || (letter == 's' && c == 'ſ')

def afterKeyword? : List Char → List Char → Option (List Char)
  | [], text => some text
  | _ :: _, [] => none
  | letter :: letters, c :: text =>
      if sameLetter letter c then afterKeyword? letters text else none

def afterKeywords? : List String → List Char → Option (List Char)
  | [], text => some text
  | keyword :: keywords, text => do
      let rest ← afterKeyword? keyword.toList text
      if rest.head?.any Text.isSpace then
        afterKeywords? keywords (rest.dropWhile Text.isSpace)
      else none

def startsWith (keywords : List String) (text : List Char) : Bool :=
  (afterKeywords? keywords text).isSome

def mentions (keywords : List String) : List Char → Bool
  | [] => false
  | c :: rest => (Text.isSpace c && startsWith keywords rest) || mentions keywords rest

def ofText (text : String) : InputLanguage :=
  let trimmed := Text.trim text.toList
  if startsWith ["select"] trimmed || startsWith ["with"] trimmed ||
    mentions ["from"] trimmed ||
      mentions ["group", "by"] trimmed || mentions ["order", "by"] trimmed then
    sql
  else logQuery

end InputLanguage

end LogQuery
