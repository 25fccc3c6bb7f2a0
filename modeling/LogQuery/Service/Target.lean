/-!
Request targets. A target is a path, or a whole address with a scheme and an authority
in front of the path. Either way a query and a fragment may follow.
-/

namespace LogQuery.Service.Target

def isSchemeChar (c : Char) : Bool :=
  c.isAlphanum || c == '+' || c == '-' || c == '.'

def isAuthorityChar (c : Char) : Bool :=
  c != '/' && c != '?' && c != '#'

def isPathChar (c : Char) : Bool :=
  c != '?' && c != '#'

def afterScheme? (target : List Char) : Option (List Char) :=
  match target.dropWhile isSchemeChar with
  | ':' :: '/' :: '/' :: rest => some rest
  | _ => none

/-- The path of a target. A target that neither starts with a slash nor names a scheme
and an authority has none. -/
def path? (target : List Char) : Option (List Char) :=
  match target with
  | '/' :: _ => some (target.takeWhile isPathChar)
  | _ =>
      match afterScheme? target with
      | none => none
      | some located =>
          if located.takeWhile isAuthorityChar = [] then none
          else some ((located.dropWhile isAuthorityChar).takeWhile isPathChar)

example : path? "/health?q=1".toList = some "/health".toList := by decide +kernel
example : path? "http://[::1]:80/health?q=1".toList = some "/health".toList := by
  decide +kernel
example : path? "/http://h/health".toList = some "/http://h/health".toList := by
  decide +kernel
example : path? "health".toList = none := by decide +kernel

end LogQuery.Service.Target
