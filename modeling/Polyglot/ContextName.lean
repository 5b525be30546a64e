import Polyglot.Text.Blank
import Polyglot.Text.Word
import Polyglot.Text.Quoted

/-!
Names of contexts. A context groups the messages of one part of a user interface, and its name is
an identifier such as `Ui::SettingsDialog`.
-/

namespace Polyglot

inductive NameError where
  | empty
  | malformed (name : String)
  deriving DecidableEq, Repr

def NameError.message : NameError → String
  | .empty => "Context name cannot be empty"
  | .malformed name => "Invalid context name: " ++ quoted name

/-- An ASCII letter or an underscore, then word characters, colons and dots. -/
def isContextName : List Char → Bool
  | [] => false
  | c :: rest =>
    (c.isAlpha || c == '_') && rest.all fun d => Text.isWord d || d == ':' || d == '.'

/-- The name without the white space around it. -/
def normalizeName (name : String) : Except NameError String :=
  let text := Text.trim name.toList
  if text.isEmpty then .error .empty
  else if isContextName text then .ok (String.ofList text)
  else .error (.malformed name)

end Polyglot
