import Polyglot.Disk
import Polyglot.Journal
import Polyglot.Json
import Polyglot.Surroundings

/-!
The stored preferences of a user. They are read from a file, and a variable of the environment goes
before the file. The file may give the language any value; whether it names a language is found out
when the preference is asked for.
-/

namespace Polyglot

structure Settings where
  language : Json := .text ""
  deriving Repr, Inhabited

inductive SettingsError where
  /-- The file is not text in UTF-8. -/
  | undecodable
  /-- A whole number in the file has more digits than are converted. -/
  | oversized (digits : Nat)
  /-- Lists and objects in the file are nested too deep. -/
  | tooDeep
  /-- The language is neither a text nor blank. -/
  | notText
  deriving DecidableEq, Repr

namespace Settings

/-- The variable that goes before the file. -/
def languageVariable : String := "VEIL_LANGUAGE"

/-- The settings that a JSON value gives: its language, if it is an object that has one. -/
def ofJson (json : Json) : Settings := ⟨(json.field? "language").getD (.text "")⟩

inductive FileFault where
  /-- The file is a directory or no JSON document. -/
  | unreadable
  | fatal (error : SettingsError)
  deriving DecidableEq, Repr

/-- The settings that a text gives, in which lists and objects may be nested up to a depth. -/
def ofText (depth : Nat) (text : String) : Except FileFault Settings :=
  match Json.parse { depth } text.toList with
  | .ok json => .ok (ofJson json)
  | .error .malformed => .error .unreadable
  | .error (.oversized digits) => .error (.fatal (.oversized digits))
  | .error .tooDeep => .error (.fatal .tooDeep)

/-- The settings that a file gives; a missing one gives those that hold by default. -/
def ofFile (depth : Nat) (disk : Disk) (path : String) : Except FileFault Settings :=
  match disk.read path with
  | .error .missing => .ok {}
  | .error .isDirectory => .error .unreadable
  | .ok bytes =>
    match String.fromUTF8? bytes with
    | none => .error (.fatal .undecodable)
    | some text => ofText depth text

/-- The settings with the language of the environment, if there is one. -/
def override (settings : Settings) (surroundings : Surroundings) : Settings :=
  match surroundings.value languageVariable with
  | "" => settings
  | language => ⟨.text language⟩

/-- Loads the settings. A file that is no JSON document is reported and counts for nothing. What is
no text, or cannot be taken in, is fatal before the environment is asked. -/
def load (depth : Nat) (disk : Disk) (path : String) (surroundings : Surroundings) :
    Except SettingsError Settings × Journal :=
  match ofFile depth disk path with
  | .ok settings => (.ok (settings.override surroundings), [])
  | .error (.fatal error) => (.error error, [])
  | .error .unreadable =>
    (.ok (override {} surroundings),
      [⟨.warning, .settings, s!"Ignoring unreadable settings file {path}: <json>"⟩])

/-- The language that the user prefers, if it is not left open. -/
def preference (settings : Settings) : Except SettingsError (Option String) :=
  match settings.language with
  | .text language => .ok (if language = "" then none else some language)
  | language => if language.isVoid then .ok none else .error .notText

end Settings
end Polyglot
