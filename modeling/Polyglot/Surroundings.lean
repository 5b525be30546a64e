import Polyglot.Text.Split

/-!
What surrounds the program and tells the language of its user: variables of the environment, and
the locale of the process.
-/

namespace Polyglot

/-- What the host system says about languages: its environment, which is a list of variables, and
the locale of the process if it is asked for and can be told. -/
structure Surroundings where
  environment : List (String × String) := []
  locale : Option String := none
  deriving DecidableEq, Repr

namespace Surroundings

/-- The variables that name languages, the most important first. -/
def languageVariables : List String := ["LC_ALL", "LC_MESSAGES", "LANG", "LANGUAGE"]

/-- The parts of a text between colons, without empty ones. -/
def parts (text : String) : List String :=
  ((Text.split ':' text.toList).filter (!·.isEmpty)).map String.ofList

/-- The value of a variable; one that is not set is empty. -/
def value (surroundings : Surroundings) (name : String) : String :=
  (surroundings.environment.lookup name).getD ""

/-- The locale codes that the surroundings offer, the best first. -/
def candidates (surroundings : Surroundings) : List String :=
  languageVariables.flatMap (fun name => parts (surroundings.value name)) ++
    (surroundings.locale.filter (· != "")).toList

end Surroundings
end Polyglot
