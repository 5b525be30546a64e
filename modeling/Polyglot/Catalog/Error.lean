import Polyglot.Text.Quoted
import Polyglot.Locale.Code
import Polyglot.ContextName
import Polyglot.Disk
import Polyglot.Version

/-!
Why a catalog cannot be had. Every error names the locale; an error inside a document also names the
context, and the key of the message where there is one.
-/

namespace Polyglot

inductive CatalogFault where
  /-- The locale has no catalog. -/
  | unregistered
  | unreadable (path : String) (cause : ReadError)
  | malformed
  | noRoot
  | noVersion
  | invalidVersion (declared : String)
  | unsupportedVersion (declared : String)
  | invalidLanguage (cause : CodeError)
  | foreignLanguage (declared : String)
  | invalidContext (cause : NameError)
  | noSource
  | zeroPosition
  /-- The translation has slots that its source does not have. -/
  | strayPositions (positions : List Nat)
  | duplicate
  deriving DecidableEq, Repr

/-- Slots as they are written in a text, separated by commas. -/
def listSlots (positions : List Nat) : String :=
  ", ".intercalate (positions.map fun position => "%" ++ toString position)

def CatalogFault.message : CatalogFault → String
  | .unregistered => "Locale is not registered"
  | .unreadable path cause => s!"Unable to read catalog {path}: {cause.message path}"
  | .malformed => "Malformed catalog: <xml>"
  | .noRoot => "Missing <TS> root element"
  | .noVersion => "Catalog does not declare a schema version"
  | .invalidVersion declared => "Invalid schema version " ++ quoted declared
  | .unsupportedVersion declared => "Unsupported schema version " ++ declared
  | .invalidLanguage cause => cause.message
  | .foreignLanguage declared => "Catalog declares locale " ++ quoted declared
  | .invalidContext cause => cause.message
  | .noSource => "Message without <source>"
  | .zeroPosition => "Placeholder %0 is not a valid position"
  | .strayPositions positions =>
    s!"Translation references {listSlots positions} not present in source"
  | .duplicate => "Duplicate message"

/-- A fault and where it lies. -/
structure CatalogError where
  fault : CatalogFault
  locale : String
  context : Option String := none
  key : Option String := none
  deriving DecidableEq, Repr

/-- The text of an error ends with the place of the fault. -/
def CatalogError.message (error : CatalogError) : String :=
  let place := [("locale", some error.locale), ("context", error.context), ("key", error.key)]
  let known := place.filterMap fun (label, value) => value.map fun v => label ++ "=" ++ quoted v
  error.fault.message ++ " (" ++ ", ".intercalate known ++ ")"

/-- Why a catalog does not load: it is at fault, or a version cannot be had. That is so when the
configured minimum is no version, or when a number of the schema version or of the minimum has too
many digits. -/
inductive LoadError where
  | catalog (error : CatalogError)
  | version (fault : VersionFault)
  deriving DecidableEq, Repr

def LoadError.message : LoadError → String
  | .catalog error => error.message
  | .version fault => fault.message

end Polyglot
