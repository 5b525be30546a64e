/-!
The journal: what the parts of the engine report while they work. A record has a level, a channel
that tells who reports, and a text.
-/

namespace Polyglot

inductive Level where
  | debug
  | info
  | warning
  | error
  deriving DecidableEq, Repr

namespace Level

def rank : Level → Nat
  | .debug => 10
  | .info => 20
  | .warning => 30
  | .error => 40

def name : Level → String
  | .debug => "DEBUG"
  | .info => "INFO"
  | .warning => "WARNING"
  | .error => "ERROR"

def all : List Level := [.debug, .info, .warning, .error]

def named? (name : String) : Option Level := all.find? (·.name == name)

end Level

inductive Channel where
  | store
  | registry
  | switch
  | resolver
  | engine
  | audit
  | settings
  deriving DecidableEq, Repr

def Channel.name : Channel → String
  | .store => "core.catalog_store"
  | .registry => "core.registry"
  | .switch => "core.locale_controller"
  | .resolver => "core.resolver"
  | .engine => "core.engine"
  | .audit => "core.audit"
  | .settings => "utils.settings"

structure Record where
  level : Level
  channel : Channel
  text : String
  deriving DecidableEq, Repr

def Record.line (record : Record) : String :=
  record.level.name ++ ":" ++ record.channel.name ++ ":" ++ record.text

abbrev Journal := List Record

/-- The lines of the records that are at least as important as a level. -/
def Journal.lines (journal : Journal) (rank : Nat) : List String :=
  (journal.filter (rank ≤ ·.level.rank)).map Record.line

end Polyglot
