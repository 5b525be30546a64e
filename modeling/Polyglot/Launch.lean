import Polyglot.Engine
import Polyglot.Settings

/-!
Launching: an engine over the shipped catalogs whose first locale is the one that the user prefers.
-/

namespace Polyglot

inductive LaunchError where
  | start (cause : Host.StartError)
  | settings (cause : SettingsError)
  | switch (cause : SwitchError)
  deriving DecidableEq, Repr

namespace Host

variable {σ : Type}

def activate (switch : Switching σ) (settings : Settings) (surroundings : Surroundings)
    (host : Host σ) : Option (Except LaunchError (Host σ) × Journal) :=
  match settings.preference with
  | .error cause => some (.error (.settings cause), host.library.journal)
  | .ok preferred =>
    (host.startup switch preferred surroundings).map fun
      | (.ok _, host) => (.ok host, host.library.journal)
      | (.error cause, host) => (.error (.switch cause), host.library.journal)

/-- An engine over the shipped catalogs in a directory, in the locale that the settings ask for. -/
def launch (switch : Switching σ) (settings : Settings) (surroundings : Surroundings)
    (shipped : String) (disk : Disk) (memory : σ) :
    Option (Except LaunchError (Host σ) × Journal) :=
  match open? .empty .standard shipped disk [] memory with
  | (.error cause, journal) => some (.error (.start cause), journal)
  | (.ok host, _) => host.activate switch settings surroundings

end Host
end Polyglot
