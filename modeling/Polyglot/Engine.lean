import Polyglot.Resolution

/-!
The engine: a host over a registry, and the choice of the locale at startup.
-/

namespace Polyglot

namespace Host

variable {σ : Type}

/-- An engine over a registry. An empty registry is replaced by that of the shipped catalogs. -/
def open? (registry : Registry) (config : Config) (shipped : String) (disk : Disk)
    (journal : Journal) (memory : σ) : Except StartError (Host σ) × Journal :=
  let (registry, journal) :=
    if registry.size = 0 then
      let (registry, more) := Registry.listed config shipped
      (registry, journal ++ more)
    else (registry, journal)
  Host.start { store := { registry, config }, disk, journal } config.fallback memory

/-- An engine over the catalogs of a directory. -/
def openDirectory? (config : Config) (shipped : String) (disk : Disk) (directory : String)
    (memory : σ) : Except StartError (Host σ) × Journal :=
  let (registry, journal) := Registry.discover config disk directory
  open? registry config shipped disk journal memory

def engineReport (host : Host σ) (level : Level) (text : String) : Host σ :=
  { host with library := host.library.report level .engine text }

/-- The locales to try at startup, the best first: the preferred one, then the one that fits the
host system. -/
def startupCandidates (host : Host σ) (preferred : Option String) (system : Surroundings) :
    List Locale × Host σ :=
  let (chosen, host) :=
    match preferred.filter (· != "") with
    | none => ([], host)
    | some code =>
      match host.registry.match? code with
      | some locale => ([locale], host)
      | none =>
        ([], host.engineReport .info s!"Configured language {quoted code} is not supported")
  let (detected, journal) := host.registry.detect system
  (chosen ++ detected.toList,
    { host with library.journal := host.library.journal ++ journal })

/-- Tries locales one after the other, and the one to fall back to in the end. A locale whose switch
is refused is reported; a version that cannot be had puts an end to it. -/
def tryLocales (switch : Switching σ) : List Locale → Switching σ
  | [], fallback, host =>
    switch fallback (host.engineReport .info s!"Using fallback locale {fallback}")
  | locale :: rest, fallback, host =>
    match switch locale.code host with
    | some (.error (.version fault), host) => some (.error (.version fault), host)
    | some (.error error, host) =>
      let text := s!"Unable to activate {locale.code} at startup: {error.message}"
      tryLocales switch rest fallback (host.engineReport .warning text)
    | result => result

def startup (switch : Switching σ) (host : Host σ) (preferred : Option String)
    (system : Surroundings) : Option (Except SwitchError Locale × Host σ) :=
  let (candidates, host) := host.startupCandidates preferred system
  tryLocales switch candidates host.snapshot.fallback.locale.code host

end Host
end Polyglot
