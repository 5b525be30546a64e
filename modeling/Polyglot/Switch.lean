import Polyglot.Store

/-!
Switching between locales. A host has one active catalog and one to fall back to. A switch loads the
catalog of another locale, installs it, and tells the observers, who may themselves switch again,
come and go, or fail. What is installed is a snapshot with a number of its own, so that a
notification that has been overtaken by another switch can be told and broken off.
-/

namespace Polyglot

/-- The catalogs that texts are looked up in, with the number of the installation. -/
structure Snapshot where
  serial : Nat
  catalog : Catalog
  fallback : Catalog
  deriving DecidableEq, Repr

def Snapshot.locale (snapshot : Snapshot) : Locale := snapshot.catalog.locale

inductive SwitchError where
  | unknown (code : String)
  | invalid (code : String) (cause : CatalogError)
  /-- A version cannot be had, so that the catalog cannot be checked. -/
  | version (fault : VersionFault)
  deriving DecidableEq, Repr

def SwitchError.message : SwitchError → String
  | .unknown code => s!"Locale {quoted code} is not available"
  | .invalid code cause => s!"Catalog for {quoted code} failed validation: {cause.message}"
  | .version fault => fault.message

structure Observer where
  name : String
  deriving DecidableEq, Repr

def Observer.label (observer : Observer) : String := "<observer " ++ observer.name ++ ">"

/-- Everything that a switch touches. The memory is that of the observers; the host does not look at
it. -/
structure Host (σ : Type) where
  library : Library
  snapshot : Snapshot
  switching : Bool := false
  observers : List Observer := []
  memory : σ

structure View where
  active : Locale
  switching : Bool
  deriving DecidableEq, Repr

/-- What an observer does when it is called. It may look at the host and remember something, switch
to another locale, let observers come and go, and in the end return or fail. -/
inductive Script (σ : Type) where
  | done
  | fail
  | look (remember : View → σ → σ) (next : View → σ → Script σ)
  | switch (code : String) (next : Except SwitchError Locale → Script σ)
  | observe (observer : Observer) (next : Script σ)
  | unobserve (observer : Observer) (next : Script σ)

/-- What each observer does when it is told about a locale. -/
abbrev Behaviour (σ : Type) := Observer → Locale → Script σ

namespace Host

variable {σ : Type}

def view (host : Host σ) : View := ⟨host.snapshot.locale, host.switching⟩

def registry (host : Host σ) : Registry := host.library.store.registry

def report (host : Host σ) (level : Level) (text : String) : Host σ :=
  { host with library := host.library.report level .switch text }

/-- Lets an observer be told about switches; it may be told more than once about each. -/
def observe (host : Host σ) (observer : Observer) : Host σ :=
  { host with observers := host.observers ++ [observer] }

/-- Takes back the first registration of an observer. -/
def unobserve (host : Host σ) (observer : Observer) : Host σ :=
  { host with observers := host.observers.erase observer }

/-! ### Notification -/

/-- A switch, as a script can ask for it. There is no result if switches nest deeper than is
provided for. -/
abbrev Switching (σ : Type) := String → Host σ → Option (Except SwitchError Locale × Host σ)

/-- Runs a script to its end; it returns or fails. -/
def run (switch : Switching σ) : Script σ → Host σ → Option (Bool × Host σ)
  | .done, host => some (true, host)
  | .fail, host => some (false, host)
  | .look remember next, host =>
    let memory := remember host.view host.memory
    run switch (next host.view memory) { host with memory }
  | .switch code next, host =>
    match switch code host with
    | some (outcome, host) => run switch (next outcome) host
    | none => none
  | .observe observer next, host => run switch next (host.observe observer)
  | .unobserve observer next, host => run switch next (host.unobserve observer)

/-- Tells observers about an installed snapshot, one after the other, until another snapshot has
been installed. An observer that fails is reported and does not keep the others from being told. -/
def notify (switch : Switching σ) (behaviour : Behaviour σ) (installed : Snapshot) :
    List Observer → Host σ → Option (Host σ)
  | [], host => some host
  | observer :: rest, host =>
    if host.snapshot.serial ≠ installed.serial then
      some (host.report .debug
        s!"Locale {installed.locale.code} superseded during notification")
    else
      match run switch (behaviour observer installed.locale) host with
      | none => none
      | some (true, host) => notify switch behaviour installed rest host
      | some (false, host) =>
        notify switch behaviour installed rest
          (host.report .error s!"Locale change observer {observer.label} failed")

/-! ### Switching -/

/-- The snapshot that follows when a catalog becomes active. -/
def successor (host : Host σ) (catalog : Catalog) : Snapshot :=
  ⟨host.snapshot.serial + 1, catalog, host.snapshot.fallback⟩

/-- Makes a catalog active and tells the observers. -/
def install (switch : Switching σ) (behaviour : Behaviour σ) (host : Host σ) (catalog : Catalog) :
    Option (Host σ) :=
  let installed := host.successor catalog
  let text := s!"Active locale changed: {host.snapshot.locale.code} -> {installed.locale.code}"
  notify switch behaviour installed host.observers
    ({ host with snapshot := installed }.report .info text)

def switchTo (switch : Switching σ) (behaviour : Behaviour σ) (target : Locale) (host : Host σ) :
    Option (Except SwitchError Locale × Host σ) :=
  if host.snapshot.locale.same target then
    some (.ok host.snapshot.locale, host.report .debug s!"Locale {target.code} is already active")
  else
    let (outcome, library) := host.library.load target.code
    let host := { host with library }
    match outcome with
    | .error (.version fault) => some (.error (.version fault), host)
    | .error (.catalog cause) =>
      some (.error (.invalid target.code cause),
        host.report .warning s!"Switch to {target.code} failed: {cause.message}")
    | .ok catalog =>
      (install switch behaviour host catalog).map fun host => (.ok catalog.locale, host)

/-- Switches to the locale of a code. Switches that observers ask for nest inside; there is no
result if they nest deeper than the given depth. The host counts as switching from the beginning of
a switch to the end of it or of any switch inside it. -/
def switch (behaviour : Behaviour σ) : Nat → Switching σ
  | 0, _, _ => none
  | depth + 1, code, host =>
    match host.registry.locale? code with
    | none =>
      some (.error (.unknown code),
        host.report .warning s!"Rejected switch to unknown locale {quoted code}")
    | some target =>
      (switchTo (switch behaviour depth) behaviour target { host with switching := true }).map
        fun (outcome, host) => (outcome, { host with switching := false })

/-! ### Beginning -/

inductive StartError where
  | unknown (code : String)
  | load (error : LoadError)
  deriving DecidableEq, Repr

def StartError.message : StartError → String
  | .unknown code => s!"Fallback locale {quoted code} is not registered"
  | .load error => error.message

/-- The host that begins with the catalog to fall back to as the active one. An empty code means the
standard one. -/
def start (library : Library) (fallback : String) (memory : σ) :
    Except StartError (Host σ) × Journal :=
  let code := if fallback = "" then Config.standard.fallback else fallback
  if library.store.registry.contains code then
    match library.load code with
    | (.ok catalog, library) =>
      (.ok { library, snapshot := ⟨0, catalog, catalog⟩, memory }, library.journal)
    | (.error error, library) => (.error (.load error), library.journal)
  else (.error (.unknown code), library.journal)

end Host
end Polyglot
