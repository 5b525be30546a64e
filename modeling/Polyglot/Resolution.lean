import Polyglot.Switch

/-!
Resolution of texts. A text is looked up in the active catalog and, if that has no translation, in
the one to fall back to; the key itself is the last resort. Placeholders are filled afterwards.
-/

namespace Polyglot

inductive Tier where
  | active
  | fallback
  | source
  deriving DecidableEq, Repr

def Tier.name : Tier → String
  | .active => "active"
  | .fallback => "fallback"
  | .source => "source"

/-- A resolved text, with the positions that no argument was given for. -/
structure Resolution where
  text : String
  tier : Tier
  locale : Locale
  missing : List Nat
  deriving DecidableEq, Repr

def Resolution.complete (resolution : Resolution) : Bool := resolution.missing.isEmpty

namespace Snapshot

/-- The translation of a key in a catalog, if it is not empty. -/
def translation? (catalog : Catalog) (context key : String) : Option String :=
  ((catalog.lookup context key).map Message.text).filter (· != "")

def template (snapshot : Snapshot) (context key : String) : String × Tier × Locale :=
  match translation? snapshot.catalog context key with
  | some text => (text, .active, snapshot.locale)
  | none =>
    match translation? snapshot.fallback context key with
    | some text => (text, .fallback, snapshot.fallback.locale)
    | none => (key, .source, snapshot.fallback.locale)

def resolve (snapshot : Snapshot) (context key : String) (arguments : List String) : Resolution :=
  let (text, tier, locale) := snapshot.template context key
  let (text, missing) := Placeholder.substitute text arguments
  { text, tier, locale, missing }

/-- What there is to report about a resolution: that the active catalog had no text, and that
arguments are missing. -/
def resolutionJournal (snapshot : Snapshot) (context key : String) (arguments : List String)
    (resolution : Resolution) : Journal :=
  let place := s!"{context}/{quoted key}"
  let lacking := s!"No {snapshot.locale.code} translation for {place}"
  let missing := s!"Missing arguments {listSlots resolution.missing} for {place}"
  (if resolution.tier = .active then []
    else [⟨.debug, .resolver, s!"{lacking}; using {resolution.tier.name} text"⟩]) ++
  (if resolution.missing = [] then []
    else [⟨.warning, .resolver, s!"{missing} ({arguments.length} given)"⟩])

end Snapshot

namespace Host

variable {σ : Type}

def resolve (host : Host σ) (context key : String) (arguments : List String) :
    Resolution × Host σ :=
  let resolution := host.snapshot.resolve context key arguments
  let journal := host.snapshot.resolutionJournal context key arguments resolution
  (resolution, { host with library.journal := host.library.journal ++ journal })

end Host
end Polyglot
