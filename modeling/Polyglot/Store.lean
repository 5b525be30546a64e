import Polyglot.Registry

/-!
The store: the catalogs that have been loaded. A catalog is read from the disk when it is first
asked for and kept until it is forgotten; nothing is kept of a catalog that does not load.
-/

namespace Polyglot

structure Store where
  registry : Registry
  config : Config
  cached : Table Catalog := []

/-- What a catalog is asked for with: a code, or a locale, of which only the code counts. -/
inductive Request where
  | code (code : String)
  | locale (locale : Locale)

def Request.key : Request → String
  | .code text => text
  | .locale target => target.code

/-- What a store works with: the disk that it reads, and the journal that it writes. -/
structure Library where
  store : Store
  disk : Disk
  journal : Journal := []

namespace Store

def isCached (store : Store) (code : String) : Bool := store.cached.contains code

def forget (store : Store) : Option String → Store
  | some code => { store with cached := store.cached.remove code }
  | none => { store with cached := [] }

/-- Reads a catalog from the disk, past the cache. -/
def fetch (store : Store) (disk : Disk) (code : String) : Catalog.Reading :=
  match store.registry.find? code with
  | none => ⟨.error (.catalog ⟨.unregistered, code, none, none⟩), []⟩
  | some registration =>
    match disk.read registration.path with
    | .error cause =>
      ⟨.error (.catalog ⟨.unreadable registration.path cause, code, none, none⟩), []⟩
    | .ok bytes => Catalog.ofBytes store.config registration.locale bytes

def loadRecord (store : Store) (code : String) (catalog : Catalog) : Record :=
  let path := (store.registry.path? code).getD ""
  let extent := s!"({catalog.contexts.length} contexts, {catalog.size} messages)"
  ⟨.info, .store, s!"Loaded catalog {code} from {path} {extent}"⟩

end Store

namespace Library

def report (library : Library) (level : Level) (channel : Channel) (text : String) : Library :=
  { library with journal := library.journal ++ [⟨level, channel, text⟩] }

/-- The catalog of a code, from the cache or from the disk. -/
def load (library : Library) (code : String) : Except LoadError Catalog × Library :=
  match library.store.cached.get? code with
  | some catalog => (.ok catalog, library.report .debug .store s!"Catalog cache hit for {code}")
  | none =>
    let reading := library.store.fetch library.disk code
    let journal := library.journal ++ reading.journal
    match reading.outcome with
    | .error error => (.error error, { library with journal })
    | .ok catalog =>
      let store := { library.store with cached := library.store.cached.put code catalog }
      (.ok catalog, { library with store, journal := journal ++ [store.loadRecord code catalog] })

def answer (library : Library) (request : Request) : Except LoadError Catalog × Library :=
  library.load request.key

end Library
end Polyglot
