import Polyglot.Proofs.Alike
import Polyglot.Proofs.Course

/-!
How a host finds its first locale. As long as no catalog is forgotten, the one to fall back to is in
the cache, so that there is always a locale to end with. It is the first candidate that works: one
that is active already, or whose catalog is in the cache or can be read from its file. A candidate
that does not work leaves nothing behind but records. Only a version that is too long, in the file
of a candidate before that, puts an end to a startup.
-/

namespace Polyglot

instance decidableExistsOk {ε α : Type} (outcome : Except ε α) :
    Decidable (∃ value, outcome = .ok value) :=
  match outcome with
  | .ok value => isTrue ⟨value, rfl⟩
  | .error _ => isFalse fun h => nomatch h.choose_spec

/-! ### Candidates -/

namespace Registry

theorem mem_locales_of_match? {registry : Registry} {code : String} {locale : Locale}
    (h : registry.match? code = some locale) : locale ∈ registry.locales := by
  simp only [match?] at h
  split at h
  · cases h
  · split at h
    · rename_i found hfound
      cases h
      exact mem_locales_of_locale? hfound
    · exact List.mem_of_find?_eq_some h

theorem mem_locales_of_detect {registry : Registry} {system : Surroundings} {locale : Locale}
    (h : (registry.detect system).1 = some locale) : locale ∈ registry.locales := by
  simp only [detect] at h
  split at h
  · rename_i found candidate hfound
    cases h
    obtain ⟨other, -, hother⟩ := List.exists_of_findSome?_eq_some hfound
    obtain ⟨matched, hmatched, heq⟩ := Option.map_eq_some_iff.mp hother
    cases heq
    exact mem_locales_of_match? hmatched
  · cases h

end Registry

/-! ### Catalogs that are at hand -/

namespace Library

/-- What is in the cache stays there when a catalog is loaded. -/
theorem get?_load_of_cached {library : Library} {other : String} {catalog : Catalog}
    (h : library.store.cached.get? other = some catalog) (code : String) :
    (library.load code).2.store.cached.get? other = some catalog := by
  by_cases hcode : other = code
  · subst hcode
    rw [load_of_cached h]
    exact h
  · rw [get?_load_of_ne library hcode, h]

/-- A catalog is loaded when it is in the cache or can be read from its file. -/
theorem exists_load_iff {library : Library} {code : String} :
    (∃ catalog, (library.load code).1 = .ok catalog) ↔
      library.store.isCached code = true ∨ ∃ catalog, library.found code = .ok catalog := by
  unfold Store.isCached Table.contains found
  rcases library.load_cases code with
    ⟨catalog, hcached, hload, -⟩ | ⟨error, hcached, hfetch, hload, -⟩ |
      ⟨catalog, hcached, hfetch, hload, -⟩
  · exact iff_of_true ⟨catalog, hload⟩ (Or.inl (by rw [hcached, Option.isSome_some]))
  · rw [hcached, hfetch, hload]
    simp
  · exact iff_of_true ⟨catalog, hload⟩ (Or.inr ⟨catalog, hfetch⟩)

end Library

namespace Host

variable {σ : Type}

/-- A locale works when it is active, or its catalog is in the cache or can be read from its
file. -/
def Works (host : Host σ) (locale : Locale) : Prop :=
  locale.code = host.snapshot.locale.code ∨ host.library.store.isCached locale.code = true ∨
    ∃ catalog, host.library.found locale.code = .ok catalog

instance (host : Host σ) : DecidablePred host.Works := fun locale =>
  inferInstanceAs (Decidable (locale.code = host.snapshot.locale.code ∨
    host.library.store.isCached locale.code = true ∨
      ∃ catalog, host.library.found locale.code = .ok catalog))

/-- The locale that matches the preferred code, and the one that fits the surroundings. -/
def wanted (host : Host σ) (preferred : Option String) (system : Surroundings) : List Locale :=
  (preferred.bind host.registry.match?).toList ++ (host.registry.detect system).1.toList

/-- Among some locales, the first that works or whose file declares a version that is too long is of
the second kind. -/
inductive Stumbles (host : Host σ) (digits : Nat) : List Locale → Prop where
  | here {locale : Locale} {rest : List Locale} (hworks : ¬host.Works locale)
      (hoverlong : host.library.store.Overlong host.library.disk locale.code digits) :
      Stumbles host digits (locale :: rest)
  | later {locale : Locale} {rest : List Locale} (hworks : ¬host.Works locale)
      (hshort : ∀ other, ¬host.library.store.Overlong host.library.disk locale.code other)
      (h : Stumbles host digits rest) : Stumbles host digits (locale :: rest)

theorem Stumbles.write {host : Host σ} {digits : Nat} {locales : List Locale}
    (h : host.Stumbles digits locales) (journal : Journal) (switching : Bool) :
    Stumbles { host with library.journal := journal, switching } digits locales := by
  induction h with
  | here hworks hoverlong => exact .here hworks hoverlong
  | later hworks hshort _ ih => exact .later hworks hshort ih

/-- Records that are written make no difference, nor does the mark of switching. -/
theorem stumbles_write_iff {host : Host σ} {digits : Nat} {locales : List Locale}
    {journal : Journal} {switching : Bool} :
    Stumbles { host with library.journal := journal, switching } digits locales ↔
      host.Stumbles digits locales :=
  ⟨fun h => h.write host.library.journal host.switching, fun h => h.write journal switching⟩

theorem not_stumbles_of_auditable {host : Host σ} (h : host.library.Auditable) (digits : Nat)
    (locales : List Locale) : ¬host.Stumbles digits locales := by
  intro hstumbles
  induction hstumbles with
  | here _ hoverlong => exact h _ _ hoverlong
  | later _ _ _ ih => exact ih

/-- The first of some locales that works; without one, the locale to fall back to. -/
def firstWorking (host : Host σ) (locales : List Locale) : Locale :=
  (locales.find? (host.Works ·)).getD host.snapshot.fallback.locale

theorem startupCandidates_fst (host : Host σ) (preferred : Option String) (system : Surroundings) :
    (host.startupCandidates preferred system).1 = host.wanted preferred system := by
  cases preferred with
  | none =>
      simp only [startupCandidates, wanted, Option.filter_none, Option.bind_none,
        Option.toList_none]
  | some code =>
      by_cases hempty : code = ""
      · subst hempty
        have hfilter : (some "").filter (· != "") = none := rfl
        have hmatch : host.registry.match? "" = none := rfl
        simp only [startupCandidates, wanted, hfilter, hmatch, Option.bind_some,
          Option.toList_none]
      · have hfilter : (some code).filter (· != "") = some code := by
          rw [Option.filter_some, if_pos (by simpa)]
        cases hmatch : host.registry.match? code with
        | none =>
            have hregistry : (host.engineReport .info
                s!"Configured language {quoted code} is not supported").registry =
                  host.registry := rfl
            simp only [startupCandidates, wanted, hfilter, hmatch, Option.bind_some,
              Option.toList_none, hregistry]
        | some locale =>
            simp only [startupCandidates, wanted, hfilter, hmatch, Option.bind_some,
              Option.toList_some]

theorem mem_locales_of_wanted {host : Host σ} {preferred : Option String} {system : Surroundings}
    {locale : Locale} (h : locale ∈ host.wanted preferred system) :
    locale ∈ host.registry.locales := by
  rcases List.mem_append.mp h with hchosen | hdetected
  · obtain ⟨code, -, hmatch⟩ := Option.bind_eq_some_iff.mp (Option.mem_toList.mp hchosen)
    exact Registry.mem_locales_of_match? hmatch
  · exact Registry.mem_locales_of_detect (Option.mem_toList.mp hdetected)

/-! ### The catalog to fall back to stays at hand -/

/-- A catalog is in the cache, under the code of its locale. -/
def Keeps (host : Host σ) (catalog : Catalog) : Prop :=
  host.library.store.cached.get? catalog.locale.code = some catalog

/-- An operation that forgets no catalog. -/
def Retaining (_ : Nat) (_ : Host σ) : Operation σ → Prop
  | .library (.forget _) => False
  | _ => True

section Keeps

variable {host next : Host σ} {catalog : Catalog} (hkeeps : host.Keeps catalog)

include hkeeps

theorem Keeps.change (h : Change host next) : next.Keeps catalog := by
  cases h with
  | load code => exact Library.get?_load_of_cached hkeeps code
  | _ => exact hkeeps

theorem Keeps.changes (h : Changes host next) : next.Keeps catalog := by
  induction h with
  | refl => exact hkeeps
  | tail _ hchange ih => exact ih.change hchange

theorem Keeps.perform {behaviour : Behaviour σ} {depth : Nat} {operation : Operation σ}
    (hretaining : Retaining depth host operation)
    (h : host.perform (switch behaviour depth) operation = some next) : next.Keeps catalog := by
  rcases perform_cases h with ⟨inner, rfl, rfl⟩ | hchanges
  · cases inner with
    | load code => exact hkeeps.change (Change.load host code)
    | forget code => exact hretaining.elim
    | write path entry => exact hkeeps
    | remove path => exact hkeeps
  · exact hkeeps.changes hchanges

end Keeps

/-- The catalog to fall back to is in the cache. -/
def Held (host : Host σ) : Prop :=
  host.library.store.cached.get? host.snapshot.fallback.locale.code = some host.snapshot.fallback

theorem Held.perform {behaviour : Behaviour σ} {depth : Nat} {operation : Operation σ}
    {host next : Host σ} (hheld : host.Held) (hretaining : Retaining depth host operation)
    (h : host.perform (switch behaviour depth) operation = some next) : next.Held := by
  have hkeeps : next.Keeps host.snapshot.fallback := Keeps.perform hheld hretaining h
  rw [← fallback_of_perform h] at hkeeps
  exact hkeeps

theorem held_of_start {library : Library} {fallback : String} {memory : σ} {host : Host σ}
    (hvalid : library.store.Valid) (h : (Host.start library fallback memory).1 = .ok host) :
    host.Held := by
  obtain ⟨code, catalog, hload, rfl⟩ := eq_of_start h
  have hcached := Library.get?_load hload
  have hregistered := (Library.load_valid hvalid code).registered code catalog hcached
  have hcode : catalog.locale.code = code := Registry.code_of_locale? hregistered
  rw [Held, hcode]
  exact hcached

theorem Course.held {behaviour : Behaviour σ} {start host : Host σ}
    (h : Course behaviour Retaining start host) (hstart : start.Held) : host.Held := by
  induction h with
  | start => exact hstart
  | perform _ _ _ hkeeps h ih => exact ih.perform hkeeps h

/-! ### Trying one locale after the other -/

/-- A host that can always start: there is nobody to be told, the catalog to fall back to is at
hand, and the configured minimum is a version. -/
structure Ready (host : Host σ) : Prop where
  valid : host.Valid
  held : host.Held
  alone : host.observers = []
  minimum : (Version.parse? host.library.store.config.minVersion).isSome = true

/-- Records that are written make no difference, nor does the mark of switching. -/
theorem Ready.write {host : Host σ} (h : host.Ready) (journal : Journal) (switching : Bool) :
    Ready { host with library.journal := journal, switching } where
  valid := (h.valid.change (Change.write host journal)).change (Change.mark _ switching)
  held := h.held
  alone := h.alone
  minimum := h.minimum

/-- A locale that is registered and works can be switched to. -/
theorem Ready.switch_of_works {host : Host σ} (h : host.Ready) {locale : Locale}
    (hlocale : locale ∈ host.registry.locales) (hworks : host.Works locale)
    (behaviour : Behaviour σ) (depth : Nat) :
    ∃ next, switch behaviour (depth + 1) locale.code host = some (.ok locale, next) ∧
      next.snapshot.locale = locale := by
  by_cases hactive : locale.code = host.snapshot.locale.code
  · obtain ⟨hsame, next, hswitch, hsnapshot⟩ :=
      switch_of_active_mem h.valid.activeRegistered hlocale hactive behaviour depth
    exact ⟨next, hswitch, by rw [hsnapshot, hsame]⟩
  · obtain ⟨catalog, hload⟩ := Library.exists_load_iff.mpr (hworks.resolve_left hactive)
    have hcached := (Library.load_valid h.valid.store locale.code).registered _ _
      (Library.get?_load hload)
    rw [Library.load_registry] at hcached
    have hcatalog : catalog.locale = locale :=
      Option.some.inj (hcached.symm.trans (Registry.locale?_of_mem hlocale))
    obtain ⟨registration, hfind, -⟩ := Registry.mem_locales_iff.mp hlocale
    have hswitch := @switch_of_loaded _ behaviour depth _ host _ _ hfind hactive hload
    rw [install_eq, hcatalog] at hswitch
    -- Nobody is told, so the catalog is installed and nothing else happens.
    simp only [h.alone, notify, Option.map_some] at hswitch
    exact ⟨_, hswitch, hcatalog⟩

/-- A switch to a registered locale that does not work fails, and changes only the journal. -/
theorem Ready.switch_of_not_works {host : Host σ} (h : host.Ready) {locale : Locale}
    (hlocale : locale ∈ host.registry.locales) (hworks : ¬host.Works locale)
    (behaviour : Behaviour σ) (depth : Nat) :
    ∃ error journal, switch behaviour (depth + 1) locale.code host =
        some (.error error, { host with library.journal := journal, switching := false }) ∧
      ((∃ cause, error = .invalid locale.code cause ∧
          ∀ digits, ¬host.library.store.Overlong host.library.disk locale.code digits) ∨
        ∃ digits, error = .version (.oversized digits) ∧
          host.library.store.Overlong host.library.disk locale.code digits) := by
  obtain ⟨registration, hfind, -⟩ := Registry.mem_locales_iff.mp hlocale
  have hactive : locale.code ≠ host.snapshot.locale.code := fun hcode => hworks (Or.inl hcode)
  have hload : ¬∃ catalog, (host.library.load locale.code).1 = .ok catalog := fun hload =>
    hworks (Or.inr (Library.exists_load_iff.mp hload))
  rcases host.library.load_cases locale.code with
    ⟨catalog, -, hok, -⟩ | ⟨error, hcached, hfetch, -, -⟩ | ⟨catalog, -, -, hok, -⟩
  · exact absurd ⟨catalog, hok⟩ hload
  · rcases Store.fetch_error h.minimum hfetch with ⟨cause, rfl⟩ | ⟨digits, rfl, hoverlong⟩
    · refine ⟨_, _, switch_of_rejected hfind hactive hcached hfetch,
        Or.inl ⟨cause, rfl, fun digits hoverlong => ?_⟩⟩
      cases (Store.fetch_of_overlong hoverlong).symm.trans hfetch
    · exact ⟨_, _, switch_of_version hfind hactive hcached hfetch,
        Or.inr ⟨digits, rfl, hoverlong⟩⟩
  · exact absurd ⟨catalog, hok⟩ hload

/-- What comes of trying locales, with what is active in the end. A version that is too long is
reached and reported, and then what was active stays so; otherwise the first locale that works
becomes active, and without one the locale to fall back to. -/
structure Tried (host : Host σ) (locales : List Locale)
    (outcome : Except SwitchError Locale) (active : Locale) : Prop where
  stumbled : ∀ digits, host.Stumbles digits locales →
    outcome = .error (.version (.oversized digits)) ∧ active = host.snapshot.locale
  found : (∀ digits, ¬host.Stumbles digits locales) →
    outcome = .ok (host.firstWorking locales) ∧ active = host.firstWorking locales

section Tried

variable {host : Host σ} {locale : Locale} {rest : List Locale}

theorem Tried.nil :
    host.Tried [] (.ok host.snapshot.fallback.locale) host.snapshot.fallback.locale where
  stumbled := fun _ hstumbles => nomatch hstumbles
  found := fun _ => ⟨rfl, rfl⟩

theorem Tried.of_works (hworks : host.Works locale) :
    host.Tried (locale :: rest) (.ok locale) locale where
  stumbled := by
    intro digits hstumbles
    cases hstumbles with
    | here hnot _ => exact absurd hworks hnot
    | later hnot _ _ => exact absurd hworks hnot
  found := by
    intro _
    rw [firstWorking, List.find?_cons_of_pos (by simpa using hworks), Option.getD_some]
    exact ⟨rfl, rfl⟩

theorem Tried.of_overlong (hworks : ¬host.Works locale) {digits : Nat}
    (hoverlong : host.library.store.Overlong host.library.disk locale.code digits) :
    host.Tried (locale :: rest) (.error (.version (.oversized digits))) host.snapshot.locale where
  stumbled := by
    intro other hstumbles
    cases hstumbles with
    | here _ hthis =>
        cases (Store.fetch_of_overlong hthis).symm.trans (Store.fetch_of_overlong hoverlong)
        exact ⟨rfl, rfl⟩
    | later _ hshort _ => exact absurd hoverlong (hshort digits)
  found := fun hnone => absurd (.here hworks hoverlong) (hnone digits)

/-- A locale that neither works nor declares such a version is passed over. -/
theorem Tried.cons (hworks : ¬host.Works locale)
    (hshort : ∀ digits, ¬host.library.store.Overlong host.library.disk locale.code digits)
    {outcome : Except SwitchError Locale} {active : Locale} (h : host.Tried rest outcome active) :
    host.Tried (locale :: rest) outcome active where
  stumbled := by
    intro digits hstumbles
    cases hstumbles with
    | here _ hoverlong => exact absurd hoverlong (hshort digits)
    | later _ _ hlater => exact h.stumbled digits hlater
  found := by
    intro hnone
    rw [firstWorking, List.find?_cons_of_neg (by simpa using hworks), ← firstWorking]
    exact h.found fun digits hlater => hnone digits (.later hworks hshort hlater)

/-- What the journal and the flag of a round hold has no part in a trial. -/
theorem Tried.of_write {locales : List Locale} {journal : Journal} {switching : Bool}
    {outcome : Except SwitchError Locale} {active : Locale}
    (h : Tried { host with library.journal := journal, switching } locales outcome active) :
    host.Tried locales outcome active where
  stumbled := fun digits hstumbles => h.stumbled digits (stumbles_write_iff.mpr hstumbles)
  found := fun hnone =>
    h.found fun digits hstumbles => hnone digits (stumbles_write_iff.mp hstumbles)

end Tried

theorem Ready.tryLocales {host : Host σ} (h : host.Ready) {locales : List Locale}
    (hlocales : ∀ locale ∈ locales, locale ∈ host.registry.locales) (behaviour : Behaviour σ)
    (depth : Nat) :
    ∃ outcome next, tryLocales (switch behaviour (depth + 1)) locales
        host.snapshot.fallback.locale.code host = some (outcome, next) ∧
      host.Tried locales outcome next.snapshot.locale := by
  induction locales generalizing host with
  | nil =>
      have hreported : Ready (host.engineReport .info
          s!"Using fallback locale {host.snapshot.fallback.locale.code}") := h.write _ _
      have hfallback : host.snapshot.fallback.locale ∈ host.registry.locales :=
        Registry.mem_locales_of_locale? h.valid.fallbackRegistered
      have hcached : host.library.store.isCached host.snapshot.fallback.locale.code = true :=
        congrArg Option.isSome h.held
      obtain ⟨next, hnext, hactive⟩ :=
        hreported.switch_of_works hfallback (Or.inr (Or.inl hcached)) behaviour depth
      refine ⟨_, next, hnext, ?_⟩
      rw [hactive]
      exact .nil
  | cons locale rest ih =>
      have hmem := hlocales locale List.mem_cons_self
      rw [Host.tryLocales]
      by_cases hworks : host.Works locale
      · obtain ⟨next, hnext, hactive⟩ := h.switch_of_works hmem hworks behaviour depth
        rw [hnext]
        refine ⟨_, next, rfl, ?_⟩
        rw [hactive]
        exact .of_works hworks
      · obtain ⟨error, journal, hnext, hkind⟩ :=
          h.switch_of_not_works hmem hworks behaviour depth
        rw [hnext]
        rcases hkind with ⟨cause, rfl, hshort⟩ | ⟨digits, rfl, hoverlong⟩
        · -- The rest is tried by a host that differs in its records only.
          let text := SwitchError.message (.invalid locale.code cause)
          let middle := engineReport { host with library.journal := journal, switching := false }
            .warning s!"Unable to activate {locale.code} at startup: {text}"
          obtain ⟨outcome, last, hlast, htried⟩ :=
            ih (h.write middle.library.journal false) fun other hother =>
              hlocales other (List.mem_cons_of_mem locale hother)
          exact ⟨outcome, last, hlast, .cons hworks hshort htried.of_write⟩
        · exact ⟨_, _, rfl, .of_overlong hworks hoverlong⟩

/-- A host that can always start tries the locales that are wanted. -/
theorem Ready.startup {host : Host σ} (h : host.Ready) (behaviour : Behaviour σ) (depth : Nat)
    (preferred : Option String) (system : Surroundings) :
    ∃ outcome next, host.startup (switch behaviour (depth + 1)) preferred system =
        some (outcome, next) ∧
      host.Tried (host.wanted preferred system) outcome next.snapshot.locale := by
  obtain ⟨journal, hbegun⟩ := startupCandidates_eq host preferred system
  rw [startup_eq, startupCandidates_fst, hbegun]
  have hready : Ready { host with library.journal := journal } := h.write journal host.switching
  obtain ⟨outcome, next, hnext, htried⟩ :=
    hready.tryLocales (fun locale hlocale => mem_locales_of_wanted hlocale) behaviour depth
  exact ⟨outcome, next, hnext, htried.of_write⟩

/-- Startup picks the first candidate that works. A host that nobody observes, and that has been
asked for anything but to forget a catalog, makes the first wanted locale active that is active
already, or whose catalog is in the cache or can be read from its file, and without one the locale
to fall back to. It refuses to start just when it first comes to a candidate whose file declares a
version that is too long; then what was active stays so. -/
theorem startup_of_course {behaviour : Behaviour σ} {library : Library} {code : String}
    {memory : σ} {start host : Host σ} (hlibrary : library.Reachable)
    (hstart : (Host.start library code memory).1 = .ok start)
    (hcourse : Course behaviour Retaining start host) (halone : host.observers = [])
    (hminimum : (Version.parse? host.library.store.config.minVersion).isSome = true) (depth : Nat)
    (preferred : Option String) (system : Surroundings) :
    ∃ outcome next, host.startup (switch behaviour (depth + 1)) preferred system =
        some (outcome, next) ∧
      host.Tried (host.wanted preferred system) outcome next.snapshot.locale := by
  have hvalid : host.Valid := hcourse.valid (valid_of_start hlibrary.valid hstart)
  have hheld : host.Held := hcourse.held (held_of_start hlibrary.valid hstart)
  have hready : host.Ready := ⟨hvalid, hheld, halone, hminimum⟩
  exact hready.startup behaviour depth preferred system

/-! ### A catalog that breaks off -/

def brokenOffCatalog : Entry := .file "<TS version=\"2.1\" language=\"ru_RU\"><context>".toUTF8

/-- The bilingual host after its Russian catalog has been cut short on the disk. -/
def coldHost : Host Unit :=
  { bilingualHost with
    library := bilingualHost.library.perform (.write "veil_ru.ts" brokenOffCatalog) }

/-- The same, but the Russian catalog has been loaded before. -/
def warmHost : Host Unit :=
  { bilingualHost with
    library := attendedHost.library.perform (.write "veil_ru.ts" brokenOffCatalog) }

theorem not_overlong_coldHost (digits : Nat) :
    ¬coldHost.library.store.Overlong coldHost.library.disk "ru_RU" digits := by
  intro hoverlong
  obtain ⟨registration, bytes, hfind, hread, document, root, hparse, -⟩ := hoverlong
  cases hfind
  cases hread
  have hmalformed : Xml.Document.parse? "<TS version=\"2.1\" language=\"ru_RU\"><context>".toUTF8 =
    none := Option.isNone_iff_eq_none.mp (by decide +kernel)
  cases hmalformed.symm.trans hparse

theorem startup_of_course_brokenOff : bilingual.Reachable ∧
    (Host.start bilingual "en_US" ()).1 = .ok bilingualHost ∧
      Course takeBack Retaining bilingualHost coldHost ∧ coldHost.observers = [] ∧
      Course takeBack Retaining bilingualHost warmHost ∧ warmHost.observers = [] ∧
      (Version.parse? Config.standard.minVersion).isSome = true ∧
      (∃ next, coldHost.startup (switch takeBack 1) (some "ru-UA") {} = some (.ok english, next)) ∧
      ∃ next, warmHost.startup (switch takeBack 1) (some "ru-UA") {} =
        some (.ok russian, next) := by
  have hreachable : bilingual.Reachable := .fresh rfl
  have hminimum := Config.isSome_parse?_minVersion
  have hcold : Course takeBack Retaining bilingualHost coldHost :=
    .perform 0 (.library (.write "veil_ru.ts" brokenOffCatalog)) .start trivial rfl
  have hload : bilingualHost.perform (switch takeBack 0) (.library (.load "ru_RU")) =
      some { bilingualHost with library := attendedHost.library } := by
    rw [perform, Library.perform, load_russian]
  have hloaded : Course takeBack Retaining bilingualHost
      { bilingualHost with library := attendedHost.library } :=
    .perform 0 (.library (.load "ru_RU")) .start trivial hload
  have hwarm : Course takeBack Retaining bilingualHost warmHost :=
    .perform 0 (.library (.write "veil_ru.ts" brokenOffCatalog)) hloaded trivial rfl
  obtain ⟨outcome, next, hnext, htried⟩ :=
    startup_of_course hreachable start_bilingual hcold rfl hminimum 0 (some "ru-UA") {}
  obtain ⟨outcome', last, hlast, htried'⟩ :=
    startup_of_course hreachable start_bilingual hwarm rfl hminimum 0 (some "ru-UA") {}
  have henglish : coldHost.firstWorking [russian] = english := by decide +kernel
  have hrussian : warmHost.firstWorking [russian] = russian := by decide +kernel
  have hworks : warmHost.Works russian := by decide +kernel
  have hwanted : coldHost.wanted (some "ru-UA") {} = [russian] := by decide +kernel
  have hwanted' : warmHost.wanted (some "ru-UA") {} = [russian] := by decide +kernel
  rw [hwanted] at htried
  rw [hwanted'] at htried'
  have hfound := (htried.found fun digits => ?_).1
  have hfound' := (htried'.found fun digits => ?_).1
  · rw [henglish] at hfound
    rw [hrussian] at hfound'
    subst hfound hfound'
    exact ⟨hreachable, start_bilingual, hcold, rfl, hwarm, rfl, hminimum, ⟨next, hnext⟩, last,
      hlast⟩
  · intro hstumbles
    cases hstumbles with
    | here hnot _ => exact hnot hworks
    | later hnot _ _ => exact hnot hworks
  · intro hstumbles
    cases hstumbles with
    | here _ hoverlong => exact not_overlong_coldHost digits hoverlong
    | later _ _ hrest => cases hrest

/-- A preferred locale whose file declares a version that is too long keeps a host from starting. -/
theorem not_startup_of_overlong : bilingual.Reachable ∧
    (Host.start bilingual "en_US" ()).1 = .ok bilingualHost ∧
      Course takeBack Retaining bilingualHost overlongHost ∧ overlongHost.observers = [] ∧
      (Version.parse? Config.standard.minVersion).isSome = true ∧
      ¬∃ locale next, overlongHost.startup (switch takeBack 1) (some "ru") {} =
        some (.ok locale, next) := by
  have hreachable : bilingual.Reachable := .fresh rfl
  have hminimum := Config.isSome_parse?_minVersion
  have hcourse : Course takeBack Retaining bilingualHost overlongHost :=
    .perform 0 (.library (.write "veil_ru.ts" (.file overlongBytes))) .start trivial rfl
  refine ⟨hreachable, start_bilingual, hcourse, rfl, hminimum, fun hstarts => ?_⟩
  obtain ⟨locale, next, hnext⟩ := hstarts
  have hready : overlongHost.Ready := ⟨(atRest_overlong takeBack).valid, rfl, rfl, hminimum⟩
  obtain ⟨outcome, last, hlast, htried⟩ := hready.startup takeBack 0 (some "ru") {}
  have hwanted : overlongHost.wanted (some "ru") {} = [russian] := by decide +kernel
  have hworks : ¬overlongHost.Works russian := by
    intro hworks
    rcases hworks with hactive | hcached | ⟨catalog, hfound⟩
    · revert hactive
      decide
    · cases hcached
    · cases (Library.found_of_overlong overlong_overlongHost).symm.trans hfound
  rw [hwanted] at htried
  obtain ⟨rfl, -⟩ := htried.stumbled 4301 (.here hworks overlong_overlongHost)
  cases hlast.symm.trans hnext

end Host
end Polyglot
