import Polyglot.Proofs.Audit
import Polyglot.Proofs.Outcome

/-!
What a host serves after its directory has been audited. As long as no file is written, a host shows
what the files hold: every switch to a registered locale takes place, and every key of the base
catalog has a text in the active catalog.
-/

namespace Polyglot

/-! ### Translated keys -/

theorem Catalog.mem_messages_of_lookup {catalog : Catalog} {context key : String}
    {message : Message} (h : catalog.lookup context key = some message) :
    message ∈ catalog.messages := by
  obtain ⟨messages, hmessages, hmessage⟩ := Option.bind_eq_some_iff.mp h
  exact List.mem_flatMap.mpr ⟨(context, messages), Table.mem_of_get? hmessages,
    List.mem_map_of_mem (Table.mem_of_get? hmessage)⟩

/-- In a complete directory every catalog has a text for every key of the base. -/
theorem Library.Complete.translation? {source : Library} (h : source.Complete) {code : String}
    {catalog base : Catalog} (hcatalog : source.found code = .ok catalog)
    (hbase : source.found source.store.config.fallback = .ok base) {context key : String}
    (hkey : base.contains context key = true) :
    ∃ text, Snapshot.translation? catalog context key = some text := by
  have hregistered := (Store.fetch_ok hcatalog).2
  have hcode := Registry.code_of_locale? hregistered
  have hmem := Registry.mem_locales_of_locale? hregistered
  rw [← hcode] at hcatalog
  have hcontains := h.covers catalog.locale hmem catalog base hcatalog hbase context key hkey
  obtain ⟨message, hlookup⟩ := Option.isSome_iff_exists.mp hcontains
  have htext := h.translated catalog.locale hmem catalog hcatalog message
    (Catalog.mem_messages_of_lookup hlookup)
  refine ⟨message.text, ?_⟩
  rw [Snapshot.translation?, hlookup, Option.map_some, Option.filter_some, if_pos (by simpa)]

namespace Host

variable {σ : Type} {behaviour : Behaviour σ}

/-! ### Hosts over files that stay as they are -/

/-- The host works on the same files as the source, and its active catalog is what they hold. -/
structure Current (source : Library) (host : Host σ) : Prop where
  library : source.Current host.library
  active : source.found host.snapshot.locale.code = .ok host.snapshot.catalog

section Current

variable {source : Library} {host next : Host σ} (h : Current source host)

include h

theorem Current.registry_eq : host.registry = source.store.registry := h.library.registry

theorem Current.change (hchange : Change host next) : Current source next := by
  cases hchange with
  | load code => exact ⟨h.library.load code, h.active⟩
  | install hcached =>
      have hfound := h.library.cached _ _ hcached
      have hcode := Registry.code_of_locale? (Store.fetch_ok hfound).2
      exact ⟨h.library, hcode.symm ▸ hfound⟩
  | _ => exact ⟨⟨h.library.registry, h.library.config, h.library.disk, h.library.cached⟩, h.active⟩

theorem Current.changes (hchanges : Changes host next) : Current source next := by
  induction hchanges with
  | refl => exact h
  | tail _ hchange ih => exact ih.change hchange

/-- The active locale is registered. -/
theorem Current.locale?_active :
    host.registry.locale? host.snapshot.locale.code = some host.snapshot.locale := by
  rw [h.registry_eq]
  exact (Store.fetch_ok h.active).2

end Current

/-- An operation that writes and removes no file. -/
def Operation.KeepsFiles : Operation σ → Prop
  | .library (.write _ _) => False
  | .library (.remove _) => False
  | _ => True

theorem Current.perform {source : Library} {host next : Host σ} (hcurrent : Current source host)
    {depth : Nat} {operation : Operation σ} (hfiles : operation.KeepsFiles)
    (h : host.perform (Host.switch behaviour depth) operation = some next) :
    Current source next := by
  rcases perform_cases h with ⟨inner, rfl, rfl⟩ | hchanges
  · cases inner with
    | load code => exact hcurrent.change (Change.load host code)
    | forget code => exact ⟨hcurrent.library.forget code, hcurrent.active⟩
    | write path entry => exact hfiles.elim
    | remove path => exact hfiles.elim
  · exact hcurrent.changes hchanges

/-- A host at any time after a beginning, no file having been written or removed since. -/
inductive Undisturbed (behaviour : Behaviour σ) (start : Host σ) : Host σ → Prop where
  | start : Undisturbed behaviour start start
  | perform {host next : Host σ} (depth : Nat) (operation : Operation σ)
      (hhost : Undisturbed behaviour start host) (hfiles : operation.KeepsFiles)
      (h : host.perform (switch behaviour depth) operation = some next) :
      Undisturbed behaviour start next
  | installed {host : Host σ} {code : String} {catalog : Catalog}
      (hhost : Undisturbed behaviour start host) (h : (host.library.load code).1 = .ok catalog) :
      Undisturbed behaviour start (withCatalog
        { host with library := (host.library.load code).2, switching := true } catalog)
  | told {host next : Host σ} (depth : Nat) (installed : Snapshot) (observers : List Observer)
      (hhost : Undisturbed behaviour start host)
      (h : notify (switch behaviour depth) behaviour installed observers host = some next) :
      Undisturbed behaviour start next

theorem Undisturbed.current {source : Library} {start host : Host σ}
    (h : Undisturbed behaviour start host) (hstart : Current source start) :
    Current source host := by
  induction h with
  | start => exact hstart
  | perform depth operation _ hfiles h ih => exact ih.perform hfiles h
  | installed _ h ih => exact ih.changes (changes_withCatalog h)
  | told depth installed observers _ h ih =>
      exact ih.changes (changes_notify (fun h => changes_switch h) h)

/-! ### Switching -/

/-- The observers of a host come to an end when they are told, and install no catalog. -/
def Calm (behaviour : Behaviour σ) (depth : Nat) (observers : List Observer) : Prop :=
  ∀ observer ∈ observers, ∀ locale middle, ∃ finished last,
    run (switch behaviour depth) (behaviour observer locale) middle = some (finished, last) ∧
      last.snapshot = middle.snapshot

theorem notify_of_calm {depth : Nat} {observers : List Observer}
    (hcalm : Calm behaviour depth observers) {installed : Snapshot} {host : Host σ}
    (hcurrent : host.snapshot.serial = installed.serial) :
    ∃ last, notify (switch behaviour depth) behaviour installed observers host = some last ∧
      last.snapshot = host.snapshot := by
  induction observers generalizing host with
  | nil => exact ⟨host, rfl, rfl⟩
  | cons observer rest ih =>
      obtain ⟨finished, middle, hrun, hsame⟩ :=
        hcalm observer List.mem_cons_self installed.locale host
      have hsettled : (settled observer finished middle).snapshot = host.snapshot := by
        rw [← hsame]
        cases finished <;> rfl
      obtain ⟨last, hlast, hsnapshot⟩ := ih
        (fun other hother => hcalm other (List.mem_cons_of_mem observer hother))
        (hsettled ▸ hcurrent : (settled observer finished middle).snapshot.serial = _)
      refine ⟨last, ?_, hsnapshot.trans hsettled⟩
      rw [notify_current hcurrent, hrun, Option.bind_some, hlast]

theorem install_of_calm {depth : Nat} {host : Host σ}
    (hcalm : Calm behaviour depth host.observers) (catalog : Catalog) :
    ∃ last, install (switch behaviour depth) behaviour host catalog = some last ∧
      last.snapshot.catalog = catalog := by
  obtain ⟨last, hlast, hsnapshot⟩ := notify_of_calm hcalm
    (rfl : (host.withCatalog catalog).snapshot.serial = (host.successor catalog).serial)
  refine ⟨last, hlast, ?_⟩
  rw [hsnapshot]
  rfl

/-- Of the registered locales only the active one has its code. A switch to it changes nothing. -/
theorem switch_of_active_mem {host : Host σ}
    (hactive : host.registry.locale? host.snapshot.locale.code = some host.snapshot.locale)
    {locale : Locale} (hlocale : locale ∈ host.registry.locales)
    (hcode : locale.code = host.snapshot.locale.code) (behaviour : Behaviour σ) (depth : Nat) :
    locale = host.snapshot.locale ∧ ∃ next,
      switch behaviour (depth + 1) locale.code host = some (.ok locale, next) ∧
        next.snapshot = host.snapshot := by
  have hregistered := Registry.locale?_of_mem hlocale
  rw [hcode, hactive] at hregistered
  obtain rfl := Option.some.inj hregistered
  exact ⟨rfl, _, switch_of_active hactive, rfl⟩

section Switch

variable {source : Library} {host : Host σ} (h : Current source host) {locale : Locale}
  (hlocale : locale ∈ host.registry.locales) {catalog : Catalog}
  (hfound : source.found locale.code = .ok catalog)

include h hlocale hfound

/-- A switch to a registered locale whose catalog can be had changes nothing, if the locale is
active, or else installs the catalog. -/
theorem Current.switch_cases (behaviour : Behaviour σ) (depth : Nat) :
    (locale = host.snapshot.locale ∧ ∃ next,
      switch behaviour (depth + 1) locale.code host = some (.ok locale, next) ∧
        next.snapshot = host.snapshot) ∨
    (catalog.locale = locale ∧
      switch behaviour (depth + 1) locale.code host = (install (switch behaviour depth) behaviour
        { host with library := (host.library.load locale.code).2, switching := true } catalog).map
          fun last => (.ok locale, { last with switching := false })) := by
  by_cases hactive : locale.code = host.snapshot.locale.code
  · exact Or.inl (switch_of_active_mem h.locale?_active hlocale hactive behaviour depth)
  · have hcatalog : catalog.locale = locale := by
      have hread := (Store.fetch_ok hfound).2
      rw [← h.library.registry] at hread
      exact Option.some.inj (hread.symm.trans (Registry.locale?_of_mem hlocale))
    have hload := (h.library.load_eq locale.code).trans hfound
    obtain ⟨registration, hfind, -⟩ := Registry.mem_locales_iff.mp hlocale
    refine Or.inr ⟨hcatalog, ?_⟩
    rw [switch_of_loaded hfind hactive hload, hcatalog]

theorem Current.eq_of_switch {depth : Nat} {outcome : Except SwitchError Locale} {next : Host σ}
    (hnext : switch behaviour depth locale.code host = some (outcome, next)) :
    outcome = .ok locale := by
  cases depth with
  | zero => cases hnext
  | succ depth =>
      rcases h.switch_cases hlocale hfound behaviour depth with
        ⟨-, last, hswitch, -⟩ | ⟨-, hswitch⟩
      · rw [hswitch] at hnext
        cases hnext
        rfl
      · exact (ends_of_installed hswitch hnext).1

/-- With calm observers the locale that was asked for is active in the end. -/
theorem Current.switch_of_calm {depth : Nat} (hcalm : Calm behaviour depth host.observers) :
    ∃ next, switch behaviour (depth + 1) locale.code host = some (.ok locale, next) ∧
      next.snapshot.locale = locale := by
  rcases h.switch_cases hlocale hfound behaviour depth with
    ⟨hsame, next, hswitch, hnext⟩ | ⟨hcatalog, hswitch⟩
  · refine ⟨next, hswitch, ?_⟩
    rw [hnext, hsame]
  · obtain ⟨last, hlast, hinstalled⟩ := @install_of_calm _ behaviour depth
      { host with library := (host.library.load locale.code).2, switching := true } hcalm catalog
    refine ⟨{ last with switching := false }, ?_, ?_⟩
    · rw [hswitch, hlast, Option.map_some]
    · rw [← hcatalog]
      exact congrArg Catalog.locale hinstalled

end Switch

/-! ### Hosts over a complete directory -/

/-- Every key of the base catalog resolves to a text of the active catalog. -/
def Resolves (base : Catalog) (host : Host σ) : Prop :=
  ∀ context key arguments, base.contains context key = true →
    (host.resolve context key arguments).1.tier = .active ∧
      (host.resolve context key arguments).1.locale = host.snapshot.locale

/-- A host that fails nobody who asks for a registered locale or for a key of the base catalog. -/
structure Serves (behaviour : Behaviour σ) (base : Catalog) (host : Host σ) : Prop where
  resolves : host.Resolves base
  /-- A switch to a registered locale that comes to an end has taken place. -/
  switches : ∀ locale ∈ host.registry.locales, ∀ depth outcome next,
    switch behaviour depth locale.code host = some (outcome, next) → outcome = .ok locale
  /-- With calm observers it comes to an end, and the locale is then what keys resolve to. -/
  settles : ∀ locale ∈ host.registry.locales, ∀ depth, Calm behaviour depth host.observers →
    ∃ next, switch behaviour (depth + 1) locale.code host = some (.ok locale, next) ∧
      next.snapshot.locale = locale ∧ next.Resolves base

theorem Current.resolves {source : Library} {host : Host σ} (h : Current source host)
    (hcomplete : source.Complete) {base : Catalog}
    (hbase : source.found source.store.config.fallback = .ok base) : host.Resolves base := by
  intro context key arguments hkey
  obtain ⟨text, htext⟩ := hcomplete.translation? h.active hbase hkey
  have htemplate : host.snapshot.template context key = (text, .active, host.snapshot.locale) := by
    rw [Snapshot.template, htext]
  simp only [resolve, Snapshot.resolve, htemplate, and_self]

theorem Current.serves {source : Library} {host : Host σ} (h : Current source host)
    (hcomplete : source.Complete) {base : Catalog}
    (hbase : source.found source.store.config.fallback = .ok base) :
    Serves behaviour base host := by
  have hloads (locale : Locale) (hlocale : locale ∈ host.registry.locales) :
      ∃ catalog, source.found locale.code = .ok catalog :=
    hcomplete.loads locale (h.registry_eq ▸ hlocale)
  refine ⟨h.resolves hcomplete hbase, fun locale hlocale depth outcome next hnext => ?_,
    fun locale hlocale depth hcalm => ?_⟩
  · obtain ⟨catalog, hfound⟩ := hloads locale hlocale
    exact h.eq_of_switch hlocale hfound hnext
  · obtain ⟨catalog, hfound⟩ := hloads locale hlocale
    obtain ⟨next, hnext, hactive⟩ := h.switch_of_calm hlocale hfound hcalm
    exact ⟨next, hnext, hactive, (h.changes (changes_switch hnext)).resolves hcomplete hbase⟩

theorem current_of_start {source library : Library} (h : source.Current library)
    {fallback : String} {memory : σ} {host : Host σ}
    (hstart : (Host.start library fallback memory).1 = .ok host) :
    host.observers = [] ∧ Current source host := by
  obtain ⟨code, catalog, hload, rfl⟩ := eq_of_start hstart
  have hfound : source.found code = .ok catalog := (h.load_eq code).symm.trans hload
  have hcode := Registry.code_of_locale? (Store.fetch_ok hfound).2
  exact ⟨rfl, h.load code, hcode.symm ▸ hfound⟩

/-- Where a locale is registered, the shipped catalogs are not asked for. -/
theorem openDirectory?_eq_start {config : Config} {disk : Disk} {directory : String}
    (h : (Registry.discover config disk directory).1.size ≠ 0) (shipped : String) (memory : σ) :
    openDirectory? config shipped disk directory memory =
      Host.start (Library.ofDirectory config disk directory) config.fallback memory := by
  simp only [openDirectory?, open?, h, if_false, Library.ofDirectory]

theorem openDirectory?_of_complete {config : Config} {disk : Disk} {directory : String}
    (h : (Library.ofDirectory config disk directory).Complete) (shipped : String) (memory : σ) :
    ∃ host, (openDirectory? config shipped disk directory memory).1 = .ok host ∧
      host.observers = [] ∧ Current (Library.ofDirectory config disk directory) host := by
  have hfresh : (Library.ofDirectory config disk directory).Current
    (Library.ofDirectory config disk directory) := Library.Current.refl rfl
  obtain ⟨declared, hnormal⟩ := Registry.normalizeCode_of_discover h.base
  obtain ⟨base, hfound⟩ := h.found_base
  have hload : (Library.ofDirectory config disk directory).load config.fallback =
      (.ok base, ((Library.ofDirectory config disk directory).load config.fallback).2) :=
    Prod.ext ((hfresh.load_eq config.fallback).trans hfound) rfl
  have hstart := start_of_loaded memory (ne_empty_of_normalizeCode hnormal) h.base hload
  refine ⟨_, ?_, current_of_start hfresh hstart⟩
  obtain ⟨locale, hlocale, -⟩ := Registry.exists_locale_of_contains h.base
  rw [openDirectory?_eq_start (Registry.size_ne_zero_of_mem hlocale)]
  exact hstart

end Host

/-- An audit is a gate for what a host serves. It comes to an end and is passed just when the
directory is complete; an engine over the directory then opens, and serves the base catalog at any
time, as long as no file is written or removed. -/
theorem Audit.ok_iff_complete_and_serves {config : Config}
    (hminimum : (Version.parse? config.minVersion).isSome = true) (disk : Disk)
    (directory : String) :
    ((∃ audit, (run config disk directory).1 = .ok audit ∧ audit.ok = true) ↔
        (Library.ofDirectory config disk directory).Complete) ∧
      ∀ audit, (run config disk directory).1 = .ok audit → audit.ok = true →
        ∀ {σ : Type} (behaviour : Behaviour σ) (shipped : String) (memory : σ), ∃ host base,
          (Host.openDirectory? config shipped disk directory memory).1 = .ok host ∧
          host.observers = [] ∧ host.registry = (Registry.discover config disk directory).1 ∧
          (Library.ofDirectory config disk directory).found config.fallback = .ok base ∧
          ∀ later, Host.Undisturbed behaviour host later → Host.Serves behaviour base later := by
  have hiff := run_iff config disk directory hminimum
  refine ⟨hiff, fun audit haudit hok σ behaviour shipped memory => ?_⟩
  have hcomplete := hiff.mp ⟨audit, haudit, hok⟩
  obtain ⟨host, hhost, hobservers, hcurrent⟩ :=
    Host.openDirectory?_of_complete hcomplete shipped memory
  obtain ⟨base, hbase⟩ := hcomplete.found_base
  exact ⟨host, base, hhost, hobservers, hcurrent.registry_eq, hbase,
    fun later hlater => (hlater.current hcurrent).serves hcomplete hbase⟩

/-! ### A directory with two locales -/

/-- A directory with an English and a Russian catalog. -/
def twoCatalogs (english russian : List Section) : Disk := [
  ("lang", .directory),
  ("lang/veil_en.ts", .file (Catalog.write "en_US" english).toUTF8),
  ("lang/veil_ru.ts", .file (Catalog.write "ru_RU" russian).toUTF8)]

section TwoCatalogs

variable {english russian : List Section} (henglish : WritableSections english)
  (hrussian : WritableSections russian)

theorem catalogPaths_twoCatalogs (english russian : List Section) :
    Registry.catalogPaths .standard (twoCatalogs english russian) "lang" =
      ["lang/veil_en.ts", "lang/veil_ru.ts"] := by
  have hkeys : (twoCatalogs english russian).keys =
    ["lang", "lang/veil_en.ts", "lang/veil_ru.ts"] := rfl
  have hnames : (twoCatalogs english russian).names "lang" = ["veil_en.ts", "veil_ru.ts"] := by
    rw [Disk.names, hkeys]
    exact List.mergeSort_of_pairwise (by decide)
  rw [Registry.catalogPaths, hnames]
  decide

include henglish hrussian

theorem entries_twoCatalogs :
    (Registry.discover .standard (twoCatalogs english russian) "lang").1.entries =
      [⟨Host.english, "lang/veil_en.ts"⟩, ⟨Host.russian, "lang/veil_ru.ts"⟩] := by
  have hfirst : Registry.registration? .standard (twoCatalogs english russian) "lang/veil_en.ts" =
      (some ⟨Host.english, "lang/veil_en.ts"⟩, []) :=
    @Registry.registration?_write .standard _ _ "en_US" english rfl Host.normalizeCode_english
      henglish
  have hsecond : Registry.registration? .standard (twoCatalogs english russian) "lang/veil_ru.ts" =
      (some ⟨Host.russian, "lang/veil_ru.ts"⟩, []) :=
    @Registry.registration?_write .standard _ _ "ru_RU" russian rfl Host.normalizeCode_russian
      hrussian
  have hexists : (twoCatalogs english russian).exists? "lang" = true := rfl
  simp only [Registry.discover, hexists, if_true, catalogPaths_twoCatalogs, List.map_cons,
    List.map_nil, hfirst, hsecond]
  rfl

theorem locales_twoCatalogs :
    (Registry.discover .standard (twoCatalogs english russian) "lang").1.locales =
      [Host.english, Host.russian] := by
  rw [Registry.locales, entries_twoCatalogs henglish hrussian]
  rfl

theorem found_twoCatalogs :
    (Library.ofDirectory .standard (twoCatalogs english russian) "lang").found "en_US" =
        .ok ⟨Host.english, english.map fun part => (part.name, part.messages)⟩ ∧
      (Library.ofDirectory .standard (twoCatalogs english russian) "lang").found "ru_RU" =
        .ok ⟨Host.russian, russian.map fun part => (part.name, part.messages)⟩ := by
  have hfind (code : String) : (Registry.discover .standard (twoCatalogs english russian)
      "lang").1.find? code =
        [⟨Host.english, "lang/veil_en.ts"⟩, ⟨Host.russian, "lang/veil_ru.ts"⟩].find?
          fun registration : Registration => registration.code == code := by
    rw [Registry.find?, entries_twoCatalogs henglish hrussian]
  have hread : (twoCatalogs english russian).read "lang/veil_en.ts" =
    .ok (Catalog.write "en_US" english).toUTF8 := rfl
  have hread' : (twoCatalogs english russian).read "lang/veil_ru.ts" =
    .ok (Catalog.write "ru_RU" russian).toUTF8 := rfl
  have hfirst := @Store.fetch_written
    (Library.ofDirectory .standard (twoCatalogs english russian) "lang").store _ _ _ _
    (hfind "en_US") hread (checkVersion_standard "en_US") Host.normalizeCode_english henglish
  have hsecond := @Store.fetch_written
    (Library.ofDirectory .standard (twoCatalogs english russian) "lang").store _ _ _ _
    (hfind "ru_RU") hread' (checkVersion_standard "ru_RU") Host.normalizeCode_russian hrussian
  exact ⟨congrArg Catalog.Reading.outcome hfirst, congrArg Catalog.Reading.outcome hsecond⟩

end TwoCatalogs

/-- The catalogs of the bilingual host, in a directory. -/
def bilingualDirectory : Disk := [
  ("lang", .directory),
  ("lang/veil_en.ts", .file (Catalog.write "en_US" Host.englishSections).toUTF8),
  ("lang/veil_ru.ts", .file (Catalog.write "ru_RU" Host.russianSections).toUTF8)]

theorem bilingualDirectory_eq :
    bilingualDirectory = twoCatalogs Host.englishSections Host.russianSections := rfl

theorem catalogPaths_bilingual :
    Registry.catalogPaths .standard bilingualDirectory "lang" =
      ["lang/veil_en.ts", "lang/veil_ru.ts"] := by
  rw [bilingualDirectory_eq, catalogPaths_twoCatalogs]

theorem entries_bilingual :
    (Registry.discover .standard bilingualDirectory "lang").1.entries =
      [⟨Host.english, "lang/veil_en.ts"⟩, ⟨Host.russian, "lang/veil_ru.ts"⟩] := by
  rw [bilingualDirectory_eq]
  exact entries_twoCatalogs Host.writable_englishSections Host.writable_russianSections

def Host.russianCatalog : Catalog where
  locale := russian
  contexts := russianSections.map fun part => (part.name, part.messages)

theorem complete_bilingual :
    (Library.ofDirectory .standard bilingualDirectory "lang").Complete := by
  have hsections := Host.writable_englishSections
  have hsections' := Host.writable_russianSections
  rw [bilingualDirectory_eq]
  obtain ⟨henglish, hrussian⟩ := found_twoCatalogs hsections hsections'
  have hbase : ((Library.ofDirectory .standard (twoCatalogs Host.englishSections
      Host.russianSections) "lang").found Config.standard.fallback).toOption =
        some Host.englishCatalog := congrArg _ henglish
  have hlocales := locales_twoCatalogs hsections hsections'
  refine Audit.complete_iff.mpr ⟨?_, fun locale hlocale => ?_⟩
  · rw [Registry.contains_iff, Registry.codes, Library.ofDirectory,
      entries_twoCatalogs hsections hsections']
    decide
  · rw [Library.ofDirectory, hlocales] at hlocale
    refine hbase.symm ▸ ?_
    rcases List.mem_cons.mp hlocale with rfl | hlocale
    · exact ⟨Host.englishCatalog, henglish, by decide⟩
    · rw [List.mem_singleton.mp hlocale]
      exact ⟨Host.russianCatalog, hrussian, by decide⟩

theorem Audit.ok_iff_complete_and_serves_bilingual :
    (Version.parse? Config.standard.minVersion).isSome = true ∧
      ∃ audit, (run .standard bilingualDirectory "lang").1 = .ok audit ∧ audit.ok = true ∧
        ∃ host base,
          (Host.openDirectory? .standard "shipped" bilingualDirectory "lang" ()).1 = .ok host ∧
          Host.Serves (fun _ _ => .done) base host := by
  have hminimum := Config.isSome_parse?_minVersion
  obtain ⟨hiff, hserves⟩ := ok_iff_complete_and_serves hminimum bilingualDirectory "lang"
  obtain ⟨audit, haudit, hok⟩ := hiff.mpr complete_bilingual
  obtain ⟨host, base, hhost, -, -, -, hlater⟩ :=
    hserves audit haudit hok (fun _ _ => .done) "shipped" ()
  exact ⟨hminimum, audit, haudit, hok, host, base, hhost, hlater host .start⟩

end Polyglot
