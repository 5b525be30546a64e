import Polyglot.Proofs.Serving

/-!
Hosts in the course of time. Whatever a host is asked for after it has begun, and whatever its
observers do meanwhile, between two operations it has the catalog to fall back to that it began
with, the same locales, and two valid catalogs of registered locales. What is read of it changes
only when a snapshot is installed.
-/

namespace Polyglot.Host

variable {σ : Type}

/-- Operations have come to an end, one after the other, each of them allowed when it was asked
for. -/
inductive Course (behaviour : Behaviour σ) (Allowed : Nat → Host σ → Operation σ → Prop)
    (start : Host σ) : Host σ → Prop where
  | start : Course behaviour Allowed start start
  | perform {host next : Host σ} (depth : Nat) (operation : Operation σ)
      (hhost : Course behaviour Allowed start host) (hallowed : Allowed depth host operation)
      (h : host.perform (switch behaviour depth) operation = some next) :
      Course behaviour Allowed start next

/-- There is no operation that is not allowed. -/
def Anything (_ : Nat) (_ : Host σ) (_ : Operation σ) : Prop := True

/-! ### What stays as it began -/

theorem fallback_of_change {host next : Host σ} (h : Change host next) :
    next.snapshot.fallback = host.snapshot.fallback := by
  cases h <;> rfl

theorem fallback_of_changes {host next : Host σ} (h : Changes host next) :
    next.snapshot.fallback = host.snapshot.fallback := by
  induction h with
  | refl => rfl
  | tail _ hchange ih => exact (fallback_of_change hchange).trans ih

theorem registry_of_changes {host next : Host σ} (h : Changes host next) :
    next.registry = host.registry := by
  induction h with
  | refl => rfl
  | tail _ hchange ih => exact (registry_of_change hchange).trans ih

section Perform

variable {behaviour : Behaviour σ} {depth : Nat} {operation : Operation σ} {host next : Host σ}
  (h : host.perform (switch behaviour depth) operation = some next)

include h

theorem fallback_of_perform : next.snapshot.fallback = host.snapshot.fallback := by
  rcases perform_cases h with ⟨inner, -, rfl⟩ | hchanges
  · rfl
  · exact fallback_of_changes hchanges

theorem registry_of_perform : next.registry = host.registry := by
  rcases perform_cases h with ⟨inner, -, rfl⟩ | hchanges
  · exact Library.perform_registry host.library inner
  · exact registry_of_changes hchanges

end Perform

section Course

variable {behaviour : Behaviour σ} {Allowed : Nat → Host σ → Operation σ → Prop}
  {start host : Host σ} (h : Course behaviour Allowed start host)

include h

theorem Course.fallback_eq : host.snapshot.fallback = start.snapshot.fallback := by
  induction h with
  | start => rfl
  | perform _ _ _ _ h ih => exact (fallback_of_perform h).trans ih

theorem Course.registry_eq : host.registry = start.registry := by
  induction h with
  | start => rfl
  | perform _ _ _ _ h ih => exact (registry_of_perform h).trans ih

theorem Course.atRest (hstart : AtRest behaviour start) : AtRest behaviour host := by
  induction h with
  | start => exact hstart
  | perform depth operation _ _ h ih => exact ih.perform depth operation h

theorem Course.valid (hstart : start.Valid) : host.Valid := by
  induction h with
  | start => exact hstart
  | perform _ _ _ _ h ih => exact ih.perform h

end Course

theorem load_of_start {library : Library} {fallback : String} {memory : σ} {host : Host σ}
    (h : (Host.start library fallback memory).1 = .ok host) :
    (library.load (if fallback = "" then Config.standard.fallback else fallback)).1 =
      .ok host.snapshot.fallback := by
  simp only [start] at h
  generalize (if fallback = "" then Config.standard.fallback else fallback) = code at h ⊢
  split at h
  · split at h
    · rename_i catalog after hload
      cases h
      rw [hload]
    · cases h
  · cases h

/-- What is true of a host between two operations, after it has begun over a library. -/
structure Kept (library : Library) (code : String) (start host : Host σ) : Prop where
  /-- The catalog to fall back to is the one that was loaded in the beginning. -/
  fallback : host.snapshot.fallback = start.snapshot.fallback
  loaded : (library.load (if code = "" then Config.standard.fallback else code)).1 =
    .ok host.snapshot.fallback
  registered : host.registry.locale? host.snapshot.locale.code = some host.snapshot.locale
  activeValid : host.snapshot.catalog.Valid
  fallbackValid : host.snapshot.fallback.Valid
  locales : host.registry.locales = start.registry.locales
  idle : host.switching = false

/-- Between two operations a host keeps to what it began with, whatever it has been asked for. -/
theorem kept_of_course {behaviour : Behaviour σ} {library : Library} {code : String} {memory : σ}
    {start host : Host σ} (hlibrary : library.Reachable)
    (hstart : (Host.start library code memory).1 = .ok start)
    (hcourse : Course behaviour Anything start host) : Kept library code start host := by
  have hrest : AtRest behaviour host := hcourse.atRest (AtRest.start hlibrary hstart)
  have hvalid := hrest.valid
  have hloaded := load_of_start hstart
  rw [← hcourse.fallback_eq] at hloaded
  exact {
    fallback := hcourse.fallback_eq
    loaded := hloaded
    registered := hvalid.activeRegistered
    activeValid := hvalid.active
    fallbackValid := hvalid.fallback
    locales := congrArg Registry.locales hcourse.registry_eq
    idle := hrest.idle }

/-- The bilingual host with both catalogs in the cache and two observers. -/
def attendedHost : Host Unit where
  library :=
    { bilingualHost.library with
      store.cached := [("en_US", englishCatalog), ("ru_RU", russianCatalog)]
      journal := bilingualHost.library.journal ++
        [bilingual.store.loadRecord "ru_RU" russianCatalog] }
  snapshot := bilingualHost.snapshot
  observers := [restless, listener]
  memory := ()

theorem load_russian :
    bilingualHost.library.load "ru_RU" = (.ok russianCatalog, attendedHost.library) := by
  have hfetch := @Store.fetch_written bilingualHost.library.store bilingualHost.library.disk "ru_RU"
    ⟨russian, "veil_ru.ts"⟩ russianSections rfl rfl (checkVersion_standard "ru_RU")
    normalizeCode_russian writable_russianSections
  rw [Library.load_of_ok rfl (by rw [hfetch]), hfetch]
  rfl

theorem course_attended (behaviour : Behaviour Unit) :
    Course behaviour Anything bilingualHost attendedHost := by
  have hload : bilingualHost.perform (switch behaviour 0) (.library (.load "ru_RU")) =
      some { bilingualHost with library := attendedHost.library } := by
    rw [perform, Library.perform, load_russian]
  have hloaded : Course behaviour Anything bilingualHost
      { bilingualHost with library := attendedHost.library } := .perform 0 _ .start trivial hload
  have hfirst := hloaded.perform 0 (.observe restless) trivial rfl
  exact hfirst.perform 0 (.observe listener) trivial rfl

theorem atRest_attended (behaviour : Behaviour Unit) : AtRest behaviour attendedHost :=
  (course_attended behaviour).atRest (atRest_bilingual behaviour)

theorem kept_of_course_takeBack : bilingual.Reachable ∧
    (Host.start bilingual "en_US" ()).1 = .ok bilingualHost ∧
      ∃ later, Course takeBack Anything bilingualHost later ∧ later.snapshot.serial = 2 ∧
        Kept bilingual "en_US" bilingualHost later := by
  have hserial : (switch takeBack 2 "ru_RU" attendedHost).map (·.2.snapshot.serial) = some 2 := by
    decide +kernel
  obtain ⟨⟨outcome, later⟩, hlater, hnumber⟩ := Option.map_eq_some_iff.mp hserial
  have hperform : attendedHost.perform (switch takeBack 2) (.switch "ru_RU") = some later := by
    rw [perform, hlater, Option.map_some]
  have hcourse := (course_attended takeBack).perform 2 (.switch "ru_RU") trivial hperform
  have hreachable : bilingual.Reachable := .fresh rfl
  exact ⟨hreachable, start_bilingual, later, hcourse, hnumber,
    kept_of_course hreachable start_bilingual hcourse⟩

/-! ### Quiet operations -/

/-- The outcome of a switch that has installed nothing: an error, or the locale that was active
already. -/
def Tame (host : Host σ) (outcome : Except SwitchError Locale) : Prop :=
  outcome = .ok host.snapshot.locale ∨ ∃ error, outcome = .error error

/-- An operation that installs no snapshot. A switch is one if it fails or names the active locale;
of the operations that do not switch all are. -/
def Quiet (behaviour : Behaviour σ) (depth : Nat) (host : Host σ) : Operation σ → Prop
  | .switch code => code = host.snapshot.locale.code ∨
    ∃ error next, switch behaviour depth code host = some (.error error, next)
  | .startup preferred system => ∃ outcome next,
    host.startup (switch behaviour depth) preferred system = some (outcome, next) ∧
      host.Tame outcome
  | _ => True

/-- Snapshots are told apart by their numbers. -/
theorem snapshot_of_changes {host next : Host σ} (h : Changes host next)
    (hserial : next.snapshot.serial = host.snapshot.serial) : next.snapshot = host.snapshot := by
  induction h with
  | refl => rfl
  | @tail middle next hchanges hchange ih =>
      have hle := serial_of_changes hchanges
      cases hchange with
      | install =>
          have hnext : middle.snapshot.serial + 1 = host.snapshot.serial := hserial
          omega
      | _ => exact ih hserial

section Quiet

variable {behaviour : Behaviour σ} {depth : Nat} {code : String} {host next : Host σ}
  {outcome : Except SwitchError Locale}

theorem switch_of_failed {registration : Registration} {error : LoadError}
    (hfind : host.registry.find? code = some registration)
    (hactive : code ≠ host.snapshot.locale.code)
    (hload : (host.library.load code).1 = .error error)
    (h : switch behaviour (depth + 1) code host = some (outcome, next)) :
    next.snapshot = host.snapshot ∧ ∃ error, outcome = .error error := by
  have hsame : Locale.same (Snapshot.locale { host with switching := true }.snapshot)
      registration.locale = false := not_same_of_ne hfind hactive
  rw [switch_of_registered (Registry.locale?_of_find? hfind)] at h
  obtain ⟨⟨result, last⟩, hlast, heq⟩ := Option.map_eq_some_iff.mp h
  cases heq
  rw [← Registry.code_of_find? hfind] at hload
  have hpair : host.library.load registration.locale.code =
      (.error error, (host.library.load registration.locale.code).2) := Prod.ext hload rfl
  cases error with
  | version fault =>
      rw [switchTo_of_version hsame hpair] at hlast
      cases hlast
      exact ⟨rfl, _, rfl⟩
  | catalog cause =>
      rw [switchTo_of_invalid hsame hpair] at hlast
      cases hlast
      exact ⟨rfl, _, rfl⟩

/-- A switch fails, or is to the active locale, or installs a snapshot; only the last changes what
is active. -/
theorem switch_cases (hvalid : host.Valid)
    (h : switch behaviour depth code host = some (outcome, next)) :
    (next.snapshot = host.snapshot ∧ ∃ error, outcome = .error error) ∨
    (next.snapshot = host.snapshot ∧ outcome = .ok host.snapshot.locale ∧
      code = host.snapshot.locale.code) ∨
    (host.snapshot.serial < next.snapshot.serial ∧ code ≠ host.snapshot.locale.code ∧
      ∃ locale, outcome = .ok locale ∧ locale.code = code) := by
  cases depth with
  | zero => cases h
  | succ depth =>
      cases hfind : host.registry.find? code with
      | none =>
          rw [switch_of_unknown (Registry.locale?_of_not_found hfind)] at h
          cases h
          exact Or.inl ⟨rfl, _, rfl⟩
      | some registration =>
          by_cases hactive : code = host.snapshot.locale.code
          · subst hactive
            rw [switch_of_active hvalid.activeRegistered] at h
            cases h
            exact Or.inr (Or.inl ⟨rfl, rfl, rfl⟩)
          · cases hload : (host.library.load code).1 with
            | error error => exact Or.inl (switch_of_failed hfind hactive hload h)
            | ok catalog =>
                obtain ⟨rfl, hlt⟩ := ends_of_installed (switch_of_loaded hfind hactive hload) h
                have hregistered := (Library.load_valid hvalid.store code).registered code catalog
                  (Library.get?_load hload)
                have hcode := Registry.code_of_locale? hregistered
                exact Or.inr (Or.inr ⟨hlt, hactive, catalog.locale, rfl, hcode⟩)

theorem switch_serial_iff (hvalid : host.Valid)
    (h : switch behaviour depth code host = some (outcome, next)) :
    next.snapshot.serial = host.snapshot.serial ↔ host.Tame outcome := by
  rcases switch_cases hvalid h with
    ⟨hsnapshot, herror⟩ | ⟨hsnapshot, hok, -⟩ | ⟨hlt, hactive, locale, rfl, rfl⟩
  · exact iff_of_true (congrArg Snapshot.serial hsnapshot) (Or.inr herror)
  · exact iff_of_true (congrArg Snapshot.serial hsnapshot) (Or.inl hok)
  · refine iff_of_false (Nat.ne_of_gt hlt) ?_
    rintro (hlocale | ⟨error, herror⟩)
    · exact hactive (congrArg Locale.code (Except.ok.inj hlocale))
    · cases herror

theorem tryLocales_serial_iff {locales : List Locale} {fallback : String} (hvalid : host.Valid)
    (h : tryLocales (switch behaviour depth) locales fallback host = some (outcome, next)) :
    next.snapshot.serial = host.snapshot.serial ↔ host.Tame outcome := by
  induction locales generalizing host with
  | nil =>
      rw [tryLocales] at h
      have hreported : (host.engineReport .info s!"Using fallback locale {fallback}").Valid :=
        hvalid.change (Change.write host _)
      have hiff := switch_serial_iff hreported h
      exact hiff
  | cons locale rest ih =>
      rw [tryLocales] at h
      split at h
      · rename_i text middle hmiddle
        cases h
        exact switch_serial_iff hvalid hmiddle
      · rename_i error middle _ hmiddle
        -- A refused switch leaves the snapshot as it was, and the rest goes on from there.
        have hserial := (switch_serial_iff hvalid hmiddle).mpr (Or.inr ⟨error, rfl⟩)
        have hchanges := changes_switch hmiddle
        have hreported : (middle.engineReport .warning
            s!"Unable to activate {locale.code} at startup: {error.message}").Valid :=
          (hvalid.changes hchanges).change (Change.write middle _)
        have hrest := ih hreported h
        change next.snapshot.serial = middle.snapshot.serial ↔ middle.Tame outcome at hrest
        rw [← hserial, hrest, Tame, Tame, snapshot_of_changes hchanges hserial]
      · exact switch_serial_iff hvalid h

/-- The quiet operations are those that install no snapshot. -/
theorem perform_serial_iff {operation : Operation σ} (hvalid : host.Valid)
    (h : host.perform (switch behaviour depth) operation = some next) :
    next.snapshot.serial = host.snapshot.serial ↔ Quiet behaviour depth host operation := by
  cases operation with
  | switch code =>
      obtain ⟨⟨outcome, last⟩, hlast, rfl⟩ := Option.map_eq_some_iff.mp h
      rw [Quiet]
      rcases switch_cases hvalid hlast with
        ⟨hsnapshot, error, rfl⟩ | ⟨hsnapshot, -, hcode⟩ | ⟨hlt, hactive, locale, rfl, -⟩
      · exact iff_of_true (congrArg Snapshot.serial hsnapshot) (Or.inr ⟨error, last, hlast⟩)
      · exact iff_of_true (congrArg Snapshot.serial hsnapshot) (Or.inl hcode)
      · refine iff_of_false (Nat.ne_of_gt hlt) ?_
        rintro (hcode | ⟨error, other, hother⟩)
        · exact hactive hcode
        · cases hlast.symm.trans hother
  | startup preferred system =>
      obtain ⟨⟨outcome, last⟩, hlast, rfl⟩ := Option.map_eq_some_iff.mp h
      have hquiet : Quiet behaviour depth host (.startup preferred system) ↔
          host.Tame outcome := by
        constructor
        · rintro ⟨other, next, hother, htame⟩
          cases hlast.symm.trans hother
          exact htame
        · intro htame
          exact ⟨outcome, last, hlast, htame⟩
      obtain ⟨journal, hcandidates⟩ := startupCandidates_eq host preferred system
      simp only [startup] at hlast
      rw [hcandidates] at hlast
      have hserial := tryLocales_serial_iff (hvalid.change (Change.write host journal)) hlast
      exact hserial.trans hquiet.symm
  | library inner =>
      cases h
      exact iff_of_true rfl trivial
  | observe observer =>
      cases h
      exact iff_of_true rfl trivial
  | unobserve observer =>
      cases h
      exact iff_of_true rfl trivial
  | resolve context key arguments =>
      cases h
      exact iff_of_true rfl trivial
  | remember memory =>
      cases h
      exact iff_of_true rfl trivial

theorem snapshot_of_quiet {operation : Operation σ} (hvalid : host.Valid)
    (hquiet : Quiet behaviour depth host operation)
    (h : host.perform (switch behaviour depth) operation = some next) :
    next.snapshot = host.snapshot := by
  have hserial := (perform_serial_iff hvalid h).mpr hquiet
  rcases perform_cases h with ⟨inner, -, rfl⟩ | hchanges
  · rfl
  · exact snapshot_of_changes hchanges hserial

end Quiet

/-- Only a switch that installs a snapshot changes what is read: after quiet operations, however
many, every key resolves as before, whatever has become of the files and of the cache. -/
theorem resolve_of_quiet {behaviour : Behaviour σ} {host later : Host σ}
    (hhost : Reachable behaviour host)
    (hcourse : Course behaviour (Quiet behaviour) host later) (context key : String)
    (arguments : List String) :
    (later.resolve context key arguments).1 = (host.resolve context key arguments).1 := by
  have hsnapshot : later.snapshot = host.snapshot := by
    induction hcourse with
    | start => rfl
    | perform _ _ hmiddle hquiet h ih =>
        exact (snapshot_of_quiet (hmiddle.valid hhost.valid) hquiet h).trans ih
  rw [resolve, resolve, hsnapshot]

theorem resolve_of_quiet_attended : Reachable takeBack attendedHost ∧ ∃ later,
    Course takeBack (Quiet takeBack) attendedHost later ∧
      later.library.store.cached = [] ∧ later.library.disk.contains "veil_en.ts" = false ∧
      (later.resolve "Ui" "Page %1 of %2" ["7"]).1 =
        (attendedHost.resolve "Ui" "Page %1 of %2" ["7"]).1 := by
  have hreachable : Reachable takeBack attendedHost := .rest (atRest_attended takeBack)
  have hremoved := Course.perform 0 (.library (.remove "veil_en.ts"))
    (.start : Course takeBack (Quiet takeBack) attendedHost _) trivial rfl
  have hforgotten := hremoved.perform 0 (.library (.forget none)) trivial rfl
  have hrefused := hforgotten.perform 1 (.switch "de_DE")
    (Or.inr ⟨_, _, switch_of_unknown rfl⟩) rfl
  have hcourse := hrefused.perform 1 (.switch "en_US") (Or.inl rfl) rfl
  exact ⟨hreachable, _, hcourse, rfl, by decide, resolve_of_quiet hreachable hcourse _ _ _⟩

end Polyglot.Host
