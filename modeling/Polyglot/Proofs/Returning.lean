import Polyglot.Proofs.Startup

/-!
What was active once can become active again. As long as no catalog is forgotten, every catalog that
has been active is in the cache, and so is the one to fall back to, whatever becomes of their files.
So a locale has one catalog for as long as the host is in use: the locale to fall back to is never
active with another catalog than its own, and a switch back to a locale takes place and installs the
catalog that was active before.
-/

namespace Polyglot.Host

variable {σ : Type} {behaviour : Behaviour σ} {Allowed : Nat → Host σ → Operation σ → Prop}

/-- A host at any time after a beginning, every operation since having been allowed when it was
asked for: between two operations, when a catalog has just become active, and when some observers
have been told. Operations that are asked for meanwhile count as well. -/
inductive During (behaviour : Behaviour σ) (Allowed : Nat → Host σ → Operation σ → Prop)
    (start : Host σ) : Host σ → Prop where
  | start : During behaviour Allowed start start
  | perform {host next : Host σ} (depth : Nat) (operation : Operation σ)
      (hhost : During behaviour Allowed start host) (hallowed : Allowed depth host operation)
      (h : host.perform (switch behaviour depth) operation = some next) :
      During behaviour Allowed start next
  | installed {host : Host σ} {code : String} {catalog : Catalog}
      (hhost : During behaviour Allowed start host) (h : (host.library.load code).1 = .ok catalog) :
      During behaviour Allowed start (withCatalog
        { host with library := (host.library.load code).2, switching := true } catalog)
  | told {host next : Host σ} (depth : Nat) (installed : Snapshot) (observers : List Observer)
      (hhost : During behaviour Allowed start host)
      (h : notify (switch behaviour depth) behaviour installed observers host = some next) :
      During behaviour Allowed start next

/-- What operations preserve and changes preserve is preserved at any time. -/
theorem During.preserves {P : Host σ → Prop}
    (hperform : ∀ {depth operation host next}, Allowed depth host operation →
      host.perform (switch behaviour depth) operation = some next → P host → P next)
    (hchanges : ∀ {host next}, Changes host next → P host → P next) {start host : Host σ}
    (h : During behaviour Allowed start host) (hstart : P start) : P host := by
  induction h with
  | start => exact hstart
  | perform depth operation _ hallowed h ih => exact hperform hallowed h ih
  | installed _ h ih => exact hchanges (changes_withCatalog h) ih
  | told depth installed observers _ h ih =>
      exact hchanges (changes_notify (fun h => changes_switch h) h) ih

theorem During.trans {start middle last : Host σ} (h : During behaviour Allowed start middle)
    (hlast : During behaviour Allowed middle last) : During behaviour Allowed start last := by
  induction hlast with
  | start => exact h
  | perform depth operation _ hallowed h ih => exact ih.perform depth operation hallowed h
  | installed _ h ih => exact ih.installed h
  | told depth installed observers _ h ih => exact ih.told depth installed observers h

/-! ### Catalogs that are at hand -/

/-- Both catalogs of the snapshot are in the cache of a valid host. -/
structure Backed (host : Host σ) : Prop where
  valid : host.Valid
  active : host.Keeps host.snapshot.catalog
  fallback : host.Keeps host.snapshot.fallback

theorem Backed.change {host next : Host σ} (h : host.Backed) (hchange : Change host next) :
    next.Backed := by
  refine ⟨h.valid.change hchange, ?_, ?_⟩
  · cases hchange with
    | load code => exact h.active.change (Change.load host code)
    | @install code catalog hcached =>
        -- The store knows the catalog under the code of its own locale.
        have hcode := Registry.code_of_locale? (h.valid.store.registered code catalog hcached)
        show host.library.store.cached.get? catalog.locale.code = some catalog
        rw [hcode, hcached]
    | _ => exact h.active
  · rw [fallback_of_change hchange]
    exact h.fallback.change hchange

theorem Backed.changes {host next : Host σ} (h : host.Backed) (hchanges : Changes host next) :
    next.Backed := by
  induction hchanges with
  | refl => exact h
  | tail _ hchange ih => exact ih.change hchange

theorem Backed.perform {depth : Nat} {operation : Operation σ} {host next : Host σ}
    (h : host.Backed) (hretaining : Retaining depth host operation)
    (hperform : host.perform (switch behaviour depth) operation = some next) : next.Backed := by
  rcases perform_cases hperform with ⟨inner, rfl, rfl⟩ | hchanges
  · exact ⟨h.valid.perform hperform, h.active.perform hretaining hperform,
      h.fallback.perform hretaining hperform⟩
  · exact h.changes hchanges

theorem backed_of_start {library : Library} {code : String} {memory : σ} {host : Host σ}
    (hvalid : library.store.Valid) (h : (Host.start library code memory).1 = .ok host) :
    host.Backed := by
  have hheld := held_of_start hvalid h
  have hstarted := valid_of_start hvalid h
  obtain ⟨_, _, -, rfl⟩ := eq_of_start h
  exact ⟨hstarted, hheld, hheld⟩

section During

variable {start host : Host σ} (h : During behaviour Retaining start host)

include h

theorem During.backed (hstart : start.Backed) : host.Backed :=
  h.preserves (fun hretaining hperform hbacked => hbacked.perform hretaining hperform)
    (fun hchanges hbacked => hbacked.changes hchanges) hstart

theorem During.keeps {catalog : Catalog} (hstart : start.Keeps catalog) : host.Keeps catalog :=
  h.preserves (P := fun host => host.Keeps catalog)
    (fun hretaining hperform hkeeps => hkeeps.perform hretaining hperform)
    (fun hchanges hkeeps => hkeeps.changes hchanges) hstart

theorem During.fallback_eq : host.snapshot.fallback = start.snapshot.fallback :=
  h.preserves (P := fun host => host.snapshot.fallback = start.snapshot.fallback)
    (fun _ hperform heq => (fallback_of_perform hperform).trans heq)
    (fun hchanges heq => (fallback_of_changes hchanges).trans heq) rfl

end During

/-- A locale has only one catalog in the cache. -/
theorem Keeps.eq {host : Host σ} {catalog other : Catalog} (h : host.Keeps catalog)
    (hother : host.Keeps other) (hcode : catalog.locale.code = other.locale.code) :
    catalog = other := by
  rw [Keeps, hcode, hother] at h
  exact (Option.some.inj h).symm

/-! ### The locale to fall back to -/

/-- With the same catalog twice there is nothing to fall back to. -/
theorem tier_ne_fallback {host : Host σ} (h : host.snapshot.catalog = host.snapshot.fallback)
    (context key : String) (arguments : List String) :
    (host.resolve context key arguments).1.tier ≠ .fallback := by
  have htier : (host.resolve context key arguments).1.tier =
    (host.snapshot.template context key).2.1 := rfl
  rw [htier, Snapshot.template, h]
  cases Snapshot.translation? host.snapshot.fallback context key with
  | none =>
      show Tier.source ≠ .fallback
      decide
  | some text =>
      show Tier.active ≠ .fallback
      decide

/-! ### Switching back -/

section Back

variable {host : Host σ} {catalog : Catalog} (h : host.Backed) (hkeeps : host.Keeps catalog)

include h hkeeps

theorem switch_of_keeps (hactive : catalog.locale.code ≠ host.snapshot.locale.code)
    (behaviour : Behaviour σ) (depth : Nat) :
    switch behaviour (depth + 1) catalog.locale.code host =
      (install (switch behaviour depth) behaviour
        { host with
          library := (host.library.load catalog.locale.code).2, switching := true } catalog).map
        fun last => (.ok catalog.locale, { last with switching := false }) := by
  have hregistered := h.valid.store.registered _ _ hkeeps
  obtain ⟨registration, hfind, -⟩ := Option.map_eq_some_iff.mp hregistered
  exact switch_of_loaded hfind hactive (by rw [Library.load_of_cached hkeeps])

theorem switch_of_keeps_active (hactive : catalog.locale.code = host.snapshot.locale.code)
    (behaviour : Behaviour σ) (depth : Nat) :
    ∃ next, switch behaviour (depth + 1) catalog.locale.code host =
        some (.ok catalog.locale, next) ∧ next.snapshot = host.snapshot := by
  have hlocale : catalog.locale ∈ host.registry.locales :=
    Registry.mem_locales_of_locale? (h.valid.store.registered _ _ hkeeps)
  exact (switch_of_active_mem h.valid.activeRegistered hlocale hactive behaviour depth).2

theorem outcome_of_keeps {depth : Nat} {outcome : Except SwitchError Locale} {next : Host σ}
    (hnext : switch behaviour depth catalog.locale.code host = some (outcome, next)) :
    outcome = .ok catalog.locale := by
  cases depth with
  | zero => cases hnext
  | succ depth =>
      by_cases hactive : catalog.locale.code = host.snapshot.locale.code
      · obtain ⟨last, hlast, -⟩ := switch_of_keeps_active h hkeeps hactive behaviour depth
        cases hlast.symm.trans hnext
        rfl
      · exact (ends_of_installed (switch_of_keeps h hkeeps hactive behaviour depth) hnext).1

theorem exists_switch_of_keeps {depth : Nat}
    (hreturn : ∀ observer ∈ host.observers, ∀ middle, (run (switch behaviour depth)
      (behaviour observer catalog.locale) middle).isSome = true) :
    ∃ next, switch behaviour (depth + 1) catalog.locale.code host =
      some (.ok catalog.locale, next) := by
  by_cases hactive : catalog.locale.code = host.snapshot.locale.code
  · obtain ⟨next, hnext, -⟩ := switch_of_keeps_active h hkeeps hactive behaviour depth
    exact ⟨next, hnext⟩
  · obtain ⟨last, hlast⟩ := Option.isSome_iff_exists.mp (@install_isSome _ behaviour
      { host with
        library := (host.library.load catalog.locale.code).2, switching := true } _ _ hreturn)
    rw [switch_of_keeps h hkeeps hactive, hlast]
    exact ⟨_, rfl⟩

theorem exists_switch_of_calm {depth : Nat} (hcalm : Calm behaviour depth host.observers) :
    ∃ next, switch behaviour (depth + 1) catalog.locale.code host =
        some (.ok catalog.locale, next) ∧ next.snapshot.catalog = catalog := by
  by_cases hactive : catalog.locale.code = host.snapshot.locale.code
  · obtain ⟨next, hnext, hsnapshot⟩ := switch_of_keeps_active h hkeeps hactive behaviour depth
    refine ⟨next, hnext, ?_⟩
    rw [hsnapshot]
    exact h.active.eq hkeeps hactive.symm
  · obtain ⟨last, hlast, hinstalled⟩ := @install_of_calm _ behaviour depth
      { host with library := (host.library.load catalog.locale.code).2, switching := true }
      hcalm catalog
    rw [switch_of_keeps h hkeeps hactive, hlast]
    exact ⟨_, rfl, hinstalled⟩

end Back

/-- What there is to say about a host and a later state of it, in which the locale that was active
may be asked for again. -/
structure OneCatalog (behaviour : Behaviour σ) (earlier later : Host σ) : Prop where
  fallback : later.snapshot.fallback = earlier.snapshot.fallback
  /-- The locale to fall back to is active with the catalog to fall back to only. -/
  shared : later.snapshot.locale.same later.snapshot.fallback.locale = true →
    later.snapshot.catalog = later.snapshot.fallback ∧
      ∀ context key arguments, (later.resolve context key arguments).1.tier ≠ .fallback
  again : later.snapshot.locale.same earlier.snapshot.locale = true →
    later.snapshot.catalog = earlier.snapshot.catalog
  /-- If the locale is active still, or again, a switch to it takes place and changes nothing. -/
  stays : later.snapshot.locale.same earlier.snapshot.locale = true → ∀ depth, ∃ next,
    switch behaviour (depth + 1) earlier.snapshot.locale.code later =
      some (.ok earlier.snapshot.locale, next) ∧ next.snapshot = later.snapshot
  /-- If another locale is active, the switch installs the catalog that was active before. -/
  installs : later.snapshot.locale.same earlier.snapshot.locale = false → ∀ depth,
    switch behaviour (depth + 1) earlier.snapshot.locale.code later =
      (install (switch behaviour depth) behaviour
        { later with
          library := (later.library.load earlier.snapshot.locale.code).2
          switching := true } earlier.snapshot.catalog).map
        fun last => (.ok earlier.snapshot.locale, { last with switching := false })
  /-- The switch is not refused; if nobody has switched away in the end, that catalog is active. -/
  succeeds : ∀ depth outcome next,
    switch behaviour depth earlier.snapshot.locale.code later = some (outcome, next) →
      outcome = .ok earlier.snapshot.locale ∧
        (next.snapshot.locale.same earlier.snapshot.locale = true →
          next.snapshot.catalog = earlier.snapshot.catalog)
  /-- It comes to an end if the observers that may be told do. -/
  ends : ∀ depth,
    (∀ observer ∈ later.observers, ∀ middle, (run (switch behaviour depth)
      (behaviour observer earlier.snapshot.locale) middle).isSome = true) →
    ∃ next, switch behaviour (depth + 1) earlier.snapshot.locale.code later =
      some (.ok earlier.snapshot.locale, next)
  /-- With calm observers the catalog is active in the end. -/
  settles : ∀ depth, Calm behaviour depth later.observers →
    ∃ next, switch behaviour (depth + 1) earlier.snapshot.locale.code later =
        some (.ok earlier.snapshot.locale, next) ∧
      next.snapshot.catalog = earlier.snapshot.catalog

theorem During.catalog_eq {earlier later : Host σ} (h : During behaviour Retaining earlier later)
    (hearlier : earlier.Backed)
    (hsame : later.snapshot.locale.same earlier.snapshot.locale = true) :
    later.snapshot.catalog = earlier.snapshot.catalog :=
  (h.backed hearlier).active.eq (h.keeps hearlier.active) (eq_of_beq hsame)

theorem During.oneCatalog {earlier later : Host σ} (h : During behaviour Retaining earlier later)
    (hearlier : earlier.Backed) : OneCatalog behaviour earlier later := by
  have hlater : later.Backed := h.backed hearlier
  have hkeeps : later.Keeps earlier.snapshot.catalog := h.keeps hearlier.active
  constructor
  case fallback => exact h.fallback_eq
  case shared =>
    intro hsame
    have hshared : later.snapshot.catalog = later.snapshot.fallback :=
      hlater.active.eq hlater.fallback (eq_of_beq hsame)
    exact ⟨hshared, tier_ne_fallback hshared⟩
  case again => exact h.catalog_eq hearlier
  case stays =>
    intro hsame depth
    exact switch_of_keeps_active hlater hkeeps (eq_of_beq hsame).symm behaviour depth
  case installs =>
    intro hother depth
    exact switch_of_keeps hlater hkeeps (ne_of_beq_false hother).symm behaviour depth
  case succeeds =>
    intro depth outcome next hnext
    refine ⟨outcome_of_keeps hlater hkeeps hnext, fun hsame => ?_⟩
    -- The switch is one operation more, after which the same invariant holds.
    have hperform : later.perform (switch behaviour depth)
        (.switch earlier.snapshot.locale.code) = some next := by
      rw [Host.perform, hnext, Option.map_some]
    exact (During.perform depth (.switch _) h trivial hperform).catalog_eq hearlier hsame
  case ends => exact fun depth hreturn => exists_switch_of_keeps hlater hkeeps hreturn
  case settles => exact fun depth hcalm => exists_switch_of_calm hlater hkeeps hcalm

/-- A locale has one catalog for as long as no catalog is forgotten: at any time after a host has
begun, the locale to fall back to is active with the catalog to fall back to or not at all, and a
switch to a locale that was active at an earlier time installs what was active then. -/
theorem oneCatalog_of_during {library : Library} {code : String} {memory : σ}
    {start earlier later : Host σ} (hlibrary : library.Reachable)
    (hstart : (Host.start library code memory).1 = .ok start)
    (hearlier : During behaviour Retaining start earlier)
    (hlater : During behaviour Retaining earlier later) : OneCatalog behaviour earlier later :=
  hlater.oneCatalog (hearlier.backed (backed_of_start hlibrary.valid hstart))

/-! ### A host without files -/

/-- The bilingual host after a switch to Russian. -/
def russianHost : Host Unit :=
  { withCatalog { bilingualHost with library := attendedHost.library, switching := true }
      russianCatalog with switching := false }

theorem switch_russian (behaviour : Behaviour Unit) :
    switch behaviour 1 "ru_RU" bilingualHost = some (.ok russian, russianHost) := by
  have hswitch := @switch_of_loaded _ behaviour 0 "ru_RU" bilingualHost ⟨russian, "veil_ru.ts"⟩
    russianCatalog rfl (by decide) (by rw [load_russian])
  rw [load_russian] at hswitch
  exact hswitch

/-- The same host after both files have been removed. -/
def bereftHost : Host Unit :=
  { russianHost with
    library := (russianHost.library.perform (.remove "veil_en.ts")).perform (.remove "veil_ru.ts") }

theorem oneCatalog_of_during_bereft : bilingual.Reachable ∧
    (Host.start bilingual "en_US" ()).1 = .ok bilingualHost ∧
      During takeBack Retaining bilingualHost russianHost ∧
      During takeBack Retaining bilingualHost bereftHost ∧ bereftHost.library.disk = [] ∧
      ∃ next, switch takeBack 1 "en_US" bereftHost = some (.ok english, next) ∧
        next.snapshot.catalog = englishCatalog ∧ During takeBack Retaining russianHost next ∧
        OneCatalog takeBack russianHost next := by
  have hreachable : bilingual.Reachable := .fresh rfl
  have hrussian : During takeBack Retaining bilingualHost russianHost :=
    .perform 1 (.switch "ru_RU") .start trivial (by rw [perform, switch_russian]; rfl)
  have hbereft : During takeBack Retaining russianHost bereftHost :=
    (During.start.perform 0 (.library (.remove "veil_en.ts")) trivial rfl).perform 0
      (.library (.remove "veil_ru.ts")) trivial rfl
  have hgone := hrussian.trans hbereft
  have hcalm : Calm takeBack 0 bereftHost.observers := fun _ hobserver =>
    absurd hobserver List.not_mem_nil
  obtain ⟨next, hnext, hcatalog⟩ :=
    (oneCatalog_of_during hreachable start_bilingual .start hgone).settles 0 hcalm
  have hback : During takeBack Retaining russianHost next :=
    hbereft.perform 1 (.switch "en_US") trivial (by rw [perform]; exact congrArg _ hnext)
  exact ⟨hreachable, start_bilingual, hrussian, hgone, by decide, next, hnext, hcatalog, hback,
    oneCatalog_of_during hreachable start_bilingual hrussian hback⟩

end Polyglot.Host
