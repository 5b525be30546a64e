import Polyglot.Proofs.Notification
import Polyglot.Proofs.Resolution

/-!
How a switch ends. Its code is not registered, or that of the active locale, or its catalog cannot
be had, or else the catalog is installed; there is nothing else, and only the last changes anything
but the journal. A catalog that cannot be had is reported as such, unless its version is too long:
then the switch fails with the version.
-/

namespace Polyglot

/-! ### What can be had of a registered locale -/

namespace Library

/-- The file of a registration cannot be read, or what it holds is rejected. -/
def Unusable (library : Library) (registration : Registration) : Prop :=
  (∃ cause, library.disk.read registration.path = .error cause) ∨
    ∃ bytes error, library.disk.read registration.path = .ok bytes ∧
      (Catalog.ofBytes library.store.config registration.locale bytes).outcome = .error error

/-- The catalog in the cache, or, if there is none, that of the file. -/
def Offers (library : Library) (registration : Registration) (catalog : Catalog) : Prop :=
  library.store.cached.get? registration.locale.code = some catalog ∨
    (library.store.cached.get? registration.locale.code = none ∧
      ∃ bytes, library.disk.read registration.path = .ok bytes ∧
        (Catalog.ofBytes library.store.config registration.locale bytes).outcome = .ok catalog)

theorem fetch_of_unusable {library : Library} {code : String} {registration : Registration}
    (hfind : library.store.registry.find? code = some registration)
    (h : library.Unusable registration) :
    ∃ error, (library.store.fetch library.disk code).outcome = .error error := by
  simp only [Store.fetch, hfind]
  rcases h with ⟨cause, hread⟩ | ⟨bytes, error, hread, hbytes⟩
  · rw [hread]
    exact ⟨_, rfl⟩
  · rw [hread]
    exact ⟨error, hbytes⟩

theorem unusable_of_overlong {library : Library} {code : String} {registration : Registration}
    {digits : Nat} (hfind : library.store.registry.find? code = some registration)
    (h : library.store.Overlong library.disk code digits) : library.Unusable registration := by
  obtain ⟨other, bytes, hother, hread, hoverlong⟩ := h
  obtain rfl := Option.some.inj (hother.symm.trans hfind)
  exact Or.inr ⟨bytes, _, hread, Catalog.outcome_of_overlong hoverlong _ _⟩

theorem fetch_of_not_unusable {library : Library} {code : String} {registration : Registration}
    (hfind : library.store.registry.find? code = some registration)
    (h : ¬ library.Unusable registration) :
    ∃ bytes catalog, library.disk.read registration.path = .ok bytes ∧
      (Catalog.ofBytes library.store.config registration.locale bytes).outcome = .ok catalog ∧
      (library.store.fetch library.disk code).outcome = .ok catalog := by
  simp only [Store.fetch, hfind]
  cases hread : library.disk.read registration.path with
  | error cause => exact absurd (Or.inl ⟨cause, hread⟩) h
  | ok bytes =>
      cases hbytes : (Catalog.ofBytes library.store.config registration.locale bytes).outcome with
      | error error => exact absurd (Or.inr ⟨bytes, error, hread, hbytes⟩) h
      | ok catalog => exact ⟨bytes, catalog, rfl, hbytes, rfl⟩

/-- A catalog that can be had is loaded. -/
theorem load_of_offered {library : Library} {code : String} {registration : Registration}
    (hfind : library.store.registry.find? code = some registration)
    (h : ¬ (library.store.cached.get? code = none ∧ library.Unusable registration)) :
    ∃ catalog, library.Offers registration catalog ∧ (library.load code).1 = .ok catalog := by
  unfold Offers
  rw [Registry.code_of_find? hfind]
  cases hcached : library.store.cached.get? code with
  | some catalog => exact ⟨catalog, Or.inl rfl, by rw [load_of_cached hcached]⟩
  | none =>
      have husable : ¬ library.Unusable registration := fun hunusable => h ⟨hcached, hunusable⟩
      obtain ⟨bytes, catalog, hread, hbytes, hfetch⟩ := fetch_of_not_unusable hfind husable
      exact ⟨catalog, Or.inr ⟨rfl, bytes, hread, hbytes⟩, by rw [load_of_ok hcached hfetch]⟩

end Library

namespace Host

variable {σ : Type}

/-! ### Switches that change nothing -/

/-- Records have been written, and nothing else is different; no switch is under way. -/
def Untouched (host next : Host σ) : Prop :=
  next.switching = false ∧
    ∃ records, next = { host with library.journal := host.library.journal ++ records }

/-- A switch ends with an outcome, leaves the host untouched, and no observer is told anything. -/
def EndsQuietly (behaviour : Behaviour σ) (depth : Nat) (code : String) (host : Host σ)
    (outcome : Except SwitchError Locale) : Prop :=
  ∃ next, switch behaviour depth code host = some (outcome, next) ∧ Untouched host next ∧
    switch behaviour.recorded depth code (host.recording []) = some (outcome, next.recording [])

section Ends

variable {behaviour : Behaviour σ} {depth : Nat} {code : String} {host : Host σ}

theorem switch_of_active
    (h : host.registry.locale? host.snapshot.locale.code = some host.snapshot.locale) :
    switch behaviour (depth + 1) host.snapshot.locale.code host = some (.ok host.snapshot.locale,
      { host.report .debug s!"Locale {host.snapshot.locale.code} is already active" with
        switching := false }) := by
  have hsame : Locale.same (Snapshot.locale { host with switching := true }.snapshot)
      host.snapshot.locale = true := beq_self_eq_true _
  rw [switch_of_registered h, switchTo_of_same hsame]
  rfl

theorem not_same_of_ne {registration : Registration}
    (hfind : host.registry.find? code = some registration)
    (hactive : code ≠ host.snapshot.locale.code) :
    host.snapshot.locale.same registration.locale = false := by
  rw [Locale.same, Registry.code_of_find? hfind, beq_eq_false_iff_ne]
  exact hactive.symm

theorem switch_of_rejected {registration : Registration} {cause : CatalogError}
    (hfind : host.registry.find? code = some registration)
    (hactive : code ≠ host.snapshot.locale.code)
    (hcached : host.library.store.cached.get? code = none)
    (hfetch : (host.library.store.fetch host.library.disk code).outcome =
      .error (.catalog cause)) :
    switch behaviour (depth + 1) code host = some (.error (.invalid code cause),
      { host with
        library.journal := host.library.journal ++
          ((host.library.store.fetch host.library.disk code).journal ++
            [⟨.warning, .switch, s!"Switch to {code} failed: {cause.message}"⟩])
        switching := false }) := by
  have hcode := Registry.code_of_find? hfind
  have hload := Library.load_of_error hcached hfetch
  rw [← hcode] at hload
  have hswitch := @switchTo_of_invalid _ (switch behaviour depth) behaviour registration.locale
    { host with switching := true } _ _ (not_same_of_ne hfind hactive) hload
  rw [switch_of_registered (Registry.locale?_of_find? hfind), hswitch, hcode, ← List.append_assoc]
  rfl

theorem switch_of_version {registration : Registration} {fault : VersionFault}
    (hfind : host.registry.find? code = some registration)
    (hactive : code ≠ host.snapshot.locale.code)
    (hcached : host.library.store.cached.get? code = none)
    (hfetch : (host.library.store.fetch host.library.disk code).outcome =
      .error (.version fault)) :
    switch behaviour (depth + 1) code host = some (.error (.version fault),
      { host with
        library.journal := host.library.journal ++
          (host.library.store.fetch host.library.disk code).journal
        switching := false }) := by
  have hload := Library.load_of_error hcached hfetch
  rw [← Registry.code_of_find? hfind] at hload
  have hswitch := @switchTo_of_version _ (switch behaviour depth) behaviour registration.locale
    { host with switching := true } _ _ (not_same_of_ne hfind hactive) hload
  rw [switch_of_registered (Registry.locale?_of_find? hfind), hswitch,
    Registry.code_of_find? hfind]
  rfl

theorem switch_of_loaded {registration : Registration} {catalog : Catalog}
    (hfind : host.registry.find? code = some registration)
    (hactive : code ≠ host.snapshot.locale.code)
    (hload : (host.library.load code).1 = .ok catalog) :
    switch behaviour (depth + 1) code host = (install (switch behaviour depth) behaviour
      { host with library := (host.library.load code).2, switching := true } catalog).map
        fun last => (.ok catalog.locale, { last with switching := false }) := by
  have hcode := Registry.code_of_find? hfind
  have hloaded : host.library.load registration.locale.code =
      (.ok catalog, (host.library.load code).2) := by
    rw [hcode, ← hload]
  have hswitch := @switchTo_of_loaded _ (switch behaviour depth) behaviour registration.locale
    { host with switching := true } _ _ (not_same_of_ne hfind hactive) hloaded
  rw [switch_of_registered (Registry.locale?_of_find? hfind), hswitch, Option.map_map]
  rfl

/-- Installing a catalog leaves the snapshot that was there before behind for good. -/
theorem serial_lt_of_install {catalog : Catalog} {last : Host σ}
    (h : install (switch behaviour depth) behaviour host catalog = some last) :
    host.snapshot.serial < last.snapshot.serial := by
  rw [install_eq] at h
  exact serial_of_changes (changes_notify (fun hswitch => changes_switch hswitch) h)

/-- If nothing is under way and records only are written, the host is untouched. -/
theorem untouched_of_idle (hidle : host.switching = false) (records : Journal) :
    Untouched host { host with
      library.journal := host.library.journal ++ records, switching := false } := by
  refine ⟨rfl, records, ?_⟩
  rw [← hidle]

/-- A round of notification comes to an end if every observer that is told does. -/
theorem notify_isSome {switch : Switching σ} {installed : Snapshot} {observers : List Observer}
    (hreturn : ∀ observer ∈ observers, ∀ middle,
      (run switch (behaviour observer installed.locale) middle).isSome = true) (host : Host σ) :
    (notify switch behaviour installed observers host).isSome = true := by
  induction observers generalizing host with
  | nil => rfl
  | cons observer rest ih =>
      by_cases hcurrent : host.snapshot.serial = installed.serial
      · obtain ⟨result, hresult⟩ :=
          Option.isSome_iff_exists.mp (hreturn observer List.mem_cons_self host)
        rw [notify_current hcurrent, hresult, Option.bind_some]
        exact ih (fun other hother => hreturn other (List.mem_cons_of_mem observer hother)) _
      · rw [notify_superseded hcurrent]
        rfl

theorem install_isSome {switch : Switching σ} {catalog : Catalog}
    (hreturn : ∀ observer ∈ host.observers, ∀ middle,
      (run switch (behaviour observer catalog.locale) middle).isSome = true) :
    (install switch behaviour host catalog).isSome = true :=
  notify_isSome hreturn (host.withCatalog catalog)

theorem EndsQuietly.outcome_eq {outcome other : Except SwitchError Locale} {next : Host σ}
    (h : EndsQuietly behaviour depth code host outcome)
    (hother : switch behaviour depth code host = some (other, next)) : other = outcome := by
  obtain ⟨last, hlast, -⟩ := h
  rw [hlast] at hother
  cases hother
  rfl

theorem endsQuietly_of_unknown (hidle : host.switching = false)
    (h : host.registry.locale? code = none) :
    EndsQuietly behaviour (depth + 1) code host (.error (.unknown code)) :=
  ⟨_, switch_of_unknown h, ⟨hidle, _, rfl⟩,
    @switch_of_unknown _ behaviour.recorded depth code (host.recording []) h⟩

theorem endsQuietly_of_active (hidle : host.switching = false)
    (h : host.registry.locale? host.snapshot.locale.code = some host.snapshot.locale) :
    EndsQuietly behaviour (depth + 1) host.snapshot.locale.code host (.ok host.snapshot.locale) :=
  ⟨_, switch_of_active h, untouched_of_idle hidle _,
    @switch_of_active _ behaviour.recorded depth (host.recording []) h⟩

theorem endsQuietly_of_unusable (hidle : host.switching = false) {registration : Registration}
    (hfind : host.registry.find? code = some registration)
    (hactive : code ≠ host.snapshot.locale.code)
    (hminimum : (Version.parse? host.library.store.config.minVersion).isSome = true)
    (hcached : host.library.store.cached.get? code = none)
    (hunusable : host.library.Unusable registration)
    (hshort : ∀ digits, ¬host.library.store.Overlong host.library.disk code digits) :
    ∃ cause, EndsQuietly behaviour (depth + 1) code host (.error (.invalid code cause)) := by
  obtain ⟨error, hfetch⟩ := Library.fetch_of_unusable hfind hunusable
  obtain ⟨cause, rfl⟩ := (Store.fetch_error hminimum hfetch).resolve_right
    fun ⟨digits, _, hoverlong⟩ => hshort digits hoverlong
  refine ⟨cause, _, switch_of_rejected hfind hactive hcached hfetch, untouched_of_idle hidle _, ?_⟩
  exact @switch_of_rejected _ behaviour.recorded depth code (host.recording []) _ _ hfind hactive
    hcached hfetch

theorem endsQuietly_of_overlong (hidle : host.switching = false)
    (hactive : code ≠ host.snapshot.locale.code)
    (hcached : host.library.store.cached.get? code = none) {digits : Nat}
    (hoverlong : host.library.store.Overlong host.library.disk code digits) :
    EndsQuietly behaviour (depth + 1) code host (.error (.version (.oversized digits))) := by
  obtain ⟨registration, -, hfind, -, -⟩ := id hoverlong
  have hfetch := Store.fetch_of_overlong hoverlong
  refine ⟨_, switch_of_version hfind hactive hcached hfetch, untouched_of_idle hidle _, ?_⟩
  exact @switch_of_version _ behaviour.recorded depth code (host.recording []) _ _ hfind hactive
    hcached hfetch

/-- A switch to a catalog that can be had installs it. -/
theorem installs_of_offered (hvalid : host.Valid) {registration : Registration}
    (hfind : host.registry.find? code = some registration)
    (hactive : code ≠ host.snapshot.locale.code)
    (hoffered : ¬ (host.library.store.cached.get? code = none ∧
      host.library.Unusable registration)) :
    ∃ catalog, host.library.Offers registration catalog ∧
      switch behaviour (depth + 1) code host = (install (switch behaviour depth) behaviour
        { host with library := (host.library.load code).2, switching := true } catalog).map
          fun last => (.ok registration.locale, { last with switching := false }) := by
  obtain ⟨catalog, hcatalog, hload⟩ := Library.load_of_offered hfind hoffered
  have hregistered := (Library.load_valid hvalid.store code).registered code catalog
    (Library.get?_load hload)
  rw [Library.load_registry] at hregistered
  have hlocale : catalog.locale = registration.locale :=
    Option.some.inj (hregistered.symm.trans (Registry.locale?_of_find? hfind))
  refine ⟨catalog, hcatalog, ?_⟩
  rw [switch_of_loaded hfind hactive hload, hlocale]

end Ends

/-! ### All ends of a switch -/

/-- The five ways in which a switch can end, each with what leads to it. -/
inductive Ending (behaviour : Behaviour σ) (depth : Nat) (code : String) (host : Host σ) :
    Prop where
  | unknown (hcode : host.registry.locale? code = none)
      (h : EndsQuietly behaviour (depth + 1) code host (.error (.unknown code)))
  | active (hcode : code = host.snapshot.locale.code)
      (h : EndsQuietly behaviour (depth + 1) code host (.ok host.snapshot.locale))
  | invalid {registration : Registration} {cause : CatalogError}
      (hfind : host.registry.find? code = some registration)
      (hactive : code ≠ host.snapshot.locale.code)
      (hcached : host.library.store.cached.get? code = none)
      (hunusable : host.library.Unusable registration)
      (hshort : ∀ digits, ¬host.library.store.Overlong host.library.disk code digits)
      (h : EndsQuietly behaviour (depth + 1) code host (.error (.invalid code cause)))
  | overlong {digits : Nat} (hactive : code ≠ host.snapshot.locale.code)
      (hcached : host.library.store.cached.get? code = none)
      (hoverlong : host.library.store.Overlong host.library.disk code digits)
      (h : EndsQuietly behaviour (depth + 1) code host (.error (.version (.oversized digits))))
  | installed {registration : Registration} {catalog : Catalog}
      (hfind : host.registry.find? code = some registration)
      (hactive : code ≠ host.snapshot.locale.code)
      (h : switch behaviour (depth + 1) code host = (install (switch behaviour depth) behaviour
        { host with library := (host.library.load code).2, switching := true } catalog).map
          fun last => (.ok registration.locale, { last with switching := false }))

theorem ending {host : Host σ} (hidle : host.switching = false) (hvalid : host.Valid)
    (hminimum : (Version.parse? host.library.store.config.minVersion).isSome = true)
    (behaviour : Behaviour σ) (depth : Nat) (code : String) : Ending behaviour depth code host := by
  cases hfind : host.registry.find? code with
  | none =>
      have hcode : host.registry.locale? code = none := Registry.locale?_of_not_found hfind
      exact .unknown hcode (endsQuietly_of_unknown hidle hcode)
  | some registration =>
      by_cases hactive : code = host.snapshot.locale.code
      · subst hactive
        exact .active rfl (endsQuietly_of_active hidle hvalid.activeRegistered)
      · by_cases hoffered : host.library.store.cached.get? code = none ∧
            host.library.Unusable registration
        · obtain ⟨hcached, hunusable⟩ := hoffered
          by_cases hshort : ∀ digits, ¬host.library.store.Overlong host.library.disk code digits
          · obtain ⟨cause, hends⟩ :=
              endsQuietly_of_unusable hidle hfind hactive hminimum hcached hunusable hshort
            exact .invalid hfind hactive hcached hunusable hshort hends
          · obtain ⟨digits, hoverlong⟩ := not_forall.mp hshort
            have hoverlong := not_not.mp hoverlong
            exact .overlong hactive hcached hoverlong
              (endsQuietly_of_overlong hidle hactive hcached hoverlong)
        · obtain ⟨catalog, -, hends⟩ := installs_of_offered hvalid hfind hactive hoffered
          exact .installed hfind hactive hends

section Endings

variable {behaviour : Behaviour σ} {depth : Nat} {code : String} {host : Host σ}

theorem ends_of_installed {catalog : Catalog} {locale : Locale} {library : Library}
    {outcome : Except SwitchError Locale} {next : Host σ}
    (h : switch behaviour (depth + 1) code host = (install (switch behaviour depth) behaviour
      { host with library, switching := true } catalog).map
        fun last => (.ok locale, { last with switching := false }))
    (hnext : switch behaviour (depth + 1) code host = some (outcome, next)) :
    outcome = .ok locale ∧ host.snapshot.serial < next.snapshot.serial := by
  rw [h] at hnext
  obtain ⟨last, hlast, heq⟩ := Option.map_eq_some_iff.mp hnext
  cases heq
  have hlt := serial_lt_of_install hlast
  exact ⟨rfl, hlt⟩

theorem Ending.locale?_of_unknown (h : Ending behaviour depth code host) {next : Host σ}
    (hnext : switch behaviour (depth + 1) code host = some (.error (.unknown code), next)) :
    host.registry.locale? code = none := by
  cases h with
  | unknown hcode _ => exact hcode
  | active _ hends => cases hends.outcome_eq hnext
  | invalid _ _ _ _ _ hends => cases hends.outcome_eq hnext
  | overlong _ _ _ hends => cases hends.outcome_eq hnext
  | installed _ _ hends => cases (ends_of_installed hends hnext).1

theorem Ending.code_of_quiet (h : Ending behaviour depth code host) {locale : Locale}
    (hquiet : EndsQuietly behaviour (depth + 1) code host (.ok locale)) :
    code = host.snapshot.locale.code := by
  obtain ⟨next, hnext, ⟨-, records, rfl⟩, -⟩ := hquiet
  cases h with
  | unknown _ hends => cases hends.outcome_eq hnext
  | active hcode _ => exact hcode
  | invalid _ _ _ _ _ hends => cases hends.outcome_eq hnext
  | overlong _ _ _ hends => cases hends.outcome_eq hnext
  | installed _ _ hends =>
      exact absurd (ends_of_installed hends hnext).2 (Nat.lt_irrefl _)

theorem Ending.unusable_of_invalid (h : Ending behaviour depth code host) {cause : CatalogError}
    {next : Host σ}
    (hnext : switch behaviour (depth + 1) code host = some (.error (.invalid code cause), next)) :
    ∃ registration, host.registry.find? code = some registration ∧
      code ≠ host.snapshot.locale.code ∧ host.library.store.cached.get? code = none ∧
      host.library.Unusable registration ∧
      ∀ digits, ¬host.library.store.Overlong host.library.disk code digits := by
  cases h with
  | unknown _ hends => cases hends.outcome_eq hnext
  | active _ hends => cases hends.outcome_eq hnext
  | invalid hfind hactive hcached hunusable hshort _ =>
      exact ⟨_, hfind, hactive, hcached, hunusable, hshort⟩
  | overlong _ _ _ hends => cases hends.outcome_eq hnext
  | installed _ _ hends => cases (ends_of_installed hends hnext).1

theorem Ending.overlong_of_version (h : Ending behaviour depth code host) {digits : Nat}
    {next : Host σ}
    (hnext : switch behaviour (depth + 1) code host =
      some (.error (.version (.oversized digits)), next)) :
    code ≠ host.snapshot.locale.code ∧ host.library.store.cached.get? code = none ∧
      host.library.store.Overlong host.library.disk code digits := by
  cases h with
  | unknown _ hends => cases hends.outcome_eq hnext
  | active _ hends => cases hends.outcome_eq hnext
  | invalid _ _ _ _ _ hends => cases hends.outcome_eq hnext
  | overlong hactive hcached hoverlong hends =>
      cases hends.outcome_eq hnext
      exact ⟨hactive, hcached, hoverlong⟩
  | installed _ _ hends => cases (ends_of_installed hends hnext).1

theorem Ending.locale?_of_ok (h : Ending behaviour depth code host) (hvalid : host.Valid)
    {locale : Locale} {next : Host σ}
    (hnext : switch behaviour (depth + 1) code host = some (.ok locale, next)) :
    host.registry.locale? code = some locale := by
  cases h with
  | unknown _ hends => cases hends.outcome_eq hnext
  | active hcode hends =>
      cases hends.outcome_eq hnext
      rw [hcode]
      exact hvalid.activeRegistered
  | invalid _ _ _ _ _ hends => cases hends.outcome_eq hnext
  | overlong _ _ _ hends => cases hends.outcome_eq hnext
  | installed hfind _ hends =>
      cases (ends_of_installed hends hnext).1
      exact Registry.locale?_of_find? hfind

theorem Ending.quiet_of_error (h : Ending behaviour depth code host) {error : SwitchError}
    {next : Host σ} (hnext : switch behaviour (depth + 1) code host = some (.error error, next)) :
    (error = .unknown code ∨ (∃ cause, error = .invalid code cause) ∨
      ∃ digits, error = .version (.oversized digits)) ∧
      EndsQuietly behaviour (depth + 1) code host (.error error) := by
  cases h with
  | unknown _ hends =>
      cases hends.outcome_eq hnext
      exact ⟨Or.inl rfl, hends⟩
  | active _ hends => cases hends.outcome_eq hnext
  | invalid _ _ _ _ _ hends =>
      cases hends.outcome_eq hnext
      exact ⟨Or.inr (Or.inl ⟨_, rfl⟩), hends⟩
  | overlong _ _ _ hends =>
      cases hends.outcome_eq hnext
      exact ⟨Or.inr (Or.inr ⟨_, rfl⟩), hends⟩
  | installed _ _ hends => cases (ends_of_installed hends hnext).1

theorem Ending.isSome (h : Ending behaviour depth code host)
    (hreturn : ∀ observer locale middle,
      (run (switch behaviour depth) (behaviour observer locale) middle).isSome = true) :
    (switch behaviour (depth + 1) code host).isSome = true := by
  cases h with
  | unknown _ hends =>
      obtain ⟨next, hnext, -⟩ := hends
      rw [hnext, Option.isSome_some]
  | active _ hends =>
      obtain ⟨next, hnext, -⟩ := hends
      rw [hnext, Option.isSome_some]
  | invalid _ _ _ _ _ hends =>
      obtain ⟨next, hnext, -⟩ := hends
      rw [hnext, Option.isSome_some]
  | overlong _ _ _ hends =>
      obtain ⟨next, hnext, -⟩ := hends
      rw [hnext, Option.isSome_some]
  | installed _ _ hends =>
      rw [hends, Option.isSome_map]
      exact install_isSome fun observer _ middle => hreturn observer _ middle

end Endings

/-- What is promised of a switch: when it ends in which way, and what is true then. -/
structure Outcomes (behaviour : Behaviour σ) (depth : Nat) (code : String) (host : Host σ) :
    Prop where
  unknown : (∃ next, switch behaviour (depth + 1) code host =
      some (.error (.unknown code), next)) ↔
    host.registry.locale? code = none
  active : (∃ locale, EndsQuietly behaviour (depth + 1) code host (.ok locale)) ↔
    code = host.snapshot.locale.code
  /-- For the active locale nothing is even looked for in the library. -/
  skipped : code = host.snapshot.locale.code → switch behaviour (depth + 1) code host =
    some (.ok host.snapshot.locale, host.report .debug s!"Locale {code} is already active")
  invalid : (∃ cause next, switch behaviour (depth + 1) code host =
      some (.error (.invalid code cause), next)) ↔
    ∃ registration, host.registry.find? code = some registration ∧
      code ≠ host.snapshot.locale.code ∧ host.library.store.cached.get? code = none ∧
      host.library.Unusable registration ∧
      ∀ digits, ¬host.library.store.Overlong host.library.disk code digits
  /-- A version that is too long is not taken for a fault of the catalog. -/
  overlong : ∀ digits, (∃ next, switch behaviour (depth + 1) code host =
      some (.error (.version (.oversized digits)), next)) ↔
    code ≠ host.snapshot.locale.code ∧ host.library.store.cached.get? code = none ∧
      host.library.store.Overlong host.library.disk code digits
  /-- Otherwise a catalog is installed that can be had. -/
  installs : ∀ registration, host.registry.find? code = some registration →
    code ≠ host.snapshot.locale.code →
    ¬ (host.library.store.cached.get? code = none ∧ host.library.Unusable registration) →
    ∃ catalog, host.library.Offers registration catalog ∧
      switch behaviour (depth + 1) code host = (install (switch behaviour depth) behaviour
        { host with library := (host.library.load code).2, switching := true } catalog).map
          fun last => (.ok registration.locale, { last with switching := false })
  /-- The locale of a switch that has taken place is the registered one. -/
  located : ∀ locale next, switch behaviour (depth + 1) code host = some (.ok locale, next) →
    host.registry.locale? code = some locale
  /-- There are no other errors, and an error leaves everything as it was. -/
  errors : ∀ error next, switch behaviour (depth + 1) code host = some (.error error, next) →
    (error = .unknown code ∨ (∃ cause, error = .invalid code cause) ∨
      ∃ digits, error = .version (.oversized digits)) ∧
      EndsQuietly behaviour (depth + 1) code host (.error error)
  /-- A switch comes to an end if the observers do. -/
  returns : (∀ observer locale middle,
      (run (switch behaviour depth) (behaviour observer locale) middle).isSome = true) →
    (switch behaviour (depth + 1) code host).isSome = true

/-- A switch that is asked for while none is under way has exactly the promised outcomes, apart from
a version that is too long, which is an outcome of its own. An error changes nothing. -/
theorem outcomes_of_atRest {behaviour : Behaviour σ} {host : Host σ} (h : AtRest behaviour host)
    (hminimum : (Version.parse? host.library.store.config.minVersion).isSome = true)
    (depth : Nat) (code : String) : Outcomes behaviour depth code host := by
  have hvalid := h.valid
  have hidle := h.idle
  have hending := ending hidle hvalid hminimum behaviour depth code
  refine ⟨⟨?_, ?_⟩, ⟨?_, ?_⟩, ?_, ⟨?_, ?_⟩, fun digits => ⟨?_, ?_⟩, ?_, ?_, ?_, hending.isSome⟩
  · rintro ⟨next, hnext⟩
    exact hending.locale?_of_unknown hnext
  · intro hcode
    obtain ⟨next, hnext, -⟩ := endsQuietly_of_unknown hidle hcode
    exact ⟨next, hnext⟩
  · rintro ⟨locale, hquiet⟩
    exact hending.code_of_quiet hquiet
  · rintro rfl
    exact ⟨_, endsQuietly_of_active hidle hvalid.activeRegistered⟩
  · rintro rfl
    rw [switch_of_active hvalid.activeRegistered, ← hidle]
    rfl
  · rintro ⟨cause, next, hnext⟩
    exact hending.unusable_of_invalid hnext
  · rintro ⟨registration, hfind, hactive, hcached, hunusable, hshort⟩
    obtain ⟨cause, next, hnext, -⟩ :=
      endsQuietly_of_unusable hidle hfind hactive hminimum hcached hunusable hshort
    exact ⟨cause, next, hnext⟩
  · rintro ⟨next, hnext⟩
    exact hending.overlong_of_version hnext
  · rintro ⟨hactive, hcached, hoverlong⟩
    obtain ⟨next, hnext, -⟩ := endsQuietly_of_overlong hidle hactive hcached hoverlong
    exact ⟨next, hnext⟩
  · intro registration hfind hactive hoffered
    exact installs_of_offered hvalid hfind hactive hoffered
  · intro locale next hnext
    exact hending.locale?_of_ok hvalid hnext
  · intro error next hnext
    exact hending.quiet_of_error hnext

theorem outcomes_of_atRest_bilingual :
    AtRest (fun _ _ => .done) bilingualHost ∧
      (Version.parse? bilingualHost.library.store.config.minVersion).isSome = true ∧
      (∃ next, switch (fun _ _ => .done) 1 "de_DE" bilingualHost =
        some (.error (.unknown "de_DE"), next)) ∧
      (∃ locale, EndsQuietly (fun _ _ => .done) 1 "en_US" bilingualHost (.ok locale)) ∧
      ∃ next, switch (fun _ _ => .done) 1 "ru_RU" bilingualHost = some (.ok russian, next) := by
  have hrest := atRest_bilingual fun _ _ => .done
  have hminimum : (Version.parse? bilingualHost.library.store.config.minVersion).isSome = true :=
    Config.isSome_parse?_minVersion
  have houtcomes := outcomes_of_atRest hrest hminimum 0
  refine ⟨hrest, hminimum, (houtcomes "de_DE").unknown.mpr rfl, (houtcomes "en_US").active.mpr rfl,
    ?_⟩
  have hfetch := @Store.fetch_written bilingualHost.library.store bilingualHost.library.disk "ru_RU"
    ⟨russian, "veil_ru.ts"⟩ russianSections rfl rfl (checkVersion_standard "ru_RU")
    normalizeCode_russian writable_russianSections
  have hoffered : ¬ (bilingualHost.library.store.cached.get? "ru_RU" = none ∧
      bilingualHost.library.Unusable ⟨russian, "veil_ru.ts"⟩) := by
    rintro ⟨-, hunusable⟩
    obtain ⟨error, herror⟩ := @Library.fetch_of_unusable bilingualHost.library "ru_RU"
      ⟨russian, "veil_ru.ts"⟩ rfl hunusable
    rw [hfetch] at herror
    cases herror
  obtain ⟨catalog, -, hinstalls⟩ :=
    (houtcomes "ru_RU").installs ⟨russian, "veil_ru.ts"⟩ rfl (by decide) hoffered
  obtain ⟨result, hresult⟩ := Option.isSome_iff_exists.mp
    ((houtcomes "ru_RU").returns fun _ _ _ => rfl)
  rw [hinstalls] at hresult
  obtain ⟨last, hlast, rfl⟩ := Option.map_eq_some_iff.mp hresult
  exact ⟨_, by rw [hinstalls, hlast]; rfl⟩

/-- A catalog that is registered, neither active nor in the cache, and rejected for a version that
is too long is not reported as invalid. -/
theorem not_invalid_of_overlong :
    AtRest (fun _ _ => .done) overlongHost ∧
      (Version.parse? overlongHost.library.store.config.minVersion).isSome = true ∧
      overlongHost.registry.find? "ru_RU" = some ⟨russian, "veil_ru.ts"⟩ ∧
      "ru_RU" ≠ overlongHost.snapshot.locale.code ∧
      overlongHost.library.store.cached.get? "ru_RU" = none ∧
      overlongHost.library.Unusable ⟨russian, "veil_ru.ts"⟩ ∧
      ¬∃ cause next, switch (fun _ _ => .done) 1 "ru_RU" overlongHost =
        some (.error (.invalid "ru_RU" cause), next) := by
  have hunusable := @Library.unusable_of_overlong _ _ ⟨russian, "veil_ru.ts"⟩ _ rfl
    overlong_overlongHost
  refine ⟨atRest_overlong _, Config.isSome_parse?_minVersion, rfl, by decide, rfl, hunusable,
    fun hinvalid => ?_⟩
  obtain ⟨cause, next, hnext⟩ := hinvalid
  have hends := @endsQuietly_of_overlong _ (fun _ _ => .done) 0 _ _ rfl
    (show "ru_RU" ≠ overlongHost.snapshot.locale.code by decide) rfl _ overlong_overlongHost
  cases hends.outcome_eq hnext

end Host
end Polyglot
