import Mathlib.Logic.Relation
import Polyglot.Engine
import Polyglot.Proofs.Library

/-!
Hosts in use. Whatever a switch does, and whatever observers do inside it, is a sequence of a few
single changes, so that an invariant has to be checked for these changes only. Hosts are looked at
between operations and, more generally, at any time, also while observers are being told.
-/

namespace Polyglot.Host

variable {σ : Type}

/-! ### Single changes -/

/-- What a host is changed by while switches are under way: a record is written, an observer
remembers something, comes or goes, the mark of switching is set, a catalog is loaded, and a catalog
from the cache becomes active. -/
inductive Change : Host σ → Host σ → Prop where
  | write (host : Host σ) (journal : Journal) : Change host { host with library.journal := journal }
  | remember (host : Host σ) (memory : σ) : Change host { host with memory }
  | observe (host : Host σ) (observer : Observer) : Change host (host.observe observer)
  | unobserve (host : Host σ) (observer : Observer) : Change host (host.unobserve observer)
  | mark (host : Host σ) (switching : Bool) : Change host { host with switching }
  | load (host : Host σ) (code : String) :
      Change host { host with library := (host.library.load code).2 }
  | install (host : Host σ) {code : String} {catalog : Catalog}
      (h : host.library.store.cached.get? code = some catalog) :
      Change host { host with snapshot := host.successor catalog }

/-- Any number of changes. -/
abbrev Changes : Host σ → Host σ → Prop := Relation.ReflTransGen Change

theorem changes_report (host : Host σ) (level : Level) (text : String) :
    Changes host (host.report level text) :=
  Relation.ReflTransGen.single (Change.write host _)

/-- The host right after a catalog has become active, before observers are told. -/
def withCatalog (host : Host σ) (catalog : Catalog) : Host σ :=
  { host with snapshot := host.successor catalog }.report .info
    s!"Active locale changed: {host.snapshot.locale.code} -> {catalog.locale.code}"

theorem install_eq (switch : Switching σ) (behaviour : Behaviour σ) (host : Host σ)
    (catalog : Catalog) :
    install switch behaviour host catalog =
      notify switch behaviour (host.successor catalog) host.observers (host.withCatalog catalog) :=
  rfl

theorem changes_withCatalog {host : Host σ} {code : String} {catalog : Catalog}
    (h : (host.library.load code).1 = .ok catalog) :
    Changes host (withCatalog
      { host with library := (host.library.load code).2, switching := true } catalog) := by
  have hloaded : Changes host
      { host with library := (host.library.load code).2, switching := true } :=
    (Relation.ReflTransGen.single (Change.load host code)).tail (Change.mark _ true)
  exact (hloaded.tail (Change.install _ (Library.get?_load h))).trans (changes_report _ _ _)

theorem switchTo_of_same {switch : Switching σ} {behaviour : Behaviour σ} {target : Locale}
    {host : Host σ} (h : host.snapshot.locale.same target = true) :
    switchTo switch behaviour target host = some (.ok host.snapshot.locale,
      host.report .debug s!"Locale {target.code} is already active") := by
  rw [switchTo, if_pos h]

theorem switchTo_of_version {switch : Switching σ} {behaviour : Behaviour σ} {target : Locale}
    {host : Host σ} {library : Library} {fault : VersionFault}
    (hsame : host.snapshot.locale.same target = false)
    (hload : host.library.load target.code = (.error (.version fault), library)) :
    switchTo switch behaviour target host =
      some (.error (.version fault), { host with library }) := by
  simp only [switchTo, hsame, hload, Bool.false_eq_true, if_false]

theorem switchTo_of_invalid {switch : Switching σ} {behaviour : Behaviour σ} {target : Locale}
    {host : Host σ} {library : Library} {cause : CatalogError}
    (hsame : host.snapshot.locale.same target = false)
    (hload : host.library.load target.code = (.error (.catalog cause), library)) :
    switchTo switch behaviour target host = some (.error (.invalid target.code cause),
      { host with library }.report .warning
        s!"Switch to {target.code} failed: {cause.message}") := by
  simp only [switchTo, hsame, hload, Bool.false_eq_true, if_false]

theorem switchTo_of_loaded {switch : Switching σ} {behaviour : Behaviour σ} {target : Locale}
    {host : Host σ} {library : Library} {catalog : Catalog}
    (hsame : host.snapshot.locale.same target = false)
    (hload : host.library.load target.code = (.ok catalog, library)) :
    switchTo switch behaviour target host =
      (install switch behaviour { host with library } catalog).map
        fun last => (.ok catalog.locale, last) := by
  simp only [switchTo, hsame, hload, Bool.false_eq_true, if_false]

theorem switch_of_unknown {behaviour : Behaviour σ} {depth : Nat} {code : String} {host : Host σ}
    (h : host.registry.locale? code = none) :
    switch behaviour (depth + 1) code host = some (.error (.unknown code),
      host.report .warning s!"Rejected switch to unknown locale {quoted code}") := by
  rw [switch, h]

theorem switch_of_registered {behaviour : Behaviour σ} {depth : Nat} {code : String}
    {host : Host σ} {target : Locale} (h : host.registry.locale? code = some target) :
    switch behaviour (depth + 1) code host =
      (switchTo (switch behaviour depth) behaviour target { host with switching := true }).map
        fun result => (result.1, { result.2 with switching := false }) := by
  rw [switch, h]

theorem registry_of_change {host next : Host σ} (h : Change host next) :
    next.registry = host.registry := by
  cases h with
  | load code => exact Library.load_registry host.library code
  | _ => rfl

theorem serial_of_changes {host next : Host σ} (h : Changes host next) :
    host.snapshot.serial ≤ next.snapshot.serial := by
  induction h with
  | refl => exact Nat.le_refl _
  | @tail middle next _ hchange ih =>
      refine Nat.le_trans ih ?_
      cases hchange with
      | install => exact Nat.le_succ _
      | _ => exact Nat.le_refl _

section Switching

variable {switch : Switching σ} {behaviour : Behaviour σ}
  (hswitch : ∀ {code : String} {host next : Host σ} {outcome : Except SwitchError Locale},
    switch code host = some (outcome, next) → Changes host next)

include hswitch

theorem changes_run (script : Script σ) {host next : Host σ} {finished : Bool}
    (h : run switch script host = some (finished, next)) : Changes host next := by
  induction script generalizing host with
  | done =>
      cases h
      exact Relation.ReflTransGen.refl
  | fail =>
      cases h
      exact Relation.ReflTransGen.refl
  | look remember script ih =>
      exact Relation.ReflTransGen.head (Change.remember host _) (ih _ _ h)
  | switch code script ih =>
      rw [run] at h
      split at h
      · rename_i outcome middle hmiddle
        exact (hswitch hmiddle).trans (ih outcome h)
      · cases h
  | observe observer script ih =>
      exact Relation.ReflTransGen.head (Change.observe host observer) (ih h)
  | unobserve observer script ih =>
      exact Relation.ReflTransGen.head (Change.unobserve host observer) (ih h)

theorem changes_notify {installed : Snapshot} {observers : List Observer} {host next : Host σ}
    (h : notify switch behaviour installed observers host = some next) : Changes host next := by
  induction observers generalizing host with
  | nil =>
      cases h
      exact Relation.ReflTransGen.refl
  | cons observer rest ih =>
      rw [notify] at h
      split at h
      · cases h
        exact changes_report host _ _
      · split at h
        · cases h
        · rename_i middle hmiddle
          exact (changes_run hswitch _ hmiddle).trans (ih h)
        · rename_i middle hmiddle
          exact ((changes_run hswitch _ hmiddle).trans (changes_report middle _ _)).trans (ih h)

theorem changes_switchTo {target : Locale} {host next : Host σ}
    {outcome : Except SwitchError Locale}
    (h : switchTo switch behaviour target host = some (outcome, next)) : Changes host next := by
  cases hsame : host.snapshot.locale.same target with
  | true =>
      rw [switchTo_of_same hsame] at h
      cases h
      exact changes_report host _ _
  | false =>
      rcases hload : host.library.load target.code with ⟨loaded, library⟩
      have hlibrary : Changes host { host with library } := by
        have hchange := Change.load host target.code
        rw [hload] at hchange
        exact Relation.ReflTransGen.single hchange
      match loaded with
      | .error (.version fault) =>
          rw [switchTo_of_version hsame hload] at h
          cases h
          exact hlibrary
      | .error (.catalog cause) =>
          rw [switchTo_of_invalid hsame hload] at h
          cases h
          exact hlibrary.trans (changes_report _ _ _)
      | .ok catalog =>
          rw [switchTo_of_loaded hsame hload, install_eq] at h
          obtain ⟨last, hlast, heq⟩ := Option.map_eq_some_iff.mp h
          cases heq
          have hcached : library.store.cached.get? target.code = some catalog := by
            have hget := @Library.get?_load host.library target.code catalog (by rw [hload])
            rwa [hload] at hget
          exact ((hlibrary.tail (Change.install { host with library } hcached)).trans
            (changes_report _ _ _)).trans (changes_notify hswitch hlast)

theorem changes_tryLocales {locales : List Locale} {fallback : String} {host next : Host σ}
    {outcome : Except SwitchError Locale}
    (h : tryLocales switch locales fallback host = some (outcome, next)) : Changes host next := by
  induction locales generalizing host with
  | nil =>
      rw [tryLocales] at h
      exact Relation.ReflTransGen.head (Change.write host _) (hswitch h)
  | cons locale rest ih =>
      rw [tryLocales] at h
      split at h
      · rename_i text middle hmiddle
        cases h
        exact hswitch hmiddle
      · rename_i error middle _ hmiddle
        exact ((hswitch hmiddle).tail (Change.write middle _)).trans (ih h)
      · exact hswitch h

end Switching

theorem changes_switch {behaviour : Behaviour σ} {depth : Nat} {code : String}
    {host next : Host σ} {outcome : Except SwitchError Locale}
    (h : switch behaviour depth code host = some (outcome, next)) : Changes host next := by
  induction depth generalizing code host next outcome with
  | zero => cases h
  | succ depth ih =>
      cases htarget : host.registry.locale? code with
      | none =>
          rw [switch_of_unknown htarget] at h
          cases h
          exact changes_report host _ _
      | some target =>
          rw [switch_of_registered htarget] at h
          obtain ⟨⟨result, last⟩, hlast, heq⟩ := Option.map_eq_some_iff.mp h
          cases heq
          exact (Relation.ReflTransGen.head (Change.mark host true)
            (changes_switchTo (fun h => ih h) hlast)).tail (Change.mark last false)

theorem startupCandidates_eq (host : Host σ) (preferred : Option String) (system : Surroundings) :
    ∃ journal, (host.startupCandidates preferred system).2 =
      { host with library.journal := journal } := by
  cases hpreferred : preferred.filter (· != "") with
  | none =>
      simp only [startupCandidates, hpreferred]
      exact ⟨_, rfl⟩
  | some code =>
      cases hmatch : host.registry.match? code with
      | none =>
          simp only [startupCandidates, hpreferred, hmatch]
          exact ⟨_, rfl⟩
      | some locale =>
          simp only [startupCandidates, hpreferred, hmatch]
          exact ⟨_, rfl⟩

/-! ### Operations -/

/-- What a host can be asked for, and what can happen to its library and to the memory of its
observers meanwhile. -/
inductive Operation (σ : Type) where
  | library (operation : Library.Operation)
  | switch (code : String)
  | startup (preferred : Option String) (system : Surroundings)
  | observe (observer : Observer)
  | unobserve (observer : Observer)
  | resolve (context key : String) (arguments : List String)
  | remember (memory : σ)

/-- The host after an operation, if the operation comes to an end. -/
def perform (switch : Switching σ) (host : Host σ) : Operation σ → Option (Host σ)
  | .library operation => some { host with library := host.library.perform operation }
  | .switch code => (switch code host).map (·.2)
  | .startup preferred system => (host.startup switch preferred system).map (·.2)
  | .observe observer => some (host.observe observer)
  | .unobserve observer => some (host.unobserve observer)
  | .resolve context key arguments => some (host.resolve context key arguments).2
  | .remember memory => some { host with memory }

/-- An operation changes the host as a switch does, unless it is one on the library. -/
theorem perform_cases {behaviour : Behaviour σ} {depth : Nat} {operation : Operation σ}
    {host next : Host σ} (h : host.perform (switch behaviour depth) operation = some next) :
    (∃ inner, operation = .library inner ∧
      next = { host with library := host.library.perform inner }) ∨ Changes host next := by
  cases operation with
  | library inner =>
      cases h
      exact Or.inl ⟨inner, rfl, rfl⟩
  | switch code =>
      obtain ⟨⟨outcome, last⟩, hlast, rfl⟩ := Option.map_eq_some_iff.mp h
      exact Or.inr (changes_switch hlast)
  | startup preferred system =>
      obtain ⟨⟨outcome, last⟩, hlast, rfl⟩ := Option.map_eq_some_iff.mp h
      obtain ⟨journal, hcandidates⟩ := startupCandidates_eq host preferred system
      simp only [startup] at hlast
      rw [hcandidates] at hlast
      exact Or.inr (Relation.ReflTransGen.head (Change.write host journal)
        (changes_tryLocales (fun h => changes_switch h) hlast))
  | observe observer =>
      cases h
      exact Or.inr (Relation.ReflTransGen.single (Change.observe host observer))
  | unobserve observer =>
      cases h
      exact Or.inr (Relation.ReflTransGen.single (Change.unobserve host observer))
  | resolve context key arguments =>
      cases h
      exact Or.inr (Relation.ReflTransGen.single (Change.write host _))
  | remember memory =>
      cases h
      exact Or.inr (Relation.ReflTransGen.single (Change.remember host memory))

/-- A host between two operations: it has begun over a library in use, and any number of operations
have come to an end since. -/
inductive AtRest (behaviour : Behaviour σ) : Host σ → Prop where
  | start {library : Library} {fallback : String} {memory : σ} {host : Host σ}
      (hlibrary : library.Reachable) (h : (Host.start library fallback memory).1 = .ok host) :
      AtRest behaviour host
  | perform {host next : Host σ} (depth : Nat) (operation : Operation σ)
      (hhost : AtRest behaviour host)
      (h : host.perform (switch behaviour depth) operation = some next) : AtRest behaviour next

/-- A host at any time: between two operations, when a catalog has just become active, and when some
observers have been told. Operations that are asked for meanwhile count as well. -/
inductive Reachable (behaviour : Behaviour σ) : Host σ → Prop where
  | rest {host : Host σ} (h : AtRest behaviour host) : Reachable behaviour host
  | perform {host next : Host σ} (depth : Nat) (operation : Operation σ)
      (hhost : Reachable behaviour host)
      (h : host.perform (switch behaviour depth) operation = some next) :
      Reachable behaviour next
  | installed {host : Host σ} {code : String} {catalog : Catalog}
      (hhost : Reachable behaviour host) (h : (host.library.load code).1 = .ok catalog) :
      Reachable behaviour (withCatalog
        { host with library := (host.library.load code).2, switching := true } catalog)
  | told {host next : Host σ} (depth : Nat) (installed : Snapshot) (observers : List Observer)
      (hhost : Reachable behaviour host)
      (h : notify (switch behaviour depth) behaviour installed observers host = some next) :
      Reachable behaviour next

/-- An engine begins as a host over a library that has nothing in its cache. -/
theorem AtRest.opened {behaviour : Behaviour σ} {registry : Registry} {config : Config}
    {shipped : String} {disk : Disk} {journal : Journal} {memory : σ} {host : Host σ}
    (h : (open? registry config shipped disk journal memory).1 = .ok host) :
    AtRest behaviour host := by
  rw [open?] at h
  exact AtRest.start (Library.Reachable.fresh rfl) h

/-! ### What always holds -/

/-- The store is valid, and both catalogs of the snapshot are valid catalogs of registered
locales. -/
structure Valid (host : Host σ) : Prop where
  store : host.library.store.Valid
  active : host.snapshot.catalog.Valid
  fallback : host.snapshot.fallback.Valid
  activeRegistered : host.registry.locale? host.snapshot.locale.code = some host.snapshot.locale
  fallbackRegistered :
    host.registry.locale? host.snapshot.fallback.locale.code = some host.snapshot.fallback.locale

theorem Valid.change {host next : Host σ} (hvalid : host.Valid) (h : Change host next) :
    next.Valid := by
  cases h with
  | load code =>
      have hregistry := registry_of_change (Change.load host code)
      exact ⟨Library.load_valid hvalid.store code, hvalid.active, hvalid.fallback,
        hregistry ▸ hvalid.activeRegistered, hregistry ▸ hvalid.fallbackRegistered⟩
  | install hcached =>
      have hregistered := hvalid.store.registered _ _ hcached
      have hcode := Registry.code_of_locale? hregistered
      exact ⟨hvalid.store, hvalid.store.valid _ _ hcached, hvalid.fallback,
        hcode.symm ▸ hregistered, hvalid.fallbackRegistered⟩
  | _ => exact ⟨hvalid.store, hvalid.active, hvalid.fallback, hvalid.activeRegistered,
      hvalid.fallbackRegistered⟩

theorem Valid.changes {host next : Host σ} (hvalid : host.Valid) (h : Changes host next) :
    next.Valid := by
  induction h with
  | refl => exact hvalid
  | tail _ hchange ih => exact ih.change hchange

theorem Valid.perform {behaviour : Behaviour σ} {depth : Nat} {operation : Operation σ}
    {host next : Host σ} (hvalid : host.Valid)
    (h : host.perform (switch behaviour depth) operation = some next) : next.Valid := by
  rcases perform_cases h with ⟨inner, rfl, rfl⟩ | hchanges
  · have hregistry : Host.registry { host with library := host.library.perform inner } =
      host.registry := Library.perform_registry host.library inner
    exact ⟨Library.perform_valid hvalid.store inner, hvalid.active, hvalid.fallback,
      hregistry ▸ hvalid.activeRegistered, hregistry ▸ hvalid.fallbackRegistered⟩
  · exact hvalid.changes hchanges

theorem start_of_loaded {library after : Library} {code : String} {catalog : Catalog} (memory : σ)
    (hcode : code ≠ "") (hregistered : library.store.registry.contains code = true)
    (hload : library.load code = (.ok catalog, after)) :
    (Host.start library code memory).1 =
      .ok { library := after, snapshot := ⟨0, catalog, catalog⟩, memory } := by
  simp only [start, if_neg hcode, hregistered, hload, if_true]

/-- A host that has begun has loaded one catalog, which is both active and the one to fall back
to. -/
theorem eq_of_start {library : Library} {fallback : String} {memory : σ} {host : Host σ}
    (h : (Host.start library fallback memory).1 = .ok host) :
    ∃ code catalog, (library.load code).1 = .ok catalog ∧
      host = { library := (library.load code).2, snapshot := ⟨0, catalog, catalog⟩, memory } := by
  simp only [start] at h
  generalize (if fallback = "" then Config.standard.fallback else fallback) = code at h
  split at h
  · split at h
    · rename_i catalog after hload
      cases h
      exact ⟨code, catalog, by rw [hload], by rw [hload]⟩
    · cases h
  · cases h

theorem valid_of_start {library : Library} {fallback : String} {memory : σ} {host : Host σ}
    (hvalid : library.store.Valid) (h : (Host.start library fallback memory).1 = .ok host) :
    host.Valid := by
  obtain ⟨code, catalog, hload, rfl⟩ := eq_of_start h
  have hstore := Library.load_valid hvalid code
  have hcached := Library.get?_load hload
  have hregistered := hstore.registered code catalog hcached
  have hcode := Registry.code_of_locale? hregistered
  exact ⟨hstore, hstore.valid code catalog hcached, hstore.valid code catalog hcached,
    hcode.symm ▸ hregistered, hcode.symm ▸ hregistered⟩

theorem AtRest.valid {behaviour : Behaviour σ} {host : Host σ} (h : AtRest behaviour host) :
    host.Valid := by
  induction h with
  | start hlibrary h => exact valid_of_start hlibrary.valid h
  | perform depth operation _ h ih => exact ih.perform h

theorem switch_idle {behaviour : Behaviour σ} {depth : Nat} {code : String} {host next : Host σ}
    {outcome : Except SwitchError Locale} (hidle : host.switching = false)
    (h : switch behaviour depth code host = some (outcome, next)) : next.switching = false := by
  cases depth with
  | zero => cases h
  | succ depth =>
      cases htarget : host.registry.locale? code with
      | none =>
          rw [switch_of_unknown htarget] at h
          cases h
          exact hidle
      | some target =>
          rw [switch_of_registered htarget] at h
          obtain ⟨result, -, heq⟩ := Option.map_eq_some_iff.mp h
          cases heq
          rfl

theorem tryLocales_idle {behaviour : Behaviour σ} {depth : Nat} {locales : List Locale}
    {fallback : String} {host next : Host σ} {outcome : Except SwitchError Locale}
    (hidle : host.switching = false)
    (h : tryLocales (switch behaviour depth) locales fallback host = some (outcome, next)) :
    next.switching = false := by
  induction locales generalizing host with
  | nil =>
      rw [tryLocales] at h
      exact switch_idle (by exact hidle) h
  | cons locale rest ih =>
      rw [tryLocales] at h
      split at h
      · rename_i text middle hmiddle
        cases h
        exact switch_idle hidle hmiddle
      · rename_i error middle _ hmiddle
        have hnext := switch_idle hidle hmiddle
        exact ih (by exact hnext) h
      · exact switch_idle hidle h

/-- Between two operations no switch is under way. -/
theorem AtRest.idle {behaviour : Behaviour σ} {host : Host σ} (h : AtRest behaviour host) :
    host.switching = false := by
  induction h with
  | start hlibrary h =>
      obtain ⟨_, _, -, rfl⟩ := eq_of_start h
      rfl
  | @perform host next depth operation _ h ih =>
      cases operation with
      | switch code =>
          obtain ⟨⟨outcome, last⟩, hlast, rfl⟩ := Option.map_eq_some_iff.mp h
          exact switch_idle ih hlast
      | startup preferred system =>
          obtain ⟨⟨outcome, last⟩, hlast, rfl⟩ := Option.map_eq_some_iff.mp h
          obtain ⟨journal, hcandidates⟩ := startupCandidates_eq host preferred system
          simp only [startup] at hlast
          rw [hcandidates] at hlast
          exact tryLocales_idle (by exact ih) hlast
      | _ =>
          cases h
          exact ih

theorem Reachable.valid {behaviour : Behaviour σ} {host : Host σ} (h : Reachable behaviour host) :
    host.Valid := by
  induction h with
  | rest h => exact h.valid
  | perform depth operation _ h ih => exact ih.perform h
  | installed _ h ih => exact ih.changes (changes_withCatalog h)
  | told depth installed observers _ h ih =>
      exact ih.changes (changes_notify (fun h => changes_switch h) h)

end Polyglot.Host
