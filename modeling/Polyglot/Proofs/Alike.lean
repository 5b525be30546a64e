import Polyglot.Proofs.Notification

/-!
Hosts that go the same way. Two hosts are alike when they differ in nothing but their journals and
what their observers remember, and two scripts when they do the same to hosts that are alike; what
they write down, and whether they fail in the end, is left to them. Hosts that are alike stay so,
whatever they are asked for. So observers can be made to watch a switch without a change to it.
-/

namespace Polyglot

variable {σ τ : Type}

/-- A script that ends at once; it returns or fails. -/
def Script.stop (finished : Bool) : Script σ := if finished then .done else .fail

/-- Scripts that do the same, as long as their memories are related. The second one may look at the
host where the first one does not. -/
inductive Script.Alike (R : σ → τ → Prop) : Script σ → Script τ → Prop where
  | stop (finished other : Bool) : Alike R (.stop finished) (.stop other)
  | look {remember : View → σ → σ} {next : View → σ → Script σ}
      {remember' : View → τ → τ} {next' : View → τ → Script τ}
      (hmemory : ∀ view memory memory', R memory memory' →
        R (remember view memory) (remember' view memory'))
      (hnext : ∀ view memory memory', R memory memory' →
        Alike R (next view memory) (next' view memory')) :
      Alike R (.look remember next) (.look remember' next')
  | note {script : Script σ} {remember : View → τ → τ} {next : View → τ → Script τ}
      (hmemory : ∀ view memory memory', R memory memory' → R memory (remember view memory'))
      (hnext : ∀ view memory', Alike R script (next view memory')) :
      Alike R script (.look remember next)
  | switch {code : String} {next : Except SwitchError Locale → Script σ}
      {next' : Except SwitchError Locale → Script τ}
      (hnext : ∀ outcome, Alike R (next outcome) (next' outcome)) :
      Alike R (.switch code next) (.switch code next')
  | observe {observer : Observer} {next : Script σ} {next' : Script τ}
      (hnext : Alike R next next') :
      Alike R (.observe observer next) (.observe observer next')
  | unobserve {observer : Observer} {next : Script σ} {next' : Script τ}
      (hnext : Alike R next next') :
      Alike R (.unobserve observer next) (.unobserve observer next')

def Behaviour.Alike (R : σ → τ → Prop) (behaviour : Behaviour σ) (other : Behaviour τ) : Prop :=
  ∀ observer locale, Script.Alike R (behaviour observer locale) (other observer locale)

namespace Library

/-- Libraries with the same catalogs and files answer alike, and go on to have the same. -/
theorem load_congr {library other : Library} (hstore : other.store = library.store)
    (hdisk : other.disk = library.disk) (code : String) :
    (other.load code).1 = (library.load code).1 ∧
      (other.load code).2.store = (library.load code).2.store ∧
      (other.load code).2.disk = (library.load code).2.disk := by
  refine ⟨?_, ?_, by rw [load_disk, load_disk, hdisk]⟩
  all_goals
    cases hcached : library.store.cached.get? code with
    | some catalog =>
        have hother : other.store.cached.get? code = some catalog := by rw [hstore, hcached]
        simp only [load_of_cached hcached, load_of_cached hother, report, hstore]
    | none =>
        have hother : other.store.cached.get? code = none := by rw [hstore, hcached]
        have hfetch :
            other.store.fetch other.disk code = library.store.fetch library.disk code := by
          rw [hstore, hdisk]
        cases houtcome : (library.store.fetch library.disk code).outcome with
        | error error =>
            simp only [load_of_error hcached houtcome,
              load_of_error hother (hfetch ▸ houtcome), hstore]
        | ok catalog =>
            simp only [load_of_ok hcached houtcome, load_of_ok hother (hfetch ▸ houtcome), hstore]

end Library

namespace Host

/-- Hosts that differ in nothing but their journals and memories. -/
structure Alike (R : σ → τ → Prop) (host : Host σ) (other : Host τ) : Prop where
  store : other.library.store = host.library.store
  disk : other.library.disk = host.library.disk
  snapshot : other.snapshot = host.snapshot
  switching : other.switching = host.switching
  observers : other.observers = host.observers
  memory : R host.memory other.memory

/-- Two ways of switching keep hosts alike, with the same outcomes. -/
def Parallel (R : σ → τ → Prop) (switch : Switching σ) (other : Switching τ) : Prop :=
  ∀ ⦃code : String⦄ ⦃host next : Host σ⦄ ⦃host' : Host τ⦄ ⦃outcome : Except SwitchError Locale⦄,
    Alike R host host' → switch code host = some (outcome, next) →
      ∃ next', other code host' = some (outcome, next') ∧ Alike R next next'

variable {R : σ → τ → Prop}

section Alike

variable {host : Host σ} {host' : Host τ} (h : Alike R host host')

include h

theorem Alike.view_eq : host'.view = host.view := by
  rw [view, view, h.snapshot, h.switching]

theorem Alike.registry_eq : host'.registry = host.registry := by
  rw [registry, registry, h.store]

theorem Alike.report (level level' : Level) (text text' : String) :
    Alike R (host.report level text) (host'.report level' text') :=
  ⟨h.store, h.disk, h.snapshot, h.switching, h.observers, h.memory⟩

theorem Alike.write (journal journal' : Journal) :
    Alike R { host with library.journal := journal } { host' with library.journal := journal' } :=
  ⟨h.store, h.disk, h.snapshot, h.switching, h.observers, h.memory⟩

theorem Alike.engineReport (level : Level) (text : String) :
    Alike R (host.engineReport level text) (host'.engineReport level text) :=
  h.write _ _

theorem Alike.mark (switching : Bool) : Alike R { host with switching } { host' with switching } :=
  ⟨h.store, h.disk, h.snapshot, rfl, h.observers, h.memory⟩

theorem Alike.remember {memory : σ} {memory' : τ} (hmemory : R memory memory') :
    Alike R { host with memory } { host' with memory := memory' } :=
  ⟨h.store, h.disk, h.snapshot, h.switching, h.observers, hmemory⟩

theorem Alike.observe (observer : Observer) :
    Alike R (host.observe observer) (host'.observe observer) :=
  ⟨h.store, h.disk, h.snapshot, h.switching, congrArg (· ++ [observer]) h.observers, h.memory⟩

theorem Alike.unobserve (observer : Observer) :
    Alike R (host.unobserve observer) (host'.unobserve observer) :=
  ⟨h.store, h.disk, h.snapshot, h.switching, congrArg (·.erase observer) h.observers, h.memory⟩

theorem Alike.load (code : String) : Alike R { host with library := (host.library.load code).2 }
    { host' with library := (host'.library.load code).2 } := by
  obtain ⟨-, hstore, hdisk⟩ := Library.load_congr h.store h.disk code
  exact ⟨hstore, hdisk, h.snapshot, h.switching, h.observers, h.memory⟩

theorem Alike.library (operation : Library.Operation) :
    Alike R { host with library := host.library.perform operation }
      { host' with library := host'.library.perform operation } := by
  cases operation with
  | load code => exact h.load code
  | forget code =>
      have hstore := congrArg (·.forget code) h.store
      exact ⟨hstore, h.disk, h.snapshot, h.switching, h.observers, h.memory⟩
  | write path entry =>
      have hdisk := congrArg (·.put path entry) h.disk
      exact ⟨h.store, hdisk, h.snapshot, h.switching, h.observers, h.memory⟩
  | remove path =>
      have hdisk := congrArg (·.remove path) h.disk
      exact ⟨h.store, hdisk, h.snapshot, h.switching, h.observers, h.memory⟩

theorem Alike.successor_eq (catalog : Catalog) :
    host'.successor catalog = host.successor catalog := by
  rw [successor, successor, h.snapshot]

theorem Alike.withCatalog (catalog : Catalog) :
    Alike R (host.withCatalog catalog) (host'.withCatalog catalog) :=
  ⟨h.store, h.disk, h.successor_eq catalog, h.switching, h.observers, h.memory⟩

theorem Alike.settled (observer : Observer) (finished other : Bool) :
    Alike R (Host.settled observer finished host) (Host.settled observer other host') := by
  cases finished <;> cases other <;>
    exact ⟨h.store, h.disk, h.snapshot, h.switching, h.observers, h.memory⟩

theorem Alike.brokenOff (installed : Snapshot) (observers : List Observer) :
    Alike R (Host.brokenOff installed observers host)
      (Host.brokenOff installed observers host') := by
  cases observers <;> exact ⟨h.store, h.disk, h.snapshot, h.switching, h.observers, h.memory⟩

end Alike

theorem run_stop (switch : Switching σ) (finished : Bool) (host : Host σ) :
    run switch (.stop finished) host = some (finished, host) := by
  cases finished <;> rfl

section Parallel

variable {switch : Switching σ} {other : Switching τ} (hswitch : Parallel R switch other)

include hswitch

theorem run_alike {script : Script σ} {script' : Script τ} (hscript : Script.Alike R script script')
    {host next : Host σ} {host' : Host τ} {finished : Bool} (hhost : Alike R host host')
    (h : run switch script host = some (finished, next)) :
    ∃ finished' next', run other script' host' = some (finished', next') ∧ Alike R next next' := by
  induction hscript generalizing host host' with
  | stop ends ends' =>
      rw [run_stop] at h
      cases h
      exact ⟨ends', host', run_stop other ends' host', hhost⟩
  | @look remember script remember' script' hmemory hscript ih =>
      have hremember := hmemory host.view _ _ hhost.memory
      obtain ⟨finished', next', hrun, hnext⟩ := ih host.view _ _ hremember
        (hhost.remember hremember) h
      refine ⟨finished', next', ?_, hnext⟩
      rw [run, hhost.view_eq]
      exact hrun
  | @note script remember script' hmemory hscript ih =>
      have hremember := hmemory host'.view _ _ hhost.memory
      exact ih host'.view _ (hhost.remember hremember) h
  | @switch code script script' hscript ih =>
      rw [run] at h
      split at h
      · rename_i outcome middle hmiddle
        obtain ⟨middle', hmiddle', halike⟩ := hswitch hhost hmiddle
        obtain ⟨finished', next', hrun, hnext⟩ := ih outcome halike h
        refine ⟨finished', next', ?_, hnext⟩
        rw [run, hmiddle']
        exact hrun
      · cases h
  | @observe observer script script' hscript ih => exact ih (hhost.observe observer) h
  | @unobserve observer script script' hscript ih => exact ih (hhost.unobserve observer) h

variable {behaviour : Behaviour σ} {behaviour' : Behaviour τ}
  (hbehaviour : Behaviour.Alike R behaviour behaviour')

include hbehaviour

theorem notify_alike {installed : Snapshot} {observers : List Observer} {host next : Host σ}
    {host' : Host τ} (hhost : Alike R host host')
    (h : notify switch behaviour installed observers host = some next) :
    ∃ next', notify other behaviour' installed observers host' = some next' ∧
      Alike R next next' := by
  induction observers generalizing host host' with
  | nil =>
      cases h
      exact ⟨host', rfl, hhost⟩
  | cons observer rest ih =>
      by_cases hcurrent : host.snapshot.serial = installed.serial
      · have hcurrent' : host'.snapshot.serial = installed.serial := by
          rw [hhost.snapshot, hcurrent]
        rw [notify_current hcurrent] at h
        obtain ⟨⟨finished, after⟩, hrun, hrest⟩ := Option.bind_eq_some_iff.mp h
        obtain ⟨finished', after', hrun', hafter⟩ :=
          run_alike hswitch (hbehaviour observer installed.locale) hhost hrun
        obtain ⟨next', hnext', hnext⟩ := ih (hafter.settled observer finished finished') hrest
        refine ⟨next', ?_, hnext⟩
        rw [notify_current hcurrent', hrun', Option.bind_some, hnext']
      · have hcurrent' : host'.snapshot.serial ≠ installed.serial := by
          rwa [hhost.snapshot]
        rw [notify_superseded hcurrent] at h
        cases h
        exact ⟨_, notify_superseded hcurrent' _, hhost.brokenOff installed _⟩

theorem install_alike {catalog : Catalog} {host next : Host σ} {host' : Host τ}
    (hhost : Alike R host host') (h : install switch behaviour host catalog = some next) :
    ∃ next', install other behaviour' host' catalog = some next' ∧ Alike R next next' := by
  rw [install_eq] at h
  obtain ⟨next', hnext', hnext⟩ :=
    notify_alike hswitch hbehaviour (hhost.withCatalog catalog) h
  refine ⟨next', ?_, hnext⟩
  rw [install_eq, hhost.successor_eq catalog, hhost.observers]
  exact hnext'

theorem switchTo_alike {target : Locale} {host next : Host σ} {host' : Host τ}
    {outcome : Except SwitchError Locale} (hhost : Alike R host host')
    (h : switchTo switch behaviour target host = some (outcome, next)) :
    ∃ next', switchTo other behaviour' target host' = some (outcome, next') ∧
      Alike R next next' := by
  cases hsame : host.snapshot.locale.same target with
  | true =>
      have hsame' : host'.snapshot.locale.same target = true := by rw [hhost.snapshot, hsame]
      have hswitch' := @switchTo_of_same _ other behaviour' target host' hsame'
      rw [hhost.snapshot] at hswitch'
      rw [switchTo_of_same hsame] at h
      cases h
      exact ⟨_, hswitch', hhost.report .debug .debug _ _⟩
  | false =>
      have hsame' : host'.snapshot.locale.same target = false := by rw [hhost.snapshot, hsame]
      have hlibrary := hhost.load target.code
      obtain ⟨hloaded, -, -⟩ := Library.load_congr hhost.store hhost.disk target.code
      rcases hload : host.library.load target.code with ⟨loaded, library⟩
      rcases hload' : host'.library.load target.code with ⟨loaded', library'⟩
      rw [hload, hload'] at hlibrary hloaded
      cases (hloaded : loaded' = loaded)
      match loaded with
      | .error (.version fault) =>
          rw [switchTo_of_version hsame hload] at h
          cases h
          exact ⟨_, switchTo_of_version hsame' hload', hlibrary⟩
      | .error (.catalog cause) =>
          rw [switchTo_of_invalid hsame hload] at h
          cases h
          exact ⟨_, switchTo_of_invalid hsame' hload', hlibrary.report .warning .warning _ _⟩
      | .ok catalog =>
          rw [switchTo_of_loaded hsame hload] at h
          obtain ⟨last, hlast, heq⟩ := Option.map_eq_some_iff.mp h
          cases heq
          obtain ⟨last', hlast', hnext⟩ := install_alike hswitch hbehaviour hlibrary hlast
          refine ⟨last', ?_, hnext⟩
          rw [switchTo_of_loaded hsame' hload', hlast']
          rfl

end Parallel

/-- A switch of a host that is alike has the same outcome, at any depth. -/
theorem switch_alike {behaviour : Behaviour σ} {behaviour' : Behaviour τ}
    (hbehaviour : Behaviour.Alike R behaviour behaviour') (depth : Nat) :
    Parallel R (switch behaviour depth) (switch behaviour' depth) := by
  -- The switches that observers ask for have one level less.
  induction depth with
  | zero =>
      intro code host next host' outcome _ h
      cases h
  | succ depth ih =>
      intro code host next host' outcome hhost h
      cases htarget : host.registry.locale? code with
      | none =>
          have htarget' : host'.registry.locale? code = none := by rw [hhost.registry_eq, htarget]
          rw [switch_of_unknown htarget] at h
          cases h
          exact ⟨_, switch_of_unknown htarget', hhost.report .warning .warning _ _⟩
      | some target =>
          have htarget' : host'.registry.locale? code = some target := by
            rw [hhost.registry_eq, htarget]
          rw [switch_of_registered htarget] at h
          obtain ⟨⟨result, last⟩, hlast, heq⟩ := Option.map_eq_some_iff.mp h
          cases heq
          obtain ⟨last', hlast', hnext⟩ := switchTo_alike ih hbehaviour (hhost.mark true) hlast
          refine ⟨{ last' with switching := false }, ?_, hnext.mark false⟩
          rw [switch_of_registered htarget', hlast']
          rfl

/-! ### Beginning -/

theorem Alike.startupCandidates {host : Host σ} {host' : Host τ} (h : Alike R host host')
    (preferred : Option String) (system : Surroundings) :
    (host'.startupCandidates preferred system).1 = (host.startupCandidates preferred system).1 ∧
      Alike R (host.startupCandidates preferred system).2
        (host'.startupCandidates preferred system).2 := by
  have hregistry := h.registry_eq
  have hdetected := congrArg (fun registry => (registry.detect system).1.toList) hregistry
  cases hpreferred : preferred.filter (· != "") with
  | none =>
      simp only [Host.startupCandidates, hpreferred]
      exact ⟨congrArg ([] ++ ·) hdetected, h.write _ _⟩
  | some code =>
      have hmatched : host'.registry.match? code = host.registry.match? code := by rw [hregistry]
      cases hmatch : host.registry.match? code with
      | none =>
          simp only [Host.startupCandidates, hpreferred, hmatched, hmatch]
          exact ⟨congrArg ([] ++ ·) hdetected, h.write _ _⟩
      | some locale =>
          simp only [Host.startupCandidates, hpreferred, hmatched, hmatch]
          exact ⟨congrArg ([locale] ++ ·) hdetected, h.write _ _⟩

theorem startup_eq (switch : Switching σ) (host : Host σ) (preferred : Option String)
    (system : Surroundings) :
    host.startup switch preferred system =
      tryLocales switch (host.startupCandidates preferred system).1
        (host.startupCandidates preferred system).2.snapshot.fallback.locale.code
        (host.startupCandidates preferred system).2 := by
  simp only [startup]

section Parallel

variable {switch : Switching σ} {other : Switching τ} (hswitch : Parallel R switch other)

include hswitch

theorem tryLocales_alike (locales : List Locale) :
    Parallel R (tryLocales switch locales) (tryLocales other locales) := by
  induction locales with
  | nil => exact fun code host next host' outcome hhost h => hswitch (hhost.engineReport .info _) h
  | cons locale rest ih =>
      intro fallback host next host' outcome hhost h
      rw [tryLocales] at h
      split at h
      · rename_i text middle hmiddle
        cases h
        obtain ⟨next', hnext', hnext⟩ := hswitch hhost hmiddle
        exact ⟨next', by rw [tryLocales, hnext'], hnext⟩
      · rename_i error middle hnot hmiddle
        obtain ⟨middle', hmiddle', halike⟩ := hswitch hhost hmiddle
        have hreported := halike.engineReport .warning
          s!"Unable to activate {locale.code} at startup: {error.message}"
        obtain ⟨next', hnext', hnext⟩ := ih hreported h
        refine ⟨next', ?_, hnext⟩
        cases error with
        | version fault => exact absurd rfl (hnot fault)
        | unknown code => rwa [tryLocales, hmiddle']
        | invalid code cause => rwa [tryLocales, hmiddle']
      · rename_i hminimum herror
        obtain ⟨next', hnext', hnext⟩ := hswitch hhost h
        refine ⟨next', ?_, hnext⟩
        cases outcome with
        | ok locale => rw [tryLocales, hnext']
        | error error => exact absurd h (herror error next)

theorem startup_alike {host next : Host σ} {host' : Host τ} {preferred : Option String}
    {system : Surroundings} {outcome : Except SwitchError Locale} (hhost : Alike R host host')
    (h : host.startup switch preferred system = some (outcome, next)) :
    ∃ next', host'.startup other preferred system = some (outcome, next') ∧
      Alike R next next' := by
  obtain ⟨hlocales, hbegun⟩ := hhost.startupCandidates preferred system
  rw [startup_eq] at h
  rw [startup_eq, hlocales, hbegun.snapshot]
  exact tryLocales_alike hswitch _ hbegun h

end Parallel

end Host
end Polyglot
