import Polyglot.Proofs.Course

/-!
Hosts without a past. While the files of a directory stay as they are, what a host resolves depends
on its active locale only, and not on what it has been asked for before: after a switch it resolves
every key as a host would that has just begun over the same directory and has made this switch
alone.
-/

namespace Polyglot

variable {σ τ : Type}

/-- A script that asks for no switch, whatever it sees. -/
def Script.Still : Script σ → Prop
  | .done => True
  | .fail => True
  | .look _ next => ∀ view memory, (next view memory).Still
  | .switch _ _ => False
  | .observe _ next => next.Still
  | .unobserve _ next => next.Still

namespace Host

/-! ### Observers that do not switch -/

theorem run_of_still (switch : Switching σ) {script : Script σ} (h : script.Still)
    (host : Host σ) : ∃ finished last, run switch script host = some (finished, last) ∧
      last.snapshot = host.snapshot := by
  induction script generalizing host with
  | done => exact ⟨true, host, rfl, rfl⟩
  | fail => exact ⟨false, host, rfl, rfl⟩
  | look remember next ih =>
      exact ih host.view _ (h host.view _) { host with memory := remember host.view host.memory }
  | switch code next ih => exact h.elim
  | observe observer next ih => exact ih h (host.observe observer)
  | unobserve observer next ih => exact ih h (host.unobserve observer)

theorem calm_of_still {behaviour : Behaviour σ}
    (h : ∀ observer locale, (behaviour observer locale).Still) (depth : Nat)
    (observers : List Observer) : Calm behaviour depth observers :=
  fun observer _ locale middle => run_of_still (switch behaviour depth) (h observer locale) middle

/-! ### What a resolution depends on -/

/-- Over the same files, hosts with the same active code and the same catalog to fall back to
resolve alike. -/
theorem Current.resolve_eq {source : Library} {host : Host σ} {other : Host τ}
    (hhost : Current source host) (hother : Current source other)
    (hlocale : other.snapshot.locale = host.snapshot.locale)
    (hfallback : other.snapshot.fallback = host.snapshot.fallback) (context key : String)
    (arguments : List String) :
    (other.resolve context key arguments).1 = (host.resolve context key arguments).1 := by
  have hcatalog : other.snapshot.catalog = host.snapshot.catalog := by
    have hactive := hother.active
    rw [hlocale, hhost.active] at hactive
    exact (Except.ok.inj hactive).symm
  have htemplate : other.snapshot.template context key = host.snapshot.template context key := by
    simp only [Snapshot.template, hcatalog, hfallback, hlocale]
  simp only [resolve, Snapshot.resolve, htemplate]

/-- A switch that takes place is to a registered locale, and its catalog is on the disk. -/
theorem Current.found_of_switch {source : Library} {host next : Host σ} (h : Current source host)
    {behaviour : Behaviour σ} {depth : Nat} {code : String} {locale : Locale}
    (hswitch : switch behaviour depth code host = some (.ok locale, next)) :
    locale ∈ host.registry.locales ∧ locale.code = code ∧
      ∃ catalog, source.found code = .ok catalog := by
  cases depth with
  | zero => cases hswitch
  | succ depth =>
      cases hfind : host.registry.find? code with
      | none =>
          rw [switch_of_unknown (Registry.locale?_of_not_found hfind)] at hswitch
          cases hswitch
      | some registration =>
          have hcode := Registry.code_of_find? hfind
          have hmem : registration.locale ∈ host.registry.locales :=
            Registry.mem_locales_of_locale? (Registry.locale?_of_find? hfind)
          have hfound : ∃ catalog, source.found code = .ok catalog := by
            by_cases hactive : code = host.snapshot.locale.code
            · exact ⟨_, hactive ▸ h.active⟩
            · cases hload : (host.library.load code).1 with
              | ok catalog => exact ⟨catalog, (h.library.load_eq code).symm.trans hload⟩
              | error error =>
                  obtain ⟨-, other, hother⟩ := switch_of_failed hfind hactive hload hswitch
                  cases hother
          obtain ⟨catalog, hcatalog⟩ := hfound
          rw [← hcode] at hswitch hcatalog ⊢
          cases h.eq_of_switch hmem hcatalog hswitch
          exact ⟨hmem, rfl, catalog, hcatalog⟩

/-! ### Hosts over a directory -/

/-- A host begins in the same way whatever its observers remember. -/
theorem start_memory {library : Library} {fallback : String} {memory : σ} {host : Host σ}
    (h : (Host.start library fallback memory).1 = .ok host) (memory' : τ) :
    ∃ fresh, (Host.start library fallback memory').1 = .ok fresh ∧
      fresh.snapshot = host.snapshot := by
  simp only [start] at h ⊢
  generalize (if fallback = "" then Config.standard.fallback else fallback) = code at h ⊢
  split at h
  · rename_i hregistered
    split at h
    · cases h
      simp only [hregistered, if_true]
      exact ⟨_, rfl, rfl⟩
    · cases h
  · cases h

/-- An engine over a directory is a host over a library with nothing in its cache. -/
theorem openDirectory?_eq (config : Config) (shipped : String) (disk : Disk)
    (directory : String) : ∃ source : Library, source.store.cached = [] ∧
      ∀ {σ : Type} (memory : σ), openDirectory? config shipped disk directory memory =
        Host.start source config.fallback memory := by
  by_cases hsize : (Registry.discover config disk directory).1.size = 0
  · simp only [openDirectory?, open?, hsize, if_true]
    exact ⟨_, rfl, fun memory => rfl⟩
  · simp only [openDirectory?, open?, hsize, if_false]
    exact ⟨_, rfl, fun memory => rfl⟩

theorem Course.current {source : Library} {behaviour : Behaviour σ} {start host : Host σ}
    (h : Course behaviour (fun _ _ operation => operation.KeepsFiles) start host)
    (hstart : Current source start) : Current source host := by
  induction h with
  | start => exact hstart
  | perform _ _ _ hfiles h ih => exact ih.perform hfiles h

/-- History does not leak into texts. Whatever a host over a directory has been asked for, with
observers that do not switch themselves, after a switch every key resolves as it does in a fresh
host over the same directory that has only been asked for this switch. -/
theorem resolve_of_fresh {config : Config} {shipped : String} {disk : Disk} {directory : String}
    {memory : σ} {start middle last : Host σ} {behaviour : Behaviour σ} {depth : Nat}
    {code : String} {locale : Locale}
    (hstart : (openDirectory? config shipped disk directory memory).1 = .ok start)
    (hstill : ∀ observer locale, (behaviour observer locale).Still)
    (hcourse : Course behaviour (fun _ _ operation => operation.KeepsFiles) start middle)
    (hlast : switch behaviour depth code middle = some (.ok locale, last))
    (behaviour' : Behaviour τ) (depth' : Nat) (memory' : τ) :
    ∃ fresh next, (openDirectory? config shipped disk directory memory').1 = .ok fresh ∧
      switch behaviour' (depth' + 1) code fresh = some (.ok locale, next) ∧
      ∀ context key arguments,
        (last.resolve context key arguments).1 = (next.resolve context key arguments).1 := by
  obtain ⟨source, hempty, hopen⟩ := openDirectory?_eq config shipped disk directory
  rw [hopen] at hstart
  obtain ⟨fresh, hfresh, hsnapshot⟩ := start_memory hstart memory'
  obtain ⟨-, hstarted⟩ := current_of_start (.refl hempty) hstart
  obtain ⟨halone, hcurrent⟩ := current_of_start (.refl hempty) hfresh
  have hmiddle : Current source middle := hcourse.current hstarted
  obtain ⟨hmem, rfl, catalog, hfound⟩ := hmiddle.found_of_switch hlast
  -- The observers do not switch again, so the last switch ends with its own locale active.
  have hactive : last.snapshot.locale = locale := by
    cases depth with
    | zero => cases hlast
    | succ depth =>
        obtain ⟨other, hother, hlocale⟩ :=
          hmiddle.switch_of_calm hmem hfound (calm_of_still hstill depth middle.observers)
        cases hlast.symm.trans hother
        exact hlocale
  -- The fresh host has no observers, so the switch that it makes comes to an end.
  have hcalm : Calm behaviour' depth' fresh.observers := by
    rw [halone]
    intro observer h
    cases h
  rw [hmiddle.registry_eq, ← hcurrent.registry_eq] at hmem
  obtain ⟨next, hnext, hlocale⟩ := hcurrent.switch_of_calm hmem hfound hcalm
  have hfallback : last.snapshot.fallback = next.snapshot.fallback := by
    calc last.snapshot.fallback
        = middle.snapshot.fallback := fallback_of_changes (changes_switch hlast)
      _ = start.snapshot.fallback := hcourse.fallback_eq
      _ = fresh.snapshot.fallback := by rw [hsnapshot]
      _ = next.snapshot.fallback := (fallback_of_changes (changes_switch hnext)).symm
  refine ⟨fresh, next, by rw [hopen]; exact hfresh, hnext, fun context key arguments => ?_⟩
  exact (hcurrent.changes (changes_switch hnext)).resolve_eq
    (hmiddle.changes (changes_switch hlast)) (hactive.trans hlocale.symm) hfallback context key
    arguments

/-- Observers that want to be told once only. -/
def leave : Behaviour Unit := fun observer _ => .unobserve observer .done

theorem resolve_of_fresh_bilingual : ∃ start middle last fresh next : Host Unit,
    (openDirectory? .standard "shipped" bilingualDirectory "lang" ()).1 = .ok start ∧
      (∀ observer locale, (leave observer locale).Still) ∧
      Course leave (fun _ _ operation => operation.KeepsFiles) start middle ∧
      middle.observers = [listener] ∧
      switch leave 1 "ru_RU" middle = some (.ok russian, last) ∧
      switch leave 1 "ru_RU" fresh = some (.ok russian, next) ∧
      (last.resolve "Ui" "Page %1 of %2" ["7"]).1 =
        (next.resolve "Ui" "Page %1 of %2" ["7"]).1 := by
  have hstill : ∀ observer locale, (leave observer locale).Still := fun _ _ => trivial
  obtain ⟨start, hstart, halone, hcurrent⟩ :=
    openDirectory?_of_complete complete_bilingual "shipped" ()
  have hentries : start.registry.entries =
      [⟨english, "lang/veil_en.ts"⟩, ⟨russian, "lang/veil_ru.ts"⟩] := by
    rw [hcurrent.registry_eq]
    exact entries_bilingual
  have hunknown : start.registry.locale? "de_DE" = none := by
    rw [Registry.locale?, Registry.find?, hentries]
    rfl
  have hobserved : Course leave (fun _ _ operation => operation.KeepsFiles) start
      (start.observe listener) := .perform 0 (.observe listener) .start trivial rfl
  have hforgotten := hobserved.perform 0 (.library (.forget none)) trivial rfl
  have hmissing := (congrArg (·.locale? "de_DE") hforgotten.registry_eq).trans hunknown
  have hcourse := hforgotten.perform 1 (.switch "de_DE") trivial
    (by rw [perform, switch_of_unknown hmissing, Option.map_some])
  have hrussian : russian ∈ start.registry.locales := by
    rw [Registry.locales, hentries]
    exact List.mem_cons_of_mem _ List.mem_cons_self
  obtain ⟨catalog, hfound⟩ :=
    complete_bilingual.loads russian (hcurrent.registry_eq ▸ hrussian)
  obtain ⟨last, hlast, -⟩ := (hcourse.current hcurrent).switch_of_calm hrussian hfound
    (calm_of_still hstill 0 _)
  obtain ⟨fresh, next, -, hnext, hresolve⟩ :=
    resolve_of_fresh hstart hstill hcourse hlast leave 0 ()
  have hobservers : (start.observe listener).observers = [listener] := by
    rw [observe, halone]
    rfl
  exact ⟨start, _, last, fresh, next, hstart, hstill, hcourse, hobservers, hlast, hnext,
    hresolve _ _ _⟩

end Host
end Polyglot
