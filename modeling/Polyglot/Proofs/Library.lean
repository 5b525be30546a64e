import Polyglot.Proofs.Reading
import Polyglot.Store

/-!
Libraries in use. Catalogs are asked for and forgotten in any order, while the files that they are
read from are written and removed. Whatever happens, what the store keeps are valid catalogs of
registered locales.
-/

namespace Polyglot

theorem Registry.code_of_find? {registry : Registry} {code : String} {registration : Registration}
    (h : registry.find? code = some registration) : registration.locale.code = code := by
  have hcode := List.find?_some h
  exact eq_of_beq hcode

theorem Registry.locale?_of_find? {registry : Registry} {code : String}
    {registration : Registration} (h : registry.find? code = some registration) :
    registry.locale? code = some registration.locale := by
  rw [Registry.locale?, h]
  rfl

theorem Registry.locale?_of_not_found {registry : Registry} {code : String}
    (h : registry.find? code = none) : registry.locale? code = none := by
  rw [Registry.locale?, h, Option.map_none]

theorem Registry.code_of_locale? {registry : Registry} {code : String} {locale : Locale}
    (h : registry.locale? code = some locale) : locale.code = code := by
  obtain ⟨registration, hfind, rfl⟩ := Option.map_eq_some_iff.mp h
  exact Registry.code_of_find? hfind

/-- The catalogs in the cache are valid, and each is that of the locale registered for its code. -/
structure Store.Valid (store : Store) : Prop where
  valid : ∀ code catalog, store.cached.get? code = some catalog → catalog.Valid
  registered : ∀ code catalog, store.cached.get? code = some catalog →
    store.registry.locale? code = some catalog.locale

theorem Store.Valid.of_cached_nil {store : Store} (h : store.cached = []) : store.Valid where
  valid _ _ hget := by rw [h] at hget; cases hget
  registered _ _ hget := by rw [h] at hget; cases hget

theorem Store.Valid.put {store : Store} (h : store.Valid) {code : String} {catalog : Catalog}
    (hvalid : catalog.Valid) (hregistered : store.registry.locale? code = some catalog.locale) :
    Store.Valid { store with cached := store.cached.put code catalog } where
  valid other found hget := by
    rw [Table.get?_put] at hget
    split at hget
    · cases hget
      exact hvalid
    · exact h.valid other found hget
  registered other found hget := by
    rw [Table.get?_put] at hget
    split at hget
    · rename_i heq
      cases hget
      exact heq ▸ hregistered
    · exact h.registered other found hget

theorem Store.forget_registry (store : Store) (code : Option String) :
    (store.forget code).registry = store.registry := by
  cases code <;> rfl

theorem Store.get?_forget {store : Store} {forgotten : Option String} {code : String}
    {catalog : Catalog} (h : (store.forget forgotten).cached.get? code = some catalog) :
    store.cached.get? code = some catalog := by
  cases forgotten with
  | none => cases h
  | some other =>
      simp only [Store.forget, Table.get?_remove] at h
      split at h
      · cases h
      · exact h

theorem Store.Valid.forget {store : Store} (h : store.Valid) (code : Option String) :
    (store.forget code).Valid where
  valid other found hget := h.valid other found (Store.get?_forget hget)
  registered other found hget := by
    rw [Store.forget_registry]
    exact h.registered other found (Store.get?_forget hget)

/-- A catalog that is read from the disk is what the file at the registered path holds. -/
theorem Store.file_of_fetch {store : Store} {disk : Disk} {code : String} {catalog : Catalog}
    (h : (store.fetch disk code).outcome = .ok catalog) :
    ∃ registration bytes, store.registry.find? code = some registration ∧
      disk.read registration.path = .ok bytes ∧
      (Catalog.ofBytes store.config registration.locale bytes).outcome = .ok catalog := by
  simp only [Store.fetch] at h
  split at h
  · cases h
  · rename_i registration hfind
    split at h
    · cases h
    · rename_i bytes hread
      exact ⟨registration, bytes, hfind, hread, h⟩

/-- A catalog that is read from the disk is valid, and that of the registered locale. -/
theorem Store.fetch_ok {store : Store} {disk : Disk} {code : String} {catalog : Catalog}
    (h : (store.fetch disk code).outcome = .ok catalog) :
    catalog.Valid ∧ store.registry.locale? code = some catalog.locale := by
  obtain ⟨registration, bytes, hfind, -, hbytes⟩ := Store.file_of_fetch h
  obtain ⟨hlocale, hvalid⟩ := Catalog.ofBytes_ok hbytes
  refine ⟨hvalid, ?_⟩
  rw [Registry.locale?, hfind, hlocale]
  rfl

/-- The registered file of a code declares a version that is too long. -/
def Store.Overlong (store : Store) (disk : Disk) (code : String) (digits : Nat) : Prop :=
  ∃ registration bytes, store.registry.find? code = some registration ∧
    disk.read registration.path = .ok bytes ∧ Catalog.Overlong bytes digits

theorem Store.fetch_of_overlong {store : Store} {disk : Disk} {code : String} {digits : Nat}
    (h : store.Overlong disk code digits) :
    (store.fetch disk code).outcome = .error (.version (.oversized digits)) := by
  obtain ⟨registration, bytes, hfind, hread, hoverlong⟩ := h
  simp only [Store.fetch, hfind, hread]
  exact Catalog.outcome_of_overlong hoverlong store.config registration.locale

/-- With a usable minimum version, what goes wrong when reading from the disk is an error of the
catalog, or a version that is too long. -/
theorem Store.fetch_error {store : Store} {disk : Disk} {code : String} {error : LoadError}
    (hminimum : (Version.parse? store.config.minVersion).isSome = true)
    (h : (store.fetch disk code).outcome = .error error) :
    (∃ cause, error = .catalog cause) ∨
      ∃ digits, error = .version (.oversized digits) ∧ store.Overlong disk code digits := by
  simp only [Store.fetch] at h
  split at h
  · cases h
    exact Or.inl ⟨_, rfl⟩
  · rename_i registration hfind
    split at h
    · cases h
      exact Or.inl ⟨_, rfl⟩
    · rename_i bytes hread
      rcases Catalog.ofBytes_error hminimum h with ⟨cause, hcause, -⟩ | ⟨digits, heq, hoverlong⟩
      · exact Or.inl ⟨cause, hcause⟩
      · exact Or.inr ⟨digits, heq, registration, bytes, hfind, hread, hoverlong⟩

namespace Library

/-! ### Loading -/

theorem load_of_cached {library : Library} {code : String} {catalog : Catalog}
    (h : library.store.cached.get? code = some catalog) :
    library.load code = (.ok catalog,
      library.report .debug .store s!"Catalog cache hit for {code}") := by
  rw [load, h]

theorem load_of_error {library : Library} {code : String} {error : LoadError}
    (hcached : library.store.cached.get? code = none)
    (h : (library.store.fetch library.disk code).outcome = .error error) :
    library.load code = (.error error, { library with
      journal := library.journal ++ (library.store.fetch library.disk code).journal }) := by
  simp only [load, hcached, h]

theorem load_of_ok {library : Library} {code : String} {catalog : Catalog}
    (hcached : library.store.cached.get? code = none)
    (h : (library.store.fetch library.disk code).outcome = .ok catalog) :
    library.load code = (.ok catalog, { library with
      store := { library.store with cached := library.store.cached.put code catalog }
      journal := library.journal ++ (library.store.fetch library.disk code).journal ++
        [library.store.loadRecord code catalog] }) := by
  simp only [load, hcached, h]
  rfl

/-- Loading tells what the cache has or else what the disk has, and changes nothing but the journal
and, if the disk has a catalog that the cache has not, the cache. -/
theorem load_cases (library : Library) (code : String) :
    (∃ catalog, library.store.cached.get? code = some catalog ∧
      (library.load code).1 = .ok catalog ∧ (library.load code).2.store = library.store) ∨
    (∃ error, library.store.cached.get? code = none ∧
      (library.store.fetch library.disk code).outcome = .error error ∧
      (library.load code).1 = .error error ∧ (library.load code).2.store = library.store) ∨
    (∃ catalog, library.store.cached.get? code = none ∧
      (library.store.fetch library.disk code).outcome = .ok catalog ∧
      (library.load code).1 = .ok catalog ∧ (library.load code).2.store =
        { library.store with cached := library.store.cached.put code catalog }) := by
  cases hcached : library.store.cached.get? code with
  | some catalog =>
      have hload := load_of_cached hcached
      exact Or.inl ⟨catalog, rfl, by rw [hload], by rw [hload]; rfl⟩
  | none =>
      cases hfetch : (library.store.fetch library.disk code).outcome with
      | error error =>
          have hload := load_of_error hcached hfetch
          exact Or.inr (Or.inl ⟨error, rfl, rfl, by rw [hload], by rw [hload]⟩)
      | ok catalog =>
          have hload := load_of_ok hcached hfetch
          exact Or.inr (Or.inr ⟨catalog, rfl, rfl, by rw [hload], by rw [hload]⟩)

/-- Loading leaves everything but the cache and the journal alone. -/
theorem load_frame (library : Library) (code : String) :
    ∃ cached journal, (library.load code).2 =
      { library with store := { library.store with cached }, journal } := by
  cases hcached : library.store.cached.get? code with
  | some catalog => exact ⟨library.store.cached, _, by rw [load_of_cached hcached]; rfl⟩
  | none =>
      cases hfetch : (library.store.fetch library.disk code).outcome with
      | error error => exact ⟨library.store.cached, _, by rw [load_of_error hcached hfetch]⟩
      | ok catalog => exact ⟨_, _, by rw [load_of_ok hcached hfetch]⟩

theorem load_registry (library : Library) (code : String) :
    (library.load code).2.store.registry = library.store.registry := by
  obtain ⟨cached, journal, h⟩ := load_frame library code
  rw [h]

theorem load_config (library : Library) (code : String) :
    (library.load code).2.store.config = library.store.config := by
  obtain ⟨cached, journal, h⟩ := load_frame library code
  rw [h]

theorem load_disk (library : Library) (code : String) :
    (library.load code).2.disk = library.disk := by
  obtain ⟨cached, journal, h⟩ := load_frame library code
  rw [h]

/-- After a load the cache has what the load has told. -/
theorem get?_load_self (library : Library) (code : String) :
    (library.load code).2.store.cached.get? code = (library.load code).1.toOption := by
  rcases load_cases library code with
    ⟨catalog, hcached, hload, hstore⟩ | ⟨error, hcached, -, hload, hstore⟩ |
      ⟨catalog, -, -, hload, hstore⟩
  · rw [hstore, hload, hcached]
    rfl
  · rw [hstore, hload, hcached]
    rfl
  · rw [hstore, hload, Table.get?_put_self]
    rfl

theorem get?_load_of_ne (library : Library) {code other : String} (h : other ≠ code) :
    (library.load code).2.store.cached.get? other = library.store.cached.get? other := by
  rcases load_cases library code with
    ⟨_, -, -, hstore⟩ | ⟨_, -, -, -, hstore⟩ | ⟨_, -, -, -, hstore⟩ <;> rw [hstore]
  rw [Table.get?_put, if_neg h]

/-- A catalog that has been loaded is in the cache. -/
theorem get?_load {library : Library} {code : String} {catalog : Catalog}
    (h : (library.load code).1 = .ok catalog) :
    (library.load code).2.store.cached.get? code = some catalog := by
  rw [get?_load_self, h]
  rfl

theorem load_valid {library : Library} (h : library.store.Valid) (code : String) :
    (library.load code).2.store.Valid := by
  rcases load_cases library code with
    ⟨_, -, -, hstore⟩ | ⟨_, -, -, -, hstore⟩ | ⟨catalog, -, hfetch, -, hstore⟩ <;> rw [hstore]
  · exact h
  · exact h
  · obtain ⟨hvalid, hregistered⟩ := Store.fetch_ok hfetch
    exact h.put hvalid hregistered

/-! ### Operations -/

/-- What can happen to a library: a catalog is asked for, one catalog or all are forgotten, and
files are written and removed. -/
inductive Operation where
  | load (code : String)
  | forget (code : Option String)
  | write (path : String) (entry : Entry)
  | remove (path : String)

/-- The library after an operation. -/
def perform (library : Library) : Operation → Library
  | .load code => (library.load code).2
  | .forget code => { library with store := library.store.forget code }
  | .write path entry => { library with disk := library.disk.put path entry }
  | .remove path => { library with disk := library.disk.remove path }

theorem perform_registry (library : Library) (operation : Operation) :
    (library.perform operation).store.registry = library.store.registry := by
  cases operation with
  | load code => exact load_registry library code
  | forget code => exact Store.forget_registry library.store code
  | write path entry => rfl
  | remove path => rfl

theorem perform_config (library : Library) (operation : Operation) :
    (library.perform operation).store.config = library.store.config := by
  cases operation with
  | load code => exact load_config library code
  | forget code => cases code <;> rfl
  | write path entry => rfl
  | remove path => rfl

theorem perform_valid {library : Library} (h : library.store.Valid) (operation : Operation) :
    (library.perform operation).store.Valid := by
  cases operation with
  | load code => exact load_valid h code
  | forget code => exact h.forget code
  | write path entry => exact h
  | remove path => exact h

/-- A library that has begun with an empty cache, after any number of operations. -/
inductive Reachable : Library → Prop where
  | fresh {library : Library} (h : library.store.cached = []) : Reachable library
  | perform {library : Library} (operation : Operation) (h : Reachable library) :
      Reachable (library.perform operation)

theorem Reachable.valid {library : Library} (h : library.Reachable) : library.store.Valid := by
  induction h with
  | fresh h => exact Store.Valid.of_cached_nil h
  | perform operation _ ih => exact perform_valid ih operation

end Library
end Polyglot
