import Mathlib.Data.List.Induction
import Polyglot.Proofs.Library

/-!
The history of a cache. What a store keeps is told from what has happened to it: a catalog is in the
cache when a load of it has succeeded and it has not been forgotten since, and it is the catalog
that the file held at the first such load, whatever has become of the file.
-/

namespace Polyglot

/-! ### Events -/

inductive Event where
  | load (request : Request)
  | forget (code : Option String)
  | write (path : String) (entry : Entry)
  | remove (path : String)

namespace Event

def operation : Event → Library.Operation
  | .load request => .load request.key
  | .forget code => .forget code
  | .write path entry => .write path entry
  | .remove path => .remove path

/-- The event asks for the catalog of a code. -/
def Asks (event : Event) (code : String) : Prop :=
  ∃ request, event = .load request ∧ request.key = code

/-- The event forgets the catalog of a code, alone or with all others. -/
def Covers (event : Event) (code : String) : Prop :=
  event = .forget none ∨ event = .forget (some code)

end Event

namespace Library

/-- The library after a history. -/
def after (library : Library) (events : List Event) : Library :=
  events.foldl (fun library event => library.perform event.operation) library

/-- After the events `before` a load of the code has succeeded, and none of the events that came
later forgets it. -/
def Standing (start : Library) (events : List Event) (code : String) (before : List Event) : Prop :=
  ∃ event later, events = before ++ event :: later ∧ event.Asks code ∧
    (∃ catalog, ((start.after before).load code).1 = .ok catalog) ∧
    ∀ other ∈ later, ¬ other.Covers code

/-- The first of the loads that stand. -/
def FirstStanding (start : Library) (events : List Event) (code : String) (before : List Event) :
    Prop :=
  start.Standing events code before ∧
    ∀ earlier, start.Standing events code earlier → before.length ≤ earlier.length

theorem after_concat (library : Library) (events : List Event) (event : Event) :
    library.after (events ++ [event]) = (library.after events).perform event.operation := by
  rw [after, List.foldl_append]
  rfl

/-! ### What an operation does to the cache -/

theorem get?_of_covers (library : Library) {event : Event} {code : String}
    (h : event.Covers code) :
    (library.perform event.operation).store.cached.get? code = none := by
  rcases h with rfl | rfl
  · rfl
  · simp [Event.operation, perform, Store.forget, Table.get?_remove]

theorem get?_of_asks (library : Library) {event : Event} {code : String} (h : event.Asks code) :
    (library.perform event.operation).store.cached.get? code = (library.load code).1.toOption := by
  obtain ⟨request, rfl, rfl⟩ := h
  exact get?_load_self library request.key

theorem get?_of_neither (library : Library) {event : Event} {code : String}
    (hasks : ¬ event.Asks code) (hcovers : ¬ event.Covers code) :
    (library.perform event.operation).store.cached.get? code = library.store.cached.get? code := by
  cases event with
  | load request =>
      have hne : code ≠ request.key := fun heq => hasks ⟨request, rfl, heq.symm⟩
      exact get?_load_of_ne library hne
  | forget forgotten =>
      cases forgotten with
      | none => exact absurd (Or.inl rfl) hcovers
      | some other =>
          have hne : code ≠ other := fun heq => hcovers (Or.inr (by rw [heq]))
          simp [Event.operation, perform, Store.forget, Table.get?_remove, hne]
  | write path entry => rfl
  | remove path => rfl

theorem after_registry (library : Library) (events : List Event) :
    (library.after events).store.registry = library.store.registry := by
  induction events using List.reverseRecOn with
  | nil => rfl
  | append_singleton events event ih => rw [after_concat, perform_registry, ih]

theorem after_config (library : Library) (events : List Event) :
    (library.after events).store.config = library.store.config := by
  induction events using List.reverseRecOn with
  | nil => rfl
  | append_singleton events event ih => rw [after_concat, perform_config, ih]

theorem standing_concat {start : Library} {events : List Event} {event : Event} {code : String}
    {before : List Event} :
    start.Standing (events ++ [event]) code before ↔
      (start.Standing events code before ∧ ¬ event.Covers code) ∨
        (before = events ∧ event.Asks code ∧
          ∃ catalog, ((start.after events).load code).1 = .ok catalog) := by
  constructor
  · rintro ⟨first, later, heq, hasks, hload, hcovers⟩
    induction later using List.reverseRecOn with
    | nil =>
        obtain ⟨rfl, hlast⟩ := List.append_inj' heq rfl
        cases hlast
        exact Or.inr ⟨rfl, hasks, hload⟩
    | append_singleton later last =>
        rw [← List.cons_append, ← List.append_assoc] at heq
        obtain ⟨rfl, hlast⟩ := List.append_inj' heq rfl
        cases hlast
        exact Or.inl ⟨⟨first, later, rfl, hasks, hload,
          fun other hother => hcovers other (List.mem_append_left _ hother)⟩,
          hcovers event (by simp)⟩
  · rintro (⟨⟨first, later, rfl, hasks, hload, hcovers⟩, hlast⟩ | ⟨rfl, hasks, hload⟩)
    · refine ⟨first, later ++ [event], by simp, hasks, hload, fun other hother => ?_⟩
      rcases List.mem_append.mp hother with hother | hother
      · exact hcovers other hother
      · exact List.mem_singleton.mp hother ▸ hlast
    · exact ⟨event, [], rfl, hasks, hload, fun _ h => nomatch h⟩

theorem Standing.length_lt {start : Library} {events : List Event} {code : String}
    {before : List Event} (h : start.Standing events code before) :
    before.length < events.length := by
  obtain ⟨event, later, rfl, -⟩ := h
  simp

/-- What stands first goes on to stand first until it is forgotten. -/
theorem FirstStanding.concat {start : Library} {events : List Event} {code : String}
    {before : List Event} (h : start.FirstStanding events code before) {event : Event}
    (hcovers : ¬ event.Covers code) : start.FirstStanding (events ++ [event]) code before := by
  refine ⟨standing_concat.mpr (Or.inl ⟨h.1, hcovers⟩), fun earlier hearlier => ?_⟩
  rcases standing_concat.mp hearlier with ⟨hstanding, -⟩ | ⟨rfl, -⟩
  · exact h.2 earlier hstanding
  · exact Nat.le_of_lt h.1.length_lt

/-! ### What is in the cache -/

/-- The cache has a catalog just when a load of it stands, and then the catalog is the one that was
on the disk at the first such load. -/
structure Accounted (start : Library) (events : List Event) (code : String) : Prop where
  cached : ∀ catalog, (start.after events).store.cached.get? code = some catalog →
    ∃ before, start.FirstStanding events code before ∧
      ((start.after before).store.fetch (start.after before).disk code).outcome = .ok catalog
  absent : (start.after events).store.cached.get? code = none →
    ∀ before, ¬ start.Standing events code before

section Step

variable {start : Library} {events : List Event} {event : Event} {code : String}

theorem accounted_of_covers (hcovers : event.Covers code) :
    start.Accounted (events ++ [event]) code := by
  have hnone := get?_of_covers (start.after events) hcovers
  rw [← after_concat] at hnone
  constructor
  · intro catalog h
    cases h.symm.trans hnone
  · intro _ before h
    rcases standing_concat.mp h with ⟨-, hkept⟩ | ⟨-, ⟨request, rfl, -⟩, -⟩
    · exact hkept hcovers
    · rcases hcovers with heq | heq <;> cases heq

theorem Accounted.of_asks (h : start.Accounted events code) (hcovers : ¬ event.Covers code)
    (hasks : event.Asks code) : start.Accounted (events ++ [event]) code := by
  have hload := get?_of_asks (start.after events) hasks
  rw [← after_concat] at hload
  rcases load_cases (start.after events) code with
    ⟨catalog, hcached, hok, -⟩ | ⟨error, hcached, -, herror, -⟩ |
      ⟨catalog, hcached, hfetch, hok, -⟩
  · -- The cache answers, so an earlier load stands already and stays the first.
    rw [hok] at hload
    obtain ⟨before, hfirst, hfetch⟩ := h.cached catalog hcached
    constructor
    · intro other hother
      cases hother.symm.trans hload
      exact ⟨before, hfirst.concat hcovers, hfetch⟩
    · intro hnone
      cases hnone.symm.trans hload
  · rw [herror] at hload
    constructor
    · intro other hother
      cases hother.symm.trans hload
    · intro _ before hstanding
      rcases standing_concat.mp hstanding with ⟨hearlier, -⟩ | ⟨-, -, catalog, hok⟩
      · exact h.absent hcached before hearlier
      · cases herror.symm.trans hok
  · -- Nothing is cached, so no load stands and this one is the first.
    rw [hok] at hload
    constructor
    · intro other hother
      cases hother.symm.trans hload
      refine ⟨events, ⟨standing_concat.mpr (Or.inr ⟨rfl, hasks, catalog, hok⟩), ?_⟩, hfetch⟩
      intro earlier hearlier
      rcases standing_concat.mp hearlier with ⟨hstanding, -⟩ | ⟨rfl, -⟩
      · exact absurd hstanding (h.absent hcached earlier)
      · exact Nat.le_refl _
    · intro hnone
      cases hnone.symm.trans hload

theorem Accounted.of_neither (h : start.Accounted events code) (hcovers : ¬ event.Covers code)
    (hasks : ¬ event.Asks code) : start.Accounted (events ++ [event]) code := by
  have hsame := get?_of_neither (start.after events) hasks hcovers
  rw [← after_concat] at hsame
  constructor
  · intro catalog hcatalog
    obtain ⟨before, hfirst, hfetch⟩ := h.cached catalog (hsame ▸ hcatalog)
    exact ⟨before, hfirst.concat hcovers, hfetch⟩
  · intro hnone before hstanding
    rcases standing_concat.mp hstanding with ⟨hearlier, -⟩ | ⟨-, hasked, -⟩
    · exact h.absent (hsame ▸ hnone) before hearlier
    · exact hasks hasked

end Step

theorem accounted {start : Library} (hstart : start.store.cached = []) (events : List Event)
    (code : String) : start.Accounted events code := by
  induction events using List.reverseRecOn with
  | nil =>
      constructor
      · intro catalog h
        rw [after, List.foldl_nil, hstart] at h
        cases h
      · intro _ before h
        exact absurd h.length_lt (Nat.not_lt_zero _)
  | append_singleton events event ih =>
      by_cases hcovers : event.Covers code
      · exact accounted_of_covers hcovers
      · by_cases hasks : event.Asks code
        · exact ih.of_asks hcovers hasks
        · exact ih.of_neither hcovers hasks

theorem load_cached_of_error {library : Library} {code : String} {error : LoadError}
    (h : (library.load code).1 = .error error) :
    (library.load code).2.store.cached = library.store.cached := by
  rcases load_cases library code with
    ⟨_, -, -, hstore⟩ | ⟨_, -, -, -, hstore⟩ | ⟨_, -, -, hok, -⟩
  · rw [hstore]
  · rw [hstore]
  · cases hok.symm.trans h

theorem after_reachable {library : Library} (h : library.Reachable) (events : List Event) :
    (library.after events).Reachable := by
  induction events using List.reverseRecOn with
  | nil => exact h
  | append_singleton events event ih =>
      rw [after_concat]
      exact .perform event.operation ih

/-- What a store remembers of its history. -/
structure Remembers (start : Library) (events : List Event) : Prop where
  /-- A catalog is cached when a load of it has succeeded after it was last forgotten. -/
  cached : ∀ code, (start.after events).store.isCached code = true ↔
    ∃ before, start.Standing events code before
  /-- Then it is told to whoever asks, as the file had it at the first such load. -/
  kept : ∀ request : Request, (start.after events).store.isCached request.key = true →
    ∃ before registration bytes catalog, start.FirstStanding events request.key before ∧
      start.store.registry.find? request.key = some registration ∧
      (start.after before).disk.read registration.path = .ok bytes ∧
      (Catalog.ofBytes start.store.config registration.locale bytes).outcome = .ok catalog ∧
      ((start.after events).answer request).1 = .ok catalog
  failed : ∀ request error, ((start.after events).answer request).1 = .error error →
    ((start.after events).answer request).2.store.cached = (start.after events).store.cached
  /-- The locale of a catalog is the registered one, whatever locale was asked with. -/
  registered : ∀ code catalog, (start.after events).store.cached.get? code = some catalog →
    start.store.registry.locale? code = some catalog.locale
  own : ∀ request catalog, ((start.after events).answer request).1 = .ok catalog →
    start.store.registry.locale? request.key = some catalog.locale

/-- The cache of a store is exactly what its history says. -/
theorem remembers (registry : Registry) (config : Config) (disk : Disk) (journal : Journal)
    (events : List Event) : Remembers { store := { registry, config }, disk, journal } events := by
  have haccounted := @accounted { store := { registry, config }, disk, journal } rfl events
  have hreachable := after_reachable
    (@Reachable.fresh { store := { registry, config }, disk, journal } rfl) events
  refine ⟨fun code => ⟨fun h => ?_, ?_⟩, fun request h => ?_, fun request error h => ?_,
    fun code catalog h => ?_, fun request catalog h => ?_⟩
  · obtain ⟨catalog, hcatalog⟩ := Option.isSome_iff_exists.mp h
    obtain ⟨before, hfirst, -⟩ := (haccounted code).cached catalog hcatalog
    exact ⟨before, hfirst.1⟩
  · rintro ⟨before, hstanding⟩
    rw [Store.isCached, Table.contains, Option.isSome_iff_ne_none]
    exact fun hnone => (haccounted code).absent hnone before hstanding
  · obtain ⟨catalog, hcatalog⟩ := Option.isSome_iff_exists.mp h
    obtain ⟨before, hfirst, hfetch⟩ := (haccounted request.key).cached catalog hcatalog
    obtain ⟨registration, bytes, hfind, hread, hbytes⟩ := Store.file_of_fetch hfetch
    rw [after_registry] at hfind
    rw [after_config] at hbytes
    refine ⟨before, registration, bytes, catalog, hfirst, hfind, hread, hbytes, ?_⟩
    rw [answer, load_of_cached hcatalog]
  · exact load_cached_of_error h
  · have hlocale := hreachable.valid.registered code catalog h
    rwa [after_registry] at hlocale
  · have hlocale := (load_valid hreachable.valid request.key).registered request.key catalog
      (get?_load h)
    rwa [load_registry, after_registry] at hlocale

end Library
end Polyglot
