import Polyglot.Proofs.Alike
import Polyglot.Proofs.Course

/-!
What observers see of the mark of switching. Every switch sets the mark when it begins and takes it
away when it ends, also a switch that an observer has asked for inside another one. So an observer
that is told later in the same round may see a host that does not count as switching: it sees the
mark just when no switch to a registered locale has ended since the last one began.
-/

namespace Polyglot

variable {σ : Type}

/-- What an observer can write down about the course of a switch. -/
inductive Moment where
  /-- It is told about a locale, and looks at the host. -/
  | called (observer : Observer) (locale : Locale) (view : View)
  | asked (code : String)
  | answered (code : String) (outcome : Except SwitchError Locale)
  deriving DecidableEq, Repr

namespace Moment

/-- The mark of switching after a moment. -/
def mark (registry : Registry) (switching : Bool) : Moment → Bool
  | .called _ _ _ => switching
  | .asked code => switching || registry.contains code
  | .answered code _ => switching && !registry.contains code

/-- An observer that is called sees the mark as it is. -/
def Shows (switching : Bool) : Moment → Prop
  | .called _ _ view => view.switching = switching
  | _ => True

/-- Every observer that is called sees the mark as the moments before tell it. -/
def Faithful (registry : Registry) : Bool → List Moment → Prop
  | _, [] => True
  | switching, moment :: rest =>
    moment.Shows switching ∧ Faithful registry (moment.mark registry switching) rest

/-- A switch to a registered locale has ended since the last one began. -/
def Lapsed (registry : Registry) (moments : List Moment) : Prop :=
  ∃ earlier code outcome later, moments = earlier ++ .answered code outcome :: later ∧
    registry.contains code = true ∧
      ∀ other, .asked other ∈ later → registry.contains other = false

theorem faithful_append {registry : Registry} {switching : Bool} {first second : List Moment} :
    Faithful registry switching (first ++ second) ↔ Faithful registry switching first ∧
      Faithful registry (first.foldl (mark registry) switching) second := by
  induction first generalizing switching with
  | nil => simp only [List.nil_append, List.foldl_nil, Faithful, true_and]
  | cons moment rest ih => simp only [List.cons_append, List.foldl_cons, Faithful, ih, and_assoc]

theorem lapsed_concat {registry : Registry} {moments : List Moment} {moment : Moment} :
    Lapsed registry (moments ++ [moment]) ↔
      (Lapsed registry moments ∧
        ∀ other, moment = .asked other → registry.contains other = false) ∨
      ∃ code outcome, moment = .answered code outcome ∧ registry.contains code = true := by
  constructor
  · rintro ⟨earlier, code, outcome, later, heq, hcode, hlater⟩
    induction later using List.reverseRecOn with
    | nil =>
        obtain ⟨-, hlast⟩ := List.append_inj' heq rfl
        cases hlast
        exact Or.inr ⟨code, outcome, rfl, hcode⟩
    | append_singleton later last =>
        rw [← List.cons_append, ← List.append_assoc] at heq
        obtain ⟨rfl, hlast⟩ := List.append_inj' heq rfl
        cases hlast
        refine Or.inl ⟨⟨earlier, code, outcome, later, rfl, hcode, fun other hother => ?_⟩,
          fun other hother => ?_⟩
        · exact hlater other (List.mem_append_left _ hother)
        · exact hlater other (hother ▸ List.mem_append_right _ List.mem_cons_self)
  · rintro (⟨⟨earlier, code, outcome, later, rfl, hcode, hlater⟩, hlast⟩ |
      ⟨code, outcome, rfl, hcode⟩)
    · refine ⟨earlier, code, outcome, later ++ [moment], by simp, hcode, fun other hother => ?_⟩
      rcases List.mem_append.mp hother with hother | hother
      · exact hlater other hother
      · exact hlast other (List.mem_singleton.mp hother).symm
    · exact ⟨moments, code, outcome, [], rfl, hcode, fun _ h => nomatch h⟩

/-- From the beginning of a switch on, the mark is gone just when a switch has ended since. -/
theorem foldl_mark_eq_false_iff {registry : Registry} {moments : List Moment} :
    moments.foldl (mark registry) true = false ↔ Lapsed registry moments := by
  induction moments using List.reverseRecOn with
  | nil =>
      constructor
      · intro h
        cases h
      · rintro ⟨earlier, code, outcome, later, heq, -⟩
        cases List.append_ne_nil_of_right_ne_nil earlier (List.cons_ne_nil _ _) heq.symm
  | append_singleton moments moment ih =>
      rw [List.foldl_append, List.foldl_cons, List.foldl_nil, lapsed_concat, ← ih]
      cases moment with
      | called observer locale view => simp [mark]
      | asked code => simp [mark]
      | answered code outcome =>
          cases moments.foldl (mark registry) true <;> simp [mark]

end Moment

/-! ### Watching observers -/

/-- A look at nothing that writes down a moment. -/
def Script.writing (moment : Moment) (next : Script (σ × List Moment)) :
    Script (σ × List Moment) :=
  .look (fun _ memory => (memory.1, memory.2 ++ [moment])) fun _ _ => next

/-- A script that writes down which switches it asks for and how they end. -/
def Script.watched : Script σ → Script (σ × List Moment)
  | .done => .done
  | .fail => .fail
  | .look remember next =>
    .look (fun view memory => (remember view memory.1, memory.2)) fun view memory =>
      (next view memory.1).watched
  | .switch code next =>
    .writing (.asked code) (.switch code fun outcome =>
      .writing (.answered code outcome) (next outcome).watched)
  | .observe observer next => .observe observer next.watched
  | .unobserve observer next => .unobserve observer next.watched

/-- Observers that look at the host before they do anything, and write down what they see. -/
def Behaviour.watched (behaviour : Behaviour σ) : Behaviour (σ × List Moment) :=
  fun observer locale =>
    .look (fun view memory => (memory.1, memory.2 ++ [.called observer locale view])) fun _ _ =>
      (behaviour observer locale).watched

/-- A memory, and the same memory beside what has been written down. -/
def Watches (memory : σ) (watched : σ × List Moment) : Prop := watched.1 = memory

theorem Registry.contains_eq_isSome (registry : Registry) (code : String) :
    registry.contains code = (registry.locale? code).isSome := by
  rw [contains, locale?, Option.isSome_map]

theorem Script.watched_alike (script : Script σ) : Script.Alike Watches script script.watched := by
  induction script with
  | done => exact .stop true true
  | fail => exact .stop false false
  | look remember next ih =>
      refine .look (fun view memory watched h => ?_) fun view memory watched h => ?_
      · exact congrArg (remember view) h
      · cases h
        exact ih view watched.1
  | switch code next ih =>
      refine .note (fun _ _ _ h => h) fun _ _ => .switch fun outcome => ?_
      exact .note (fun _ _ _ h => h) fun _ _ => ih outcome
  | observe observer next ih => exact .observe ih
  | unobserve observer next ih => exact .unobserve ih

theorem Behaviour.watched_alike (behaviour : Behaviour σ) :
    Behaviour.Alike Watches behaviour behaviour.watched := by
  intro observer locale
  exact .note (fun _ _ _ h => h) fun _ _ => (behaviour observer locale).watched_alike

namespace Host

/-- A host whose observers have written down nothing yet. -/
def watching (host : Host σ) : Host (σ × List Moment) where
  library := host.library
  snapshot := host.snapshot
  switching := host.switching
  observers := host.observers
  memory := (host.memory, [])

theorem watching_alike (host : Host σ) : Alike Watches host host.watching :=
  ⟨rfl, rfl, rfl, rfl, rfl, rfl⟩

/-- A host in which an observer has written down a moment. -/
def write (host : Host (σ × List Moment)) (moment : Moment) : Host (σ × List Moment) :=
  { host with memory := (host.memory.1, host.memory.2 ++ [moment]) }

theorem run_writing (switch : Switching (σ × List Moment)) (moment : Moment)
    (next : Script (σ × List Moment)) (host : Host (σ × List Moment)) :
    run switch (.writing moment next) host = run switch next (host.write moment) :=
  rfl

/-- What has been written down from one host to another, and that it tells the mark of switching
truly. -/
structure Traced (host : Host (σ × List Moment)) (moments : List Moment)
    (next : Host (σ × List Moment)) : Prop where
  memory : next.memory.2 = host.memory.2 ++ moments
  registry : next.registry = host.registry
  mark : next.switching = moments.foldl (Moment.mark host.registry) host.switching
  faithful : Moment.Faithful host.registry host.switching moments

theorem Traced.still {host next : Host (σ × List Moment)}
    (hmemory : next.memory.2 = host.memory.2) (hregistry : next.registry = host.registry)
    (hmark : next.switching = host.switching) : Traced host [] next where
  memory := by rw [hmemory, List.append_nil]
  registry := hregistry
  mark := hmark
  faithful := trivial

theorem Traced.trans {host middle next : Host (σ × List Moment)} {moments more : List Moment}
    (hfirst : Traced host moments middle) (hsecond : Traced middle more next) :
    Traced host (moments ++ more) next where
  memory := by rw [hsecond.memory, hfirst.memory, List.append_assoc]
  registry := hsecond.registry.trans hfirst.registry
  mark := by rw [hsecond.mark, hfirst.mark, hfirst.registry, List.foldl_append]
  faithful := by
    have hmore := hsecond.faithful
    rw [hfirst.mark, hfirst.registry] at hmore
    exact Moment.faithful_append.mpr ⟨hfirst.faithful, hmore⟩

theorem Traced.called (host : Host (σ × List Moment)) (observer : Observer) (locale : Locale) :
    Traced host [.called observer locale host.view]
      (host.write (.called observer locale host.view)) where
  memory := rfl
  registry := rfl
  mark := rfl
  faithful := ⟨rfl, trivial⟩

/-- A switch whose observers watch. If its locale is registered, it begins with the mark set and
ends with the mark taken away; otherwise nothing is written down and the mark stays. -/
def Tracing (switch : Switching (σ × List Moment)) : Prop :=
  ∀ ⦃code : String⦄ ⦃host next : Host (σ × List Moment)⦄ ⦃outcome : Except SwitchError Locale⦄,
    switch code host = some (outcome, next) →
      (host.registry.contains code = false ∧ Traced host [] next) ∨
        (host.registry.contains code = true ∧ ∃ moments last,
          Traced { host with switching := true } moments last ∧
            next = { last with switching := false })

/-- A switch that an observer asks for is part of what it writes down. -/
theorem Tracing.nested {switch : Switching (σ × List Moment)} (htracing : Tracing switch)
    {code : String} {host middle : Host (σ × List Moment)} {outcome : Except SwitchError Locale}
    (h : switch code (host.write (.asked code)) = some (outcome, middle)) :
    ∃ moments, Traced host moments (middle.write (.answered code outcome)) := by
  rcases htracing h with ⟨hcode, htraced⟩ | ⟨hcode, moments, last, htraced, rfl⟩
  · have hcode' : host.registry.contains code = false := hcode
    refine ⟨[.asked code, .answered code outcome], ?_, htraced.registry, ?_, trivial, trivial,
      trivial⟩
    · rw [write, htraced.memory, write, List.append_nil, List.append_assoc]
      rfl
    · rw [write, htraced.mark]
      simp [Moment.mark, hcode', write]
  · have hcode' : host.registry.contains code = true := hcode
    refine ⟨.asked code :: (moments ++ [.answered code outcome]), ?_, htraced.registry, ?_,
      trivial, ?_⟩
    · rw [write, htraced.memory, write, List.append_assoc, List.append_assoc]
      rfl
    · rw [write, List.foldl_cons, List.foldl_append]
      simp [Moment.mark, hcode']
    · rw [Moment.mark, hcode', Bool.or_true]
      exact Moment.faithful_append.mpr ⟨htraced.faithful, trivial, trivial⟩

section Tracing

variable {switch : Switching (σ × List Moment)} (htracing : Tracing switch)

include htracing

theorem run_traced (script : Script σ) {host next : Host (σ × List Moment)} {finished : Bool}
    (h : run switch script.watched host = some (finished, next)) :
    ∃ moments, Traced host moments next := by
  induction script generalizing host with
  | done =>
      cases h
      exact ⟨[], .still rfl rfl rfl⟩
  | fail =>
      cases h
      exact ⟨[], .still rfl rfl rfl⟩
  | look remember script ih =>
      obtain ⟨moments, htraced⟩ := ih _ _ h
      have hlook : Traced host []
          { host with memory := (remember host.view host.memory.1, host.memory.2) } :=
        .still rfl rfl rfl
      exact ⟨moments, hlook.trans htraced⟩
  | switch code script ih =>
      rw [Script.watched, run_writing, run] at h
      split at h
      · rename_i outcome middle hmiddle
        rw [run_writing] at h
        obtain ⟨moments, hnested⟩ := htracing.nested hmiddle
        obtain ⟨more, htraced⟩ := ih outcome h
        exact ⟨moments ++ more, hnested.trans htraced⟩
      · cases h
  | observe observer script ih =>
      obtain ⟨moments, htraced⟩ := ih h
      have hcame : Traced host [] (host.observe observer) := .still rfl rfl rfl
      exact ⟨moments, hcame.trans htraced⟩
  | unobserve observer script ih =>
      obtain ⟨moments, htraced⟩ := ih h
      have hgone : Traced host [] (host.unobserve observer) := .still rfl rfl rfl
      exact ⟨moments, hgone.trans htraced⟩

variable {behaviour : Behaviour σ}

theorem notify_traced {installed : Snapshot} {observers : List Observer}
    {host next : Host (σ × List Moment)}
    (h : notify switch behaviour.watched installed observers host = some next) :
    ∃ moments, Traced host moments next := by
  induction observers generalizing host with
  | nil =>
      cases h
      exact ⟨[], .still rfl rfl rfl⟩
  | cons observer rest ih =>
      by_cases hcurrent : host.snapshot.serial = installed.serial
      · rw [notify_current hcurrent] at h
        obtain ⟨⟨finished, after⟩, hrun, hrest⟩ := Option.bind_eq_some_iff.mp h
        obtain ⟨moments, hscript⟩ := run_traced htracing (behaviour observer installed.locale) hrun
        have hsettled : Traced after [] (settled observer finished after) := by
          cases finished <;> exact .still rfl rfl rfl
        obtain ⟨more, htraced⟩ := ih hrest
        exact ⟨_, (((Traced.called host observer installed.locale).trans hscript).trans
          hsettled).trans htraced⟩
      · rw [notify_superseded hcurrent] at h
        cases h
        exact ⟨[], .still rfl rfl rfl⟩

theorem switchTo_traced {target : Locale} {host next : Host (σ × List Moment)}
    {outcome : Except SwitchError Locale}
    (h : switchTo switch behaviour.watched target host = some (outcome, next)) :
    ∃ moments, Traced host moments next := by
  cases hsame : host.snapshot.locale.same target with
  | true =>
      rw [switchTo_of_same hsame] at h
      cases h
      exact ⟨[], .still rfl rfl rfl⟩
  | false =>
      have hregistry := registry_of_change (Change.load host target.code)
      rcases hload : host.library.load target.code with ⟨loaded, library⟩
      rw [hload] at hregistry
      have hlibrary : Traced host [] { host with library } := .still rfl hregistry rfl
      match loaded with
      | .error (.version fault) =>
          rw [switchTo_of_version hsame hload] at h
          cases h
          exact ⟨[], hlibrary⟩
      | .error (.catalog cause) =>
          rw [switchTo_of_invalid hsame hload] at h
          cases h
          exact ⟨[], .still rfl hregistry rfl⟩
      | .ok catalog =>
          rw [switchTo_of_loaded hsame hload, install_eq] at h
          obtain ⟨last, hlast, heq⟩ := Option.map_eq_some_iff.mp h
          cases heq
          have hinstalled : Traced { host with library } []
              (withCatalog { host with library } catalog) := .still rfl rfl rfl
          obtain ⟨moments, htraced⟩ := notify_traced htracing hlast
          exact ⟨moments, (hlibrary.trans hinstalled).trans htraced⟩

end Tracing

theorem tracing_switch (behaviour : Behaviour σ) (depth : Nat) :
    Tracing (switch behaviour.watched depth) := by
  -- The switches that observers ask for have one level less.
  induction depth with
  | zero =>
      intro code host next outcome h
      cases h
  | succ depth ih =>
      intro code host next outcome h
      rw [Registry.contains_eq_isSome]
      cases htarget : host.registry.locale? code with
      | none =>
          rw [switch_of_unknown htarget] at h
          cases h
          exact Or.inl ⟨rfl, .still rfl rfl rfl⟩
      | some target =>
          rw [switch_of_registered htarget] at h
          obtain ⟨⟨result, last⟩, hlast, heq⟩ := Option.map_eq_some_iff.mp h
          cases heq
          obtain ⟨moments, htraced⟩ := switchTo_traced ih hlast
          exact Or.inr ⟨rfl, moments, last, htraced, rfl⟩

/-- During a switch an observer sees the host switching just when no switch to a registered locale
has ended since the last one began. Watching changes nothing about the switch, and after it a host
that was idle before is idle again. -/
theorem switching_iff_of_called {behaviour : Behaviour σ} {depth : Nat} {code : String}
    {host next : Host σ} {outcome : Except SwitchError Locale}
    (h : switch behaviour depth code host = some (outcome, next)) :
    ∃ last, switch behaviour.watched depth code host.watching = some (outcome, last) ∧
      Alike Watches next last ∧
      (∀ before observer locale view after,
        last.memory.2 = before ++ .called observer locale view :: after →
          (view.switching = true ↔ ¬ Moment.Lapsed host.registry before)) ∧
      (host.switching = false → next.switching = false) := by
  obtain ⟨last, hlast, halike⟩ :=
    switch_alike behaviour.watched_alike depth host.watching_alike h
  refine ⟨last, hlast, halike, ?_, fun hidle => switch_idle hidle h⟩
  intro before observer locale view after heq
  rcases tracing_switch behaviour depth hlast with
    ⟨-, htraced⟩ | ⟨-, moments, inner, htraced, rfl⟩
  · rw [htraced.memory] at heq
    cases List.append_ne_nil_of_right_ne_nil before (List.cons_ne_nil _ _) heq.symm
  · have hmoments : moments = before ++ .called observer locale view :: after :=
      htraced.memory.symm.trans heq
    have hfaithful := htraced.faithful
    rw [hmoments, Moment.faithful_append] at hfaithful
    have hview : view.switching = before.foldl (Moment.mark host.registry) true :=
      hfaithful.2.1
    rw [hview, ← Moment.foldl_mark_eq_false_iff, Bool.not_eq_false]

/-! ### An observer that asks for what it has been told -/

/-- One observer asks for the locale that it has been told of, which is active already. -/
def insistent : Behaviour Unit := fun observer locale =>
  if observer = listener then .done else .switch locale.code fun _ => .done

theorem moments_insistent :
    (switch insistent.watched 2 "ru_RU" attendedHost.watching).map (·.2.memory.2) =
      some [.called restless russian ⟨russian, true⟩, .asked "ru_RU",
        .answered "ru_RU" (.ok russian), .called listener russian ⟨russian, false⟩] := by
  decide +kernel

theorem not_switching_of_called_insistent :
    AtRest insistent attendedHost ∧ ∃ outcome last,
      switch insistent.watched 2 "ru_RU" attendedHost.watching = some (outcome, last) ∧
      ¬ ∀ observer locale view, .called observer locale view ∈ last.memory.2 →
        view.switching = true := by
  obtain ⟨⟨outcome, last⟩, hlast, hmoments⟩ := Option.map_eq_some_iff.mp moments_insistent
  refine ⟨atRest_attended insistent, outcome, last, hlast, fun h => ?_⟩
  have hlistener := h listener russian ⟨russian, false⟩ (by rw [hmoments]; decide)
  cases hlistener

theorem switching_iff_of_called_insistent : ∃ outcome next,
    switch insistent 2 "ru_RU" attendedHost = some (outcome, next) ∧ next.switching = false ∧
      ¬ Moment.Lapsed attendedHost.registry [] ∧
      Moment.Lapsed attendedHost.registry [.called restless russian ⟨russian, true⟩,
        .asked "ru_RU", .answered "ru_RU" (.ok russian)] := by
  have hsome : (switch insistent 2 "ru_RU" attendedHost).isSome = true := by decide +kernel
  obtain ⟨⟨outcome, next⟩, h⟩ := Option.isSome_iff_exists.mp hsome
  obtain ⟨last, hlast, -, hiff, hidle⟩ := switching_iff_of_called h
  have hmoments := moments_insistent
  rw [hlast, Option.map_some, Option.some.injEq] at hmoments
  refine ⟨outcome, next, h, hidle rfl, ?_, ?_⟩
  · exact (hiff [] restless russian ⟨russian, true⟩ _ hmoments).mp rfl
  · have hlistener := hiff [_, _, _] listener russian ⟨russian, false⟩ [] hmoments
    by_contra hlapsed
    cases hlistener.mpr hlapsed

end Host
end Polyglot
