import Polyglot.Proofs.Alike
import Polyglot.Proofs.Course

/-!
How the observers are told about a switch. A switch that installs a snapshot calls the observers
that there are at that time, in their order and each registration once, up to one during whose call
another snapshot is installed; nobody else is called. This holds of every switch, however deep it
nests, and while observers come and go.
-/

namespace Polyglot

variable {σ : Type}

/-! ### Chronicles -/

/-- A line of the chronicle that observers keep. Whoever is called or asks for a switch writes down
which locale is active then. -/
inductive Line where
  | called (observer : Observer) (locale active : Locale)
  | left (observer : Observer)
  | asked (code : String) (active : Locale)
  | answered (code : String) (outcome : Except SwitchError Locale)
  | came (observer : Observer)
  | gone (observer : Observer)
  deriving DecidableEq, Repr

/-- What observers do. A call has inside it what the observer does until it returns or fails, and a
switch the calls that it leads to. -/
inductive Deed where
  | came (observer : Observer)
  | gone (observer : Observer)
  | call (observer : Observer) (locale active : Locale) (inside : List Deed)
  | switch (code : String) (active : Locale) (outcome : Except SwitchError Locale)
      (inside : List Deed)

namespace Deed

mutual

/-- The lines that tell a deed from its beginning to its end. -/
def lines : Deed → List Line
  | .came observer => [.came observer]
  | .gone observer => [.gone observer]
  | .call observer locale active inside =>
    .called observer locale active :: (linesOf inside ++ [.left observer])
  | .switch code active outcome inside =>
    .asked code active :: (linesOf inside ++ [.answered code outcome])

def linesOf : List Deed → List Line
  | [] => []
  | deed :: rest => deed.lines ++ linesOf rest

end

theorem linesOf_append (deeds more : List Deed) :
    linesOf (deeds ++ more) = linesOf deeds ++ linesOf more := by
  induction deeds with
  | nil => rfl
  | cons deed rest ih => rw [List.cons_append, linesOf, linesOf, ih, List.append_assoc]

/-- Lines with which no deed can begin. -/
def Closing : List Line → Prop
  | [] | .left _ :: _ | .answered _ _ :: _ => True
  | _ => False

theorem not_closing_lines_append (deed : Deed) (rest : List Line) :
    ¬ Closing (deed.lines ++ rest) := by
  cases deed <;> simp [lines, Closing]

mutual

/-- There is one way to read lines. -/
theorem lines_append_inj {deed other : Deed} {rest more : List Line}
    (h : deed.lines ++ rest = other.lines ++ more) : deed = other ∧ rest = more := by
  match deed, other with
  | .came _, .came _ | .gone _, .gone _ =>
      simpa [lines] using h
  | .call observer _ _ inside, .call observer' _ _ inside' =>
      simp only [lines, List.cons_append, List.append_assoc, List.cons.injEq,
        Line.called.injEq] at h
      obtain ⟨⟨rfl, rfl, rfl⟩, htail⟩ := h
      have hclosing (more : List Line) : Closing ([.left observer] ++ more) := trivial
      obtain ⟨rfl, hrest⟩ := linesOf_append_inj (hclosing rest) (hclosing more) htail
      exact ⟨rfl, List.append_cancel_left hrest⟩
  | .switch code _ outcome inside, .switch code' _ outcome' inside' =>
      simp only [lines, List.cons_append, List.append_assoc, List.cons.injEq,
        Line.asked.injEq] at h
      obtain ⟨⟨rfl, rfl⟩, htail⟩ := h
      have hclosing (outcome : Except SwitchError Locale) (more : List Line) :
          Closing ([.answered code outcome] ++ more) := trivial
      obtain ⟨rfl, hrest⟩ :=
        linesOf_append_inj (hclosing outcome rest) (hclosing outcome' more) htail
      cases hrest
      exact ⟨rfl, rfl⟩
  | .came _, .gone _ | .came _, .call .. | .came _, .switch .. | .gone _, .came _
  | .gone _, .call .. | .gone _, .switch .. | .call .., .came _ | .call .., .gone _
  | .call .., .switch .. | .switch .., .came _ | .switch .., .gone _ | .switch .., .call .. =>
      simp [lines] at h

theorem linesOf_append_inj {deeds others : List Deed} {rest more : List Line}
    (hrest : Closing rest) (hmore : Closing more)
    (h : linesOf deeds ++ rest = linesOf others ++ more) : deeds = others ∧ rest = more := by
  match deeds, others with
  | [], [] => exact ⟨rfl, h⟩
  | [], other :: others =>
      rw [linesOf, linesOf, List.nil_append, List.append_assoc] at h
      exact absurd (h ▸ hrest) (not_closing_lines_append other _)
  | deed :: deeds, [] =>
      rw [linesOf, linesOf, List.nil_append, List.append_assoc] at h
      exact absurd (h.symm ▸ hmore) (not_closing_lines_append deed _)
  | deed :: deeds, other :: others =>
      rw [linesOf, linesOf, List.append_assoc, List.append_assoc] at h
      obtain ⟨rfl, htail⟩ := lines_append_inj h
      obtain ⟨rfl, hclosed⟩ := linesOf_append_inj hrest hmore htail
      exact ⟨rfl, hclosed⟩

end

theorem linesOf_injective : Function.Injective linesOf := by
  intro deeds others h
  have hclosing : Closing [] := trivial
  have happend : linesOf deeds ++ [] = linesOf others ++ [] := congrArg (· ++ []) h
  exact (linesOf_append_inj hclosing hclosing happend).1

end Deed

/-- What a line says about who is an observer. -/
def Line.notice? : Line → Option Notice
  | .called observer locale _ => some (.told observer locale)
  | .came observer => some (.came observer)
  | .gone observer => some (.gone observer)
  | .left _ => none
  | .asked _ _ => none
  | .answered _ _ => none

namespace Deed

/-- The observers after some deeds. -/
def replay (observers : List Observer) (deeds : List Deed) : List Observer :=
  Notice.replay observers ((linesOf deeds).filterMap Line.notice?)

theorem replay_append (observers : List Observer) (deeds more : List Deed) :
    replay observers (deeds ++ more) = replay (replay observers deeds) more := by
  rw [replay, linesOf_append, List.filterMap_append, Notice.replay_append, replay, replay]

theorem replay_call (observers : List Observer) (observer : Observer) (locale active : Locale)
    (inside : List Deed) :
    replay observers [.call observer locale active inside] = replay observers inside := by
  simp [replay, linesOf, lines, List.filterMap_cons, Line.notice?, Notice.replay]

theorem replay_switch (observers : List Observer) (code : String) (active : Locale)
    (outcome : Except SwitchError Locale) (inside : List Deed) :
    replay observers [.switch code active outcome inside] = replay observers inside := by
  simp [replay, linesOf, lines, List.filterMap_cons, Line.notice?, Notice.replay]

/-- A snapshot is installed during a deed: by a switch that succeeds and is not to the active
locale, or by such a switch inside a call. -/
inductive Installs : Deed → Prop where
  | switch {code : String} {active locale : Locale} {inside : List Deed}
      (hactive : code ≠ active.code) : Installs (.switch code active (.ok locale) inside)
  | call {observer : Observer} {locale active : Locale} {inside : List Deed} {deed : Deed}
      (hdeed : deed ∈ inside) (h : Installs deed) : Installs (.call observer locale active inside)

theorem installs_call_iff {observer : Observer} {locale active : Locale} {inside : List Deed} :
    (Deed.call observer locale active inside).Installs ↔ ∃ deed ∈ inside, deed.Installs := by
  constructor
  · rintro (_ | ⟨hdeed, h⟩)
    exact ⟨_, hdeed, h⟩
  · rintro ⟨deed, hdeed, h⟩
    exact .call hdeed h

theorem installs_singleton_iff {deed : Deed} :
    (∃ other ∈ [deed], other.Installs) ↔ deed.Installs := by
  simp only [List.mem_singleton, exists_eq_left]

/-- The observer that a deed calls. -/
def observer? : Deed → Option Observer
  | .call observer _ _ _ => some observer
  | _ => none

end Deed

/-! ### The discipline -/

/-- Calls that tell observers about a locale. -/
structure Delivery (observers : List Observer) (locale : Locale) (calls : List Deed) : Prop where
  /-- Nothing else happens, and the locale is active at the start of every call. -/
  told : ∀ call ∈ calls, ∃ observer inside, call = .call observer locale locale inside
  /-- The observers are called in their order, each registration once. -/
  inOrder : calls.filterMap Deed.observer? <+: observers
  /-- Nobody is left out, unless another snapshot is installed during the last call. -/
  whole : calls.filterMap Deed.observer? = observers ∨
    ∃ call, calls.getLast? = some call ∧ call.Installs
  /-- Nobody is called after that. -/
  quiet : ∀ call ∈ calls.dropLast, ¬ call.Installs

/-- The calls of a switch: if it fails or is to the active locale there are none, and otherwise they
tell the observers about its locale. -/
structure Disciplined (observers : List Observer) (code : String) (active : Locale)
    (outcome : Except SwitchError Locale) (calls : List Deed) : Prop where
  failed : ∀ error, outcome = .error error → calls = []
  idle : code = active.code → calls = []
  delivered : ∀ locale, outcome = .ok locale → code ≠ active.code →
    Delivery observers locale calls

/-- Deeds one after the other, beginning with some observers, in which every switch is disciplined,
at any depth. -/
inductive Orderly : List Observer → List Deed → Prop where
  | nil (observers : List Observer) : Orderly observers []
  | came {observers : List Observer} {observer : Observer} {rest : List Deed}
      (hrest : Orderly (observers ++ [observer]) rest) : Orderly observers (.came observer :: rest)
  | gone {observers : List Observer} {observer : Observer} {rest : List Deed}
      (hrest : Orderly (observers.erase observer) rest) :
      Orderly observers (.gone observer :: rest)
  | call {observers : List Observer} {observer : Observer} {locale active : Locale}
      {inside rest : List Deed} (hinside : Orderly observers inside)
      (hrest : Orderly (Deed.replay observers inside) rest) :
      Orderly observers (.call observer locale active inside :: rest)
  | switch {observers : List Observer} {code : String} {active : Locale}
      {outcome : Except SwitchError Locale} {inside rest : List Deed}
      (hswitch : Disciplined observers code active outcome inside)
      (hinside : Orderly observers inside)
      (hrest : Orderly (Deed.replay observers inside) rest) :
      Orderly observers (.switch code active outcome inside :: rest)

theorem Orderly.append {observers : List Observer} {deeds more : List Deed}
    (h : Orderly observers deeds) (hmore : Orderly (Deed.replay observers deeds) more) :
    Orderly observers (deeds ++ more) := by
  induction h with
  | nil => exact hmore
  | came _ ih => exact .came (ih hmore)
  | gone _ ih => exact .gone (ih hmore)
  | @call observers observer locale active inside rest hinside _ _ ih =>
      refine .call hinside (ih ?_)
      rwa [← List.singleton_append, Deed.replay_append, Deed.replay_call] at hmore
  | @switch observers code active outcome inside rest hswitch hinside _ _ ih =>
      refine .switch hswitch hinside (ih ?_)
      rwa [← List.singleton_append, Deed.replay_append, Deed.replay_switch] at hmore

theorem Delivery.nil (locale : Locale) : Delivery [] locale [] where
  told _ h := nomatch h
  inOrder := List.nil_prefix
  whole := Or.inl rfl
  quiet _ h := nomatch h

/-- An observer is called, nothing is installed, and the rest of the observers are called. -/
theorem Delivery.cons {observers : List Observer} {locale : Locale} {calls : List Deed}
    (h : Delivery observers locale calls) (observer : Observer) {inside : List Deed}
    (hquiet : ¬ (Deed.call observer locale locale inside).Installs) :
    Delivery (observer :: observers) locale (.call observer locale locale inside :: calls) where
  told call hcall := by
    rcases List.mem_cons.mp hcall with rfl | hcall
    · exact ⟨observer, inside, rfl⟩
    · exact h.told call hcall
  inOrder := List.cons_prefix_cons.mpr ⟨rfl, h.inOrder⟩
  whole := by
    rcases h.whole with hwhole | ⟨call, hlast, hinstalls⟩
    · exact Or.inl (congrArg (observer :: ·) hwhole)
    · exact Or.inr ⟨call, by rw [List.getLast?_cons, hlast, Option.getD_some], hinstalls⟩
  quiet call hcall := by
    cases calls with
    | nil => cases hcall
    | cons next rest =>
        rcases List.mem_cons.mp hcall with rfl | hcall
        · exact hquiet
        · exact h.quiet call hcall

/-- An observer is called, and another snapshot is installed meanwhile. -/
theorem Delivery.overtaken {observer : Observer} {locale : Locale} {inside : List Deed}
    (h : (Deed.call observer locale locale inside).Installs) (observers : List Observer) :
    Delivery (observer :: observers) locale [.call observer locale locale inside] where
  told _ hcall := ⟨observer, inside, List.mem_singleton.mp hcall⟩
  inOrder := List.cons_prefix_cons.mpr ⟨rfl, List.nil_prefix⟩
  whole := Or.inr ⟨_, rfl, h⟩
  quiet _ hcall := nomatch hcall

/-! ### Observers that keep a chronicle -/

/-- A look at nothing that writes down a line. -/
def Script.noting (line : Line) (next : Script (σ × List Line)) : Script (σ × List Line) :=
  .look (fun _ memory => (memory.1, memory.2 ++ [line])) fun _ _ => next

/-- A script of an observer that writes down what it does, and in the end that it is left. -/
def Script.chronicled (observer : Observer) : Script σ → Script (σ × List Line)
  | .done => .noting (.left observer) .done
  | .fail => .noting (.left observer) .fail
  | .look remember next =>
    .look (fun view memory => (remember view memory.1, memory.2)) fun view memory =>
      (next view memory.1).chronicled observer
  | .switch code next =>
    .look (fun view memory => (memory.1, memory.2 ++ [.asked code view.active])) fun _ _ =>
      .switch code fun outcome =>
        .noting (.answered code outcome) ((next outcome).chronicled observer)
  | .observe other next => .noting (.came other) (.observe other (next.chronicled observer))
  | .unobserve other next => .noting (.gone other) (.unobserve other (next.chronicled observer))

/-- Observers that write down what they are told before they do anything. -/
def Behaviour.chronicled (behaviour : Behaviour σ) : Behaviour (σ × List Line) :=
  fun observer locale =>
    .look (fun view memory => (memory.1, memory.2 ++ [.called observer locale view.active]))
      fun _ _ => (behaviour observer locale).chronicled observer

/-- A memory, and the same memory beside a chronicle. -/
def Chronicles (memory : σ) (chronicled : σ × List Line) : Prop := chronicled.1 = memory

theorem Script.chronicled_alike (observer : Observer) (script : Script σ) :
    Script.Alike Chronicles script (script.chronicled observer) := by
  induction script with
  | done => exact .note (fun _ _ _ h => h) fun _ _ => .stop true true
  | fail => exact .note (fun _ _ _ h => h) fun _ _ => .stop false false
  | look remember next ih =>
      refine .look (fun view memory chronicled h => ?_) fun view memory chronicled h => ?_
      · exact congrArg (remember view) h
      · cases h
        exact ih view chronicled.1
  | switch code next ih =>
      refine .note (fun _ _ _ h => h) fun _ _ => .switch fun outcome => ?_
      exact .note (fun _ _ _ h => h) fun _ _ => ih outcome
  | observe other next ih => exact .note (fun _ _ _ h => h) fun _ _ => .observe ih
  | unobserve other next ih => exact .note (fun _ _ _ h => h) fun _ _ => .unobserve ih

theorem Behaviour.chronicled_alike (behaviour : Behaviour σ) :
    Behaviour.Alike Chronicles behaviour behaviour.chronicled :=
  fun observer locale =>
    .note (fun _ _ _ h => h) fun _ _ => (behaviour observer locale).chronicled_alike observer

namespace Host

/-- A host whose observers have written down nothing yet. -/
def chronicling (host : Host σ) : Host (σ × List Line) where
  library := host.library
  snapshot := host.snapshot
  switching := host.switching
  observers := host.observers
  memory := (host.memory, [])

theorem chronicling_alike (host : Host σ) : Alike Chronicles host host.chronicling :=
  ⟨rfl, rfl, rfl, rfl, rfl, rfl⟩

/-- A host in which an observer has written down a line. -/
def note (host : Host (σ × List Line)) (line : Line) : Host (σ × List Line) :=
  { host with memory := (host.memory.1, host.memory.2 ++ [line]) }

theorem run_noting (switch : Switching (σ × List Line)) (line : Line)
    (next : Script (σ × List Line)) (host : Host (σ × List Line)) :
    run switch (.noting line next) host = run switch next (host.note line) :=
  rfl

/-! ### What has been written down -/

/-- Deeds have been written down from one host to another, and they are orderly. -/
structure Written (host : Host (σ × List Line)) (deeds : List Deed) (next : Host (σ × List Line)) :
    Prop where
  memory : next.memory.2 = host.memory.2 ++ Deed.linesOf deeds
  observers : next.observers = Deed.replay host.observers deeds
  orderly : Orderly host.observers deeds
  changes : Changes host next

/-- The deeds tell as well whether a snapshot has been installed. -/
structure Told (host : Host (σ × List Line)) (deeds : List Deed) (next : Host (σ × List Line)) :
    Prop extends Written host deeds next where
  installs : next.snapshot.serial ≠ host.snapshot.serial ↔ ∃ deed ∈ deeds, deed.Installs

theorem Told.still {host next : Host (σ × List Line)} (hmemory : next.memory.2 = host.memory.2)
    (hobservers : next.observers = host.observers) (hserial : next.snapshot = host.snapshot)
    (hchanges : Changes host next) : Told host [] next where
  memory := by rw [hmemory, Deed.linesOf, List.append_nil]
  observers := hobservers
  orderly := .nil _
  changes := hchanges
  installs := by simp [hserial]

theorem Told.came (host : Host (σ × List Line)) (observer : Observer) :
    Told host [.came observer] ((host.note (.came observer)).observe observer) where
  memory := rfl
  observers := rfl
  orderly := .came (.nil _)
  changes :=
    (Relation.ReflTransGen.single (Change.remember host _)).tail (Change.observe _ observer)
  installs := by
    rw [Deed.installs_singleton_iff]
    exact iff_of_false (fun h => h rfl) nofun

theorem Told.gone (host : Host (σ × List Line)) (observer : Observer) :
    Told host [.gone observer] ((host.note (.gone observer)).unobserve observer) where
  memory := rfl
  observers := rfl
  orderly := .gone (.nil _)
  changes := (Relation.ReflTransGen.single (Change.remember host _)).tail
    (Change.unobserve _ observer)
  installs := by
    rw [Deed.installs_singleton_iff]
    exact iff_of_false (fun h => h rfl) nofun

theorem Written.trans {host middle next : Host (σ × List Line)} {deeds more : List Deed}
    (hfirst : Written host deeds middle) (hsecond : Written middle more next) :
    Written host (deeds ++ more) next where
  memory := by rw [hsecond.memory, hfirst.memory, Deed.linesOf_append, List.append_assoc]
  observers := by rw [hsecond.observers, hfirst.observers, Deed.replay_append]
  orderly := hfirst.orderly.append (hfirst.observers ▸ hsecond.orderly)
  changes := hfirst.changes.trans hsecond.changes

theorem Told.trans {host middle next : Host (σ × List Line)} {deeds more : List Deed}
    (hfirst : Told host deeds middle) (hsecond : Told middle more next) :
    Told host (deeds ++ more) next where
  toWritten := hfirst.toWritten.trans hsecond.toWritten
  installs := by
    have hle := serial_of_changes hfirst.changes
    have hle' := serial_of_changes hsecond.changes
    simp only [List.mem_append, or_and_right, exists_or]
    rw [← hfirst.installs, ← hsecond.installs]
    omega

theorem Told.snapshot_eq {host next : Host (σ × List Line)} (h : Told host [] next) :
    next.snapshot = host.snapshot := by
  refine snapshot_of_changes h.changes (not_ne_iff.mp fun hserial => ?_)
  obtain ⟨_, hdeed, -⟩ := h.installs.mp hserial
  cases hdeed

/-- The calls of a switch have been written down. They are disciplined, and a snapshot has been
installed if the switch has succeeded and was not to the active locale. -/
structure Dispatched (host : Host (σ × List Line)) (code : String)
    (outcome : Except SwitchError Locale) (calls : List Deed) (next : Host (σ × List Line)) :
    Prop extends Written host calls next where
  disciplined : Disciplined host.observers code host.snapshot.locale outcome calls
  installs : next.snapshot.serial ≠ host.snapshot.serial ↔
    (Deed.switch code host.snapshot.locale outcome calls).Installs

/-- A switch that fails or is to the active locale calls nobody. -/
theorem Dispatched.none {host next : Host (σ × List Line)} {code : String}
    {outcome : Except SwitchError Locale} (htold : Told host [] next)
    (h : (∃ error, outcome = .error error) ∨ code = host.snapshot.locale.code) :
    Dispatched host code outcome [] next where
  toWritten := htold.toWritten
  disciplined := by
    refine ⟨fun _ _ => rfl, fun _ => rfl, fun locale hlocale hactive => ?_⟩
    obtain ⟨error, rfl⟩ := h.resolve_right hactive
    cases hlocale
  installs := by
    refine iff_of_false (fun hserial => hserial (congrArg _ htold.snapshot_eq)) ?_
    rintro (hactive | _)
    obtain ⟨error, herror⟩ := h.resolve_right hactive
    cases herror

/-- Before and after a switch nothing happens that it does not do itself. -/
theorem Dispatched.within {host middle last next : Host (σ × List Line)} {code : String}
    {outcome : Except SwitchError Locale} {calls : List Deed} (hbefore : Told host [] middle)
    (h : Dispatched middle code outcome calls last) (hafter : Told last [] next) :
    Dispatched host code outcome calls next where
  toWritten := by
    have hwritten := (hbefore.toWritten.trans h.toWritten).trans hafter.toWritten
    rwa [List.nil_append, List.append_nil] at hwritten
  disciplined := by
    have hobservers : middle.observers = host.observers := hbefore.observers
    rw [← hobservers, ← hbefore.snapshot_eq]
    exact h.disciplined
  installs := by
    rw [hafter.snapshot_eq, ← hbefore.snapshot_eq]
    exact h.installs

/-- A switch that an observer has asked for is one of its deeds. -/
theorem Dispatched.told {host middle : Host (σ × List Line)} {code : String}
    {outcome : Except SwitchError Locale} {calls : List Deed}
    (h : Dispatched (host.note (.asked code host.snapshot.locale)) code outcome calls middle) :
    Told host [.switch code host.snapshot.locale outcome calls]
      (middle.note (.answered code outcome)) where
  memory := by
    rw [note, h.memory, note, Deed.linesOf, Deed.linesOf, Deed.lines]
    simp only [List.append_assoc, List.append_nil, List.cons_append, List.nil_append]
  observers := by
    rw [Deed.replay_switch]
    exact h.observers
  orderly := .switch h.disciplined h.orderly (.nil _)
  changes := ((Relation.ReflTransGen.single (Change.remember host _)).trans h.changes).tail
    (Change.remember middle _)
  installs := by
    rw [Deed.installs_singleton_iff]
    exact h.installs

/-- What an observer does when it is called is inside the call. -/
theorem Told.call {host last : Host (σ × List Line)} {observer : Observer} {locale : Locale}
    {inside : List Deed}
    (h : Told (host.note (.called observer locale host.snapshot.locale)) inside last) :
    Told host [.call observer locale host.snapshot.locale inside]
      (last.note (.left observer)) where
  memory := by
    rw [note, h.memory, note, Deed.linesOf, Deed.linesOf, Deed.lines]
    simp only [List.append_assoc, List.append_nil, List.cons_append, List.nil_append]
  observers := by
    rw [Deed.replay_call]
    exact h.observers
  orderly := .call h.orderly (.nil _)
  changes := ((Relation.ReflTransGen.single (Change.remember host _)).trans h.changes).tail
    (Change.remember last _)
  installs := by
    rw [Deed.installs_singleton_iff, Deed.installs_call_iff]
    exact h.installs

/-- Every switch that comes to an end writes down orderly and disciplined calls. -/
def Dispatching (switch : Switching (σ × List Line)) : Prop :=
  ∀ ⦃code : String⦄ ⦃host next : Host (σ × List Line)⦄ ⦃outcome : Except SwitchError Locale⦄,
    switch code host = some (outcome, next) → ∃ calls, Dispatched host code outcome calls next

section Dispatching

variable {switch : Switching (σ × List Line)} (hdispatching : Dispatching switch)

include hdispatching

theorem run_told (observer : Observer) (script : Script σ) {host next : Host (σ × List Line)}
    {finished : Bool} (h : run switch (script.chronicled observer) host = some (finished, next)) :
    ∃ deeds last, Told host deeds last ∧ next = last.note (.left observer) := by
  induction script generalizing host with
  | done =>
      cases h
      exact ⟨[], host, .still rfl rfl rfl .refl, rfl⟩
  | fail =>
      cases h
      exact ⟨[], host, .still rfl rfl rfl .refl, rfl⟩
  | look remember script ih =>
      obtain ⟨deeds, last, htold, rfl⟩ := ih _ _ h
      have hlook : Told host []
          { host with memory := (remember host.view host.memory.1, host.memory.2) } :=
        .still rfl rfl rfl (.single (Change.remember host _))
      exact ⟨deeds, last, hlook.trans htold, rfl⟩
  | switch code script ih =>
      rw [Script.chronicled, run, run] at h
      split at h
      · rename_i outcome middle hmiddle
        rw [run_noting] at h
        have hnested : switch code (host.note (.asked code host.snapshot.locale)) =
          some (outcome, middle) := hmiddle
        obtain ⟨calls, hdispatched⟩ := hdispatching hnested
        obtain ⟨deeds, last, htold, rfl⟩ := ih outcome h
        exact ⟨_, last, hdispatched.told.trans htold, rfl⟩
      · cases h
  | observe other script ih =>
      obtain ⟨deeds, last, htold, rfl⟩ := ih h
      exact ⟨_, last, (Told.came host other).trans htold, rfl⟩
  | unobserve other script ih =>
      obtain ⟨deeds, last, htold, rfl⟩ := ih h
      exact ⟨_, last, (Told.gone host other).trans htold, rfl⟩

variable {behaviour : Behaviour σ}

theorem notify_told {installed : Snapshot} {observers : List Observer}
    {host next : Host (σ × List Line)} (hcurrent : host.snapshot = installed)
    (h : notify switch behaviour.chronicled installed observers host = some next) :
    ∃ calls, Told host calls next ∧ Delivery observers installed.locale calls := by
  induction observers generalizing host with
  | nil =>
      cases h
      exact ⟨[], .still rfl rfl rfl .refl, .nil _⟩
  | cons observer rest ih =>
      rw [notify_current (congrArg Snapshot.serial hcurrent)] at h
      obtain ⟨⟨finished, after⟩, hrun, hrest⟩ := Option.bind_eq_some_iff.mp h
      obtain ⟨inside, last, htold, rfl⟩ :=
        run_told hdispatching observer (behaviour observer installed.locale) hrun
      have hsettled : Told (last.note (.left observer)) []
          (settled observer finished (last.note (.left observer))) := by
        cases finished with
        | true => exact .still rfl rfl rfl .refl
        | false => exact .still rfl rfl rfl (changes_report _ _ _)
      have hcall := htold.call.trans hsettled
      have hlocale : host.snapshot.locale = installed.locale := by rw [hcurrent]
      rw [List.append_nil, hlocale] at hcall
      by_cases hsame : (settled observer finished (last.note (.left observer))).snapshot.serial =
          host.snapshot.serial
      · -- Nothing has been installed during the call, so the round goes on.
        have hsnapshot := snapshot_of_changes hcall.changes hsame
        obtain ⟨calls, hcalls, hdelivery⟩ := ih (hsnapshot.trans hcurrent) hrest
        refine ⟨_, hcall.trans hcalls, hdelivery.cons observer fun hinstalls => ?_⟩
        exact hcall.installs.mpr (Deed.installs_singleton_iff.mpr hinstalls) hsame
      · rw [notify_superseded fun h => hsame (h.trans (congrArg Snapshot.serial hcurrent.symm))]
          at hrest
        cases hrest
        have hbroken : Told (settled observer finished (last.note (.left observer))) []
            (brokenOff installed rest
              (settled observer finished (last.note (.left observer)))) := by
          cases rest with
          | nil => exact .still rfl rfl rfl .refl
          | cons => exact .still rfl rfl rfl (changes_report _ _ _)
        have hround := hcall.trans hbroken
        have hinstalls := Deed.installs_singleton_iff.mp (hcall.installs.mp hsame)
        exact ⟨_, hround, .overtaken hinstalls rest⟩

theorem install_dispatched {catalog : Catalog} {code : String} {host next : Host (σ × List Line)}
    (hcached : host.library.store.cached.get? code = some catalog)
    (hactive : code ≠ host.snapshot.locale.code)
    (h : install switch behaviour.chronicled host catalog = some next) :
    ∃ calls, Dispatched host code (.ok catalog.locale) calls next := by
  rw [install_eq] at h
  have hcurrent : (host.withCatalog catalog).snapshot = host.successor catalog := rfl
  obtain ⟨calls, htold, hdelivery⟩ := notify_told hdispatching hcurrent h
  have hinstalled : Changes host (host.withCatalog catalog) :=
    (Relation.ReflTransGen.single (Change.install host hcached)).trans (changes_report _ _ _)
  refine ⟨calls, ⟨htold.memory, htold.observers, htold.orderly, hinstalled.trans htold.changes⟩,
    ⟨?_, fun hcode => absurd hcode hactive, ?_⟩, iff_of_true ?_ (.switch hactive)⟩
  · intro error herror
    cases herror
  · intro locale hlocale _
    cases hlocale
    exact hdelivery
  · have hserial : (host.withCatalog catalog).snapshot.serial = host.snapshot.serial + 1 := rfl
    have hle := serial_of_changes htold.changes
    omega

theorem switchTo_dispatched {target : Locale} {host next : Host (σ × List Line)}
    {outcome : Except SwitchError Locale}
    (h : switchTo switch behaviour.chronicled target host = some (outcome, next)) :
    ∃ calls, Dispatched host target.code outcome calls next := by
  cases hsame : host.snapshot.locale.same target with
  | true =>
      rw [switchTo_of_same hsame] at h
      cases h
      have hcode : target.code = host.snapshot.locale.code := (eq_of_beq hsame).symm
      exact ⟨[], .none (.still rfl rfl rfl (changes_report _ _ _)) (Or.inr hcode)⟩
  | false =>
      have hactive : target.code ≠ host.snapshot.locale.code :=
        fun hcode => absurd (beq_of_eq hcode.symm) (ne_true_of_eq_false hsame)
      have hchange := Change.load host target.code
      rcases hload : host.library.load target.code with ⟨loaded, library⟩
      rw [hload] at hchange
      have hlibrary : Told host [] { host with library } := .still rfl rfl rfl (.single hchange)
      match loaded with
      | .error (.version fault) =>
          rw [switchTo_of_version hsame hload] at h
          cases h
          exact ⟨[], .none hlibrary (Or.inl ⟨_, rfl⟩)⟩
      | .error (.catalog cause) =>
          rw [switchTo_of_invalid hsame hload] at h
          cases h
          have hreported : Told host [] ({ host with library }.report .warning
              s!"Switch to {target.code} failed: {cause.message}") :=
            .still rfl rfl rfl (hlibrary.changes.trans (changes_report _ _ _))
          exact ⟨[], .none hreported (Or.inl ⟨_, rfl⟩)⟩
      | .ok catalog =>
          rw [switchTo_of_loaded hsame hload] at h
          obtain ⟨last, hlast, heq⟩ := Option.map_eq_some_iff.mp h
          cases heq
          have hcached : library.store.cached.get? target.code = some catalog := by
            have hget := @Library.get?_load host.library target.code catalog (by rw [hload])
            rwa [hload] at hget
          rw [← hlibrary.snapshot_eq] at hactive
          obtain ⟨calls, hdispatched⟩ := install_dispatched hdispatching hcached hactive hlast
          exact ⟨calls, .within hlibrary hdispatched (.still rfl rfl rfl .refl)⟩

end Dispatching

theorem dispatching_switch (behaviour : Behaviour σ) (depth : Nat) :
    Dispatching (switch behaviour.chronicled depth) := by
  -- The switches that observers ask for have one level less.
  induction depth with
  | zero =>
      intro code host next outcome h
      cases h
  | succ depth ih =>
      intro code host next outcome h
      cases htarget : host.registry.locale? code with
      | none =>
          rw [switch_of_unknown htarget] at h
          cases h
          exact ⟨[], .none (.still rfl rfl rfl (changes_report _ _ _)) (Or.inl ⟨_, rfl⟩)⟩
      | some target =>
          have hcode := Registry.code_of_locale? htarget
          rw [switch_of_registered htarget] at h
          obtain ⟨⟨result, last⟩, hlast, heq⟩ := Option.map_eq_some_iff.mp h
          cases heq
          obtain ⟨calls, hdispatched⟩ := switchTo_dispatched ih hlast
          have hbegun : Told host [] { host with switching := true } :=
            .still rfl rfl rfl (.single (Change.mark host true))
          have hended : Told last [] { last with switching := false } :=
            .still rfl rfl rfl (.single (Change.mark last false))
          exact ⟨calls, hcode ▸ .within hbegun hdispatched hended⟩

/-- Every switch keeps to the discipline of delivery, and so does every switch that is asked for
meanwhile. Keeping a chronicle changes nothing about the switch, and there is one way to read it. -/
theorem orderly_of_switch {behaviour : Behaviour σ} {depth : Nat} {code : String}
    {host next : Host σ} {outcome : Except SwitchError Locale}
    (h : switch behaviour depth code host = some (outcome, next)) :
    ∃ last, switch behaviour.chronicled depth code host.chronicling = some (outcome, last) ∧
      Alike Chronicles next last ∧
      ∃ calls, (∀ deeds, last.memory.2 = Deed.linesOf deeds ↔ deeds = calls) ∧
        Orderly host.observers [.switch code host.snapshot.locale outcome calls] := by
  obtain ⟨last, hlast, halike⟩ :=
    switch_alike behaviour.chronicled_alike depth host.chronicling_alike h
  obtain ⟨calls, hdispatched⟩ := dispatching_switch behaviour depth hlast
  have hmemory : last.memory.2 = Deed.linesOf calls := hdispatched.memory
  refine ⟨last, hlast, halike, calls, fun deeds => ?_,
    .switch hdispatched.disciplined hdispatched.orderly (.nil _)⟩
  rw [hmemory, eq_comm]
  exact Deed.linesOf_injective.eq_iff

/-- On the way to Russian the first observer takes back one of its registrations, lets another
observer come, and goes back to English. -/
def recanting : Behaviour Unit := fun observer locale =>
  if observer = restless ∧ locale = russian then
    .unobserve restless (.observe listener (.switch "en_US" fun _ => .done))
  else .fail

def recantingCalls : List Deed :=
  [.call listener russian russian [],
    .call restless russian russian
      [.gone restless, .came listener,
        .switch "en_US" russian (.ok english)
          [.call listener english english [], .call restless english english [],
            .call listener english english []]]]

theorem orderly_of_switch_recanting : ∃ outcome next,
    switch recanting 2 "ru_RU" { attendedHost with observers := [listener, restless, restless] } =
        some (outcome, next) ∧
      Orderly [listener, restless, restless]
        [.switch "ru_RU" english outcome recantingCalls] := by
  have hlines : (switch recanting.chronicled 2 "ru_RU"
      (chronicling { attendedHost with observers := [listener, restless, restless] })).map
        (·.2.memory.2) = some (Deed.linesOf recantingCalls) := by
    decide +kernel
  have hsome : (switch recanting 2 "ru_RU"
      { attendedHost with observers := [listener, restless, restless] }).isSome = true := by
    decide +kernel
  obtain ⟨⟨outcome, next⟩, h⟩ := Option.isSome_iff_exists.mp hsome
  obtain ⟨last, hlast, -, calls, hread, horderly⟩ := orderly_of_switch h
  rw [hlast, Option.map_some, Option.some.injEq, hread] at hlines
  rw [← hlines] at horderly
  exact ⟨outcome, next, h, horderly⟩

end Host
end Polyglot
