import Mathlib.Data.List.Infix
import Polyglot.Proofs.Host

/-!
What happens to observers during a switch, as a list of notices: who is told about which locale, who
comes and who goes. The notices are written by the observers themselves into a memory beside their
own, so that a recorded switch is a switch like any other.
-/

namespace Polyglot

variable {σ : Type}

/-- Something that happens to an observer. -/
inductive Notice where
  | told (observer : Observer) (locale : Locale)
  | came (observer : Observer)
  | gone (observer : Observer)
  deriving DecidableEq, Repr

namespace Notice

/-- The locales that an observer is told about, in order. -/
def heard (observer : Observer) (notices : List Notice) : List Locale :=
  notices.filterMap fun
    | .told other locale => if other = observer then some locale else none
    | _ => none

/-- The observers after some of them have come and gone. -/
def replay (observers : List Observer) (notices : List Notice) : List Observer :=
  notices.foldl
    (fun observers notice =>
      match notice with
      | .told _ _ => observers
      | .came observer => observers ++ [observer]
      | .gone observer => observers.erase observer)
    observers

/-- An observer is there from the beginning to the end. -/
def Throughout (observer : Observer) (observers : List Observer) (notices : List Notice) : Prop :=
  ∀ before, before <+: notices → observer ∈ replay observers before

instance (observer : Observer) (observers : List Observer) (notices : List Notice) :
    Decidable (Throughout observer observers notices) :=
  decidable_of_iff (∀ before ∈ notices.inits, observer ∈ replay observers before)
    (by simp only [List.mem_inits, Throughout])

theorem heard_append (observer : Observer) (notices more : List Notice) :
    heard observer (notices ++ more) = heard observer notices ++ heard observer more :=
  List.filterMap_append

theorem replay_append (observers : List Observer) (notices more : List Notice) :
    replay observers (notices ++ more) = replay (replay observers notices) more :=
  List.foldl_append

theorem Throughout.mem {observer : Observer} {observers : List Observer} {notices : List Notice}
    (h : Throughout observer observers notices) : observer ∈ observers :=
  h [] List.nil_prefix

/-- Who is there throughout is there throughout the end. -/
theorem Throughout.right {observer : Observer} {observers : List Observer}
    {notices more : List Notice} (h : Throughout observer observers (notices ++ more)) :
    Throughout observer (replay observers notices) more := by
  intro before hbefore
  rw [← replay_append]
  exact h _ (List.prefix_append_right_inj notices |>.mpr hbefore)

theorem Throughout.left {observer : Observer} {observers : List Observer}
    {notices more : List Notice} (h : Throughout observer observers (notices ++ more)) :
    Throughout observer observers notices :=
  fun before hbefore => h before (hbefore.trans (List.prefix_append notices more))

theorem Throughout.of_told {observer other : Observer} {locale : Locale}
    {observers : List Observer} {more : List Notice}
    (h : Throughout observer observers (.told other locale :: more)) :
    Throughout observer observers more :=
  @Throughout.right observer observers [.told other locale] more h

theorem heard_told (observer other : Observer) (locale : Locale) (rest : List Notice) :
    heard observer (.told other locale :: rest) =
      (if other = observer then [locale] else []) ++ heard observer rest := by
  by_cases h : other = observer
  · simp [heard, h]
  · simp [heard, h]

end Notice

/-! ### Recorded observers -/

/-- A look at nothing that writes down a notice. -/
def Script.note (notice : Notice) (next : Script (σ × List Notice)) : Script (σ × List Notice) :=
  .look (fun _ memory => (memory.1, memory.2 ++ [notice])) fun _ _ => next

/-- A script that writes down who comes and goes. -/
def Script.recorded : Script σ → Script (σ × List Notice)
  | .done => .done
  | .fail => .fail
  | .look remember next =>
    .look (fun view memory => (remember view memory.1, memory.2)) fun view memory =>
      (next view memory.1).recorded
  | .switch code next => .switch code fun outcome => (next outcome).recorded
  | .observe observer next => .note (.came observer) (.observe observer next.recorded)
  | .unobserve observer next => .note (.gone observer) (.unobserve observer next.recorded)

/-- Observers that write down what they are told before they do anything. -/
def Behaviour.recorded (behaviour : Behaviour σ) : Behaviour (σ × List Notice) :=
  fun observer locale => .note (.told observer locale) (behaviour observer locale).recorded

namespace Host

/-- A host with a list of notices beside the memory of its observers. -/
def recording (host : Host σ) (notices : List Notice) : Host (σ × List Notice) where
  library := host.library
  snapshot := host.snapshot
  switching := host.switching
  observers := host.observers
  memory := (host.memory, notices)

/-- A stretch of a switch as its notices tell it. Snapshots only ever follow one another; as long as
none has been installed nobody is told anything, and as soon as one has, whoever was there
throughout has last been told the active locale. -/
structure Stretch (host : Host σ) (notices : List Notice) (next : Host σ) : Prop where
  observers : next.observers = Notice.replay host.observers notices
  serial : host.snapshot.serial ≤ next.snapshot.serial
  unchanged : next.snapshot.serial = host.snapshot.serial →
    next.snapshot = host.snapshot ∧ ∀ observer, Notice.heard observer notices = []
  changed : host.snapshot.serial < next.snapshot.serial → ∀ observer,
    Notice.Throughout observer host.observers notices →
      (Notice.heard observer notices).getLast? = some next.snapshot.locale

/-- Observers may come and go without a new snapshot. -/
theorem Stretch.still {host next : Host σ} {notices : List Notice}
    (hobservers : next.observers = Notice.replay host.observers notices)
    (hsnapshot : next.snapshot = host.snapshot)
    (hquiet : ∀ observer, Notice.heard observer notices = []) : Stretch host notices next where
  observers := hobservers
  serial := Nat.le_of_eq (congrArg Snapshot.serial hsnapshot.symm)
  unchanged _ := ⟨hsnapshot, hquiet⟩
  changed h := by
    rw [hsnapshot] at h
    exact absurd h (Nat.lt_irrefl _)

theorem Stretch.trans {host middle next : Host σ} {notices more : List Notice}
    (hfirst : Stretch host notices middle) (hsecond : Stretch middle more next) :
    Stretch host (notices ++ more) next where
  observers := by rw [Notice.replay_append, ← hfirst.observers, hsecond.observers]
  serial := Nat.le_trans hfirst.serial hsecond.serial
  unchanged h := by
    have hle := hfirst.serial
    have hle' := hsecond.serial
    obtain ⟨hmiddle, hquiet⟩ := hfirst.unchanged (by omega)
    obtain ⟨hnext, hquiet'⟩ := hsecond.unchanged (by omega)
    refine ⟨hnext.trans hmiddle, fun observer => ?_⟩
    rw [Notice.heard_append, hquiet, hquiet', List.append_nil]
  changed h observer hthroughout := by
    have hright := hthroughout.right
    rw [← hfirst.observers] at hright
    rw [Notice.heard_append]
    rcases Nat.eq_or_lt_of_le hsecond.serial with heq | hlt
    · -- Nothing is installed after the middle, so the first part has the last word.
      obtain ⟨hnext, hquiet⟩ := hsecond.unchanged heq.symm
      rw [hquiet, List.append_nil, hnext]
      exact hfirst.changed (by omega) observer hthroughout.left
    · rw [List.getLast?_append, hsecond.changed hlt observer hright, Option.some_or]

/-! ### Recorded runs -/

/-- A recorded switch goes as the switch does, and its notices tell the stretch that it takes. -/
def Mirrors (recorded : Switching (σ × List Notice)) (switch : Switching σ) : Prop :=
  ∀ code host outcome next, switch code host = some (outcome, next) →
    ∃ notices, (∀ before, recorded code (host.recording before) =
      some (outcome, next.recording (before ++ notices))) ∧ Stretch host notices next

theorem run_note (switch : Switching (σ × List Notice)) (notice : Notice)
    (next : Script (σ × List Notice)) (host : Host σ) (before : List Notice) :
    run switch (.note notice next) (host.recording before) =
      run switch next (host.recording (before ++ [notice])) :=
  rfl

section Mirroring

variable {switch : Switching σ} {recorded : Switching (σ × List Notice)}
  (hmirrors : Mirrors recorded switch)

include hmirrors

theorem run_recorded {script : Script σ} {host next : Host σ} {finished : Bool}
    (h : run switch script host = some (finished, next)) :
    ∃ notices, (∀ before, run recorded script.recorded (host.recording before) =
      some (finished, next.recording (before ++ notices))) ∧ Stretch host notices next := by
  induction script generalizing host with
  | done =>
      cases h
      exact ⟨[], fun before => by rw [List.append_nil]; rfl, .still rfl rfl fun _ => rfl⟩
  | fail =>
      cases h
      exact ⟨[], fun before => by rw [List.append_nil]; rfl, .still rfl rfl fun _ => rfl⟩
  | look remember script ih =>
      obtain ⟨notices, hrun, hstretch⟩ := ih _ _ h
      have hlook : Stretch host []
          { host with memory := remember host.view host.memory } := .still rfl rfl fun _ => rfl
      exact ⟨notices, fun before => hrun before, hlook.trans hstretch⟩
  | switch code script ih =>
      rw [run] at h
      split at h
      · rename_i outcome middle hmiddle
        obtain ⟨notices, hswitch, hfirst⟩ := hmirrors _ _ _ _ hmiddle
        obtain ⟨more, hrun, hsecond⟩ := ih outcome h
        refine ⟨notices ++ more, fun before => ?_, hfirst.trans hsecond⟩
        rw [Script.recorded, run, hswitch]
        dsimp only
        rw [hrun, List.append_assoc]
      · cases h
  | observe observer script ih =>
      obtain ⟨notices, hrun, hstretch⟩ := ih h
      have hcame : Stretch host [.came observer] (host.observe observer) :=
        .still rfl rfl fun _ => rfl
      refine ⟨[.came observer] ++ notices, fun before => ?_, hcame.trans hstretch⟩
      rw [Script.recorded, run_note, ← List.append_assoc]
      exact hrun _
  | unobserve observer script ih =>
      obtain ⟨notices, hrun, hstretch⟩ := ih h
      have hgone : Stretch host [.gone observer] (host.unobserve observer) :=
        .still rfl rfl fun _ => rfl
      refine ⟨[.gone observer] ++ notices, fun before => ?_, hgone.trans hstretch⟩
      rw [Script.recorded, run_note, ← List.append_assoc]
      exact hrun _

end Mirroring

end Host
end Polyglot
