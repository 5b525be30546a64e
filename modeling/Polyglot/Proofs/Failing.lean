import Polyglot.Proofs.Delivery

/-!
Observers that fail. A failure is reported and has no other effect: any of the observers may fail at
the end of what they do, and a session still goes the same way, with the same calls and the same
outcomes, also of the switches that observers ask for.
-/

namespace Polyglot

variable {σ : Type}

/-- A script that does the same and then fails. -/
def Script.failing : Script σ → Script σ
  | .done => .fail
  | .fail => .fail
  | .look remember next => .look remember fun view memory => (next view memory).failing
  | .switch code next => .switch code fun outcome => (next outcome).failing
  | .observe observer next => .observe observer next.failing
  | .unobserve observer next => .unobserve observer next.failing

/-- Some observers fail at the end of what they do. -/
def Behaviour.failing (chosen : Observer → Bool) (behaviour : Behaviour σ) : Behaviour σ :=
  fun observer locale =>
    if chosen observer then (behaviour observer locale).failing else behaviour observer locale

theorem Script.alike_refl (script : Script σ) : Script.Alike Eq script script := by
  induction script with
  | done => exact .stop true true
  | fail => exact .stop false false
  | look remember next ih =>
      refine .look (fun view _ _ h => congrArg (remember view) h) fun view memory _ h => ?_
      exact h ▸ ih view memory
  | switch code next ih => exact .switch ih
  | observe observer next ih => exact .observe ih
  | unobserve observer next ih => exact .unobserve ih

theorem Script.failing_alike (script : Script σ) :
    Script.Alike Eq script script.failing ∧ Script.Alike Eq script.failing script := by
  induction script with
  | done => exact ⟨.stop true false, .stop false true⟩
  | fail => exact ⟨.stop false false, .stop false false⟩
  | look remember next ih =>
      have hremember (view : View) (memory memory' : σ) (h : memory = memory') :
          remember view memory = remember view memory' := congrArg (remember view) h
      refine ⟨.look hremember ?_, .look hremember ?_⟩
      · rintro view memory _ rfl
        exact (ih view memory).1
      · rintro view memory _ rfl
        exact (ih view memory).2
  | switch code next ih =>
      exact ⟨.switch fun outcome => (ih outcome).1, .switch fun outcome => (ih outcome).2⟩
  | observe observer next ih => exact ⟨.observe ih.1, .observe ih.2⟩
  | unobserve observer next ih => exact ⟨.unobserve ih.1, .unobserve ih.2⟩

theorem Behaviour.failing_alike (chosen : Observer → Bool) (behaviour : Behaviour σ) :
    Behaviour.Alike Eq behaviour (behaviour.failing chosen) ∧
      Behaviour.Alike Eq (behaviour.failing chosen) behaviour := by
  refine ⟨fun observer locale => ?_, fun observer locale => ?_⟩
  all_goals
    rw [failing]
    split
  · exact (behaviour observer locale).failing_alike.1
  · exact (behaviour observer locale).alike_refl
  · exact (behaviour observer locale).failing_alike.2
  · exact (behaviour observer locale).alike_refl

/-- Whether an observer fails in the end does not show in the chronicle. -/
theorem Script.chronicled_failing (observer : Observer) (script : Script σ) :
    script.failing.chronicled observer = (script.chronicled observer).failing := by
  induction script with
  | done => rfl
  | fail => rfl
  | look remember next ih =>
      simp only [failing, chronicled, ih]
  | switch code next ih => simp only [failing, chronicled, noting, ih]
  | observe other next ih => simp only [failing, chronicled, noting, ih]
  | unobserve other next ih => simp only [failing, chronicled, noting, ih]

theorem Behaviour.chronicled_failing (chosen : Observer → Bool) (behaviour : Behaviour σ) :
    (behaviour.failing chosen).chronicled = behaviour.chronicled.failing chosen := by
  funext observer locale
  simp only [chronicled, failing]
  split
  · simp only [Script.failing, Script.chronicled_failing]
  · rfl

namespace Host

/-! ### Sessions -/

/-- The outcome of an operation, if it is a switch. -/
def outcome? (switch : Switching σ) (host : Host σ) :
    Operation σ → Option (Except SwitchError Locale)
  | .switch code => (switch code host).map (·.1)
  | .startup preferred system => (host.startup switch preferred system).map (·.1)
  | _ => none

/-- What an operation leaves behind. -/
structure Stage (σ : Type) where
  outcome? : Option (Except SwitchError Locale)
  host : Host σ

/-- The stages of a session, in which one operation follows another. Each has a depth to which
switches may nest. -/
def session (behaviour : Behaviour σ) : List (Nat × Operation σ) → Host σ → Option (List (Stage σ))
  | [], _ => some []
  | (depth, operation) :: rest, host =>
    (host.perform (switch behaviour depth) operation).bind fun next =>
      (session behaviour rest next).map
        (⟨host.outcome? (switch behaviour depth) operation, next⟩ :: ·)

/-- A host without its journal. -/
def unlogged (host : Host σ) : Host σ :=
  { host with library := ⟨host.library.store, host.library.disk, []⟩ }

def Stage.unlogged (stage : Stage σ) : Stage σ := ⟨stage.outcome?, stage.host.unlogged⟩

theorem Alike.unlogged_eq {host other : Host σ} (h : Alike Eq host other) :
    other.unlogged = host.unlogged := by
  rw [unlogged, unlogged, h.store, h.disk, h.snapshot, h.switching, h.observers, ← h.memory]

section Alike

variable {behaviour other : Behaviour σ} (hbehaviour : Behaviour.Alike Eq behaviour other)

include hbehaviour

theorem perform_alike {depth : Nat} {operation : Operation σ} {host host' next : Host σ}
    (hhost : Alike Eq host host')
    (h : host.perform (switch behaviour depth) operation = some next) :
    ∃ next', host'.perform (switch other depth) operation = some next' ∧ Alike Eq next next' ∧
      host'.outcome? (switch other depth) operation =
        host.outcome? (switch behaviour depth) operation := by
  have hswitch := switch_alike hbehaviour depth
  cases operation with
  | switch code =>
      obtain ⟨⟨outcome, next⟩, hnext, rfl⟩ := Option.map_eq_some_iff.mp h
      obtain ⟨next', hnext', halike⟩ := hswitch hhost hnext
      refine ⟨next', ?_, halike, ?_⟩
      · rw [perform, hnext', Option.map_some]
      · rw [outcome?, outcome?, hnext', hnext, Option.map_some, Option.map_some]
  | startup preferred system =>
      obtain ⟨⟨outcome, next⟩, hnext, rfl⟩ := Option.map_eq_some_iff.mp h
      obtain ⟨next', hnext', halike⟩ := startup_alike hswitch hhost hnext
      refine ⟨next', ?_, halike, ?_⟩
      · rw [perform, hnext', Option.map_some]
      · rw [outcome?, outcome?, hnext', hnext, Option.map_some, Option.map_some]
  | library operation =>
      cases h
      exact ⟨_, rfl, hhost.library operation, rfl⟩
  | observe observer =>
      cases h
      exact ⟨_, rfl, hhost.observe observer, rfl⟩
  | unobserve observer =>
      cases h
      exact ⟨_, rfl, hhost.unobserve observer, rfl⟩
  | resolve context key arguments =>
      cases h
      exact ⟨_, rfl, hhost.write _ _, rfl⟩
  | remember memory =>
      cases h
      exact ⟨_, rfl, hhost.remember rfl, rfl⟩

theorem session_alike {steps : List (Nat × Operation σ)} {host host' : Host σ}
    {stages : List (Stage σ)} (hhost : Alike Eq host host')
    (h : session behaviour steps host = some stages) :
    ∃ stages', session other steps host' = some stages' ∧
      stages'.map Stage.unlogged = stages.map Stage.unlogged := by
  induction steps generalizing host host' stages with
  | nil =>
      cases h
      exact ⟨[], rfl, rfl⟩
  | cons step rest ih =>
      obtain ⟨depth, operation⟩ := step
      obtain ⟨next, hnext, hlater⟩ := Option.bind_eq_some_iff.mp h
      obtain ⟨later, hrest, rfl⟩ := Option.map_eq_some_iff.mp hlater
      obtain ⟨next', hnext', halike, houtcome⟩ := perform_alike hbehaviour hhost hnext
      obtain ⟨later', hrest', hsame⟩ := ih halike hrest
      refine ⟨⟨host'.outcome? (switch other depth) operation, next'⟩ :: later', ?_, ?_⟩
      · rw [session, hnext', Option.bind_some, hrest', Option.map_some]
      · rw [List.map_cons, List.map_cons, hsame, Stage.unlogged, Stage.unlogged, houtcome,
          halike.unlogged_eq]

end Alike

/-- A session without the journals does not depend on whether some observers fail. -/
theorem unlogged_session_failing (behaviour : Behaviour σ) (chosen : Observer → Bool)
    (steps : List (Nat × Operation σ)) (host : Host σ) :
    (session (behaviour.failing chosen) steps host).map (List.map Stage.unlogged) =
      (session behaviour steps host).map (List.map Stage.unlogged) := by
  obtain ⟨hfailing, hreturning⟩ := behaviour.failing_alike chosen
  have hrefl : Alike Eq host host := ⟨rfl, rfl, rfl, rfl, rfl, rfl⟩
  cases hsession : session behaviour steps host with
  | some stages =>
      obtain ⟨stages', hsession', hsame⟩ := session_alike hfailing hrefl hsession
      rw [hsession', Option.map_some, Option.map_some, hsame]
  | none =>
      cases hsession' : session (behaviour.failing chosen) steps host with
      | none => rfl
      | some stages' =>
          obtain ⟨stages, hstages, -⟩ := session_alike hreturning hrefl hsession'
          cases hsession.symm.trans hstages

/-- Nobody notices that some observers fail: the outcomes, the snapshots, the caches and the
observers are the same at every stage of a session, and so are the calls and the outcomes that the
observers write down. -/
theorem session_failing (behaviour : Behaviour σ) (chosen : Observer → Bool) :
    (∀ (steps : List (Nat × Operation σ)) (host : Host σ),
      (session (behaviour.failing chosen) steps host).map (List.map Stage.unlogged) =
        (session behaviour steps host).map (List.map Stage.unlogged)) ∧
    ∀ (steps : List (Nat × Operation (σ × List Line))) (host : Host (σ × List Line)),
      (session (behaviour.failing chosen).chronicled steps host).map (List.map Stage.unlogged) =
        (session behaviour.chronicled steps host).map (List.map Stage.unlogged) := by
  refine ⟨unlogged_session_failing behaviour chosen, ?_⟩
  rw [behaviour.chronicled_failing chosen]
  exact unlogged_session_failing behaviour.chronicled chosen

end Host
end Polyglot
