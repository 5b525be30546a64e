import Polyglot.Proofs.Recording

/-!
What observers hear of a switch. A round of notification is broken off as soon as a switch inside it
installs another snapshot, and that switch tells everyone; so whoever is there throughout hears of
the active locale last, however switches nest and whichever observers fail.
-/

namespace Polyglot.Host

variable {σ : Type}

/-! ### Rounds -/

/-- The host after an observer has been told and has returned or failed. -/
def settled (observer : Observer) (finished : Bool) (host : Host σ) : Host σ :=
  if finished then host
  else host.report .error s!"Locale change observer {observer.label} failed"

/-- The host after a round that has been overtaken before it got to the given observers. -/
def brokenOff (installed : Snapshot) : List Observer → Host σ → Host σ
  | [], host => host
  | _ :: _, host =>
    host.report .debug s!"Locale {installed.locale.code} superseded during notification"

theorem notify_current {switch : Switching σ} {behaviour : Behaviour σ} {installed : Snapshot}
    {host : Host σ} (h : host.snapshot.serial = installed.serial) (observer : Observer)
    (rest : List Observer) :
    notify switch behaviour installed (observer :: rest) host =
      (run switch (behaviour observer installed.locale) host).bind fun result =>
        notify switch behaviour installed rest (settled observer result.1 result.2) := by
  rw [notify, if_neg fun hne => hne h]
  cases run switch (behaviour observer installed.locale) host with
  | none => rfl
  | some result =>
      obtain ⟨finished, middle⟩ := result
      cases finished <;> rfl

theorem notify_superseded {switch : Switching σ} {behaviour : Behaviour σ} {installed : Snapshot}
    {host : Host σ} (h : host.snapshot.serial ≠ installed.serial) (observers : List Observer) :
    notify switch behaviour installed observers host =
      some (brokenOff installed observers host) := by
  cases observers with
  | nil => rfl
  | cons observer rest => rw [notify, if_pos h, brokenOff]

theorem settled_recording (observer : Observer) (finished : Bool) (host : Host σ)
    (notices : List Notice) : settled observer finished (host.recording notices) =
      (settled observer finished host).recording notices := by
  cases finished <;> rfl

theorem brokenOff_recording (installed : Snapshot) (observers : List Observer) (host : Host σ)
    (notices : List Notice) : brokenOff installed observers (host.recording notices) =
      (brokenOff installed observers host).recording notices := by
  cases observers <;> rfl

theorem brokenOff_snapshot (installed : Snapshot) (observers : List Observer) (host : Host σ) :
    (brokenOff installed observers host).snapshot = host.snapshot := by
  cases observers <;> rfl

theorem Stretch.settled (observer : Observer) (finished : Bool) (host : Host σ) :
    Stretch host [] (settled observer finished host) := by
  cases finished <;> exact .still rfl rfl fun _ => rfl

theorem Stretch.brokenOff (installed : Snapshot) (observers : List Observer) (host : Host σ) :
    Stretch host [] (brokenOff installed observers host) := by
  cases observers <;> exact .still rfl rfl fun _ => rfl

/-- A round of notification as its notices tell it. If it is not overtaken, everyone in the queue
hears of the installed locale, and nobody hears of another. -/
structure Round (installed : Snapshot) (queue : List Observer) (host : Host σ)
    (notices : List Notice) (next : Host σ) : Prop where
  observers : next.observers = Notice.replay host.observers notices
  serial : host.snapshot.serial ≤ next.snapshot.serial
  unchanged : next.snapshot.serial = host.snapshot.serial → next.snapshot = host.snapshot ∧
    (∀ observer ∈ queue, Notice.heard observer notices ≠ []) ∧
    ∀ observer, ∀ locale ∈ Notice.heard observer notices, locale = installed.locale
  changed : host.snapshot.serial < next.snapshot.serial → ∀ observer,
    Notice.Throughout observer host.observers notices →
      (Notice.heard observer notices).getLast? = some next.snapshot.locale

theorem Round.nil (installed : Snapshot) (host : Host σ) : Round installed [] host [] host where
  observers := rfl
  serial := Nat.le_refl _
  unchanged _ := by
    refine ⟨rfl, fun observer hobserver => ?_, fun observer locale hlocale => ?_⟩
    · cases hobserver
    · cases hlocale
  changed h := absurd h (Nat.lt_irrefl _)

/-- An observer is told, and what it does installs nothing: the round goes on. -/
theorem Round.cons {installed : Snapshot} {observer : Observer} {rest : List Observer}
    {host middle next : Host σ} {notices more : List Notice} (hfirst : Stretch host notices middle)
    (hsame : middle.snapshot.serial = host.snapshot.serial)
    (hrest : Round installed rest middle more next) :
    Round installed (observer :: rest) host
      (.told observer installed.locale :: (notices ++ more)) next where
  observers := by
    rw [hrest.observers, hfirst.observers, ← Notice.replay_append]
    rfl
  serial := Nat.le_trans hfirst.serial hrest.serial
  unchanged h := by
    obtain ⟨hmiddle, hquiet⟩ := hfirst.unchanged hsame
    obtain ⟨hnext, htold, honly⟩ := hrest.unchanged (h.trans hsame.symm)
    refine ⟨hnext.trans hmiddle, fun other hother => ?_, fun other locale hlocale => ?_⟩
    · rw [Notice.heard_told, Notice.heard_append, hquiet, List.nil_append]
      rcases List.mem_cons.mp hother with rfl | hother
      · simp
      · exact List.append_ne_nil_of_right_ne_nil _ (htold other hother)
    · rw [Notice.heard_told, Notice.heard_append, hquiet, List.nil_append] at hlocale
      rcases List.mem_append.mp hlocale with hhead | htail
      · split at hhead
        · exact List.mem_singleton.mp hhead
        · cases hhead
      · exact honly other locale htail
  changed h other hthroughout := by
    have hright : Notice.Throughout other middle.observers more := by
      rw [hfirst.observers]
      exact hthroughout.of_told.right
    rw [Notice.heard_told, Notice.heard_append, ← List.append_assoc, List.getLast?_append,
      hrest.changed (by rw [hsame]; exact h) other hright, Option.some_or]

/-- An observer is told, and what it does installs another snapshot: the round is over. -/
theorem Round.overtaken {installed : Snapshot} {observer : Observer} (rest : List Observer)
    {host next : Host σ} {notices : List Notice} (hfirst : Stretch host notices next)
    (hchanged : next.snapshot.serial ≠ host.snapshot.serial) :
    Round installed (observer :: rest) host (.told observer installed.locale :: notices) next where
  observers := by
    rw [hfirst.observers]
    rfl
  serial := hfirst.serial
  unchanged h := absurd h hchanged
  changed h other hthroughout := by
    rw [Notice.heard_told, List.getLast?_append, hfirst.changed h other hthroughout.of_told,
      Option.some_or]

/-! ### Recorded switches -/

section Mirroring

variable {switch : Switching σ} {recorded : Switching (σ × List Notice)} {behaviour : Behaviour σ}
  (hmirrors : Mirrors recorded switch)

include hmirrors

theorem notify_recorded {installed : Snapshot} {queue : List Observer} {host next : Host σ}
    (hcurrent : host.snapshot.serial = installed.serial)
    (h : notify switch behaviour installed queue host = some next) :
    ∃ notices, (∀ before, notify recorded behaviour.recorded installed queue
      (host.recording before) = some (next.recording (before ++ notices))) ∧
      Round installed queue host notices next := by
  induction queue generalizing host with
  | nil =>
      cases h
      exact ⟨[], fun before => by rw [List.append_nil]; rfl, Round.nil installed _⟩
  | cons observer rest ih =>
      rw [notify_current hcurrent] at h
      obtain ⟨⟨finished, after⟩, hrun, hnotify⟩ := Option.bind_eq_some_iff.mp h
      obtain ⟨notices, hrecorded, hscript⟩ := run_recorded hmirrors hrun
      have hfirst := hscript.trans (Stretch.settled observer finished after)
      rw [List.append_nil] at hfirst
      have hstep (before : List Notice) : notify recorded behaviour.recorded installed
          (observer :: rest) (host.recording before) =
          notify recorded behaviour.recorded installed rest
            ((settled observer finished after).recording
              (before ++ .told observer installed.locale :: notices)) := by
        have hcurrent' : (host.recording before).snapshot.serial = installed.serial := hcurrent
        rw [notify_current hcurrent', Behaviour.recorded, run_note, hrecorded, Option.bind_some,
          settled_recording, List.append_assoc, List.singleton_append]
      by_cases hsame : (settled observer finished after).snapshot.serial = host.snapshot.serial
      · obtain ⟨more, hrest, hround⟩ := ih (hsame.trans hcurrent) hnotify
        refine ⟨_, fun before => ?_, Round.cons hfirst hsame hround⟩
        rw [hstep, hrest, List.append_assoc, List.cons_append]
      · have hover : (settled observer finished after).snapshot.serial ≠ installed.serial :=
          hcurrent ▸ hsame
        rw [notify_superseded hover] at hnotify
        cases hnotify
        have hlast :=
          hfirst.trans (Stretch.brokenOff installed rest (settled observer finished after))
        rw [List.append_nil] at hlast
        refine ⟨_, fun before => ?_, Round.overtaken rest hlast ?_⟩
        · have hover' : ((settled observer finished after).recording
              (before ++ .told observer installed.locale :: notices)).snapshot.serial ≠
              installed.serial := hover
          rw [hstep, notify_superseded hover', brokenOff_recording]
        · rw [brokenOff_snapshot]
          exact hsame

/-- Once a snapshot has been installed, whoever is there throughout hears of the active locale last:
of the installed one, or of the one that has overtaken it. -/
theorem install_recorded {host next : Host σ} {catalog : Catalog}
    (h : install switch behaviour host catalog = some next) :
    ∃ notices, (∀ before, install recorded behaviour.recorded (host.recording before) catalog =
      some (next.recording (before ++ notices))) ∧ Stretch host notices next := by
  rw [install_eq] at h
  have hcurrent : (host.withCatalog catalog).snapshot.serial = (host.successor catalog).serial :=
    rfl
  have hnext : (host.withCatalog catalog).snapshot.serial = host.snapshot.serial + 1 := rfl
  obtain ⟨notices, hrecorded, hround⟩ := notify_recorded hmirrors hcurrent h
  have hserial := hround.serial
  refine ⟨notices, hrecorded, hround.observers, by omega, fun heq => by omega, ?_⟩
  intro _ observer hthroughout
  rcases Nat.eq_or_lt_of_le hserial with heq | hlt
  · obtain ⟨hsnapshot, htold, honly⟩ := hround.unchanged heq.symm
    rw [List.getLast?_eq_some_getLast (htold observer hthroughout.mem),
      honly observer _ (List.getLast_mem _), hsnapshot]
    rfl
  · exact hround.changed hlt observer hthroughout

theorem switchTo_recorded {target : Locale} {host next : Host σ}
    {outcome : Except SwitchError Locale}
    (h : switchTo switch behaviour target host = some (outcome, next)) :
    ∃ notices, (∀ before, switchTo recorded behaviour.recorded target (host.recording before) =
      some (outcome, next.recording (before ++ notices))) ∧ Stretch host notices next := by
  cases hsame : host.snapshot.locale.same target with
  | true =>
      rw [switchTo_of_same hsame] at h
      cases h
      refine ⟨[], fun before => ?_, .still rfl rfl fun _ => rfl⟩
      rw [List.append_nil]
      exact @switchTo_of_same _ recorded behaviour.recorded target (host.recording before) hsame
  | false =>
      rcases hload : host.library.load target.code with ⟨loaded, library⟩
      match loaded with
      | .error (.version fault) =>
          rw [switchTo_of_version hsame hload] at h
          cases h
          refine ⟨[], fun before => ?_, .still rfl rfl fun _ => rfl⟩
          rw [List.append_nil]
          exact @switchTo_of_version _ recorded behaviour.recorded target
            (host.recording before) _ _ hsame hload
      | .error (.catalog cause) =>
          rw [switchTo_of_invalid hsame hload] at h
          cases h
          refine ⟨[], fun before => ?_, .still rfl rfl fun _ => rfl⟩
          rw [List.append_nil]
          exact @switchTo_of_invalid _ recorded behaviour.recorded target
            (host.recording before) _ _ hsame hload
      | .ok catalog =>
          rw [switchTo_of_loaded hsame hload] at h
          obtain ⟨last, hlast, heq⟩ := Option.map_eq_some_iff.mp h
          cases heq
          obtain ⟨notices, hinstall, hstretch⟩ := install_recorded hmirrors hlast
          have hlibrary : Stretch host [] { host with library } := .still rfl rfl fun _ => rfl
          refine ⟨notices, fun before => ?_, hlibrary.trans hstretch⟩
          have hswitch := @switchTo_of_loaded _ recorded behaviour.recorded target
            (host.recording before) _ _ hsame hload
          rw [hswitch]
          exact Option.map_eq_some_iff.mpr ⟨_, hinstall before, rfl⟩

end Mirroring

/-- Recording changes nothing about a switch, at any depth. -/
theorem mirrors_switch (behaviour : Behaviour σ) (depth : Nat) :
    Mirrors (switch behaviour.recorded depth) (switch behaviour depth) := by
  -- The switches inside a notification have one level less, so they are recorded by induction.
  induction depth with
  | zero =>
      intro code host outcome next h
      cases h
  | succ depth ih =>
      intro code host outcome next h
      cases htarget : host.registry.locale? code with
      | none =>
          rw [switch_of_unknown htarget] at h
          cases h
          refine ⟨[], fun before => ?_, .still rfl rfl fun _ => rfl⟩
          rw [List.append_nil]
          exact @switch_of_unknown _ behaviour.recorded depth code (host.recording before) htarget
      | some target =>
          rw [switch_of_registered htarget] at h
          obtain ⟨⟨result, last⟩, hlast, heq⟩ := Option.map_eq_some_iff.mp h
          cases heq
          obtain ⟨notices, hswitch, hstretch⟩ := switchTo_recorded ih hlast
          have hbegun : Stretch host [] { host with switching := true } :=
            .still rfl rfl fun _ => rfl
          have hended : Stretch last [] { last with switching := false } :=
            .still rfl rfl fun _ => rfl
          have hwhole := (hbegun.trans hstretch).trans hended
          rw [List.append_nil] at hwhole
          refine ⟨notices, fun before => ?_, hwhole⟩
          have hcode := @switch_of_registered _ behaviour.recorded depth code
            (host.recording before) target htarget
          rw [hcode]
          exact Option.map_eq_some_iff.mpr ⟨_, hswitch before, rfl⟩

/-- The last thing an observer hears is the truth: when a switch that has installed a snapshot comes
to an end, everyone who has been an observer throughout has last been told the locale that is
active then. -/
theorem last_heard_of_switch {behaviour : Behaviour σ} {depth : Nat} {code : String}
    {host next : Host σ} {outcome : Except SwitchError Locale}
    (h : switch behaviour depth code host = some (outcome, next))
    (hinstalled : next.snapshot ≠ host.snapshot) :
    ∃ notices, switch behaviour.recorded depth code (host.recording []) =
      some (outcome, next.recording notices) ∧
      ∀ observer, Notice.Throughout observer host.observers notices →
        (Notice.heard observer notices).getLast? = some next.snapshot.locale := by
  obtain ⟨notices, hrecorded, hstretch⟩ := mirrors_switch behaviour depth code host outcome next h
  refine ⟨notices, hrecorded [], hstretch.changed ?_⟩
  rcases Nat.eq_or_lt_of_le hstretch.serial with heq | hlt
  · exact absurd (hstretch.unchanged heq.symm).1 hinstalled
  · exact hlt

/-! ### A switch that is taken back -/

def restless : Observer := ⟨"restless"⟩

def listener : Observer := ⟨"listener"⟩

/-- One observer goes back to English at once, and fails when it is told so. -/
def takeBack : Behaviour Unit := fun observer locale =>
  if observer = listener then .done
  else if locale.code = "en_US" then .fail
  else .switch "en_US" fun _ => .done

/-- Two empty catalogs in the cache, the English one active. -/
def takeBackHost : Host Unit where
  library.store.registry :=
    { entries := [⟨⟨"en_US", ""⟩, "en.ts"⟩, ⟨⟨"ru_RU", ""⟩, "ru.ts"⟩], nodup := by decide }
  library.store.config := .standard
  library.store.cached := [("en_US", ⟨⟨"en_US", ""⟩, []⟩), ("ru_RU", ⟨⟨"ru_RU", ""⟩, []⟩)]
  library.disk := []
  snapshot := ⟨0, ⟨⟨"en_US", ""⟩, []⟩, ⟨⟨"en_US", ""⟩, []⟩⟩
  observers := [restless, listener]
  memory := ()

theorem last_heard_of_switch_takeBack : ∃ outcome next notices,
    switch takeBack 2 "ru_RU" takeBackHost = some (outcome, next) ∧
      next.snapshot ≠ takeBackHost.snapshot ∧
      Notice.Throughout listener takeBackHost.observers notices ∧
      (Notice.heard listener notices).getLast? = some next.snapshot.locale := by
  have hserial : (switch takeBack 2 "ru_RU" takeBackHost).map (·.2.snapshot.serial) = some 2 := by
    decide +kernel
  have hnotices : (switch takeBack.recorded 2 "ru_RU" (takeBackHost.recording [])).map
      (·.2.memory.2) = some [.told restless ⟨"ru_RU", ""⟩, .told restless ⟨"en_US", ""⟩,
        .told listener ⟨"en_US", ""⟩] := by
    decide +kernel
  obtain ⟨⟨outcome, next⟩, h, hnext⟩ := Option.map_eq_some_iff.mp hserial
  have hinstalled : next.snapshot ≠ takeBackHost.snapshot := by
    intro heq
    rw [heq] at hnext
    cases hnext
  obtain ⟨notices, hrecorded, hlast⟩ := last_heard_of_switch h hinstalled
  rw [hrecorded, Option.map_some] at hnotices
  have hthroughout : Notice.Throughout listener takeBackHost.observers notices := by
    rw [show notices = _ from Option.some.inj hnotices]
    decide +kernel
  exact ⟨outcome, next, notices, h, hinstalled, hthroughout, hlast listener hthroughout⟩

end Polyglot.Host
