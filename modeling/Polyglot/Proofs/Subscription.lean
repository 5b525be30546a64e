import Polyglot.Proofs.Resolution
import Polyglot.Proofs.Notification

/-!
Subscriptions and their cancellation. Whoever subscribes is given a function that cancels the
subscription. It goes by the observer and takes back the first registration that there is, so it
cancels its own subscription and nothing else only where the observer has no other one.
-/

namespace Polyglot

variable {σ : Type}

/-- A subscription, or a call of the function that a subscription has returned. Subscriptions are
numbered in their order, from zero. -/
inductive SubscriptionCall where
  | subscribe (observer : Observer)
  | cancel (number : Nat)
  deriving DecidableEq, Repr

structure Subscription where
  observer : Observer
  cancelled : Bool
  deriving DecidableEq, Repr

namespace Subscription

def cancel (subscription : Subscription) : Subscription := { subscription with cancelled := true }

/-- The subscriptions after a call. A function that has not been returned yet cannot be called. -/
def after (made : List Subscription) : SubscriptionCall → List Subscription
  | .subscribe observer => made ++ [⟨observer, false⟩]
  | .cancel number => made.modify number cancel

def afterAll (made : List Subscription) (calls : List SubscriptionCall) : List Subscription :=
  calls.foldl after made

/-- The observers of the subscriptions that have not been cancelled. -/
def standing (made : List Subscription) : List Observer :=
  (made.filter (!·.cancelled)).map observer

theorem map_observer_modify (made : List Subscription) (number : Nat) :
    (made.modify number cancel).map observer = made.map observer := by
  induction made generalizing number with
  | nil => cases number <;> rfl
  | cons first rest ih =>
      cases number with
      | zero => rfl
      | succ number => exact congrArg (first.observer :: ·) (ih number)

theorem map_observer_isPrefix (made : List Subscription) (calls : List SubscriptionCall) :
    made.map observer <+: (afterAll made calls).map observer := by
  induction calls generalizing made with
  | nil => exact List.prefix_rfl
  | cons call rest ih =>
      refine List.IsPrefix.trans ?_ (ih (after made call))
      cases call with
      | subscribe other =>
          rw [after, List.map_append]
          exact List.prefix_append _ _
      | cancel number => rw [after, map_observer_modify]

theorem afterAll_append (made : List Subscription) (calls more : List SubscriptionCall) :
    afterAll made (calls ++ more) = afterAll (afterAll made calls) more :=
  List.foldl_append

theorem map_observer_afterAll_subscribe (made : List Subscription) (observers : List Observer) :
    (afterAll made (observers.map .subscribe)).map observer = made.map observer ++ observers := by
  induction observers generalizing made with
  | nil => exact (List.append_nil _).symm
  | cons first rest ih =>
      refine (ih (after made (.subscribe first))).trans ?_
      rw [after, List.map_append, List.append_assoc]
      rfl

theorem modify_cancel_twice (made : List Subscription) (number : Nat) :
    (made.modify number cancel).modify number cancel = made.modify number cancel := by
  rw [List.modify_modify_eq]
  rfl

theorem standing_append (made more : List Subscription) :
    standing (made ++ more) = standing made ++ standing more := by
  rw [standing, List.filter_append, List.map_append, standing, standing]

theorem standing_cons_of_cancelled {first : Subscription} (h : first.cancelled = true)
    (rest : List Subscription) : standing (first :: rest) = standing rest := by
  rw [standing, List.filter_cons, h, Bool.not_true, if_neg Bool.false_ne_true, standing]

theorem standing_cons_of_not_cancelled {first : Subscription} (h : first.cancelled = false)
    (rest : List Subscription) : standing (first :: rest) = first.observer :: standing rest := by
  rw [standing, List.filter_cons, h, Bool.not_false, if_pos rfl, List.map_cons, standing]

theorem standing_subset (made : List Subscription) : standing made ⊆ made.map observer :=
  (List.filter_sublist.map observer).subset

/-- Where nobody has subscribed twice, it is the same to cancel a subscription and to take the
observer off. -/
theorem standing_modify {made : List Subscription} (hnodup : (made.map observer).Nodup)
    {number : Nat} {subscription : Subscription} (h : made[number]? = some subscription) :
    standing (made.modify number cancel) = (standing made).erase subscription.observer := by
  induction made generalizing number with
  | nil => cases h
  | cons first rest ih =>
      obtain ⟨hfirst, hrest⟩ := List.nodup_cons.mp hnodup
      cases number with
      | zero =>
          cases h
          rw [List.modify_zero_cons, standing_cons_of_cancelled rfl]
          cases hcancelled : subscription.cancelled with
          | true =>
              have habsent : subscription.observer ∉ standing rest :=
                fun hmem => hfirst (standing_subset rest hmem)
              rw [standing_cons_of_cancelled hcancelled, List.erase_of_not_mem habsent]
          | false => rw [standing_cons_of_not_cancelled hcancelled, List.erase_cons_head]
      | succ number =>
          have hmem : subscription.observer ∈ rest.map observer :=
            List.mem_map_of_mem (List.mem_of_getElem? h)
          have hne : first.observer ≠ subscription.observer := fun heq => hfirst (heq ▸ hmem)
          rw [List.modify_succ_cons]
          cases hcancelled : first.cancelled with
          | true =>
              rw [standing_cons_of_cancelled hcancelled, standing_cons_of_cancelled hcancelled,
                ih hrest h]
          | false =>
              rw [standing_cons_of_not_cancelled hcancelled,
                standing_cons_of_not_cancelled hcancelled, ih hrest h,
                List.erase_cons_tail (by simpa using hne)]

end Subscription

namespace Host

open Subscription

/-- The host after a call, where some subscriptions have been made before. -/
def heed (host : Host σ) (made : List Subscription) : SubscriptionCall → Host σ
  | .subscribe observer => host.observe observer
  | .cancel number =>
    match made[number]? with
    | some subscription => host.unobserve subscription.observer
    | none => host

def follow (host : Host σ) (made : List Subscription) : List SubscriptionCall → Host σ
  | [] => host
  | call :: rest => (host.heed made call).follow (after made call) rest

theorem follow_append (host : Host σ) (made : List Subscription)
    (calls more : List SubscriptionCall) :
    host.follow made (calls ++ more) =
      (host.follow made calls).follow (afterAll made calls) more := by
  induction calls generalizing host made with
  | nil => rfl
  | cons call rest ih => exact ih _ _

theorem observers_heed {host : Host σ} {before : List Observer} {made : List Subscription}
    (hnodup : (made.map observer).Nodup) (hdisjoint : (made.map observer).Disjoint before)
    (h : host.observers = before ++ standing made) (call : SubscriptionCall) :
    (host.heed made call).observers = before ++ standing (after made call) := by
  cases call with
  | subscribe other =>
      rw [heed, observe, after, standing_append, h, List.append_assoc]
      rfl
  | cancel number =>
      rw [heed, after]
      cases hmade : made[number]? with
      | none => rw [List.modify_eq_self (List.getElem?_eq_none_iff.mp hmade), h]
      | some subscription =>
          have hmem : subscription.observer ∈ made.map observer :=
            List.mem_map_of_mem (List.mem_of_getElem? hmade)
          have hheed : (host.unobserve subscription.observer).observers =
            host.observers.erase subscription.observer := rfl
          rw [hheed, h, List.erase_append_right _ (hdisjoint hmem), standing_modify hnodup hmade]

theorem observers_follow {before : List Observer} {calls : List SubscriptionCall}
    {host : Host σ} {made : List Subscription}
    (hnodup : ((afterAll made calls).map observer).Nodup)
    (hdisjoint : ((afterAll made calls).map observer).Disjoint before)
    (h : host.observers = before ++ standing made) :
    (host.follow made calls).observers = before ++ standing (afterAll made calls) := by
  induction calls generalizing host made with
  | nil => exact h
  | cons call rest ih =>
      -- What holds of all subscriptions in the end holds of those that have been made so far.
      have hbegins := map_observer_isPrefix made (call :: rest)
      have hmade : (made.map observer).Disjoint before := fun _ hmem =>
        hdisjoint (hbegins.subset hmem)
      exact ih hnodup hdisjoint (observers_heed (hnodup.sublist hbegins.sublist) hmade h call)

theorem observers_follow_subscribe (host : Host σ) (made : List Subscription)
    (observers : List Observer) :
    (host.follow made (observers.map .subscribe)).observers = host.observers ++ observers := by
  induction observers generalizing host made with
  | nil => exact (List.append_nil _).symm
  | cons first rest ih => exact (ih _ _).trans (List.append_assoc _ _ _)

theorem observers_heed_cancel (host : Host σ) {made : List Subscription} {number : Nat}
    {observer : Observer} (h : (made.map Subscription.observer)[number]? = some observer) :
    (host.heed made (.cancel number)).observers = host.observers.erase observer := by
  rw [List.getElem?_map] at h
  obtain ⟨subscription, hmade, rfl⟩ := Option.map_eq_some_iff.mp h
  rw [heed, hmade]
  rfl

/-- An observer whose subscriptions can be cancelled one by one is registered once: if it
subscribes, and the function is called a second time, the second call takes nothing off. -/
theorem count_le_one_of_follow {host : Host σ} {observers : List Observer}
    (h : ∀ calls, (afterAll [] calls).map observer = observers →
      (host.follow [] calls).observers = host.observers ++ standing (afterAll [] calls))
    {observer : Observer} (hmem : observer ∈ observers) :
    (host.observers ++ observers).count observer ≤ 1 := by
  obtain ⟨number, hnumber⟩ := List.getElem?_of_mem hmem
  let subscribed : List SubscriptionCall := observers.map .subscribe
  let made := afterAll [] subscribed
  have hmade : made.map Subscription.observer = observers :=
    map_observer_afterAll_subscribe [] observers
  have hcancelled : (made.modify number cancel).map Subscription.observer = observers :=
    (map_observer_modify made number).trans hmade
  have hregistered : (host.follow [] subscribed).observers = host.observers ++ observers :=
    observers_follow_subscribe host [] observers
  have hfollow (more : List SubscriptionCall)
      (hmore : (afterAll made more).map Subscription.observer = observers) :
      ((host.follow [] subscribed).follow made more).observers =
        host.observers ++ standing (afterAll made more) := by
    have hall := h (subscribed ++ more) (by rw [afterAll_append]; exact hmore)
    rwa [follow_append, afterAll_append] at hall
  have hheed (made : List Subscription) (hmade : made.map Subscription.observer = observers)
      (host : Host σ) :
      (host.heed made (.cancel number)).observers = host.observers.erase observer :=
    observers_heed_cancel host (hmade ▸ hnumber)
  have honce : (host.observers ++ observers).erase observer =
      host.observers ++ standing (made.modify number cancel) := by
    rw [← hregistered, ← hheed made hmade]
    exact hfollow [.cancel number] hcancelled
  have htwice : ((host.observers ++ observers).erase observer).erase observer =
      host.observers ++ standing ((made.modify number cancel).modify number cancel) := by
    rw [← hregistered, ← hheed made hmade, ← hheed (made.modify number cancel) hcancelled]
    exact hfollow [.cancel number, .cancel number] ((map_observer_modify _ _).trans hcancelled)
  rw [modify_cancel_twice, ← honce] at htwice
  have hcount := congrArg (List.count observer) htwice
  rw [List.count_erase_self, List.count_erase_self] at hcount
  omega

/-- The functions cancel their own subscriptions and nothing else, whatever the order of the calls,
exactly if the observers are all different and are not among those that there are already. -/
theorem observers_follow_iff (host : Host σ) (observers : List Observer) :
    (∀ calls, (afterAll [] calls).map observer = observers →
      (host.follow [] calls).observers = host.observers ++ standing (afterAll [] calls)) ↔
    observers.Nodup ∧ observers.Disjoint host.observers := by
  constructor
  · intro h
    have hcount (observer : Observer) (hmem : observer ∈ observers) :
        host.observers.count observer + observers.count observer ≤ 1 := by
      rw [← List.count_append]
      exact count_le_one_of_follow h hmem
    refine ⟨List.nodup_iff_count.mpr fun observer => ?_, fun observer hmem hbefore => ?_⟩
    · by_cases hmem : observer ∈ observers
      · have hle := hcount observer hmem
        omega
      · rw [List.count_eq_zero_of_not_mem hmem]
        exact Nat.zero_le 1
    · have hle := hcount observer hmem
      have hpos := List.count_pos_iff.mpr hmem
      have hpos' := List.count_pos_iff.mpr hbefore
      omega
  · rintro ⟨hnodup, hdisjoint⟩ calls rfl
    exact observers_follow hnodup hdisjoint (List.append_nil _).symm

/-- An observer subscribes twice, and the second subscription is cancelled twice. The first one has
not been cancelled, and is gone. -/
def cancelledTwice : List SubscriptionCall :=
  [.subscribe listener, .subscribe listener, .cancel 1, .cancel 1]

theorem not_standing_cancelledTwice : ¬ ∀ calls,
    (bilingualHost.follow [] calls).observers = standing (afterAll [] calls) := by
  intro h
  have hlost : (bilingualHost.follow [] cancelledTwice).observers = [] := rfl
  have hstanding : standing (afterAll [] cancelledTwice) = [listener] := rfl
  have hcall := h cancelledTwice
  rw [hlost, hstanding] at hcall
  cases hcall

end Host
end Polyglot
