import Mathlib.Data.List.Induction
import Labeling.Proofs.Keyboard.Hub

/-!
# Every event is delivered once

A hub is used through any number of handles, and a subscription by itself (`HubOp`). What a
subscription is to hear can be read off the uses alone: the events dispatched between the moment it is
made and the moment it ends (`HubOp.heard`). It gets just these. What its drains return, followed by what
is left in its queue, is what it is to hear, whatever the other subscriptions do; and those that count are
those that were made and have not ended (`KeyHub.fan_out`).

* `KeyHub.lookup_perform` is what a use makes of one queue, and `KeyHub.lookup_perform_of_live` that it
  loses nothing of it;
* `KeyHub.received_of_live` and `KeyHub.received_of_pending` are the equation for a subscription that
  is live and for one that is still to come, from any hub on;
* `KeyHub.Alike` relates two hubs that a subscription cannot tell apart;
* `KeyHub.numbers_performAll` says which numbers the queues have: each is that of one subscription.
-/

namespace Labeling

/-! ## Uses of a hub -/

/-- A use of a hub. The handles of a hub, of which there may be any number, all reach the same
subscriptions; a subscription is known by its number. -/
inductive HubOp where
  | subscribe (handle : Nat)
  | dispatch (handle : Nat) (event : KeyEvent)
  | drain (id : Nat)
  | unsubscribe (id : Nat)
  deriving DecidableEq, Repr

namespace HubOp

/-- The event that is dispatched, through whatever handle. -/
def event? : HubOp → Option KeyEvent
  | .dispatch _ event => some event
  | _ => none

/-- A subscription is made, through whatever handle. -/
def isSubscribe : HubOp → Bool
  | .subscribe _ => true
  | _ => false

/-- Another subscription than this one is drained or ends. -/
def isOthers (id : Nat) : HubOp → Bool
  | .drain n => n ≠ id
  | .unsubscribe n => n ≠ id
  | _ => false

/-- What is done after a subscription was made. They are numbered in the order in which they are
made, from zero. -/
def since : Nat → List HubOp → List HubOp
  | _, [] => []
  | 0, .subscribe _ :: rest => rest
  | id + 1, .subscribe _ :: rest => since id rest
  | id, .dispatch _ _ :: rest => since id rest
  | id, .drain _ :: rest => since id rest
  | id, .unsubscribe _ :: rest => since id rest

/-- The events dispatched until a subscription ends. -/
def upTo (id : Nat) (ops : List HubOp) : List KeyEvent :=
  (ops.takeWhile fun op => op ≠ .unsubscribe id).filterMap event?

/-- What a subscription is to hear: the events dispatched after it was made and before it ended. -/
def heard (id : Nat) (ops : List HubOp) : List KeyEvent := upTo id (since id ops)

/-- The subscriptions that were made and have not ended. -/
def live (ops : List HubOp) : List Nat :=
  (List.range (ops.countP isSubscribe)).filter fun id => .unsubscribe id ∉ since id ops

/-- The events go on until the subscription ends. -/
theorem upTo_cons {id : Nat} {op : HubOp} (hop : op ≠ .unsubscribe id) (rest : List HubOp) :
    upTo id (op :: rest) = op.event?.toList ++ upTo id rest := by
  rw [upTo, List.takeWhile_cons_of_pos (by simp [hop])]
  cases op <;> rfl

theorem upTo_unsubscribe (id : Nat) (rest : List HubOp) : upTo id (.unsubscribe id :: rest) = [] := by
  rw [upTo, List.takeWhile_cons_of_neg (by simp)]
  rfl

/-- One use more comes after every subscription that was made. -/
theorem since_concat (op : HubOp) : ∀ (id : Nat) (ops : List HubOp), since id (ops ++ [op]) =
    if id < ops.countP isSubscribe then since id ops ++ [op] else []
  | id, [] => by cases id <;> cases op <;> rfl
  | 0, .subscribe _ :: rest => by
    rw [List.countP_cons_of_pos rfl, if_pos (Nat.succ_pos _)]
    rfl
  | id + 1, .subscribe _ :: rest => by
    rw [List.countP_cons_of_pos rfl]
    simp only [Nat.add_lt_add_iff_right]
    exact since_concat op id rest
  | id, .dispatch _ _ :: rest => by
    rw [List.cons_append, since, since, List.countP_cons_of_neg (by simp [isSubscribe])]
    exact since_concat op id rest
  | id, .drain _ :: rest => by
    rw [List.cons_append, since, since, List.countP_cons_of_neg (by simp [isSubscribe])]
    exact since_concat op id rest
  | id, .unsubscribe _ :: rest => by
    rw [List.cons_append, since, since, List.countP_cons_of_neg (by simp [isSubscribe])]
    exact since_concat op id rest

/-- One use more leaves those subscriptions live that it does not end. -/
theorem filter_concat (ops : List HubOp) (op : HubOp) :
    (List.range (ops.countP isSubscribe)).filter (fun id => .unsubscribe id ∉ since id (ops ++ [op])) =
      (live ops).filter fun id => op ≠ .unsubscribe id := by
  rw [live, List.filter_filter]
  refine List.filter_congr fun id hid => ?_
  rw [since_concat, if_pos (List.mem_range.mp hid)]
  simp [not_or, and_comm, eq_comm]

theorem live_concat (ops : List HubOp) {op : HubOp} (hop : ¬op.isSubscribe) :
    live (ops ++ [op]) = (live ops).filter fun id => op ≠ .unsubscribe id := by
  rw [← filter_concat, live, List.countP_append, List.countP_singleton, if_neg hop]
  rfl

theorem live_concat_subscribe (ops : List HubOp) (handle : Nat) :
    live (ops ++ [.subscribe handle]) = live ops ++ [ops.countP isSubscribe] := by
  have hkept : (live ops).filter (fun id => HubOp.subscribe handle ≠ .unsubscribe id) = live ops :=
    List.filter_eq_self.mpr fun id _ => by simp
  have hnew : since (ops.countP isSubscribe) (ops ++ [.subscribe handle]) = [] := by
    rw [since_concat, if_neg (Nat.lt_irrefl _)]
  rw [live, List.countP_append, List.countP_cons_of_pos rfl, List.countP_nil, List.range_succ,
    List.filter_append, filter_concat, hkept, List.filter_cons_of_pos (by simp [hnew])]
  rfl

end HubOp

namespace KeyHub

open HubOp

/-- The hub after a use. -/
def perform (h : KeyHub) : HubOp → KeyHub
  | .subscribe _ => h.subscribe.2
  | .dispatch _ e => h.dispatch e
  | .drain id => (h.drain id).2
  | .unsubscribe id => h.unsubscribe id

/-- The hub after some uses. -/
def performAll (h : KeyHub) (ops : List HubOp) : KeyHub := ops.foldl perform h

theorem performAll_concat (h : KeyHub) (ops : List HubOp) (op : HubOp) :
    h.performAll (ops ++ [op]) = (h.performAll ops).perform op :=
  List.foldl_append

/-- What a use makes of the queue under a number, where `next` is the number that is given next. -/
def queueAfter (id next : Nat) (queue : Option (List KeyEvent)) : HubOp → Option (List KeyEvent)
  | .subscribe _ => queue.or (if id = next then some [] else none)
  | .dispatch _ e => queue.map (· ++ [e])
  | .drain n => queue.map fun q => if id = n then [] else q
  | .unsubscribe n => if id = n then none else queue

/-- What a use returns to a subscription, which is nothing unless the subscription is drained. -/
def answer (h : KeyHub) (id : Nat) : HubOp → List (List KeyEvent)
  | .drain n => if n = id then [(h.drain n).1] else []
  | _ => []

/-- What the drains of a subscription return, one after the other. -/
def drains (id : Nat) : KeyHub → List HubOp → List (List KeyEvent)
  | _, [] => []
  | h, op :: rest => h.answer id op ++ drains id (h.perform op) rest

/-- What is queued for a subscription in the end, or was queued when it ended. -/
def leftOver (id : Nat) : KeyHub → List HubOp → List KeyEvent
  | h, [] => h.queued id
  | h, op :: rest =>
    if op = .unsubscribe id ∧ (h.queues.lookup id).isSome then h.queued id
    else leftOver id (h.perform op) rest

/-- All that a subscription has received, and what waits for it. -/
def received (id : Nat) (h : KeyHub) (ops : List HubOp) : List KeyEvent :=
  (drains id h ops).flatten ++ leftOver id h ops

/-! ## What a live subscription receives -/

variable {h : KeyHub} {id : Nat} {queue : List KeyEvent}

theorem queued_of_none (hq : h.queues.lookup id = none) : h.queued id = [] := by
  rw [queued, hq]
  rfl

theorem next_le_perform (h : KeyHub) (op : HubOp) : h.next ≤ (h.perform op).next := by
  cases op with
  | subscribe => exact Nat.le_succ h.next
  | _ => exact Nat.le_refl h.next

/-- A use looks at no other queue than that under the number. -/
theorem lookup_perform (h : KeyHub) (op : HubOp) (id : Nat) :
    (h.perform op).queues.lookup id = queueAfter id h.next (h.queues.lookup id) op := by
  cases op with
  | subscribe => exact lookup_subscribe h id
  | dispatch _ e => exact lookup_dispatch_eq h e id
  | drain n => exact lookup_drain_eq h n id
  | unsubscribe n => exact lookup_unsubscribe h n id

/-- A number without a queue gets one only when it is given to a new subscription. -/
theorem lookup_perform_of_none (hq : h.queues.lookup id = none) {op : HubOp}
    (hnew : op.isSubscribe → id ≠ h.next) : (h.perform op).queues.lookup id = none := by
  rw [lookup_perform, hq]
  cases op with
  | subscribe => exact if_neg (hnew rfl)
  | unsubscribe n => exact ite_self none
  | _ => rfl

/-- A number without a queue receives nothing. -/
theorem answer_of_none (hq : h.queues.lookup id = none) (op : HubOp) :
    (h.answer id op).flatten = [] := by
  cases op with
  | drain n =>
    by_cases hn : n = id
    · rw [answer, if_pos hn, drain, hn, queued_of_none hq]
      rfl
    · rw [answer, if_neg hn]
      rfl
  | _ => rfl

/-- A subscription that has ended does not come back. -/
theorem lookup_performAll_of_gone {ops : List HubOp} : ∀ {h : KeyHub},
    h.queues.lookup id = none → id < h.next → (h.performAll ops).queues.lookup id = none := by
  induction ops with
  | nil => exact fun hq _ => hq
  | cons op rest ih =>
    intro h hq hid
    exact ih (lookup_perform_of_none hq fun _ => Nat.ne_of_lt hid)
      (Nat.lt_of_lt_of_le hid (next_le_perform h op))

/-- A subscription that has ended receives nothing more. -/
theorem drains_of_gone {ops : List HubOp} : ∀ {h : KeyHub}, h.queues.lookup id = none →
    id < h.next → (drains id h ops).flatten = [] := by
  induction ops with
  | nil => exact fun _ _ => rfl
  | cons op rest ih =>
    intro h hq hid
    rw [drains, List.flatten_append, answer_of_none hq,
      ih (lookup_perform_of_none hq fun _ => Nat.ne_of_lt hid)
        (Nat.lt_of_lt_of_le hid (next_le_perform h op))]
    rfl

/-- While a subscription goes on, a use keeps all that it is to hear: what is queued for it and an
event that is dispatched are what it receives of the use and what is queued afterwards. -/
theorem lookup_perform_of_live (hq : h.queues.lookup id = some queue) {op : HubOp}
    (hop : op ≠ .unsubscribe id) :
    ∃ queue', (h.perform op).queues.lookup id = some queue' ∧
      (h.answer id op).flatten ++ queue' = queue ++ op.event?.toList := by
  rw [lookup_perform, hq]
  cases op with
  | subscribe => exact ⟨queue, rfl, (List.append_nil queue).symm⟩
  | dispatch _ e => exact ⟨queue ++ [e], rfl, rfl⟩
  | drain n =>
    by_cases hn : n = id
    · refine ⟨[], congrArg some (if_pos hn.symm), ?_⟩
      rw [answer, if_pos hn, hn, drain, queued_of_lookup hq]
      exact congrArg (· ++ []) (List.append_nil queue)
    · refine ⟨queue, congrArg some (if_neg (Ne.symm hn)), ?_⟩
      rw [answer, if_neg hn]
      exact (List.append_nil queue).symm
  | unsubscribe n => exact ⟨queue, if_neg fun hn => hop (by rw [hn]), (List.append_nil queue).symm⟩

/-- Unless the subscription ends, the rest is received by the hub after the use. -/
theorem received_cons {op : HubOp} {rest : List HubOp}
    (hop : ¬(op = .unsubscribe id ∧ (h.queues.lookup id).isSome)) :
    received id h (op :: rest) = (h.answer id op).flatten ++ received id (h.perform op) rest := by
  rw [received, drains, leftOver, if_neg hop, List.flatten_append, List.append_assoc, received]

/-- What is queued for a subscription when it ends is left over. -/
theorem received_unsubscribe (hq : (h.queues.lookup id).isSome) (rest : List HubOp) :
    received id h (.unsubscribe id :: rest) =
      (drains id (h.unsubscribe id) rest).flatten ++ h.queued id := by
  rw [received, drains, leftOver, if_pos ⟨rfl, hq⟩]
  rfl

/-- A live subscription receives what is queued for it and then every event that is dispatched, until
it ends. -/
theorem received_of_live {ops : List HubOp} : ∀ {h : KeyHub} {queue : List KeyEvent},
    h.queues.lookup id = some queue → id < h.next →
      received id h ops = queue ++ upTo id ops := by
  induction ops with
  | nil =>
    intro h queue hq _
    exact (queued_of_lookup hq).trans (List.append_nil queue).symm
  | cons op rest ih =>
    intro h queue hq hid
    have hid' := Nat.lt_of_lt_of_le hid (next_le_perform h op)
    by_cases hop : op = .unsubscribe id
    · subst hop
      have hgone : (h.perform (.unsubscribe id)).queues.lookup id = none :=
        (lookup_unsubscribe h id id).trans (if_pos rfl)
      rw [received_unsubscribe (by rw [hq]; rfl), queued_of_lookup hq, upTo_unsubscribe,
        show (drains id (h.unsubscribe id) rest).flatten = [] from drains_of_gone hgone hid',
        List.append_nil]
      rfl
    · obtain ⟨queue', hq', heq⟩ := lookup_perform_of_live hq hop
      rw [received_cons fun hc => hop hc.1, ih hq' hid', upTo_cons hop, ← List.append_assoc, heq,
        List.append_assoc]

/-! ## What a subscription still to come receives -/

/-- No subscription has a number that is still to be given. -/
def NoneAhead (h : KeyHub) : Prop := ∀ n, h.next ≤ n → h.queues.lookup n = none

theorem noneAhead_empty : empty.NoneAhead := fun _ _ => rfl

theorem NoneAhead.perform (hnone : h.NoneAhead) (op : HubOp) : (h.perform op).NoneAhead := by
  intro n hn
  refine lookup_perform_of_none (hnone n (Nat.le_trans (next_le_perform h op) hn)) fun hop => ?_
  cases op with
  | subscribe => exact Ne.symm (Nat.ne_of_lt hn)
  | _ => cases hop

/-- A subscription that is still to come, from the hub on, receives the events that are dispatched
from when it is made until it ends. -/
theorem received_of_pending {ops : List HubOp} : ∀ {h : KeyHub} {k : Nat},
    h.NoneAhead → id = h.next + k → received id h ops = upTo id (since k ops) := by
  induction ops with
  | nil =>
    intro h k hnone hid
    have hend : h.queued id = [] := queued_of_none (hnone id (hid ▸ Nat.le_add_right h.next k))
    cases k <;> exact hend
  | cons op rest ih =>
    intro h k hnone hid
    have hq : h.queues.lookup id = none := hnone id (hid ▸ Nat.le_add_right h.next k)
    have hgo : received id h (op :: rest) = received id (h.perform op) rest := by
      have hlive : ¬(op = .unsubscribe id ∧ (h.queues.lookup id).isSome) := by simp [hq]
      rw [received_cons hlive, answer_of_none hq, List.nil_append]
    have hnone' := hnone.perform op
    cases op with
    | subscribe c =>
      cases k with
      | zero =>
        have hq' : (h.perform (.subscribe c)).queues.lookup id = some [] := by
          rw [lookup_perform, hq]
          exact if_pos hid
        exact hgo.trans (received_of_live hq' (hid ▸ Nat.lt_succ_self h.next))
      | succ k => exact hgo.trans (ih hnone' (hid.trans (Nat.succ_add_eq_add_succ h.next k).symm))
    | _ => exact hgo.trans ((ih hnone' hid).trans (by rw [since]))

/-! ## The other subscriptions -/

/-- Two hubs that a subscription cannot tell apart. -/
structure Alike (id : Nat) (h₁ h₂ : KeyHub) : Prop where
  next_eq : h₁.next = h₂.next
  lookup_eq : h₁.queues.lookup id = h₂.queues.lookup id

namespace Alike

variable {h₁ h₂ : KeyHub}

theorem queued_eq (hh : Alike id h₁ h₂) : h₁.queued id = h₂.queued id := by
  rw [queued, queued, hh.lookup_eq]

theorem answer_eq (hh : Alike id h₁ h₂) (op : HubOp) : h₁.answer id op = h₂.answer id op := by
  cases op with
  | drain n =>
    by_cases hn : n = id
    · rw [answer, answer, if_pos hn, if_pos hn, drain, drain, hn, hh.queued_eq]
    · rw [answer, answer, if_neg hn, if_neg hn]
  | _ => rfl

theorem next_perform_eq (hh : Alike id h₁ h₂) (op : HubOp) :
    (h₁.perform op).next = (h₂.perform op).next := by
  cases op with
  | subscribe => exact congrArg (· + 1) hh.next_eq
  | _ => exact hh.next_eq

/-- A use of two such hubs leads to two such hubs. -/
theorem perform (hh : Alike id h₁ h₂) (op : HubOp) : Alike id (h₁.perform op) (h₂.perform op) := by
  refine ⟨hh.next_perform_eq op, ?_⟩
  rw [lookup_perform, lookup_perform, hh.next_eq, hh.lookup_eq]

/-- What another subscription drains, or that it ends, is not seen. -/
theorem perform_others (hh : Alike id h₁ h₂) {op : HubOp} (hop : op.isOthers id) :
    Alike id h₁ (h₂.perform op) := by
  cases op with
  | drain n =>
    have hn : id ≠ n := fun hn => of_decide_eq_true hop hn.symm
    refine ⟨hh.next_eq, hh.lookup_eq.trans ?_⟩
    rw [lookup_perform, queueAfter]
    simp [hn]
  | unsubscribe n =>
    have hn : id ≠ n := fun hn => of_decide_eq_true hop hn.symm
    refine ⟨hh.next_eq, hh.lookup_eq.trans ?_⟩
    rw [lookup_perform, queueAfter, if_neg hn]
  | _ => cases hop

end Alike

/-- A drain of another subscription returns nothing to this one. -/
theorem answer_others {op : HubOp} (hop : op.isOthers id) : h.answer id op = [] := by
  cases op with
  | drain n => exact if_neg (of_decide_eq_true hop)
  | _ => rfl

/-- What a subscription drains does not depend on what the others drain, and on when they end. -/
theorem drains_filter {ops : List HubOp} : ∀ {h₁ h₂ : KeyHub}, Alike id h₁ h₂ →
    drains id h₁ (ops.filter fun op => !op.isOthers id) = drains id h₂ ops := by
  induction ops with
  | nil => exact fun _ => rfl
  | cons op rest ih =>
    intro h₁ h₂ hh
    cases hop : op.isOthers id with
    | true =>
      rw [List.filter_cons_of_neg (by simp [hop]), ih (hh.perform_others hop), drains,
        answer_others hop, List.nil_append]
    | false =>
      rw [List.filter_cons_of_pos (by simp [hop]), drains, drains, ih (hh.perform op), hh.answer_eq]

/-- Neither does what is left over for it. -/
theorem leftOver_filter {ops : List HubOp} : ∀ {h₁ h₂ : KeyHub}, Alike id h₁ h₂ →
    leftOver id h₁ (ops.filter fun op => !op.isOthers id) = leftOver id h₂ ops := by
  induction ops with
  | nil => exact fun hh => hh.queued_eq
  | cons op rest ih =>
    intro h₁ h₂ hh
    cases hop : op.isOthers id with
    | true =>
      have hend : op ≠ .unsubscribe id := by
        rintro rfl
        simp [isOthers] at hop
      rw [List.filter_cons_of_neg (by simp [hop]), ih (hh.perform_others hop), leftOver,
        if_neg fun hc => hend hc.1]
    | false =>
      rw [List.filter_cons_of_pos (by simp [hop]), leftOver, leftOver, ih (hh.perform op),
        hh.lookup_eq, hh.queued_eq]

/-! ## The live subscriptions -/

/-- A use that makes no subscription changes their numbers only by ending one. -/
theorem numbers_perform (h : KeyHub) {op : HubOp} (hop : ¬op.isSubscribe) :
    (h.perform op).queues.map Prod.fst =
      (h.queues.map Prod.fst).filter fun id => op ≠ .unsubscribe id := by
  have hkept (hend : ∀ id, op ≠ .unsubscribe id) :
      (h.queues.map Prod.fst).filter (fun id => op ≠ .unsubscribe id) = h.queues.map Prod.fst :=
    List.filter_eq_self.mpr fun id _ => decide_eq_true (hend id)
  cases op with
  | subscribe => exact absurd rfl hop
  | dispatch _ e =>
    rw [hkept fun _ he => by cases he]
    exact List.map_map
  | drain n =>
    rw [hkept fun _ he => by cases he]
    refine List.map_map.trans (List.map_congr_left fun q _ => ?_)
    by_cases hn : q.1 = n
    · exact (congrArg Prod.fst (if_pos hn)).trans hn.symm
    · exact congrArg Prod.fst (if_neg hn)
  | unsubscribe n =>
    rw [List.filter_map]
    refine congrArg (List.map Prod.fst) (List.filter_congr fun q _ => ?_)
    simp [eq_comm]

theorem next_performAll (ops : List HubOp) :
    (empty.performAll ops).next = ops.countP isSubscribe := by
  induction ops using List.reverseRecOn with
  | nil => rfl
  | append_singleton ops op ih =>
    rw [performAll_concat, List.countP_append, ← ih]
    cases op <;> rfl

/-- The numbers of the queues are those of the live subscriptions, each once. -/
theorem numbers_performAll (ops : List HubOp) :
    (empty.performAll ops).queues.map Prod.fst = live ops := by
  induction ops using List.reverseRecOn with
  | nil => rfl
  | append_singleton ops op ih =>
    by_cases hop : op.isSubscribe
    · cases op with
      | subscribe handle =>
        rw [performAll_concat, live_concat_subscribe, ← ih, ← next_performAll]
        exact List.map_append
      | _ => cases hop
    · rw [performAll_concat, live_concat ops hop, ← ih, numbers_perform _ hop]

/-- What is left over for a subscription that is live in the end is what is queued for it. -/
theorem leftOver_of_live {ops : List HubOp} : ∀ {h : KeyHub}, h.NoneAhead →
    ((h.performAll ops).queues.lookup id).isSome →
      leftOver id h ops = (h.performAll ops).queued id := by
  induction ops with
  | nil => exact fun _ _ => rfl
  | cons op rest ih =>
    intro h hnone hlive
    have hgo : ¬(op = .unsubscribe id ∧ (h.queues.lookup id).isSome) := by
      rintro ⟨rfl, hq⟩
      have hid : id < h.next := by
        by_contra hle
        rw [hnone id (Nat.le_of_not_lt hle)] at hq
        cases hq
      have hgone : (h.unsubscribe id).queues.lookup id = none :=
        (lookup_unsubscribe h id id).trans (if_pos rfl)
      have hend : ((h.unsubscribe id).performAll rest).queues.lookup id = none :=
        lookup_performAll_of_gone hgone hid
      exact Option.not_isSome_iff_eq_none.mpr hend hlive
    rw [leftOver, if_neg hgo]
    exact ih (hnone.perform op) hlive

/-- Every subscription gets the events that are dispatched while it is live, in order and each once:
what its drains return, followed by what is still queued for it, or was when it ended, are these
events, and would be the same had no other subscription been drained or ended. Subscriptions are
numbered in the order in which they are made, and those that count are those that have not ended. -/
theorem fan_out (ops : List HubOp) :
    (∀ id, (drains id empty ops).flatten ++ leftOver id empty ops = heard id ops ∧
      drains id empty (ops.filter fun op => !op.isOthers id) = drains id empty ops ∧
      leftOver id empty (ops.filter fun op => !op.isOthers id) = leftOver id empty ops) ∧
    (∀ id ∈ live ops, leftOver id empty ops = (empty.performAll ops).queued id) ∧
    (empty.performAll ops).subscribe.1 = ops.countP isSubscribe ∧
    (empty.performAll ops).count = (live ops).length := by
  refine ⟨fun id => ⟨?_, drains_filter ⟨rfl, rfl⟩, leftOver_filter ⟨rfl, rfl⟩⟩, fun id hid => ?_,
    next_performAll ops, ?_⟩
  · exact received_of_pending noneAhead_empty (Nat.zero_add id).symm
  · refine leftOver_of_live noneAhead_empty ?_
    rw [← numbers_performAll] at hid
    obtain ⟨q, hq, rfl⟩ := List.mem_map.mp hid
    exact List.lookup_isSome_iff.mpr ⟨q, hq, beq_self_eq_true q.1⟩
  · rw [← numbers_performAll, List.length_map, count]

end KeyHub

end Labeling
