import Labeling.Keyboard.Hub

/-!
# The queue of one subscription

What the operations of the hub do to the queue of one subscription, an equation for each. A queue is
found by `List.lookup`, so that a subscription that has ended, which has none, is told from one with
nothing queued.
-/

namespace Labeling

/-- A change of the values of a list of pairs, which may look at the names, is found under the same
names. -/
theorem lookup_map_snd {β : Type} (f : Nat → β → β) (id : Nat) :
    ∀ pairs : List (Nat × β),
      (pairs.map fun q => (q.1, f q.1 q.2)).lookup id = (pairs.lookup id).map (f id)
  | [] => rfl
  | (n, b) :: rest => by
    rw [List.map_cons, List.lookup_cons, List.lookup_cons, lookup_map_snd f id rest]
    cases h : id == n with
    | false => rfl
    | true =>
      rw [eq_of_beq h]
      rfl

theorem lookup_cons_of_ne {β : Type} {id : Nat} {pair : Nat × β} (h : id ≠ pair.1)
    (rest : List (Nat × β)) : (pair :: rest).lookup id = rest.lookup id := by
  rw [List.lookup_cons, beq_false_of_ne h]

namespace KeyHub

variable {h : KeyHub} {id : Nat} {queue : List KeyEvent}

theorem queued_of_lookup (hq : h.queues.lookup id = some queue) : h.queued id = queue := by
  rw [queued, hq]
  rfl

/-! ## Every operation and one queue -/

/-- A subscription begins with an empty queue, and the others keep theirs. -/
theorem lookup_subscribe (h : KeyHub) (id : Nat) :
    h.subscribe.2.queues.lookup id =
      (h.queues.lookup id).or (if id = h.next then some [] else none) := by
  have hnew : [(h.next, ([] : List KeyEvent))].lookup id = if id = h.next then some [] else none := by
    by_cases hn : id = h.next
    · rw [if_pos hn, hn, List.lookup_cons_self]
    · rw [if_neg hn, lookup_cons_of_ne hn]
      rfl
  rw [← hnew]
  exact List.lookup_append

/-- An event is put at the end of every queue. -/
theorem lookup_dispatch_eq (h : KeyHub) (e : KeyEvent) (id : Nat) :
    (h.dispatch e).queues.lookup id = (h.queues.lookup id).map (· ++ [e]) :=
  lookup_map_snd (fun _ q => q ++ [e]) id h.queues

/-- A queue that is drained is empty, and the others stay as they are. -/
theorem lookup_drain_eq (h : KeyHub) (n id : Nat) :
    (h.drain n).2.queues.lookup id =
      (h.queues.lookup id).map fun q => if id = n then [] else q := by
  have heq : (h.drain n).2.queues = h.queues.map fun q => (q.1, if q.1 = n then [] else q.2) := by
    refine List.map_congr_left fun q _ => ?_
    by_cases hn : q.1 = n
    · rw [if_pos hn, if_pos hn, hn]
    · rw [if_neg hn, if_neg hn]
  rw [heq]
  exact lookup_map_snd (fun m q => if m = n then [] else q) id h.queues

/-- A subscription that has ended has no queue, and the others keep theirs. -/
theorem lookup_unsubscribe (h : KeyHub) (n id : Nat) :
    (h.unsubscribe n).queues.lookup id = if id = n then none else h.queues.lookup id := by
  show (h.queues.filter fun q => q.1 ≠ n).lookup id = _
  induction h.queues with
  | nil => simp
  | cons q rest ih =>
    by_cases hn : q.1 = n
    · rw [List.filter_cons_of_neg (by simp [hn]), ih]
      by_cases hid : id = n
      · rw [if_pos hid, if_pos hid]
      · rw [if_neg hid, if_neg hid, lookup_cons_of_ne (hn ▸ hid)]
    · rw [List.filter_cons_of_pos (by simp [hn])]
      by_cases hid : id = q.1
      · rw [hid, if_neg hn, List.lookup_cons_self, List.lookup_cons_self]
      · rw [lookup_cons_of_ne hid, lookup_cons_of_ne hid, ih]

/-- An event that is dispatched comes last in every queue. -/
theorem lookup_dispatch (hq : h.queues.lookup id = some queue) (e : KeyEvent) :
    (h.dispatch e).queues.lookup id = some (queue ++ [e]) := by
  rw [lookup_dispatch_eq, hq]
  rfl

/-- After its queue was drained a subscription is still live, and nothing is queued for it. -/
theorem lookup_drain (hq : h.queues.lookup id = some queue) :
    (h.drain id).2.queues.lookup id = some [] := by
  rw [lookup_drain_eq, hq]
  exact congrArg some (if_pos rfl)

end KeyHub

end Labeling
