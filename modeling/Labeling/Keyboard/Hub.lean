import Labeling.Keyboard.Key

/-!
# The keyboard hub

Key events are dispatched to a hub, which queues them for every subscription that is
live at that moment. A subscription is known by its number; numbers are never used
twice. Draining a subscription takes what is queued for it and leaves the others
alone.
-/

namespace Labeling

/-- The live subscriptions with the events queued for each. -/
structure KeyHub where
  /-- The number of the next subscription. -/
  next : Nat
  queues : List (Nat × List KeyEvent)
  deriving Repr

namespace KeyHub

/-- A hub without subscriptions. -/
def empty : KeyHub := ⟨0, []⟩

/-- Add a subscription, and return its number. -/
def subscribe (h : KeyHub) : Nat × KeyHub :=
  (h.next, { next := h.next + 1, queues := h.queues ++ [(h.next, [])] })

/-- Queue an event for every subscription. -/
def dispatch (h : KeyHub) (e : KeyEvent) : KeyHub :=
  { h with queues := h.queues.map fun q => (q.1, q.2 ++ [e]) }

/-- The events queued for a subscription, oldest first. -/
def queued (h : KeyHub) (id : Nat) : List KeyEvent := (h.queues.lookup id).getD []

/-- Take the events queued for a subscription. -/
def drain (h : KeyHub) (id : Nat) : List KeyEvent × KeyHub :=
  (h.queued id, { h with queues := h.queues.map fun q => if q.1 = id then (id, []) else q })

/-- End a subscription. -/
def unsubscribe (h : KeyHub) (id : Nat) : KeyHub :=
  { h with queues := h.queues.filter fun q => q.1 ≠ id }

/-- The number of live subscriptions. -/
def count (h : KeyHub) : Nat := h.queues.length

end KeyHub

end Labeling
