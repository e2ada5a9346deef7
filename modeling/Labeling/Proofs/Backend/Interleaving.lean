import Labeling.Backend.Worker
import Labeling.Proofs.Session.History

/-!
# A session and its worker side by side

A worker runs on its own. It takes the oldest request out of one queue, has the backend answer it,
and puts the result at the end of another queue; between any two of these steps the host may do
something. The host performs what the user wants, hands in the requests that the session made since
the last round, one by one, and takes the results that are there, one by one, which it gives to the
session. An `Exchange` is a moment of all this, and `Exchange.Step` whatever may happen next.

So a request is in one of five places until its result is taken: in the outbox, with the host, in
the first queue, in the hand of the worker, or in the second queue. In whatever order the steps
come, requests leave every place in the order in which they came.

* `Backend.serve` is a backend that answers requests one after the other, with nobody beside it;
* `Exchange.answered_in_order`: the results that the session was given are the first ones of those
  that the backend gives to its requests, and the number of pending requests is right.
-/

namespace Labeling

variable {σ : Type}

/-- The results of some requests that are carried out one after the other, and the state of the
backend afterwards. -/
def Backend.serve (b : Backend σ) (state : σ) :
    List (Ticket × Request) → List (Ticket × Response) × σ
  | [] => ([], state)
  | (ticket, request) :: rest =>
    let (result, state) := b.execute request state
    let (results, state) := b.serve state rest
    ((ticket, result) :: results, state)

theorem Backend.serve_append (b : Backend σ) (first second : List (Ticket × Request)) :
    ∀ state, b.serve state (first ++ second) =
      ((b.serve state first).1 ++ (b.serve (b.serve state first).2 second).1,
        (b.serve (b.serve state first).2 second).2) := by
  induction first with
  | nil => exact fun _ => rfl
  | cons m rest ih =>
    intro state
    simp only [List.cons_append, serve, ih]

/-- There is one result for each request, with its ticket. -/
theorem Backend.tickets_serve (b : Backend σ) (requests : List (Ticket × Request)) :
    ∀ state, (b.serve state requests).1.map Prod.fst = requests.map Prod.fst := by
  induction requests with
  | nil => exact fun _ => rfl
  | cons m rest ih => exact fun state => congrArg (m.1 :: ·) (ih _)

theorem Backend.length_serve (b : Backend σ) (state : σ) (requests : List (Ticket × Request)) :
    (b.serve state requests).1.length = requests.length := by
  have h := congrArg List.length (b.tickets_serve requests state)
  rwa [List.length_map, List.length_map] at h

/-- What the user does goes past the worker. -/
def SessionOp.ByUser : SessionOp → Prop
  | .takeRequests => False
  | .complete _ _ => False
  | _ => True

namespace Session

/-- Whatever the user does to a session, started or not, its requests are only added to. -/
theorem perform_grows (d : Desk) {op : SessionOp} (hop : op.ByUser) :
    Grows (fun _ => True) d.session (d.perform op).session := by
  rcases perform_cases d (@False.elim (d.session.Honest op)) with
    hw | ht | rfl | rfl | rfl | ⟨t, result, rfl⟩
  · exact hw.grows.mono fun _ _ => trivial
  · exact ht.grows.mono fun _ _ => trivial
  · show Grows _ d.session d.session.start
    unfold start
    split
    · exact Grows.trans (.of_eq rfl rfl) ((install_grows _ _).mono fun _ _ => trivial)
    · exact grows_issue trivial rfl rfl
  · exact d.session.tick_grows.mono fun _ _ => trivial
  · exact hop.elim
  · exact hop.elim

theorem complete_grows (s : Session) (t : Ticket) (result : Response) :
    Grows (fun _ => True) s (s.complete t result) := by
  unfold complete
  split
  · exact .of_eq rfl rfl
  · exact (s.apply_effect t.purpose result).grows.mono fun _ _ => trivial

end Session

/-! ## Moments -/

/-- What the worker has taken out of its queue and not passed on. -/
inductive Hand where
  | free
  | request (ticket : Ticket) (request : Request)
  | result (ticket : Ticket) (result : Response)

namespace Hand

/-- The request that the backend has not seen. -/
def requests : Hand → List (Ticket × Request)
  | .request t r => [(t, r)]
  | _ => []

/-- The result that has not been passed on. -/
def results : Hand → List (Ticket × Response)
  | .result t r => [(t, r)]
  | _ => []

end Hand

/-- A session and a worker at work. Of the worker, what waits is the queue of requests and what is
finished the queue of results. -/
structure Exchange (σ : Type) where
  desk : Desk
  /-- Taken out of the outbox and not yet handed in. -/
  outgoing : List (Ticket × Request)
  worker : Worker
  hand : Hand
  backend : σ
  /-- The requests that were handed in, oldest first. -/
  sent : List (Ticket × Request)
  /-- The results that the session was given, oldest first. -/
  completed : List (Ticket × Response)

namespace Exchange

variable {b : Backend σ} {state : σ} {x y : Exchange σ}

/-- All requests that the session made. -/
def issued (x : Exchange σ) : List (Ticket × Request) :=
  x.sent ++ x.outgoing ++ x.desk.session.outbox

/-- The beginning, with a worker that has nothing to do. -/
def idle (d : Desk) (state : σ) : Exchange σ := ⟨d, [], .idle, .free, state, [], []⟩

/-- The user does something. -/
def operate (x : Exchange σ) (op : SessionOp) : Exchange σ :=
  { x with desk := x.desk.perform op }

/-- A round begins: the work that waited is done, and the new requests are taken. -/
def openRound (x : Exchange σ) : Exchange σ :=
  { x with
    desk := x.desk.onSession fun s => s.tick.takeRequests.2
    outgoing := x.desk.session.tick.takeRequests.1 }

/-- The next request is handed in. -/
def send (x : Exchange σ) (m : Ticket × Request) (rest : List (Ticket × Request)) : Exchange σ :=
  { x with outgoing := rest, worker := x.worker.submit m.1 m.2, sent := x.sent ++ [m] }

/-- A result is taken from the worker, and the session is given it. -/
def take (x : Exchange σ) (m : Ticket × Response) (worker : Worker) : Exchange σ :=
  { x with
    desk := x.desk.onSession (·.complete m.1 m.2)
    worker
    completed := x.completed ++ [m] }

/-- What the worker may do next. -/
inductive Work (b : Backend σ) (x : Exchange σ) : Exchange σ → Prop where
  | receive {t : Ticket} {r : Request} {rest : List (Ticket × Request)} (hfree : x.hand = .free)
      (hw : x.worker.waiting = (t, r) :: rest) :
      Work b x { x with worker := { x.worker with waiting := rest }, hand := .request t r }
  | execute {t : Ticket} {r : Request} (hh : x.hand = .request t r) :
      Work b x { x with
        hand := .result t (b.execute r x.backend).1, backend := (b.execute r x.backend).2 }
  | pass {t : Ticket} {result : Response} (hh : x.hand = .result t result) :
      Work b x { x with
        hand := .free
        worker := { x.worker with finished := x.worker.finished ++ [(t, result)] } }

/-- What may happen next. -/
inductive Step (b : Backend σ) (x : Exchange σ) : Exchange σ → Prop where
  | work {y : Exchange σ} (h : x.Work b y) : Step b x y
  | user {op : SessionOp} (hop : op.ByUser) : Step b x (x.operate op)
  | openRound (ho : x.outgoing = []) : Step b x x.openRound
  | send {m : Ticket × Request} {rest : List (Ticket × Request)} (ho : x.outgoing = m :: rest) :
      Step b x (x.send m rest)
  | take {m : Ticket × Response} {worker : Worker} (ht : x.worker.tryTake = (some m, worker)) :
      Step b x (x.take m worker)

/-- Any number of steps. -/
abbrev Steps (b : Backend σ) : Exchange σ → Exchange σ → Prop := Relation.ReflTransGen (Step b)

/-! ## Counting -/

/-- As many requests are pending as there are requests and results on their way. -/
def Counted (x : Exchange σ) : Prop :=
  x.worker.inFlight = x.worker.waiting.length + x.hand.requests.length + x.hand.results.length +
    x.worker.finished.length

theorem Counted.work (h : x.Counted) (hw : x.Work b y) : y.Counted := by
  cases hw with
  | receive hfree hwait =>
    simp only [Counted, hfree, hwait, Hand.requests, Hand.results, List.length_cons,
      List.length_nil] at h ⊢
    omega
  | execute hh =>
    simp only [Counted, hh, Hand.requests, Hand.results, List.length_cons,
      List.length_nil] at h ⊢
    omega
  | pass hh =>
    simp only [Counted, hh, Hand.requests, Hand.results, List.length_append, List.length_cons,
      List.length_nil] at h ⊢
    omega

theorem Counted.send (h : x.Counted) (m : Ticket × Request) (rest : List (Ticket × Request)) :
    (x.send m rest).Counted := by
  simp only [Counted, Exchange.send, Worker.submit, List.length_append, List.length_cons,
    List.length_nil] at h ⊢
  omega

/-- A result that can be taken is the oldest one. -/
theorem tryTake_eq_some {w w' : Worker} {m : Ticket × Response} (h : w.tryTake = (some m, w')) :
    ∃ rest, w.finished = m :: rest ∧
      w' = { w with finished := rest, inFlight := w.inFlight - 1 } := by
  unfold Worker.tryTake at h
  split at h
  · cases h
  · rename_i rest hrest
    cases h
    exact ⟨rest, hrest, rfl⟩

theorem Counted.take (h : x.Counted) {m : Ticket × Response} {w : Worker}
    (ht : x.worker.tryTake = (some m, w)) : (x.take m w).Counted := by
  obtain ⟨rest, hrest, rfl⟩ := tryTake_eq_some ht
  simp only [Counted, Exchange.take, hrest, List.length_cons] at h ⊢
  omega

/-! ## Order -/

/-- What holds at every moment, if the backend was in a certain state in the beginning. -/
structure Ordered (b : Backend σ) (state : σ) (x : Exchange σ) : Prop where
  /-- Tickets are numbered in the order in which they are made, and none is lost. -/
  numbered : x.issued.map (fun m => m.1.id) = List.range x.desk.session.nextTicket
  /-- The backend has seen all requests that were handed in but the last ones, which still wait. -/
  served : ∃ seen, x.sent = seen ++ (x.hand.requests ++ x.worker.waiting) ∧
    b.serve state seen = (x.completed ++ (x.worker.finished ++ x.hand.results), x.backend)
  counted : x.Counted

theorem ordered_idle {d : Desk} (hs : d.session.IsFresh) (state : σ) :
    (idle d state).Ordered b state where
  numbered := by
    show d.session.outbox.map _ = List.range d.session.nextTicket
    rcases hs with ⟨id, config, keys, h⟩ | ⟨set, config, keys, h⟩ <;> rw [h] <;> rfl
  served := ⟨[], rfl, rfl⟩
  counted := rfl

/-- When requests are only added, the numbers go on. -/
theorem Ordered.numbered_grows (h : x.Ordered b state) {s : Session}
    (hg : Session.Grows (fun _ => True) x.desk.session s) :
    (x.sent ++ x.outgoing ++ s.outbox).map (fun m => m.1.id) = List.range s.nextTicket := by
  obtain ⟨made, ho, hn, hi, -⟩ := hg
  have hold : (x.sent ++ x.outgoing ++ x.desk.session.outbox).map (fun m => m.1.id) =
    List.range x.desk.session.nextTicket := h.numbered
  rw [ho, hn, ← List.append_assoc, List.map_append, hold, hi, List.range_eq_range',
    List.range_eq_range', ← List.range'_append_1, Nat.zero_add]

theorem Ordered.work (h : x.Ordered b state) (hw : x.Work b y) : y.Ordered b state := by
  obtain ⟨seen, hsent, hserve⟩ := h.served
  have hcounted := h.counted.work hw
  cases hw with
  | @receive t r rest hfree hwait =>
    rw [hfree, hwait] at hsent
    rw [hfree] at hserve
    exact ⟨h.numbered, ⟨seen, hsent, hserve⟩, hcounted⟩
  | @execute t r hh =>
    rw [hh] at hsent hserve
    refine ⟨h.numbered, ⟨seen ++ [(t, r)], ?_, ?_⟩, hcounted⟩
    · rw [hsent, List.append_assoc]
      rfl
    · -- the backend is in the state in which it answers the next request
      rw [b.serve_append, hserve, List.append_assoc, List.append_assoc]
      rfl
  | @pass t result hh =>
    rw [hh] at hsent hserve
    refine ⟨h.numbered, ⟨seen, hsent, ?_⟩, hcounted⟩
    rw [hserve]
    simp [Hand.results]

theorem issued_send {m : Ticket × Request} {rest : List (Ticket × Request)}
    (ho : x.outgoing = m :: rest) : (x.send m rest).issued = x.issued := by
  unfold issued
  rw [ho]
  show x.sent ++ [m] ++ rest ++ _ = _
  rw [List.append_assoc x.sent]
  rfl

theorem Ordered.send (h : x.Ordered b state) {m : Ticket × Request}
    {rest : List (Ticket × Request)} (ho : x.outgoing = m :: rest) :
    (x.send m rest).Ordered b state where
  numbered := by
    rw [issued_send ho]
    exact h.numbered
  served := by
    obtain ⟨seen, hsent, hserve⟩ := h.served
    refine ⟨seen, ?_, hserve⟩
    show x.sent ++ [m] = seen ++ (x.hand.requests ++ (x.worker.waiting ++ [m]))
    rw [hsent, List.append_assoc, List.append_assoc]
  counted := h.counted.send m rest

theorem Ordered.take (h : x.Ordered b state) {m : Ticket × Response} {worker : Worker}
    (ht : x.worker.tryTake = (some m, worker)) : (x.take m worker).Ordered b state := by
  have hcounted := h.counted.take ht
  obtain ⟨rest, hrest, rfl⟩ := tryTake_eq_some ht
  obtain ⟨seen, hsent, hserve⟩ := h.served
  refine ⟨h.numbered_grows (x.desk.session.complete_grows m.1 m.2), ⟨seen, hsent, ?_⟩, hcounted⟩
  rw [hserve, hrest]
  show _ = ((x.completed ++ [m]) ++ (rest ++ x.hand.results), x.backend)
  rw [List.append_assoc]
  rfl

/-- Whatever happens next, nothing is lost, doubled or overtaken. -/
theorem Ordered.step (h : x.Ordered b state) (hs : x.Step b y) : y.Ordered b state := by
  cases hs with
  | work hw => exact h.work hw
  | user hop => exact ⟨h.numbered_grows (Session.perform_grows _ hop), h.served, h.counted⟩
  | openRound ho =>
    refine ⟨?_, h.served, h.counted⟩
    have htick := h.numbered_grows (x.desk.session.tick_grows.mono fun _ _ => trivial)
    rw [ho, List.append_nil] at htick
    show (x.sent ++ x.desk.session.tick.outbox ++ []).map _ = _
    rw [List.append_nil]
    exact htick
  | send ho => exact h.send ho
  | take ht => exact h.take ht

theorem Ordered.steps (h : x.Ordered b state) (hs : Steps b x y) : y.Ordered b state := by
  induction hs with
  | refl => exact h
  | tail _ hs ih => exact ih.step hs

/-- In whatever order the worker, the host and the user come: the tickets are numbered as they were
made, and the session is given the results of the first ones in this order. They are those that the
backend gives when it carries out the requests one after the other, each once, and it has carried
out no other requests. As many requests are pending as were handed in without their results having
been taken, so while there is a result to take, the number is not zero. -/
theorem answered_in_order {d : Desk} (hs : d.session.IsFresh)
    (hx : Steps b (idle d state) x) :
    x.issued.map (fun m => m.1.id) = List.range x.desk.session.nextTicket ∧
      x.completed.map Prod.fst <+: x.issued.map Prod.fst ∧
      x.completed <+: (b.serve state x.issued).1 ∧
      (∃ n, x.completed.length ≤ n ∧ n ≤ x.sent.length ∧
        x.backend = (b.serve state (x.issued.take n)).2) ∧
      x.worker.pending + x.completed.length = x.sent.length ∧
      (x.worker.finished ≠ [] → 0 < x.worker.pending) := by
  have h := (ordered_idle (b := b) hs state).steps hx
  obtain ⟨seen, hsent, hserve⟩ := h.served
  have hpending : x.worker.inFlight = x.worker.waiting.length + x.hand.requests.length +
      x.hand.results.length + x.worker.finished.length := h.counted
  -- the requests that the backend has seen are the first ones
  obtain ⟨later, hissued⟩ : ∃ later, x.issued = seen ++ later := by
    refine ⟨x.hand.requests ++ x.worker.waiting ++ (x.outgoing ++ x.desk.session.outbox), ?_⟩
    unfold issued
    rw [hsent]
    simp only [List.append_assoc]
  have hlength : seen.length =
      x.completed.length + (x.worker.finished.length + x.hand.results.length) := by
    rw [← b.length_serve state seen, hserve, List.length_append, List.length_append]
  have hsentlength : x.sent.length =
      seen.length + (x.hand.requests.length + x.worker.waiting.length) := by
    rw [hsent, List.length_append, List.length_append]
  have hprefix : x.completed <+: (b.serve state x.issued).1 := by
    rw [hissued, b.serve_append, hserve, List.append_assoc]
    exact List.prefix_append _ _
  refine ⟨h.numbered, ?_, hprefix, ⟨seen.length, by omega, by omega, ?_⟩, ?_, fun hne => ?_⟩
  · rw [← b.tickets_serve x.issued state]
    exact hprefix.map _
  · rw [hissued, List.take_left, hserve]
  · show x.worker.inFlight + _ = _
    omega
  · show 0 < x.worker.inFlight
    have := List.length_pos_iff.2 hne
    omega

/-- A backend that always gives the same item, and counts how often. -/
def exampleBackend : Backend Nat := ⟨fun _ n => (.ok (.json (.arr [.str "a"])), n + 1)⟩

/-- The first request is answered while the second one is still to be made. -/
theorem answered_in_order_first :
    let d : Desk := ⟨.empty, .ofSet (History.exampleSet .int .int) .default 0⟩
    ∃ x, d.session.IsFresh ∧ Steps exampleBackend (idle d 0) x ∧
      x.completed.map (fun m => m.1.id) = [0] ∧ x.sent.map (fun m => m.1.id) = [0, 1] ∧
      x.worker.pending + 1 = 2 := by
  intro d
  have hfresh : d.session.IsFresh := Or.inr ⟨_, _, _, rfl⟩
  have hsteps : ∃ x, Steps exampleBackend (idle d 0) x ∧
      x.completed.map (fun m => m.1.id) = [0] ∧ x.sent.map (fun m => m.1.id) = [0, 1] :=
    have hstart : SessionOp.start.ByUser := trivial
    ⟨_, ((((((((Relation.ReflTransGen.refl.tail (.user hstart)).tail
      (.openRound rfl)).tail (.send rfl)).tail (.work (.receive rfl rfl))).tail
      (.work (.execute rfl))).tail (.work (.pass rfl))).tail (.take rfl)).tail
      (.openRound rfl)).tail (.send rfl), by decide +kernel, by decide +kernel⟩
  obtain ⟨x, hx, hcompleted, hsent⟩ := hsteps
  have hpending := (answered_in_order hfresh hx).2.2.2.2.1
  refine ⟨x, hfresh, hx, hcompleted, hsent, ?_⟩
  have hc := congrArg List.length hcompleted
  have hs := congrArg List.length hsent
  simp only [List.length_map, List.length_cons, List.length_nil] at hc hs
  omega

end Exchange

end Labeling
