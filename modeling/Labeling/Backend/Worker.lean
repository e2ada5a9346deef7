import Labeling.Request

/-!
# The request worker

A worker carries out requests one after the other, in the order in which they were
handed to it, and keeps the results until they are taken. It runs beside whoever uses
it: between two calls it may have carried out any number of requests (`Worker.work`).

A backend is anything that answers a request; it may change while doing so.
-/

namespace Labeling

/-- Something that answers requests. -/
structure Backend (σ : Type) where
  execute : Request → σ → Response × σ

/-- Requests on their way to a backend, and results on their way back. -/
structure Worker where
  /-- Handed in and not yet carried out, oldest first. -/
  waiting : List (Ticket × Request)
  /-- Carried out and not yet taken, oldest first. -/
  finished : List (Ticket × Response)
  /-- Handed in and not yet taken. -/
  inFlight : Nat

namespace Worker

variable {σ : Type}

/-- A worker with nothing to do. -/
def idle : Worker := ⟨[], [], 0⟩

/-- Hand in a request. -/
def submit (w : Worker) (ticket : Ticket) (request : Request) : Worker :=
  { w with waiting := w.waiting ++ [(ticket, request)], inFlight := w.inFlight + 1 }

/-- Carry out the oldest request, if there is one. -/
def work (b : Backend σ) (w : Worker) (state : σ) : Worker × σ :=
  match w.waiting with
  | [] => (w, state)
  | (ticket, request) :: rest =>
    let (result, state) := b.execute request state
    ({ w with waiting := rest, finished := w.finished ++ [(ticket, result)] }, state)

/-- Carry out up to a number of requests. -/
def workSteps (b : Backend σ) : Nat → Worker → σ → Worker × σ
  | 0, w, state => (w, state)
  | n + 1, w, state =>
    let (w, state) := work b w state
    workSteps b n w state

/-- Take the oldest result, if there is one. -/
def tryTake (w : Worker) : Option (Ticket × Response) × Worker :=
  match w.finished with
  | [] => (none, w)
  | result :: rest => (some result, { w with finished := rest, inFlight := w.inFlight - 1 })

/-- Take the oldest result, and wait for it if it is not there yet. -/
def takeBlocking (b : Backend σ) (w : Worker) (state : σ) :
    Option (Ticket × Response) × Worker × σ :=
  let (w, state) := if w.finished.isEmpty then work b w state else (w, state)
  let (result, w) := w.tryTake
  (result, w, state)

/-- The number of requests handed in and not yet taken. -/
def pending (w : Worker) : Nat := w.inFlight

end Worker

end Labeling
