import Labeling.Backend.Worker
import Labeling.Session.Items

/-!
# Pumping a session

The host runs a session in rounds. In each round the work that waited is done, the new
requests are handed to a worker, and what the worker has finished goes back to the
session (`Loop.pump`). `Loop.runUntilIdle` repeats this until nothing is left to do.

How far the worker gets between two calls is not up to the host, so it is given from
outside (`pace`): the number of requests that it carries out in a round before the
results are collected.

Without the user a session settles by itself: every result makes fewer requests
necessary than it took to get there. `Loop.weight` adds up how many results can still
come, so it bounds the number of rounds.
-/

namespace Labeling

/-- A session, the worker that carries out its requests, and the state of the backend. -/
structure Loop (σ : Type) where
  session : Session
  worker : Worker
  backend : σ

/-- The greatest number of results that the result of a request can lead to, itself
counted. -/
def Purpose.weight : Purpose → Nat
  | .existingData => 1
  | .saveParams => 1
  | .frameImage _ => 1
  | .tool _ => 1
  | .itemMeta _ => 5
  | .assignment => 6
  | .keyList _ => 7
  | .submit => 8
  | .annotationSet => 8

/-- The greatest number of results that work can lead to. -/
def Deferred.weight : Deferred → Nat
  | .begin _ _ => 4
  | .showFrame _ _ => 1

namespace Loop

variable {σ : Type}

/-- The greatest number of results that can still come. -/
def weight (l : Loop σ) : Nat :=
  (l.session.outbox.map fun r => r.1.purpose.weight).foldr (· + ·) 0 +
    (l.session.deferred.map Deferred.weight).foldr (· + ·) 0 +
    (l.worker.waiting.map fun r => r.1.purpose.weight).foldr (· + ·) 0 +
    (l.worker.finished.map fun r => r.1.purpose.weight).foldr (· + ·) 0

/-- Hand the new requests to the worker, and count them. -/
def submitAll (l : Loop σ) : Nat × Loop σ :=
  let (requests, session) := l.session.takeRequests
  (requests.length,
    { l with session, worker := requests.foldl (fun w r => w.submit r.1 r.2) l.worker })

/-- Hand the results that are there to the session, and count them. -/
def completeAll (l : Loop σ) : Nat × Loop σ :=
  (l.worker.finished.length,
    { l with
      session := l.worker.finished.foldl (fun s r => s.complete r.1 r.2) l.session
      worker := { l.worker with
        finished := [], inFlight := l.worker.inFlight - l.worker.finished.length } })

/-- One round, in which the worker carries out up to a number of requests. It returns how
many requests were handed in and how many results were taken, together. -/
def pump (b : Backend σ) (pace : Nat) (l : Loop σ) : Nat × Loop σ :=
  let (sent, l) := { l with session := l.session.tick }.submitAll
  let (worker, backend) := l.worker.workSteps b pace l.backend
  let (taken, l) := { l with worker, backend }.completeAll
  (sent + taken, l)

/-- Repeat rounds until nothing is in flight, nothing waits and nothing happened. While
something is in flight, each round ends by waiting for one more result. -/
def runFrom (b : Backend σ) (pace : Nat → Nat) : Nat → Nat → Loop σ → Loop σ
  | 0, _, l => l
  | fuel + 1, round, l =>
    let (activity, l) := l.pump b (pace round)
    if l.worker.pending = 0 then
      if activity = 0 && !l.session.hasDeferred then l else runFrom b pace fuel (round + 1) l
    else
      match l.worker.takeBlocking b l.backend with
      | (none, worker, backend) => { l with worker, backend }
      | (some (ticket, result), worker, backend) =>
        runFrom b pace fuel (round + 1)
          { session := l.session.complete ticket result, worker, backend }

/-- Run the session until it is idle. Every round but the last one takes a result. -/
def runUntilIdle (b : Backend σ) (pace : Nat → Nat) (l : Loop σ) : Loop σ :=
  runFrom b pace (l.weight + 1) 0 l

end Loop

end Labeling
