import Mathlib.Order.WellFounded
import Mathlib.Data.Prod.Lex
import Labeling.Proofs.Session.Weights
import Labeling.Proofs.Backend.Interleaving

/-!
# Running a session until it is idle

`Loop.runUntilIdle` repeats rounds until nothing is left to do. Here it is taken apart into the
steps of the host (`Running.Step`), with those of the worker in between, wherever they come. In a
round the host hands in the new requests, then takes the results that are there, and then decides:
to return, to begin another round at once, or to wait for a result first.

Every result that is taken leads to less than its request could lead to, and rounds add nothing
(`Session.weight`). A round that does not wait at its end and is not the last one has taken a
result, because otherwise it would have had nothing to hand in either. So every round but the first
one costs a result.

* `Running.settles`: however the steps of the worker come, the run ends, after a number of rounds
  that the weight bounds, and it ends with nothing left to do;
* `Loop.runUntilIdle_settled`: in particular `Loop.runUntilIdle` does, because it is such a run
  (`Loop.runFrom_steps`).
-/

namespace Labeling

variable {σ : Type}

/-- The greatest number of answers that some requests can lead to. -/
def load {α : Type} (messages : List (Ticket × α)) : Nat :=
  (messages.map fun m => m.1.purpose.weight).sum

section load

variable {α : Type}

@[simp] theorem load_nil : load ([] : List (Ticket × α)) = 0 := rfl

@[simp] theorem load_cons (m : Ticket × α) (rest : List (Ticket × α)) :
    load (m :: rest) = m.1.purpose.weight + load rest := by
  simp [load]

@[simp] theorem load_append (first second : List (Ticket × α)) :
    load (first ++ second) = load first + load second := by
  simp [load]

end load

namespace Exchange

variable {b : Backend σ} {x y : Exchange σ}

/-- The greatest number of results that can still come. -/
def weight (x : Exchange σ) : Nat :=
  x.desk.session.weight + load x.outgoing + load x.worker.waiting + load x.hand.requests +
    load x.hand.results + load x.worker.finished

/-- The number of steps until all results are taken, if no request is made. -/
def distance (x : Exchange σ) : Nat :=
  5 * x.outgoing.length + 4 * x.worker.waiting.length + 3 * x.hand.requests.length +
    2 * x.hand.results.length + x.worker.finished.length

/-- What a step of the worker does not change, and that it brings the results nearer. -/
structure Advances (x y : Exchange σ) : Prop where
  desk : y.desk = x.desk
  outgoing : y.outgoing = x.outgoing
  inFlight : y.worker.inFlight = x.worker.inFlight
  weight : y.weight = x.weight
  distance : y.distance + 1 = x.distance

theorem Work.advances (h : x.Work b y) : Advances x y := by
  cases h with
  | @receive t r rest hfree hw =>
    refine ⟨rfl, rfl, rfl, ?_, ?_⟩
    · simp only [weight, hfree, hw, Hand.requests, Hand.results, load_cons, load_nil]
      omega
    · simp only [distance, hfree, hw, Hand.requests, Hand.results, List.length_cons,
        List.length_nil]
      omega
  | @execute t r hh =>
    refine ⟨rfl, rfl, rfl, ?_, ?_⟩
    · simp only [weight, hh, Hand.requests, Hand.results, load_cons, load_nil]
      omega
    · simp only [distance, hh, Hand.requests, Hand.results, List.length_cons, List.length_nil]
      omega
  | @pass t result hh =>
    refine ⟨rfl, rfl, rfl, ?_, ?_⟩
    · simp only [weight, hh, Hand.requests, Hand.results, load_append, load_cons, load_nil]
      omega
    · simp only [distance, hh, Hand.requests, Hand.results, List.length_append, List.length_cons,
        List.length_nil]
      omega

theorem weight_openRound_le (ho : x.outgoing = []) : x.openRound.weight ≤ x.weight := by
  have htick := x.desk.session.weight_tick_le
  have hsplit : x.desk.session.tick.weight = load x.desk.session.tick.outbox +
      (x.desk.session.tick.deferred.map Deferred.weight).sum := rfl
  have hrest : x.openRound.desk.session.weight =
      0 + (x.desk.session.tick.deferred.map Deferred.weight).sum := rfl
  show x.openRound.desk.session.weight + load x.desk.session.tick.outbox + _ + _ + _ + _ ≤
    x.desk.session.weight + load x.outgoing + load x.worker.waiting + load x.hand.requests +
      load x.hand.results + load x.worker.finished
  rw [ho, hrest]
  show _ + load x.worker.waiting + load x.hand.requests + load x.hand.results +
    load x.worker.finished ≤ _
  simp only [load_nil]
  omega

section send

variable {m : Ticket × Request} {rest : List (Ticket × Request)}

theorem weight_send (ho : x.outgoing = m :: rest) : (x.send m rest).weight = x.weight := by
  simp only [weight, send, Worker.submit, ho, load_append, load_cons, load_nil]
  omega

theorem distance_send (ho : x.outgoing = m :: rest) :
    (x.send m rest).distance + 1 = x.distance := by
  simp only [distance, send, Worker.submit, ho, List.length_append, List.length_cons,
    List.length_nil]
  omega

end send

section take

variable {m : Ticket × Response} {w : Worker}

/-- A result that is taken leads to less than its request could lead to. -/
theorem weight_take_lt (ht : x.worker.tryTake = (some m, w)) : (x.take m w).weight < x.weight := by
  obtain ⟨rest, hrest, rfl⟩ := tryTake_eq_some ht
  have hcomplete := x.desk.session.weight_complete_lt m.1 m.2
  simp only [weight, take, Desk.onSession, hrest, load_cons]
  omega

theorem distance_take (ht : x.worker.tryTake = (some m, w)) :
    (x.take m w).distance + 1 = x.distance := by
  obtain ⟨rest, hrest, rfl⟩ := tryTake_eq_some ht
  simp only [distance, take, hrest, List.length_cons]
  omega

theorem inFlight_take (h : x.Counted) (ht : x.worker.tryTake = (some m, w)) :
    w.inFlight + 1 = x.worker.inFlight := by
  obtain ⟨rest, hrest, rfl⟩ := tryTake_eq_some ht
  simp only [Counted, hrest, List.length_cons] at h ⊢
  omega

end take

/-- While something is pending, there is a result to take or the worker can go on. -/
theorem Counted.progress (h : x.Counted) (hp : x.worker.inFlight ≠ 0) :
    (∃ m w, x.worker.tryTake = (some m, w)) ∨ ∃ y, x.Work b y := by
  cases hf : x.worker.finished with
  | cons m rest =>
    refine Or.inl
      ⟨m, { x.worker with finished := rest, inFlight := x.worker.inFlight - 1 }, ?_⟩
    unfold Worker.tryTake
    rw [hf]
  | nil =>
    cases hh : x.hand with
    | request t r => exact Or.inr ⟨_, .execute hh⟩
    | result t result => exact Or.inr ⟨_, .pass hh⟩
    | free =>
      cases hw : x.worker.waiting with
      | cons m rest => exact Or.inr ⟨_, .receive hh hw⟩
      | nil =>
        simp only [Counted, hf, hh, hw, Hand.requests, Hand.results, List.length_nil] at h
        exact absurd h hp

end Exchange

/-! ## The steps of the host -/

/-- Where the host is. -/
inductive Phase where
  /-- A round is to begin. -/
  | round
  /-- The new requests are handed in; so many of them already were. -/
  | sending (sent : Nat)
  /-- The results are taken; so many requests were handed in, and so many results taken. -/
  | collecting (sent taken : Nat)
  /-- A result has to come first. -/
  | waiting
  | returned

namespace Phase

/-- The rounds that follow without another result. -/
def ahead : Phase → Nat
  | .round => 1
  | .collecting _ (_ + 1) => 1
  | _ => 0

/-- How far the end of the round is. -/
def remaining : Phase → Nat
  | .sending _ => 2
  | .collecting _ _ => 1
  | _ => 0

end Phase

/-- A session that is run until it is idle. -/
structure Running (σ : Type) where
  exchange : Exchange σ
  phase : Phase
  /-- The number of rounds that were begun. -/
  rounds : Nat

/-- There is nothing left to do. -/
structure Session.Settled (s : Session) (w : Worker) : Prop where
  outbox : s.outbox = []
  deferred : s.deferred = []
  pending : w.pending = 0

namespace Running

variable {b : Backend σ} {x y : Running σ}

/-- What follows a round in which something was done. -/
def next (x : Exchange σ) (activity : Nat) : Phase :=
  if x.worker.pending = 0 then
    if activity = 0 && !x.desk.session.hasDeferred then .returned else .round
  else .waiting

/-- What may happen next. -/
inductive Step (b : Backend σ) (x : Running σ) : Running σ → Prop where
  | work {y : Exchange σ} (h : x.exchange.Work b y) : Step b x ⟨y, x.phase, x.rounds⟩
  | openRound (hs : x.phase = .round) : Step b x ⟨x.exchange.openRound, .sending 0, x.rounds + 1⟩
  | send {n : Nat} {m : Ticket × Request} {rest : List (Ticket × Request)}
      (hs : x.phase = .sending n) (ho : x.exchange.outgoing = m :: rest) :
      Step b x ⟨x.exchange.send m rest, .sending (n + 1), x.rounds⟩
  | sent {n : Nat} (hs : x.phase = .sending n) (ho : x.exchange.outgoing = []) :
      Step b x ⟨x.exchange, .collecting n 0, x.rounds⟩
  | take {n k : Nat} {m : Ticket × Response} {w : Worker} (hs : x.phase = .collecting n k)
      (ht : x.exchange.worker.tryTake = (some m, w)) :
      Step b x ⟨x.exchange.take m w, .collecting n (k + 1), x.rounds⟩
  | collected {n k : Nat} (hs : x.phase = .collecting n k)
      (hf : x.exchange.worker.finished = []) :
      Step b x ⟨x.exchange, next x.exchange (n + k), x.rounds⟩
  | await {m : Ticket × Response} {w : Worker} (hs : x.phase = .waiting)
      (ht : x.exchange.worker.tryTake = (some m, w)) :
      Step b x ⟨x.exchange.take m w, .round, x.rounds⟩

/-- Any number of steps. -/
abbrev Steps (b : Backend σ) : Running σ → Running σ → Prop := Relation.ReflTransGen (Step b)

/-! ## What holds all along -/

/-- What is known where the host is. As long as no result was taken in a round, nothing new is to
be done. -/
def Fits (x : Exchange σ) : Phase → Prop
  | .round => x.outgoing = []
  | .sending n =>
    x.desk.session.outbox = [] ∧ x.desk.session.deferred = [] ∧ n ≤ x.worker.inFlight
  | .collecting n k =>
    x.outgoing = [] ∧ n ≤ x.worker.inFlight + k ∧
      (k = 0 → x.desk.session.outbox = [] ∧ x.desk.session.deferred = [])
  | .waiting => x.outgoing = [] ∧ x.worker.inFlight ≠ 0
  | .returned => x.desk.session.Settled x.worker

/-- What holds all along. -/
structure Sound (x : Running σ) : Prop where
  counted : x.exchange.Counted
  fits : Fits x.exchange x.phase

/-- The greatest number of rounds that can still begin. -/
def roundsLeft (x : Running σ) : Nat := x.exchange.weight + x.phase.ahead

/-- The greatest number of steps until a round begins or nothing can happen any more. -/
def stepsLeft (x : Running σ) : Nat := x.exchange.distance + x.phase.remaining

/-- A round begins, and one less is left, or its end is nearer. -/
def Descends (x y : Running σ) : Prop :=
  (y.rounds = x.rounds + 1 ∧ y.roundsLeft < x.roundsLeft) ∨
    (y.rounds = x.rounds ∧ y.roundsLeft ≤ x.roundsLeft ∧ y.stepsLeft < x.stepsLeft)

/-- The worker does not interfere with the host. -/
theorem Fits.advances {x y : Exchange σ} {phase : Phase} (h : Fits x phase)
    (ha : Exchange.Advances x y) : Fits y phase := by
  cases phase with
  | round => exact ha.outgoing.trans h
  | sending n =>
    unfold Fits
    rw [ha.desk, ha.inFlight]
    exact h
  | collecting n k =>
    unfold Fits
    rw [ha.desk, ha.inFlight, ha.outgoing]
    exact h
  | waiting =>
    unfold Fits
    rw [ha.inFlight, ha.outgoing]
    exact h
  | returned =>
    unfold Fits
    rw [ha.desk]
    exact ⟨h.outbox, h.deferred, ha.inFlight.trans h.pending⟩

/-- When a round is over, the host returns only if there is nothing left to do. It begins another
one at once only if it has taken a result. -/
theorem Sound.next (h : x.Sound) {n k : Nat} (hs : x.phase = .collecting n k) :
    Fits x.exchange (next x.exchange (n + k)) ∧
      (next x.exchange (n + k)).ahead ≤ x.phase.ahead ∧
      (next x.exchange (n + k)).remaining = 0 := by
  have hfits := h.fits
  rw [hs] at hfits ⊢
  obtain ⟨ho, hn, hnothing⟩ := hfits
  unfold Running.next
  by_cases hp : x.exchange.worker.pending = 0
  · have hpending : x.exchange.worker.inFlight = 0 := hp
    rw [if_pos hp]
    by_cases hd : (decide (n + k = 0) && !x.exchange.desk.session.hasDeferred) = true
    · rw [if_pos hd]
      simp only [Bool.and_eq_true, decide_eq_true_eq] at hd
      obtain ⟨hout, hdef⟩ := hnothing (by omega)
      exact ⟨⟨hout, hdef, hp⟩, Nat.zero_le _, rfl⟩
    · rw [if_neg hd]
      refine ⟨ho, ?_, rfl⟩
      -- without a result nothing was handed in either, and nothing is deferred
      cases k with
      | succ k => exact Nat.le_refl 1
      | zero =>
        refine absurd ?_ hd
        have hzero : n + 0 = 0 := by omega
        simp [hzero, Session.hasDeferred, (hnothing rfl).2]
  · rw [if_neg hp]
    exact ⟨⟨ho, hp⟩, Nat.zero_le _, rfl⟩

theorem Sound.openRound (h : x.Sound) (hs : x.phase = .round) :
    (⟨x.exchange.openRound, .sending 0, x.rounds + 1⟩ : Running σ).Sound ∧
      x.Descends ⟨x.exchange.openRound, .sending 0, x.rounds + 1⟩ := by
  have ho := h.fits
  rw [hs] at ho
  refine ⟨⟨h.counted, rfl, x.exchange.desk.session.deferred_tick, Nat.zero_le _⟩, Or.inl ⟨rfl, ?_⟩⟩
  have hweight := Exchange.weight_openRound_le ho
  show x.exchange.openRound.weight + 0 < x.exchange.weight + x.phase.ahead
  rw [hs]
  show _ < _ + 1
  omega

/-- A result that is taken makes up for the round that may follow. -/
theorem Sound.take (h : x.Sound) {m : Ticket × Response} {w : Worker} {phase : Phase}
    (ht : x.exchange.worker.tryTake = (some m, w))
    (hfits : Fits (x.exchange.take m w) phase)
    (ha : phase.ahead = 1) (hr : phase.remaining = x.phase.remaining) :
    (⟨x.exchange.take m w, phase, x.rounds⟩ : Running σ).Sound ∧
      x.Descends ⟨x.exchange.take m w, phase, x.rounds⟩ := by
  refine ⟨⟨h.counted.take ht, hfits⟩, Or.inr ⟨rfl, ?_, ?_⟩⟩
  · have hweight := Exchange.weight_take_lt ht
    show (x.exchange.take m w).weight + phase.ahead ≤ x.exchange.weight + x.phase.ahead
    omega
  · have hdistance := Exchange.distance_take ht
    show (x.exchange.take m w).distance + phase.remaining <
      x.exchange.distance + x.phase.remaining
    omega

/-- Whatever happens next, it brings the end nearer. -/
theorem Sound.step (h : x.Sound) (hs : Step b x y) : y.Sound ∧ x.Descends y := by
  have hfits := h.fits
  cases hs with
  | @work y hw =>
    have ha := hw.advances
    refine ⟨⟨h.counted.work hw, hfits.advances ha⟩, Or.inr ⟨rfl, ?_, ?_⟩⟩
    · exact Nat.le_of_eq (congrArg (· + x.phase.ahead) ha.weight)
    · have hdistance := ha.distance
      show y.distance + x.phase.remaining < x.exchange.distance + x.phase.remaining
      omega
  | openRound hs => exact h.openRound hs
  | @send n m rest hs ho =>
    rw [hs] at hfits
    refine ⟨⟨h.counted.send m rest, hfits.1, hfits.2.1, Nat.succ_le_succ hfits.2.2⟩,
      Or.inr ⟨rfl, ?_, ?_⟩⟩
    · show (x.exchange.send m rest).weight + 0 ≤ x.exchange.weight + x.phase.ahead
      rw [Exchange.weight_send ho]
      omega
    · have hdistance := Exchange.distance_send ho
      show (x.exchange.send m rest).distance + 2 < x.exchange.distance + x.phase.remaining
      rw [hs]
      show _ < _ + 2
      omega
  | @sent n hs ho =>
    rw [hs] at hfits
    refine ⟨⟨h.counted, ho, hfits.2.2, fun _ => ⟨hfits.1, hfits.2.1⟩⟩, Or.inr ⟨rfl, ?_, ?_⟩⟩
    · show x.exchange.weight + 0 ≤ x.exchange.weight + x.phase.ahead
      omega
    · show x.exchange.distance + 1 < x.exchange.distance + x.phase.remaining
      rw [hs]
      show _ < _ + 2
      omega
  | @take n k m w hs ht =>
    rw [hs] at hfits
    have hflight := Exchange.inFlight_take h.counted ht
    refine h.take ht ⟨hfits.1, ?_, fun hk => absurd hk (Nat.succ_ne_zero k)⟩ rfl (by rw [hs]; rfl)
    have hn := hfits.2.1
    show n ≤ w.inFlight + (k + 1)
    omega
  | @collected n k hs hf =>
    obtain ⟨hnext, hahead, hremaining⟩ := h.next hs
    refine ⟨⟨h.counted, hnext⟩, Or.inr ⟨rfl, Nat.add_le_add_left hahead _, ?_⟩⟩
    show x.exchange.distance + (Running.next x.exchange (n + k)).remaining <
      x.exchange.distance + x.phase.remaining
    rw [hremaining, hs]
    exact Nat.lt_succ_self _
  | @await m w hs ht =>
    rw [hs] at hfits
    exact h.take ht hfits.1 rfl (by rw [hs]; rfl)

theorem Sound.steps (h : x.Sound) (hs : Steps b x y) : y.Sound := by
  induction hs with
  | refl => exact h
  | tail _ hs ih => exact (ih.step hs).1

/-- The rounds that were begun use up those that were left. -/
theorem Sound.rounds_le (h : x.Sound) (hs : Steps b x y) :
    y.rounds + y.roundsLeft ≤ x.rounds + x.roundsLeft := by
  induction hs with
  | refl => exact Nat.le_refl _
  | tail hxy hs ih =>
    rcases ((h.steps hxy).step hs).2 with ⟨hr, hl⟩ | ⟨hr, hl, -⟩ <;> omega

/-- Until the host has returned, something can happen. -/
theorem Sound.progress (h : x.Sound) (b : Backend σ) (hr : x.phase ≠ .returned) :
    ∃ y, Step b x y := by
  have hfits := h.fits
  cases hs : x.phase with
  | round => exact ⟨_, .openRound hs⟩
  | sending n =>
    cases ho : x.exchange.outgoing with
    | nil => exact ⟨_, .sent hs ho⟩
    | cons m rest => exact ⟨_, .send hs ho⟩
  | collecting n k =>
    cases hf : x.exchange.worker.finished with
    | nil => exact ⟨_, .collected hs hf⟩
    | cons m rest =>
      refine ⟨_, .take hs (m := m) (w := { x.exchange.worker with
        finished := rest, inFlight := x.exchange.worker.inFlight - 1 }) ?_⟩
      unfold Worker.tryTake
      rw [hf]
  | waiting =>
    rw [hs] at hfits
    rcases h.counted.progress (b := b) hfits.2 with ⟨m, w, ht⟩ | ⟨y, hy⟩
    · exact ⟨_, .await hs ht⟩
    · exact ⟨_, .work hy⟩
  | returned => exact absurd hs hr

/-- No run goes on for ever. -/
theorem Sound.terminates {run : ℕ → Running σ} (h : (run 0).Sound) :
    ∃ n, ¬ Step b (run n) (run (n + 1)) := by
  by_contra hall
  have hstep : ∀ n, Step b (run n) (run (n + 1)) := by
    intro n
    by_contra hn
    exact hall ⟨n, hn⟩
  have hsound : ∀ n, (run n).Sound := by
    intro n
    induction n with
    | zero => exact h
    | succ n ih => exact (ih.step (hstep n)).1
  obtain ⟨n, hn⟩ := WellFounded.not_rel_apply_succ (r := Prod.Lex (· < ·) (· < ·))
    fun n => ((run n).roundsLeft, (run n).stepsLeft)
  refine hn ?_
  rcases ((hsound n).step (hstep n)).2 with ⟨-, hl⟩ | ⟨-, hle, hl⟩
  · exact Prod.Lex.left _ _ hl
  · rcases Nat.lt_or_eq_of_le hle with hlt | heq
    · exact Prod.Lex.left _ _ hlt
    · show Prod.Lex _ _ (_, _) (_, _)
      rw [heq]
      exact Prod.Lex.right _ hl

/-- From any session and any worker, however the steps of the worker come between those of the
host: the number of rounds is bounded, no run goes on for ever, something can happen until the host
has returned, and then there is nothing left to do. -/
theorem settles (b : Backend σ) (hround : x.phase = .round) (ho : x.exchange.outgoing = [])
    (hc : x.exchange.Counted) :
    (∀ y, Steps b x y → y.rounds ≤ x.rounds + (x.exchange.weight + 1)) ∧
      (∀ run : ℕ → Running σ, run 0 = x → ∃ n, ¬ Step b (run n) (run (n + 1))) ∧
      (∀ y, Steps b x y → y.phase ≠ .returned → ∃ z, Step b y z) ∧
      ∀ y, Steps b x y → y.phase = .returned →
        y.exchange.desk.session.Settled y.exchange.worker := by
  have hx : x.Sound := ⟨hc, by rw [hround]; exact ho⟩
  refine ⟨fun y hy => ?_, fun run hrun => Sound.terminates (hrun ▸ hx),
    fun y hy hr => (hx.steps hy).progress b hr, fun y hy hr => ?_⟩
  · have hrounds := hx.rounds_le hy
    have hleft : x.roundsLeft = x.exchange.weight + 1 := by
      unfold roundsLeft
      rw [hround]
      rfl
    omega
  · have hfits := (hx.steps hy).fits
    rwa [hr] at hfits

/-- Nothing comes of the item that is chosen, because what is known about it cannot be read. So
there are three rounds: one for each request, and one in which nothing happens. -/
theorem settles_unreadable :
    let x : Running Nat :=
      ⟨.idle ⟨.empty, (Session.ofSet (History.exampleSet .int .int) .default 0).start⟩ 0, .round, 0⟩
    ∃ y, Steps Exchange.exampleBackend x y ∧ y.phase = .returned ∧ y.rounds = 3 ∧
      y.exchange.desk.session.errors.length = 1 ∧
      y.exchange.desk.session.Settled y.exchange.worker := by
  intro x
  have hsteps : ∃ y, Steps Exchange.exampleBackend x y ∧ y.phase = .returned ∧ y.rounds = 3 ∧
      y.exchange.desk.session.errors.length = 1 := by
    refine ⟨_, .head (.openRound rfl) (.head (.send rfl rfl) (.head (.sent rfl rfl)
      (.head (.work (.receive rfl rfl)) (.head (.work (.execute rfl)) (.head (.work (.pass rfl))
      (.head (.take rfl rfl) (.head (.collected rfl rfl) (.head (.openRound rfl)
      (.head (.send rfl rfl) (.head (.sent rfl rfl) (.head (.work (.receive rfl rfl))
      (.head (.work (.execute rfl)) (.head (.work (.pass rfl)) (.head (.take rfl rfl)
      (.head (.collected rfl rfl) (.head (.openRound rfl) (.head (.sent rfl rfl)
      (.single (.collected rfl rfl))))))))))))))))))), rfl, rfl, by decide +kernel⟩
  obtain ⟨y, hy, hphase, hrounds, herrors⟩ := hsteps
  exact ⟨y, hy, hphase, hrounds, herrors,
    (settles (x := x) Exchange.exampleBackend rfl rfl rfl).2.2.2 y hy hphase⟩

end Running

/-! ## The loop as one run -/

namespace Loop

variable {b : Backend σ} {hub : KeyHub} {outgoing sent : List (Ticket × Request)}
  {completed : List (Ticket × Response)} {phase : Phase} {n k rounds : Nat}

/-- A loop whose worker has nothing in hand. -/
def exchange (l : Loop σ) (hub : KeyHub) (outgoing sent : List (Ticket × Request))
    (completed : List (Ticket × Response)) : Exchange σ :=
  ⟨⟨hub, l.session⟩, outgoing, l.worker, .free, l.backend, sent, completed⟩

theorem send_steps (requests : List (Ticket × Request)) :
    ∀ (l : Loop σ) (n : Nat) (sent : List (Ticket × Request)),
      Running.Steps b ⟨l.exchange hub requests sent completed, .sending n, rounds⟩
        ⟨exchange { l with worker := requests.foldl (fun w r => w.submit r.1 r.2) l.worker } hub []
          (sent ++ requests) completed, .sending (n + requests.length), rounds⟩ := by
  induction requests with
  | nil =>
    intro l n sent
    rw [List.append_nil]
    exact .refl
  | cons m rest ih =>
    intro l n sent
    have hrest := ih { l with worker := l.worker.submit m.1 m.2 } (n + 1) (sent ++ [m])
    rw [List.append_assoc, Nat.add_assoc, Nat.add_comm 1] at hrest
    exact .head (.send rfl rfl) hrest

/-- To carry out a request, the worker takes it, has it answered and passes the result on. -/
theorem work_steps (l : Loop σ) :
    Running.Steps b ⟨l.exchange hub outgoing sent completed, phase, rounds⟩
      ⟨exchange { l with worker := (l.worker.work b l.backend).1
                         backend := (l.worker.work b l.backend).2 } hub outgoing sent completed,
        phase, rounds⟩ := by
  obtain ⟨session, ⟨waiting, finished, inFlight⟩, backend⟩ := l
  cases waiting with
  | nil => exact .refl
  | cons m rest =>
    exact .head (.work (.receive rfl rfl)) (.head (.work (.execute rfl))
      (.single (.work (.pass rfl))))

theorem workSteps_steps (pace : Nat) :
    ∀ l : Loop σ, Running.Steps b ⟨l.exchange hub outgoing sent completed, phase, rounds⟩
      ⟨exchange { l with worker := (l.worker.workSteps b pace l.backend).1
                         backend := (l.worker.workSteps b pace l.backend).2 } hub outgoing sent
          completed, phase, rounds⟩ := by
  induction pace with
  | zero => exact fun _ => .refl
  | succ pace ih => exact fun l => l.work_steps.trans (ih _)

theorem take_steps (finished : List (Ticket × Response)) :
    ∀ (l : Loop σ) (k : Nat) (completed : List (Ticket × Response)),
      l.worker.finished = finished →
      Running.Steps b ⟨l.exchange hub [] sent completed, .collecting n k, rounds⟩
        ⟨l.completeAll.2.exchange hub [] sent (completed ++ finished),
          .collecting n (k + finished.length), rounds⟩ := by
  induction finished with
  | nil =>
    rintro ⟨session, ⟨waiting, finished, inFlight⟩, backend⟩ k completed rfl
    rw [List.append_nil]
    exact .refl
  | cons m rest ih =>
    rintro ⟨session, ⟨waiting, finished, inFlight⟩, backend⟩ k completed rfl
    have hrest := ih ⟨session.complete m.1 m.2, ⟨waiting, rest, inFlight - 1⟩, backend⟩ (k + 1)
      (completed ++ [m]) rfl
    have hcount : inFlight - 1 - rest.length = inFlight - (rest.length + 1) := by omega
    rw [List.append_assoc, Nat.add_assoc, Nat.add_comm 1] at hrest
    unfold completeAll at hrest ⊢
    dsimp only at hrest
    rw [hcount] at hrest
    exact .head (.take rfl rfl) hrest

/-- A round is begun, the requests are handed in, the worker goes on for a while, and its results
are taken. -/
theorem pump_steps (l : Loop σ) (pace rounds : Nat) (hub : KeyHub)
    (sent : List (Ticket × Request)) (completed : List (Ticket × Response)) :
    ∃ n k sent' completed', n + k = (l.pump b pace).1 ∧ (l.pump b pace).2.worker.finished = [] ∧
      Running.Steps b ⟨l.exchange hub [] sent completed, .round, rounds⟩
        ⟨(l.pump b pace).2.exchange hub [] sent' completed', .collecting n k, rounds + 1⟩ := by
  refine ⟨_, _, _, _, ?_, ?_, .head (.openRound rfl) ((send_steps l.session.tick.outbox
    { l with session := l.session.tick.takeRequests.2 } 0 sent).trans (.head (.sent rfl rfl)
    ((workSteps_steps pace _).trans (take_steps _ _ 0 completed rfl))))⟩
  · show 0 + l.session.tick.outbox.length + (0 + _) = _
    rw [Nat.zero_add, Nat.zero_add]
    rfl
  · rfl

/-- A result that is awaited comes next. -/
theorem takeBlocking_eq_some {l : Loop σ} (hc : (l.exchange hub [] sent completed).Counted)
    (hf : l.worker.finished = []) (hp : l.worker.pending ≠ 0) :
    ∃ m, l.worker.takeBlocking b l.backend =
      (some m, ((l.worker.work b l.backend).1.tryTake).2, (l.worker.work b l.backend).2) ∧
      (l.worker.work b l.backend).1.tryTake =
        (some m, ((l.worker.work b l.backend).1.tryTake).2) := by
  obtain ⟨session, ⟨waiting, finished, inFlight⟩, backend⟩ := l
  cases hf
  cases waiting with
  | nil => exact absurd hc hp
  | cons m rest => exact ⟨_, rfl, rfl⟩

/-- The loop is a run of the host and the worker. It ends because the host returns, or because a
number of rounds is over. -/
theorem runFrom_steps (pace : Nat → Nat) (fuel : Nat) :
    ∀ (l : Loop σ) (round rounds : Nat) (sent : List (Ticket × Request))
      (completed : List (Ticket × Response)), (l.exchange hub [] sent completed).Counted →
      ∃ sent' completed' phase rounds',
        Running.Steps b ⟨l.exchange hub [] sent completed, .round, rounds⟩
          ⟨(runFrom b pace fuel round l).exchange hub [] sent' completed', phase, rounds'⟩ ∧
        (phase = .returned ∨ phase = .round ∧ rounds' = rounds + fuel) := by
  induction fuel with
  | zero => exact fun l _ rounds _ _ _ => ⟨_, _, _, _, .refl, Or.inr ⟨rfl, rfl⟩⟩
  | succ fuel ih =>
    intro l round rounds sent completed hc
    have hsound : Running.Sound ⟨l.exchange hub [] sent completed, .round, rounds⟩ := ⟨hc, rfl⟩
    have hpumped := l.pump_steps (b := b) (pace round) rounds hub sent completed
    unfold runFrom
    generalize l.pump b (pace round) = pumped at hpumped ⊢
    obtain ⟨activity, l'⟩ := pumped
    obtain ⟨n, k, sent', completed', rfl, hfinished, hpump⟩ := hpumped
    have hcounted : (l'.exchange hub [] sent' completed').Counted := (hsound.steps hpump).counted
    have hround : Running.Steps b _ ⟨l'.exchange hub [] sent' completed',
        if l'.worker.pending = 0 then
          if decide (n + k = 0) && !l'.session.hasDeferred then .returned else .round
        else .waiting, rounds + 1⟩ := hpump.tail (.collected rfl hfinished)
    dsimp only
    by_cases hp : l'.worker.pending = 0
    · rw [if_pos hp] at hround ⊢
      by_cases hd : (decide (n + k = 0) && !l'.session.hasDeferred) = true
      · rw [if_pos hd] at hround ⊢
        exact ⟨sent', completed', _, _, hround, Or.inl rfl⟩
      · rw [if_neg hd] at hround ⊢
        obtain ⟨sent'', completed'', phase, rounds', hrest, hend⟩ :=
          ih l' (round + 1) (rounds + 1) sent' completed' hcounted
        exact ⟨sent'', completed'', phase, rounds', hround.trans hrest, by
          rw [Nat.add_assoc, Nat.add_comm 1] at hend; exact hend⟩
    · rw [if_neg hp] at hround ⊢
      obtain ⟨m, htake, hnext⟩ := takeBlocking_eq_some hcounted hfinished hp
      rw [htake]
      -- the worker answers the next request, and its result is taken
      have hawait := (hround.trans l'.work_steps).tail (.await rfl hnext)
      obtain ⟨sent'', completed'', phase, rounds', hrest, hend⟩ :=
        ih ⟨l'.session.complete m.1 m.2, ((l'.worker.work b l'.backend).1.tryTake).2,
          (l'.worker.work b l'.backend).2⟩ (round + 1) (rounds + 1) sent' (completed' ++ [m])
          (hsound.steps hawait).counted
      exact ⟨sent'', completed'', phase, rounds', hawait.trans hrest, by
        rw [Nat.add_assoc, Nat.add_comm 1] at hend; exact hend⟩

/-- Whatever the session asks for and whatever waits, and however far the worker gets in each round,
the loop ends with nothing left to do. -/
theorem runUntilIdle_settled (b : Backend σ) (pace : Nat → Nat) (l : Loop σ)
    (hc : l.worker.inFlight = l.worker.waiting.length + l.worker.finished.length) :
    (l.runUntilIdle b pace).session.Settled (l.runUntilIdle b pace).worker := by
  have hcounted : (l.exchange .empty [] [] []).Counted := by
    show l.worker.inFlight = l.worker.waiting.length + 0 + 0 + l.worker.finished.length
    omega
  have hsound : Running.Sound ⟨l.exchange .empty [] [] [], .round, 0⟩ := ⟨hcounted, rfl⟩
  obtain ⟨sent, completed, phase, rounds, hsteps, hend⟩ :=
    runFrom_steps (b := b) pace (l.weight + 1) l 0 0 [] [] hcounted
  have hfits := (hsound.steps hsteps).fits
  rcases hend with rfl | ⟨rfl, hrounds⟩
  · exact hfits
  · -- the weight has left no round to begin
    have hle := hsound.rounds_le hsteps
    have hweight : (l.exchange .empty [] [] []).weight =
        l.session.weight + 0 + load l.worker.waiting + 0 + 0 + load l.worker.finished := rfl
    have hloop : l.weight =
        l.session.weight + load l.worker.waiting + load l.worker.finished := rfl
    have hstart : Running.roundsLeft ⟨l.exchange .empty [] [] [], .round, 0⟩ =
        (l.exchange .empty [] [] []).weight + 1 := rfl
    have hlast : 1 ≤ Running.roundsLeft
        ⟨(l.runUntilIdle b pace).exchange .empty [] sent completed, .round, rounds⟩ :=
      Nat.le_add_left 1 _
    have hrest : rounds + Running.roundsLeft
        ⟨(l.runUntilIdle b pace).exchange .empty [] sent completed, .round, rounds⟩ ≤
          0 + Running.roundsLeft ⟨l.exchange .empty [] [] [], .round, 0⟩ := hle
    omega

end Loop

end Labeling
