import Labeling.Proofs.Session.Agenda

/-!
# The last choice of an item wins

An item is chosen in a chain of requests, and several chains may be on their way at the same
time. An item has the number of the choice that led to it, that is the value that `navSeq`
had when it was asked which item to label. A session does not keep this number once the
metadata has arrived: what waits to be begun carries the number of an item (`generation`),
which is another counter. So a history is continued here by a log (`Chronicle`), which
passes the number on from each link of a chain to the next one.

* `Log.Agrees`: what holds of a log, most of all that each link of each chain is a single
  request, and that what waits to be begun, as long as it is not superseded, has a higher
  number than all items that were begun;
* `Chronicle.last_choice_wins`: items are begun in the order of their numbers, and none of
  them after the metadata of an item with a higher number has arrived.
-/

namespace Labeling

/-- The answer to the request is the metadata of an item. -/
def Purpose.isMetadata : Purpose → Bool
  | .itemMeta _ => true
  | _ => false

theorem Purpose.isNavigation_of_isMetadata {p : Purpose} (h : p.isMetadata = true) :
    p.isNavigation = true := by
  cases p <;> first | rfl | cases h

/-- The place of a request in a chain that leads to an item: the number of the chain, and
whether it is the last request in it, or one before. -/
def Ticket.link (t : Ticket) : Bool × Nat := (t.purpose.isMetadata, t.generation)

/-! ## The log -/

/-- What happens on the way to an item. -/
inductive Milestone where
  /-- The answer to a request in a chain is applied. -/
  | answered (t : Ticket)
  /-- The metadata of an item has arrived. -/
  | known (number : Nat)
  /-- An item is begun. -/
  | begun (a : Assignment) (number : Nat)

namespace Milestone

/-- The ticket of a request whose answer is applied. -/
def ticket? : Milestone → Option Ticket
  | .answered t => some t
  | _ => none

/-- The number of an item that is begun. -/
def begun? : Milestone → Option Nat
  | .begun _ number => some number
  | _ => none

/-- The one may happen before the other. -/
def Precedes : Milestone → Milestone → Prop
  | .answered t, .answered t' => t.link ≠ t'.link
  | .known n, .begun _ m => n ≤ m
  | .begun _ n, .begun _ m => n < m
  | _, _ => True

end Milestone

/-- What happened on the way to the items, with what is needed to number them. -/
structure Log where
  /-- The number of an item, by the ticket of the request for its metadata. -/
  metadataNumber : Nat → Nat
  /-- The number of an item, by the value of `generation` with which it waits to be begun. -/
  itemNumber : Nat → Nat
  /-- What happened, oldest first. -/
  events : List Milestone

namespace Session

/-- The item that is begun by a piece of work that waited, with its `generation`. -/
def starts (s : Session) : Deferred → Option (Assignment × Nat)
  | .begin a g => if g ≠ s.generation ∧ s.config.stale = .discard then none else some (a, g)
  | .showFrame _ _ => none

/-- The items that are begun by some work that waited. -/
def begun (s : Session) : List Deferred → List (Assignment × Nat)
  | [] => []
  | task :: rest => (s.starts task).toList ++ (s.runDeferred task).begun rest

end Session

namespace Log

def empty : Log := ⟨fun _ => 0, fun _ => 0, []⟩

/-- The answers that were applied, by their tickets. -/
def answers (log : Log) : List Ticket := log.events.filterMap Milestone.ticket?

/-- The numbers of the items that were begun. -/
def begun (log : Log) : List Nat := log.events.filterMap Milestone.begun?

/-- Write down that something happened. -/
def add (log : Log) (events : List Milestone) : Log :=
  { log with events := log.events ++ events }

/-- The request with a ticket asks for the metadata of the item with a number. -/
def number (log : Log) (ticket number : Nat) : Log :=
  { log with metadataNumber := Function.update log.metadataNumber ticket number }

/-- The metadata of the item with a number has arrived, and the item waits to be begun. -/
def learn (log : Log) (generation number : Nat) : Log :=
  { log with itemNumber := Function.update log.itemNumber generation number }.add [.known number]

/-- Write down an answer that is applied. The answer to a choice passes its number on to the
request for the metadata, and the metadata to the item that waits to be begun. -/
def answer (log : Log) (s : Session) (t : Ticket) (result : Response) : Log :=
  match t.purpose with
  | .keyList _ => log.add [.answered t]
  | .assignment => (log.add [.answered t]).number s.nextTicket t.generation
  | .itemMeta _ =>
    match result.parse (Json.nullable ItemMeta.read?) with
    | .error _ => log.add [.answered t]
    | .ok _ => (log.add [.answered t]).learn (s.generation + 1) (log.metadataNumber t.id)
  | _ => log

/-- Write down what an operation does to a session. -/
def record (log : Log) (s : Session) : SessionOp → Log
  | .complete t result => if s.isStale t then log else log.answer s t result
  | .tick =>
    log.add ((Session.begun { s with deferred := [] } s.deferred).map fun (a, g) =>
      .begun a (log.itemNumber g))
  | _ => log

end Log

/-- A history with its log. -/
structure Chronicle where
  history : History
  log : Log

namespace Chronicle

/-- Perform an operation, and write down what it does. -/
def perform (C : Chronicle) (op : SessionOp) : Chronicle :=
  ⟨C.history.perform op, C.log.record C.history.session op⟩

/-- The histories of a session, with their logs. -/
inductive Reachable : Chronicle → Prop where
  | start {hub : KeyHub} {s : Session} (hs : s.IsFresh) :
      Reachable ⟨⟨⟨hub, s.start⟩, [], []⟩, .empty⟩
  | step {C : Chronicle} {op : SessionOp} (h : Reachable C) (ha : C.history.Allows op) :
      Reachable (C.perform op)

theorem Reachable.history {C : Chronicle} (h : C.Reachable) : C.history.Reachable := by
  induction h with
  | start hs => exact .start hs
  | step _ ha ih => exact .step ih ha trivial

/-- Perform some operations, one after the other. -/
def performAll (C : Chronicle) (ops : List SessionOp) : Chronicle := ops.foldl perform C

theorem Reachable.performAll {ops : List SessionOp} :
    ∀ {C : Chronicle}, C.Reachable → C.history.AllowsAll (fun _ _ => True) ops →
      (C.performAll ops).Reachable := by
  induction ops with
  | nil => exact fun h _ => h
  | cons op rest ih => exact fun h ha => ih (.step h ha.1) ha.2.2

/-- Every history has a log. -/
theorem exists_log {H : History} (h : H.Reachable) : ∃ log, Reachable ⟨H, log⟩ := by
  induction h with
  | start hs => exact ⟨_, .start hs⟩
  | step _ ha _ ih =>
    obtain ⟨log, hlog⟩ := ih
    exact ⟨_, .step hlog ha⟩

end Chronicle

/-! ## What holds of a log -/

namespace Log

/-- What happened before, so that something can happen: the request was made for which an
answer is applied, metadata is known from an answer, and of an item that is begun. -/
def Grounds (log : Log) (answered : List Nat) (issued : List (Ticket × Request)) :
    Milestone → Prop
  | .answered t => t.purpose.isNavigation = true ∧ (∃ r, (t, r) ∈ issued) ∧ t.id ∈ answered
  | .known n => ∃ t, .answered t ∈ log.events ∧ t.purpose.isMetadata = true ∧ t.generation = n
  | .begun _ n => .known n ∈ log.events

/-- What is known of a log, by the tickets that were answered and handed out, the counters
and the work that waits. -/
structure Agrees (log : Log) (answered : List Nat) (issued : List (Ticket × Request))
    (navSeq generation : Nat) (tasks : List Deferred) : Prop where
  /-- No request is from a later choice than the current one. -/
  bound : ∀ t r, (t, r) ∈ issued → t.purpose.isNavigation = true → t.generation ≤ navSeq
  /-- Each link of a chain is a single request. -/
  unique : ∀ t r t' r', (t, r) ∈ issued → (t', r') ∈ issued → t.purpose.isNavigation = true →
    t'.purpose.isNavigation = true → t.link = t'.link → t.id = t'.id
  /-- Metadata is asked for once a choice was answered, and has its number. -/
  chosen : ∀ t r, (t, r) ∈ issued → t.purpose.isMetadata = true →
    log.metadataNumber t.id = t.generation ∧
      ∃ t' r', (t', r') ∈ issued ∧ t'.purpose = .assignment ∧ t'.generation = t.generation ∧
        t'.id ∈ answered
  grounded : ∀ e ∈ log.events, log.Grounds answered issued e
  /-- What waits and is not superseded has metadata, and its turn comes after everything that
  happened. -/
  waiting : ∀ a g, .begin a g ∈ tasks → g ≤ generation ∧ (g = generation →
    .known (log.itemNumber g) ∈ log.events ∧
      ∀ e ∈ log.events, e.Precedes (.begun a (log.itemNumber g)))
  ordered : log.events.Pairwise Milestone.Precedes

variable {log log' : Log} {answered answered' : List Nat}
  {issued issued' : List (Ticket × Request)} {navSeq generation generation' : Nat}
  {tasks tasks' : List Deferred}

theorem Grounds.mono {e : Milestone} (h : log.Grounds answered issued e)
    (he : log.events ⊆ log'.events) (ha : answered ⊆ answered') (hi : issued ⊆ issued') :
    log'.Grounds answered' issued' e := by
  cases e with
  | answered t =>
    obtain ⟨hp, ⟨r, hr⟩, hdone⟩ := h
    exact ⟨hp, ⟨r, hi hr⟩, ha hdone⟩
  | known n =>
    obtain ⟨t, ht, hp, hn⟩ := h
    exact ⟨t, he ht, hp, hn⟩
  | begun a n => exact he h

theorem agrees_empty : empty.Agrees [] [] navSeq generation [] where
  bound _ _ h := absurd h List.not_mem_nil
  unique _ _ _ _ h := absurd h List.not_mem_nil
  chosen _ _ h := absurd h List.not_mem_nil
  grounded _ h := absurd h List.not_mem_nil
  waiting _ _ h := absurd h List.not_mem_nil
  ordered := .nil

/-- Other requests do not matter, and neither does it when an item is left: nothing that
waits is current any more. -/
theorem Agrees.mono (h : log.Agrees answered issued navSeq generation tasks)
    (ha : answered ⊆ answered') (hi : issued ⊆ issued')
    (hm : ∀ t r, (t, r) ∈ issued' → t.purpose.isNavigation = true → (t, r) ∈ issued)
    (hg : generation ≤ generation')
    (ht : ∀ a g, .begin a g ∈ tasks' → .begin a g ∈ tasks) :
    log.Agrees answered' issued' navSeq generation' tasks' where
  bound t r hr hp := h.bound t r (hm t r hr hp) hp
  unique t r t' r' hr hr' hp hp' := h.unique t r t' r' (hm t r hr hp) (hm t' r' hr' hp') hp hp'
  chosen t r hr hp := by
    have hnav := Purpose.isNavigation_of_isMetadata hp
    obtain ⟨hn, t', r', hr', hp', hgen, hdone⟩ := h.chosen t r (hm t r hr hnav) hp
    exact ⟨hn, t', r', hi hr', hp', hgen, ha hdone⟩
  grounded e he := (h.grounded e he).mono (List.Subset.refl _) ha hi
  waiting a g hb := by
    obtain ⟨hle, hlive⟩ := h.waiting a g (ht a g hb)
    exact ⟨Nat.le_trans hle hg, fun he => hlive (by omega)⟩
  ordered := h.ordered

/-- One more request in a chain. Its place in the chain must be free, and if it is for
metadata, its number must have been written down, and a choice with this number answered. -/
theorem Agrees.issue (h : log.Agrees answered issued navSeq generation tasks) {t : Ticket}
    {r : Request} {navSeq' : Nat} (hle : navSeq ≤ navSeq') (ht : t.generation ≤ navSeq')
    (hfree : ∀ t' r', (t', r') ∈ issued → t'.purpose.isNavigation = true → t'.link ≠ t.link)
    (hchosen : t.purpose.isMetadata = true → log.metadataNumber t.id = t.generation ∧
      ∃ t' r', (t', r') ∈ issued ∧ t'.purpose = .assignment ∧ t'.generation = t.generation ∧
        t'.id ∈ answered) :
    log.Agrees answered (issued ++ [(t, r)]) navSeq' generation tasks where
  bound t' r' hr hp := by
    rcases List.mem_append.1 hr with hr | hr
    · exact Nat.le_trans (h.bound t' r' hr hp) hle
    · cases List.mem_singleton.1 hr
      exact ht
  unique t₁ r₁ t₂ r₂ hr₁ hr₂ hp₁ hp₂ hlink := by
    rcases List.mem_append.1 hr₁ with hr₁ | hr₁ <;> rcases List.mem_append.1 hr₂ with hr₂ | hr₂
    · exact h.unique t₁ r₁ t₂ r₂ hr₁ hr₂ hp₁ hp₂ hlink
    · cases List.mem_singleton.1 hr₂
      exact absurd hlink (hfree t₁ r₁ hr₁ hp₁)
    · cases List.mem_singleton.1 hr₁
      exact absurd hlink.symm (hfree t₂ r₂ hr₂ hp₂)
    · cases List.mem_singleton.1 hr₁
      cases List.mem_singleton.1 hr₂
      rfl
  chosen t' r' hr hp := by
    have hold : log.metadataNumber t'.id = t'.generation ∧
        ∃ t₀ r₀, (t₀, r₀) ∈ issued ∧ t₀.purpose = .assignment ∧ t₀.generation = t'.generation ∧
          t₀.id ∈ answered := by
      rcases List.mem_append.1 hr with hr | hr
      · exact h.chosen t' r' hr hp
      · cases List.mem_singleton.1 hr
        exact hchosen hp
    obtain ⟨hn, t₀, r₀, hr₀, hp₀, hgen, hdone⟩ := hold
    exact ⟨hn, t₀, r₀, List.mem_append_left _ hr₀, hp₀, hgen, hdone⟩
  grounded e he := (h.grounded e he).mono (List.Subset.refl _) (List.Subset.refl _)
    (List.subset_append_left _ _)
  waiting := h.waiting
  ordered := h.ordered

/-- Something happens that has its grounds, and may happen after everything else and before
the item that waits is begun. -/
theorem Agrees.add (h : log.Agrees answered issued navSeq generation tasks) {e : Milestone}
    (hg : log.Grounds answered issued e) (hlast : ∀ e' ∈ log.events, e'.Precedes e)
    (hnext : ∀ a, .begin a generation ∈ tasks →
      e.Precedes (.begun a (log.itemNumber generation))) :
    (log.add [e]).Agrees answered issued navSeq generation tasks where
  bound := h.bound
  unique := h.unique
  chosen := h.chosen
  grounded e' he := by
    have hold : log.Grounds answered issued e' := by
      rcases List.mem_append.1 he with he | he
      · exact h.grounded e' he
      · rw [List.mem_singleton.1 he]
        exact hg
    exact hold.mono (List.subset_append_left _ _) (List.Subset.refl _) (List.Subset.refl _)
  waiting a g hb := by
    obtain ⟨hle, hlive⟩ := h.waiting a g hb
    refine ⟨hle, ?_⟩
    rintro rfl
    obtain ⟨hknown, hbefore⟩ := hlive rfl
    refine ⟨List.mem_append_left _ hknown, fun e' he => ?_⟩
    rcases List.mem_append.1 he with he | he
    · exact hbefore e' he
    · rw [List.mem_singleton.1 he]
      exact hnext a hb
  ordered := by
    refine List.pairwise_append.2 ⟨h.ordered, List.pairwise_singleton _ _, fun e₁ he₁ e₂ he₂ => ?_⟩
    rw [List.mem_singleton.1 he₂]
    exact hlast e₁ he₁

/-- An answer is applied, the first one to its ticket. -/
theorem Agrees.accept (h : log.Agrees answered issued navSeq generation tasks) {t : Ticket}
    {r : Request} (hr : (t, r) ∈ issued) (hp : t.purpose.isNavigation = true)
    (hopen : t.id ∉ answered) :
    (log.add [.answered t]).Agrees (answered ++ [t.id]) issued navSeq generation tasks := by
  have hdone : log.Agrees (answered ++ [t.id]) issued navSeq generation tasks :=
    h.mono (List.subset_append_left _ _) (List.Subset.refl _) (fun _ _ hm _ => hm)
      (Nat.le_refl _) (fun _ _ hb => hb)
  refine hdone.add ⟨hp, ⟨r, hr⟩, List.mem_append_right _ (List.mem_singleton_self _)⟩
    (fun e he => ?_) (fun _ _ => trivial)
  cases e with
  | answered t' =>
    -- two answers at the same place of a chain would be to the same request
    intro hlink
    obtain ⟨hp', ⟨r', hr'⟩, hdone'⟩ := h.grounded _ he
    rw [h.unique t' r' t r hr' hr hp' hp hlink] at hdone'
    exact hopen hdone'
  | known n => trivial
  | begun a n => trivial

/-- A ticket that was not handed out yet may be given a number. -/
theorem Agrees.number (h : log.Agrees answered issued navSeq generation tasks) {ticket : Nat}
    (hnew : ∀ t r, (t, r) ∈ issued → t.id ≠ ticket) (n : Nat) :
    (log.number ticket n).Agrees answered issued navSeq generation tasks where
  bound := h.bound
  unique := h.unique
  chosen t r hr hp := by
    obtain ⟨hn, hchosen⟩ := h.chosen t r hr hp
    refine ⟨?_, hchosen⟩
    show Function.update log.metadataNumber ticket n t.id = _
    rw [Function.update_of_ne (hnew t r hr), hn]
  grounded e he := (h.grounded e he).mono (List.Subset.refl _) (List.Subset.refl _)
    (List.Subset.refl _)
  waiting := h.waiting
  ordered := h.ordered

/-- Metadata arrives, of an item with a higher number than all others with known metadata.
What waited is superseded by this item. -/
theorem Agrees.learn (h : log.Agrees answered issued navSeq generation tasks) {t : Ticket}
    (ht : .answered t ∈ log.events) (hp : t.purpose.isMetadata = true)
    (hlast : ∀ n, .known n ∈ log.events → n < t.generation) (a : Assignment) :
    (log.learn (generation + 1) t.generation).Agrees answered issued navSeq (generation + 1)
      (tasks ++ [.begin a (generation + 1)]) := by
  have hnone : ∀ a' g, .begin a' g ∈ tasks → g ≠ generation + 1 := fun a' g hb =>
    Nat.ne_of_lt (Nat.lt_succ_of_le (h.waiting a' g hb).1)
  have hleft : log.Agrees answered issued navSeq (generation + 1) tasks :=
    h.mono (List.Subset.refl _) (List.Subset.refl _) (fun _ _ hm _ => hm) (Nat.le_succ _)
      (fun _ _ hb => hb)
  have hknown := hleft.add (e := .known t.generation) ⟨t, ht, hp, rfl⟩
    (fun e _ => by cases e <;> trivial) fun a' hb => absurd rfl (hnone a' _ hb)
  refine ⟨hknown.bound, hknown.unique, hknown.chosen, fun e he => ?_, fun a' g hb => ?_,
    hknown.ordered⟩
  · exact (hknown.grounded e he).mono (List.Subset.refl _) (List.Subset.refl _)
      (List.Subset.refl _)
  rcases List.mem_append.1 hb with hb | hb
  · exact ⟨(hknown.waiting a' g hb).1, fun hg => absurd hg (hnone a' g hb)⟩
  cases List.mem_singleton.1 hb
  refine ⟨Nat.le_refl _, fun _ => ?_⟩
  rw [show (log.learn (generation + 1) t.generation).itemNumber (generation + 1) = t.generation
    from Function.update_self ..]
  refine ⟨List.mem_append_right _ (List.mem_singleton_self _), fun e he => ?_⟩
  rcases List.mem_append.1 he with he | he
  · cases e with
    | answered t' => trivial
    | known n => exact Nat.le_of_lt (hlast n he)
    | begun a' n => exact hlast n (h.grounded _ he)
  · cases List.mem_singleton.1 he
    exact Nat.le_refl _

/-- The item that waits and is not superseded is begun, and nothing waits any more. -/
theorem Agrees.begin (h : log.Agrees answered issued navSeq generation tasks) {a : Assignment}
    (ha : .begin a generation ∈ tasks) :
    (log.add [.begun a (log.itemNumber generation)]).Agrees answered issued navSeq generation
      [] := by
  obtain ⟨hknown, hbefore⟩ := (h.waiting a generation ha).2 rfl
  have hnone : log.Agrees answered issued navSeq generation [] :=
    h.mono (List.Subset.refl _) (List.Subset.refl _) (fun _ _ hm _ => hm) (Nat.le_refl _)
      (fun _ _ hb => absurd hb List.not_mem_nil)
  exact hnone.add hknown hbefore fun _ hb => absurd hb List.not_mem_nil

end Log

/-! ## Logs of sessions -/

namespace Session

variable {s s' : Session} {stored : Session → Json → Prop} {honest : Prop} {log : Log}
  {answered : List Nat}
  {taken : List (Ticket × Request)}

/-- The log agrees with the session. -/
def Logged (s : Session) (log : Log) (answered : List Nat) (taken : List (Ticket × Request)) :
    Prop :=
  log.Agrees answered (taken ++ s.outbox) s.navSeq s.generation s.deferred

/-- Requests that are in no chain do not matter. -/
theorem Logged.grow (h : s.Logged log answered taken) {P : Purpose → Prop} (hg : Grows P s s')
    (hP : ∀ p, P p → p.isNavigation = false) (hn : s'.navSeq = s.navSeq)
    (hgen : s'.generation = s.generation)
    (hb : ∀ a g, .begin a g ∈ s'.deferred → .begin a g ∈ s.deferred) :
    s'.Logged log answered taken := by
  unfold Logged
  rw [hn, hgen]
  refine Log.Agrees.mono h (List.Subset.refl _) (fun m hm => ?_) (fun t r hm hp => ?_)
    (Nat.le_refl _) hb
  · obtain ⟨made, ho, -, -, -⟩ := hg
    rw [ho, ← List.append_assoc]
    exact List.mem_append_left _ hm
  · rcases List.mem_append.1 hm with hm | hm
    · exact List.mem_append_left _ hm
    · rcases hg.mem_outbox hm with hm | hother
      · exact List.mem_append_right _ hm
      · rw [hP _ hother] at hp
        cases hp

/-- Work on an item does not put off the beginning of another one. -/
theorem Works.begin_mem (hw : Works stored honest s s') {a : Assignment} {g : Nat}
    (h : .begin a g ∈ s'.deferred) : .begin a g ∈ s.deferred := by
  induction hw with
  | refl => exact h
  | tail _ hw ih =>
    refine ih ?_
    cases hw with
    | fetch hf => cases hf <;> exact h
    | leaveFrame index ha hc =>
      rcases List.mem_append.1 h with h | h
      · exact h
      · cases List.mem_singleton.1 h
    | _ => exact h

theorem Logged.works (h : s.Logged log answered taken) (hw : Works stored honest s s') :
    s'.Logged log answered taken :=
  h.grow hw.grows (fun _ hp => hp.1) hw.sameItem.navSeq hw.sameItem.generation
    fun _ _ hb => hw.begin_mem hb

/-- A new chain gets the next number. -/
theorem Logged.choose (h : s.Logged log answered taken) {p : Purpose} (r : Request)
    (hp : p.isNavigation = true) (hmeta : p.isMetadata = false) :
    ({ s with navSeq := s.navSeq + 1 }.issue p r).Logged log answered taken := by
  have hissued := Log.Agrees.issue h (t := ⟨s.nextTicket, p, s.navSeq + 1⟩) (r := r)
    (Nat.le_succ _) (Nat.le_refl _) (fun t' r' hr' hp' hlink => ?_) fun hm => ?_
  · rw [List.append_assoc] at hissued
    unfold Logged issue
    rw [if_pos hp]
    exact hissued
  · have hle := h.bound t' r' hr' hp'
    have heq : t'.generation = s.navSeq + 1 := congrArg Prod.snd hlink
    omega
  · rw [show p.isMetadata = true from hm] at hmeta
    cases hmeta

theorem Logged.turn (h : s.Logged log answered taken) (ht : Turn s s') :
    s'.Logged log answered taken := by
  cases ht with
  | choose hset hkey => exact h.choose _ rfl rfl
  | list index hset hm hk => exact h.choose _ rfl rfl
  | leaveItem message =>
    exact Log.Agrees.mono h (List.Subset.refl _) (List.Subset.refl _) (fun _ _ hm _ => hm)
      (Nat.le_succ _) fun _ _ hb => hb
  | _ => exact h

theorem Logged.turns (h : s.Logged log answered taken) (ht : Turns s s') :
    s'.Logged log answered taken := by
  induction ht with
  | refl => exact h
  | tail _ ht ih => exact ih.turn ht

theorem Logged.install (h : s.Logged log answered taken) (set : AnnotationSet) :
    (s.install set).Logged log answered taken := by
  obtain ⟨x, hw, ht⟩ := s.install_steps set
  have hset : Logged { s with
      tool := Tool.ofSet? set s.config.bindings, annotationSet := some set } log answered taken := h
  exact (hset.works hw).turns ht

/-- The metadata of an item is asked for right after the choice was answered. -/
theorem Logged.ask (h : s.Logged log answered taken)
    (hn : log.metadataNumber s.nextTicket = s.navSeq) {t : Ticket} {r : Request}
    (hr : (t, r) ∈ taken ++ s.outbox) (hp : t.purpose = .assignment)
    (hgen : t.generation = s.navSeq) (hdone : t.id ∈ answered)
    (hfree : ∀ t' r', (t', r') ∈ taken ++ s.outbox → t'.purpose.isMetadata = true →
      t'.generation ≠ s.navSeq) (a : Assignment) (r' : Request) :
    (s.issue (.itemMeta a) r').Logged log answered taken := by
  have hissued := Log.Agrees.issue h (t := ⟨s.nextTicket, .itemMeta a, s.navSeq⟩) (r := r')
    (Nat.le_refl _) (Nat.le_refl _) (fun t' r' hr' _ hlink => ?_)
    (fun _ => ⟨hn, t, r, hr, hp, hgen, hdone⟩)
  · rw [List.append_assoc] at hissued
    exact hissued
  · have hmeta : t'.purpose.isMetadata = true := congrArg Prod.fst hlink
    exact hfree t' r' hr' hmeta (congrArg Prod.snd hlink)

/-! ### Answers -/

/-- Answers that change nothing do not matter. -/
theorem Logged.drop (h : s.Logged log answered taken) (id : Nat) :
    s.Logged log (answered ++ [id]) taken :=
  Log.Agrees.mono h (List.subset_append_left _ _) (List.Subset.refl _) (fun _ _ hm _ => hm)
    (Nat.le_refl _) (fun _ _ hb => hb)

variable {t : Ticket} {r : Request} {result : Response}

/-- The answer to a choice. -/
theorem Logged.assignment (h : s.Logged log answered taken)
    (hnew : ∀ t r, (t, r) ∈ taken ++ s.outbox → t.id ≠ s.nextTicket)
    (hr : (t, r) ∈ taken ++ s.outbox) (hopen : t.id ∉ answered) (hp : t.purpose = .assignment)
    (hgen : t.generation = s.navSeq) :
    (s.onAssignment result).Logged ((log.add [.answered t]).number s.nextTicket t.generation)
      (answered ++ [t.id]) taken := by
  have hnav : t.purpose.isNavigation = true := by rw [hp]; rfl
  have hfree : ∀ t' r', (t', r') ∈ taken ++ s.outbox → t'.purpose.isMetadata = true →
      t'.generation ≠ s.navSeq := by
    intro t' r' hr' hp' hgen'
    -- metadata was asked for only if this choice was answered already
    obtain ⟨-, t₀, r₀, hr₀, hp₀, hgen₀, hdone⟩ := h.chosen t' r' hr' hp'
    have hlink : t₀.link = t.link := by
      unfold Ticket.link
      rw [hp₀, hp, hgen₀, hgen', hgen]
    rw [h.unique t₀ r₀ t r hr₀ hr (by rw [hp₀]; rfl) hnav hlink] at hdone
    exact hopen hdone
  have haccepted := (Log.Agrees.accept h hr hnav hopen).number hnew t.generation
  have heffect := s.onAssignment_effect result
  generalize s.onAssignment result = s' at heffect ⊢
  cases heffect with
  | works hp' _ => cases hp'
  | turns ht => exact Logged.turns haccepted ht
  | installed hp' => cases hp'
  | asked _ _ =>
    have hnumber : ((log.add [.answered t]).number s.nextTicket t.generation).metadataNumber
        s.nextTicket = s.navSeq := by
      rw [← hgen]
      exact Function.update_self ..
    exact Logged.ask haccepted hnumber hr hp hgen
      (List.mem_append_right _ (List.mem_singleton_self _)) hfree _ _
  | followed hp' _ => cases hp'
  | listed hp' _ => cases hp'

/-- The metadata of an item. -/
theorem Logged.metadata (h : s.Logged log answered taken) (hr : (t, r) ∈ taken ++ s.outbox)
    (hopen : t.id ∉ answered) {a : Assignment} (hp : t.purpose = .itemMeta a)
    (hgen : t.generation = s.navSeq) :
    (s.onItemMeta a result).Logged (log.answer s t result) (answered ++ [t.id]) taken := by
  have hmeta : t.purpose.isMetadata = true := by rw [hp]; rfl
  have hnav := Purpose.isNavigation_of_isMetadata hmeta
  have haccepted := Log.Agrees.accept h hr hnav hopen
  cases hparse : result.parse (Json.nullable ItemMeta.read?) with
  | error f =>
    have hlog : log.answer s t result = log.add [.answered t] := by
      unfold Log.answer
      rw [hp, hparse]
    have hsession : s.onItemMeta a result = s.report f := by
      unfold onItemMeta
      rw [hparse]
    rw [hlog, hsession]
    exact haccepted
  | ok known =>
    have hlog : log.answer s t result =
        (log.add [.answered t]).learn (s.generation + 1) t.generation := by
      unfold Log.answer
      rw [hp, hparse, (h.chosen t r hr hmeta).1]
    rw [hlog, onItemMeta_of_ok hparse]
    refine haccepted.learn (List.mem_append_right _ (List.mem_singleton_self _)) hmeta
      (fun n hn => ?_) a
    rcases List.mem_append.1 hn with hn | hn
    · obtain ⟨t', ht', hp', rfl⟩ := h.grounded _ hn
      obtain ⟨hnav', ⟨r', hr'⟩, hdone⟩ := h.grounded _ ht'
      have hle := h.bound t' r' hr' hnav'
      -- with the same number it would be the answer to the same request
      have hne : t'.generation ≠ t.generation := by
        intro heq
        have hlink : t'.link = t.link := by
          unfold Ticket.link
          rw [hp', hmeta, heq]
        rw [h.unique t' r' t r hr' hr hnav' hnav hlink] at hdone
        exact hopen hdone
      omega
    · cases List.mem_singleton.1 hn

/-- An answer is applied. -/
theorem Logged.apply (h : s.Logged log answered taken)
    (hnew : ∀ t r, (t, r) ∈ taken ++ s.outbox → t.id ≠ s.nextTicket)
    (hd : s.config.stale = .discard) (hr : (t, r) ∈ taken ++ s.outbox) (hopen : t.id ∉ answered)
    (hs : s.isStale t = false) :
    (s.apply t.purpose result).Logged (log.answer s t result) (answered ++ [t.id]) taken := by
  have hdone := h.drop t.id
  by_cases hnav : t.purpose.isNavigation = true
  · have hgen := (generation_of_current hd hs).1 hnav
    cases hp : t.purpose with
    | assignment =>
      have hlog : log.answer s t result =
          (log.add [.answered t]).number s.nextTicket t.generation := by
        unfold Log.answer
        rw [hp]
      rw [hlog]
      exact h.assignment hnew hr hopen hp hgen
    | itemMeta a => exact h.metadata hr hopen hp hgen
    | keyList index =>
      have hlog : log.answer s t result = log.add [.answered t] := by
        unfold Log.answer
        rw [hp]
      rw [hlog]
      have haccepted := Log.Agrees.accept h hr hnav hopen
      have heffect := s.onKeyList_effect index result
      generalize hs' : s.apply (.keyList index) result = s'
      rw [show s.onKeyList index result = s' from hs'] at heffect
      cases heffect with
      | works hp' _ => cases hp'
      | turns ht => exact Logged.turns haccepted ht
      | installed hp' => cases hp'
      | asked hp' _ => cases hp'
      | followed hp' _ => cases hp'
      | @listed _ _ keys _ ht =>
        have hlisted : Logged { s with keyList := some keys } (log.add [.answered t])
            (answered ++ [t.id]) taken := haccepted
        exact hlisted.turns ht
    | _ => rw [hp] at hnav; cases hnav
  · have hlog : log.answer s t result = log := by
      unfold Log.answer
      cases hp : t.purpose <;> rw [hp] at hnav <;> first | rfl | exact absurd rfl hnav
    rw [hlog]
    have heffect := s.apply_effect t.purpose result
    generalize s.apply t.purpose result = s' at heffect ⊢
    cases heffect with
    | works _ hw => exact hdone.works hw
    | turns ht => exact hdone.turns ht
    | installed _ => exact hdone.install _
    | asked hp' _ => rw [hp'] at hnav; exact absurd rfl hnav
    | followed hp' _ => rw [hp'] at hnav; exact absurd rfl hnav
    | listed hp' _ => rw [hp'] at hnav; exact absurd rfl hnav

/-! ### Rounds -/

theorem starts_eq_some {task : Deferred} {a : Assignment} {g : Nat}
    (hd : s.config.stale = .discard) (h : s.starts task = some (a, g)) :
    task = .begin a g ∧ g = s.generation := by
  unfold starts at h
  cases task with
  | begin a' g' =>
    dsimp only at h
    split_ifs at h with hs
    cases h
    refine ⟨rfl, ?_⟩
    by_contra hg
    exact hs ⟨hg, hd⟩
  | showFrame index n => cases h

/-- What is superseded is not begun. -/
theorem begun_eq_nil {tasks : List Deferred} : ∀ {s : Session}, s.config.stale = .discard →
    (∀ a, .begin a s.generation ∉ tasks) → s.begun tasks = [] := by
  induction tasks with
  | nil => exact fun _ _ => rfl
  | cons task rest ih =>
    intro s hd hnone
    have hsteady := s.runDeferred_steady task
    have hrest := ih (s := s.runDeferred task) (by rw [hsteady.config, hd]) fun a ha =>
      hnone a (List.mem_cons_of_mem _ (hsteady.generation ▸ ha))
    cases hs : s.starts task with
    | none =>
      unfold begun
      rw [hs, hrest]
      rfl
    | some started =>
      obtain ⟨rfl, hcurrent⟩ := starts_eq_some hd hs
      exact absurd (hcurrent ▸ List.mem_cons_self ..) (hnone started.1)

/-- In a round at most one item is begun, which is the current one. -/
theorem begun_cases {tasks : List Deferred} : ∀ {s : Session}, s.config.stale = .discard →
    (tasks.map Deferred.stamp).Nodup →
    s.begun tasks = [] ∨
      ∃ a, .begin a s.generation ∈ tasks ∧ s.begun tasks = [(a, s.generation)] := by
  induction tasks with
  | nil => exact fun _ _ => Or.inl rfl
  | cons task rest ih =>
    intro s hd hnodup
    have hg := (s.runDeferred_steady task).generation
    obtain ⟨hother, hnodup'⟩ := List.nodup_cons.1 hnodup
    have hd' : (s.runDeferred task).config.stale = .discard := by
      rw [(s.runDeferred_steady task).config, hd]
    cases hs : s.starts task with
    | none =>
      have hbegun : s.begun (task :: rest) = (s.runDeferred task).begun rest := by
        rw [begun, hs]
        rfl
      rw [hbegun]
      rcases ih hd' hnodup' with hnil | ⟨a, ha, hone⟩
      · exact Or.inl hnil
      · rw [hg] at ha hone
        exact Or.inr ⟨a, List.mem_cons_of_mem _ ha, hone⟩
    | some started =>
      obtain ⟨rfl, hcurrent⟩ := starts_eq_some hd hs
      -- any other item with this number would be a second one
      have hnil : (s.runDeferred (.begin started.1 started.2)).begun rest = [] := by
        refine begun_eq_nil hd' fun a ha => hother (List.mem_map.2 ⟨_, ha, ?_⟩)
        rw [hg, ← hcurrent]
        rfl
      refine Or.inr ⟨started.1, hcurrent ▸ List.mem_cons_self .., ?_⟩
      rw [begun, hs, hnil, ← hcurrent]
      rfl

/-- In a round the current item is begun, if it waits for it. -/
theorem Logged.tick (h : s.Logged log answered taken) (hd : s.config.stale = .discard)
    (hnodup : (s.deferred.map Deferred.stamp).Nodup) :
    s.tick.Logged (log.record s .tick) answered taken := by
  have hsteady := foldl_runDeferred_steady s.deferred { s with deferred := [] }
  have hround : Logged { s with deferred := [] } (log.record s .tick) answered taken := by
    unfold Log.record
    rcases begun_cases (s := { s with deferred := [] }) hd hnodup with hnil | ⟨a, ha, hone⟩
    · rw [hnil, List.map_nil, show log.add [] = log by simp [Log.add]]
      exact Log.Agrees.mono h (List.Subset.refl _) (List.Subset.refl _) (fun _ _ hm _ => hm)
        (Nat.le_refl _) (fun _ _ hb => absurd hb List.not_mem_nil)
    · rw [hone]
      exact Log.Agrees.begin h ha
  refine hround.grow (foldl_runDeferred_grows s.deferred _) (fun _ hp => hp.1.1) hsteady.navSeq
    hsteady.generation fun a g hb => ?_
  rw [show s.tick.deferred = [] from hsteady.deferred] at hb
  exact hb

end Session

/-- Only answers and rounds are written down. -/
theorem Log.record_eq {log : Log} {s : Session} {op : SessionOp} (htick : op ≠ .tick)
    (hanswer : ∀ t result, op ≠ .complete t result) : log.record s op = log := by
  cases op with
  | tick => exact absurd rfl htick
  | complete t result => exact absurd rfl (hanswer t result)
  | _ => rfl

namespace Chronicle

variable {C : Chronicle} {op : SessionOp}

theorem logged_start {hub : KeyHub} {s : Session} (hs : s.IsFresh) :
    (⟨hub, s.start⟩ : Desk).session.Logged .empty [] [] := by
  rcases hs with ⟨id, config, keys, rfl⟩ | ⟨set, config, keys, rfl⟩
  · have hnew : (Session.new id config keys).Logged .empty [] [] := Log.agrees_empty
    exact hnew.grow (Session.grows_issue (P := fun p => p.isNavigation = false) rfl rfl rfl)
      (fun _ hp => hp) rfl rfl fun _ _ hb => hb
  · have hnew : (Session.new set.id config keys).Logged .empty [] [] := Log.agrees_empty
    exact hnew.install set

/-- The log agrees with the session after every operation. -/
theorem logged_perform (h : C.Reachable) (ha : C.history.Allows op)
    (hd : C.history.session.config.stale = .discard)
    (hl : C.history.session.Logged C.log C.history.answered C.history.taken) :
    (C.history.perform op).session.Logged (C.log.record C.history.session op)
      (C.history.perform op).answered (C.history.perform op).taken := by
  by_cases htick : op = .tick
  · subst htick
    exact hl.tick hd ((History.agenda_invariant.reachable h.history) hd).nodup
  by_cases htake : op = .takeRequests
  · subst htake
    show C.log.Agrees C.history.answered (C.history.issued ++ []) _ _ _
    rw [List.append_nil]
    exact hl
  by_cases hanswer : ∃ t result, op = .complete t result
  · obtain ⟨t, result, rfl⟩ := hanswer
    obtain ⟨⟨r, hr⟩, hopen⟩ := ha
    show (C.history.session.complete t result).Logged
      (if C.history.session.isStale t then C.log else C.log.answer C.history.session t result)
      (C.history.answered ++ [t.id]) C.history.taken
    unfold Session.complete
    split_ifs with hs
    · exact hl.drop t.id
    · have hnew : ∀ t r, (t, r) ∈ C.history.issued → t.id ≠ C.history.session.nextTicket := by
        intro t r hr
        have hid := List.mem_map_of_mem (f := fun m => m.1.id) hr
        rw [h.history.booted.numbered, List.mem_range] at hid
        exact Nat.ne_of_lt hid
      exact hl.apply hnew hd hr hopen (by simpa using hs)
  -- anything else is work on the item, or chooses another one
  have hother : ∀ t result, op ≠ .complete t result :=
    fun t result he => hanswer ⟨t, result, he⟩
  rw [Log.record_eq htick hother, History.taken_perform htake, History.answered_perform_eq hother]
  have hnone : False → C.history.session.Honest op := False.elim
  rcases Session.perform_cases C.history.desk hnone with
    hw | ht | he | he | he | ⟨t, result, he⟩
  · exact hl.works hw
  · exact hl.turns ht
  · rw [he] at ha
    exact absurd ha id
  · exact absurd he htick
  · exact absurd he htake
  · exact absurd he (hother t result)

theorem Reachable.logged (h : C.Reachable)
    (hd : C.history.session.config.stale = .discard) :
    C.history.session.Logged C.log C.history.answered C.history.taken := by
  induction h with
  | start hs => exact logged_start hs
  | step h ha ih =>
    have hd' : _ = StalePolicy.discard := hd
    rw [perform, History.config_perform ha] at hd'
    exact logged_perform h ha hd' (ih hd')

end Chronicle

end Labeling
