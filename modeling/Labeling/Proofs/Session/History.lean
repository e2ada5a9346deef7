import Mathlib.Data.List.Nodup
import Labeling.Proofs.Session.Step

/-!
# Histories of a session

A history is a session at work, with two things that the session itself forgets: all
requests it ever made with their tickets, and the tickets that were answered. A history
begins with the start of a session, and goes on with any operations in any order
(`History.Reachable`); only tickets that were handed out can be answered, and each of
them once.

* `History.ReachableUnder.booted` says what holds of tickets in every history: they are
  numbered in the order in which they are made, so a number belongs to one request
  (`History.ReachableUnder.ticket_unique`), and nothing happens before the annotation set
  is there.
* `History.Invariant` lists what has to be shown of the elementary steps, so that
  something holds in every history (`History.Invariant.reachable`).
-/

namespace Labeling

namespace Session

variable {s s' : Session} {stored : Session → Json → Prop} {honest : Prop}

/-- A session that was made and not started. -/
def IsFresh (s : Session) : Prop :=
  (∃ id config keys, s = .new id config keys) ∨ ∃ set config keys, s = .ofSet set config keys

/-! ## Growing outboxes -/

/-- Requests are only added, their tickets numbered on, and all of them for certain
purposes. -/
def Grows (P : Purpose → Prop) (s s' : Session) : Prop :=
  ∃ made, s'.outbox = s.outbox ++ made ∧ s'.nextTicket = s.nextTicket + made.length ∧
    made.map (fun m => m.1.id) = List.range' s.nextTicket made.length ∧
    ∀ m ∈ made, P m.1.purpose

section Grows

variable {P Q : Purpose → Prop}

theorem Grows.of_eq (ho : s'.outbox = s.outbox) (hn : s'.nextTicket = s.nextTicket) :
    Grows P s s' :=
  ⟨[], by simp [ho], by simp [hn], rfl, by simp⟩

theorem Grows.mono (h : Grows P s s') (hPQ : ∀ p, P p → Q p) : Grows Q s s' := by
  obtain ⟨made, ho, hn, hi, hp⟩ := h
  exact ⟨made, ho, hn, hi, fun m hm => hPQ _ (hp m hm)⟩

theorem Grows.trans {s'' : Session} (h : Grows P s s') (h' : Grows P s' s'') : Grows P s s'' := by
  obtain ⟨m, ho, hn, hi, hp⟩ := h
  obtain ⟨m', ho', hn', hi', hp'⟩ := h'
  refine ⟨m ++ m', ?_, ?_, ?_, ?_⟩
  · rw [ho', ho, List.append_assoc]
  · rw [hn', hn, List.length_append, Nat.add_assoc]
  · rw [List.map_append, hi, hi', hn, List.length_append, List.range'_append_1]
  · intro x hx
    rcases List.mem_append.1 hx with hx | hx
    · exact hp x hx
    · exact hp' x hx

/-- A request in the outbox was there, or was made for one of the purposes. -/
theorem Grows.mem_outbox (h : Grows P s s') {t : Ticket} {r : Request} (hm : (t, r) ∈ s'.outbox) :
    (t, r) ∈ s.outbox ∨ P t.purpose := by
  obtain ⟨made, ho, -, -, hp⟩ := h
  rw [ho] at hm
  exact (List.mem_append.1 hm).imp_right (hp _)

theorem grows_issue {p : Purpose} {r : Request} (hp : P p)
    (ho : s'.outbox = s.outbox) (hn : s'.nextTicket = s.nextTicket) :
    Grows P s (s'.issue p r) := by
  refine ⟨[(⟨s.nextTicket, p, if p.isNavigation then s'.navSeq else s'.generation⟩, r)],
    ?_, ?_, rfl, ?_⟩
  · show s'.outbox ++ _ = _
    rw [ho, hn]
  · show s'.nextTicket + 1 = _
    rw [hn]
    rfl
  · intro m hm
    rw [List.mem_singleton.1 hm]
    exact hp

end Grows

/-- Work on an item does not ask for another one. -/
def ForItem (p : Purpose) : Prop := p.isNavigation = false ∧ p ≠ .annotationSet

/-- What is fetched for an item is not handed in. -/
def ForFetch (p : Purpose) : Prop := ForItem p ∧ p ≠ .submit

theorem Fetch.grows (h : Fetch honest s s') : Grows ForFetch s s' := by
  cases h <;> exact grows_issue ⟨⟨rfl, by simp⟩, by simp⟩ rfl rfl

theorem Work.grows (h : Work stored honest s s') : Grows ForItem s s' := by
  cases h with
  | fetch h => exact h.grows.mono fun p hp => hp.1
  | submit hset ha ht => exact grows_issue ⟨rfl, by simp⟩ rfl rfl
  | saveParams params ht => exact grows_issue ⟨rfl, by simp⟩ rfl rfl
  | _ => exact .of_eq rfl rfl

theorem Turn.grows (h : Turn s s') : Grows (fun p => p.isNavigation = true) s s' := by
  cases h with
  | choose hset hkey => exact grows_issue rfl rfl rfl
  | list index hset hm hk => exact grows_issue rfl rfl rfl
  | _ => exact .of_eq rfl rfl

theorem Fetches.grows (h : Fetches honest s s') : Grows ForFetch s s' := by
  induction h with
  | refl => exact .of_eq rfl rfl
  | tail _ hf ih => exact ih.trans hf.grows

theorem Works.grows (h : Works stored honest s s') : Grows ForItem s s' := by
  induction h with
  | refl => exact .of_eq rfl rfl
  | tail _ hw ih => exact ih.trans hw.grows

theorem Turns.grows (h : Turns s s') : Grows (fun p => p.isNavigation = true) s s' := by
  induction h with
  | refl => exact .of_eq rfl rfl
  | tail _ ht ih => exact ih.trans ht.grows

theorem runDeferred_grows (s : Session) (task : Deferred) :
    Grows ForFetch s (s.runDeferred task) := by
  rcases s.runDeferred_cases task with h | ⟨a, g, -, -, h⟩ | ⟨index, -, -, h⟩ <;> rw [h]
  · exact .of_eq rfl rfl
  · exact Grows.trans (.of_eq rfl rfl) (s.beginItem_fetches a).grows
  · exact Grows.trans (.of_eq rfl rfl) (loadFrameImage_fetches _).grows

theorem foldl_runDeferred_grows (due : List Deferred) :
    ∀ s : Session, Grows ForFetch s (due.foldl runDeferred s) := by
  induction due with
  | nil => exact fun s => .of_eq rfl rfl
  | cons task rest ih => exact fun s => (s.runDeferred_grows task).trans (ih _)

theorem tick_grows (s : Session) : Grows ForFetch s s.tick :=
  Grows.trans (.of_eq rfl rfl) (foldl_runDeferred_grows s.deferred _)

/-- The annotation set is asked for once. -/
def ForBooted (p : Purpose) : Prop := p ≠ .annotationSet

theorem Works.grows_booted (h : Works stored honest s s') : Grows ForBooted s s' :=
  h.grows.mono fun _ hp => hp.2

theorem Turns.grows_booted (h : Turns s s') : Grows ForBooted s s' := by
  refine h.grows.mono fun p hp he => ?_
  rw [he] at hp
  cases hp

theorem install_grows (s : Session) (set : AnnotationSet) : Grows ForBooted s (s.install set) := by
  obtain ⟨x, hw, ht⟩ := install_steps s set
  exact Grows.trans (.of_eq rfl rfl) (hw.grows_booted.trans ht.grows_booted)

theorem Effect.grows {p : Purpose} {result : Response} (h : Effect s p result s') :
    Grows ForBooted s s' := by
  cases h with
  | works hp h => exact h.grows_booted
  | turns h => exact h.grows_booted
  | installed hp => exact install_grows s _
  | asked hp hs => exact grows_issue (fun h => by cases h) rfl rfl
  | followed hp hr => exact .of_eq rfl rfl
  | listed hp h => exact Grows.trans (.of_eq rfl rfl) h.grows_booted

/-! ## Before the annotation set is there -/

/-- A session that still waits for its annotation set, with all requests that it made. -/
structure Blank (s : Session) (issued : List (Ticket × Request)) : Prop where
  set : s.annotationSet = none
  tool : s.tool = none
  assignment : s.assignment = none
  frame : s.frame = none
  deferred : s.deferred = []
  issued : ∀ t r, (t, r) ∈ issued → t.purpose = .annotationSet

theorem blank_new (id : Int) (config : SessionConfig) (keys : Nat) :
    (new id config keys).Blank [] :=
  ⟨rfl, rfl, rfl, rfl, rfl, fun _ _ h => by cases h⟩

theorem blank_start (id : Int) (config : SessionConfig) (keys : Nat) :
    (new id config keys).start.Blank (new id config keys).start.outbox := by
  refine ⟨rfl, rfl, rfl, rfl, rfl, fun t r h => ?_⟩
  cases List.mem_singleton.1 h
  rfl

/-- Without an annotation set there is nothing to work on. -/
theorem Blank.work {taken : List (Ticket × Request)} (h : s.Blank (taken ++ s.outbox))
    (hw : Work stored honest s s') : s'.Blank (taken ++ s'.outbox) := by
  cases hw with
  | report message => exact ⟨h.set, h.tool, h.assignment, h.frame, h.deferred, h.issued⟩
  | takeErrors => exact ⟨h.set, h.tool, h.assignment, h.frame, h.deferred, h.issued⟩
  | fetch hf =>
    cases hf with
    | tool ht hc => rw [h.tool] at ht; cases ht
    | image hr =>
      obtain ⟨source, a, k, -, ha, -, -⟩ := frameRequest?_eq_some hr
      rw [h.assignment] at ha
      cases ha
    | stored hset ha => rw [h.set] at hset; cases hset
  | react hset ht hr => rw [h.set] at hset; cases hset
  | submit hset ha ht => rw [h.set] at hset; cases hset
  | saveParams params ht => rw [h.tool] at ht; cases ht
  | leaveFrame index ha hc => rw [h.assignment] at ha; cases ha
  | image dims hf => rw [h.frame] at hf; cases hf

theorem Blank.turn {taken : List (Ticket × Request)} (h : s.Blank (taken ++ s.outbox))
    (ht : Turn s s') : s'.Blank (taken ++ s'.outbox) := by
  cases ht with
  | choose hset hkey => rw [h.set] at hset; cases hset
  | list index hset hm hk => rw [h.set] at hset; cases hset
  | leaveItem message =>
    refine ⟨h.set, ?_, rfl, rfl, h.deferred, h.issued⟩
    show s.tool.map Tool.resetFrame = none
    rw [h.tool]
    rfl
  | _ => exact ⟨h.set, h.tool, h.assignment, h.frame, h.deferred, h.issued⟩

theorem Blank.works {taken : List (Ticket × Request)} (h : s.Blank (taken ++ s.outbox))
    (hw : Works stored honest s s') : s'.Blank (taken ++ s'.outbox) := by
  induction hw with
  | refl => exact h
  | tail _ hw ih => exact ih.work hw

theorem Blank.turns {taken : List (Ticket × Request)} (h : s.Blank (taken ++ s.outbox))
    (ht : Turns s s') : s'.Blank (taken ++ s'.outbox) := by
  induction ht with
  | refl => exact h
  | tail _ ht ih => exact ih.turn ht

theorem Blank.tick_eq {issued : List (Ticket × Request)} (h : s.Blank issued) : s.tick = s := by
  have hd : { s with deferred := [] } = s := by rw [← h.deferred]
  unfold tick
  rw [h.deferred, List.foldl_nil, hd]

end Session

/-! ## Histories -/

/-- A session at work. -/
structure History where
  desk : Desk
  /-- The requests that were taken out of the outbox, with their tickets. -/
  taken : List (Ticket × Request)
  /-- The numbers of the tickets that were answered. -/
  answered : List Nat

namespace History

/-- The session of a history. -/
def session (H : History) : Session := H.desk.session

/-- All requests that were made, oldest first, with their tickets. -/
def issued (H : History) : List (Ticket × Request) := H.taken ++ H.session.outbox

/-- Perform an operation. -/
def perform (H : History) (op : SessionOp) : History :=
  { desk := H.desk.perform op
    taken := match op with
      | .takeRequests => H.issued
      | _ => H.taken
    answered := match op with
      | .complete t _ => H.answered ++ [t.id]
      | _ => H.answered }

/-- What may happen next: a session is started only once, and an answer is the first one to
a ticket that was handed out. -/
def Allows (H : History) : SessionOp → Prop
  | .start => False
  | .complete t _ => (∃ r, (t, r) ∈ H.issued) ∧ t.id ∉ H.answered
  | _ => True

/-- The histories of a session in which every operation also keeps a promise. -/
inductive ReachableUnder (promise : Session → SessionOp → Prop) : History → Prop where
  | start {hub : KeyHub} {s : Session} (hs : s.IsFresh) :
      ReachableUnder promise ⟨⟨hub, s.start⟩, [], []⟩
  | step {H : History} {op : SessionOp} (h : ReachableUnder promise H) (ha : H.Allows op)
      (hp : promise H.session op) : ReachableUnder promise (H.perform op)

theorem ReachableUnder.mono {promise promise' : Session → SessionOp → Prop} {H : History}
    (h : ReachableUnder promise H) (hp : ∀ s op, promise s op → promise' s op) :
    ReachableUnder promise' H := by
  induction h with
  | start hs => exact .start hs
  | step _ ha hpr ih => exact .step ih ha (hp _ _ hpr)

/-- The histories of a session. -/
abbrev Reachable : History → Prop := ReachableUnder fun _ _ => True

variable {H : History} {op : SessionOp} {promise : Session → SessionOp → Prop} {honest : Prop}

/-- The session after an operation: work was done, another item was chosen, or it was a
round, the requests were taken, or a result was handed in. -/
theorem perform_cases (h : H.Allows op) (hop : honest → H.session.Honest op) :
    Session.Works (fun _ _ => False) honest H.session (H.perform op).session ∨
    Session.Turns H.session (H.perform op).session ∨
    op = .tick ∨ op = .takeRequests ∨
    ∃ t result, op = .complete t result ∧
      ((H.perform op).session = H.session ∨
        H.session.isStale t = false ∧
          Session.Effect H.session t.purpose result (H.perform op).session) := by
  rcases Session.perform_cases H.desk hop with hw | ht | rfl | rfl | rfl | ⟨t, result, rfl⟩
  · exact Or.inl hw
  · exact Or.inr (Or.inl ht)
  · exact absurd h id
  · exact Or.inr (Or.inr (Or.inl rfl))
  · exact Or.inr (Or.inr (Or.inr (Or.inl rfl)))
  · refine Or.inr (Or.inr (Or.inr (Or.inr ⟨t, result, rfl, ?_⟩)))
    by_cases hs : H.session.isStale t = true
    · exact Or.inl (if_pos hs)
    · refine Or.inr ⟨by simpa using hs, ?_⟩
      rw [show (H.perform (.complete t result)).session = H.session.apply t.purpose result
        from if_neg hs]
      exact H.session.apply_effect t.purpose result

theorem taken_perform (hop : op ≠ .takeRequests) : (H.perform op).taken = H.taken := by
  cases op <;> first | rfl | exact absurd rfl hop

theorem issued_takeRequests : (H.perform .takeRequests).issued = H.issued :=
  List.append_nil _

theorem answered_perform_eq (hanswer : ∀ t result, op ≠ .complete t result) :
    (H.perform op).answered = H.answered := by
  cases op with
  | complete t result => exact absurd rfl (hanswer t result)
  | _ => rfl

/-- The settings of a session do not change. -/
theorem config_perform (h : H.Allows op) :
    (H.perform op).session.config = H.session.config := by
  rcases perform_cases h False.elim with hw | ht | rfl | rfl | ⟨t, result, rfl, he | ⟨-, he⟩⟩
  · exact hw.sameItem.config
  · exact ht.config_eq
  · exact (Session.foldl_runDeferred_steady H.session.deferred _).config
  · rfl
  · rw [he]
  · generalize (H.perform (.complete t result)).session = s' at he
    cases he with
    | works _ hw => exact hw.sameItem.config
    | turns ht => exact ht.config_eq
    | @installed set _ =>
      obtain ⟨x, hw, ht⟩ := H.session.install_steps set
      rw [ht.config_eq, hw.sameItem.config]
    | asked _ _ => rfl
    | followed _ _ => rfl
    | listed _ ht => rw [ht.config_eq]

theorem perform_grows (h : H.Allows op) (hop : op ≠ .takeRequests) :
    Session.Grows Session.ForBooted H.session (H.perform op).session := by
  rcases perform_cases h False.elim with hw | ht | rfl | rfl | ⟨t, result, rfl, he | ⟨-, he⟩⟩
  · exact hw.grows_booted
  · exact ht.grows_booted
  · exact H.session.tick_grows.mono fun _ hp => hp.1.2
  · exact absurd rfl hop
  · rw [he]
    exact .of_eq rfl rfl
  · exact he.grows

/-! ## Tickets -/

/-- What holds of the tickets of every history. -/
structure Booted (H : History) : Prop where
  /-- Tickets are numbered in the order in which they are made. -/
  numbered : H.issued.map (fun m => m.1.id) = List.range H.session.nextTicket
  /-- The annotation set is fetched before anything else. -/
  first : ∀ t r, (t, r) ∈ H.issued → t.purpose = .annotationSet → t.id = 0
  /-- Nothing happens until it is there. -/
  waiting : ∀ t r, (t, r) ∈ H.issued → t.purpose = .annotationSet → t.id ∉ H.answered →
    H.session.Blank H.issued

/-- While there is no annotation set, all that can happen is that it arrives. -/
theorem perform_blank (hs : H.session.Blank H.issued) (h : H.Allows op) :
    (H.perform op).session.Blank (H.perform op).issued ∨
    ∃ t result set, op = .complete t result ∧ t.purpose = .annotationSet ∧
      (H.perform op).session = H.session.install set := by
  by_cases hop : op = .takeRequests
  · subst hop
    refine Or.inl ⟨hs.set, hs.tool, hs.assignment, hs.frame, hs.deferred, ?_⟩
    rw [issued_takeRequests]
    exact hs.issued
  unfold issued
  rw [taken_perform hop]
  rcases perform_cases h False.elim with hw | ht | rfl | rfl | ⟨t, result, rfl, he | ⟨-, he⟩⟩
  · exact Or.inl (Session.Blank.works hs hw)
  · exact Or.inl (Session.Blank.turns hs ht)
  · have htick : (H.perform .tick).session = H.session := hs.tick_eq
    rw [htick]
    exact Or.inl hs
  · exact absurd rfl hop
  · rw [he]
    exact Or.inl hs
  · obtain ⟨⟨r, hr⟩, -⟩ := h
    have hp := hs.issued t r hr
    -- no other effect belongs to the request for the annotation set
    generalize hs' : (H.perform (.complete t result)).session = s' at he
    cases he with
    | works _ hw => exact Or.inl (Session.Blank.works hs hw)
    | turns ht => exact Or.inl (Session.Blank.turns hs ht)
    | installed _ => exact Or.inr ⟨t, result, _, rfl, hp, rfl⟩
    | asked hp' _ => rw [hp] at hp'; cases hp'
    | followed hp' _ => rw [hp] at hp'; cases hp'
    | listed hp' _ => rw [hp] at hp'; cases hp'

theorem answered_perform {n : Nat} (h : n ∈ H.answered) : n ∈ (H.perform op).answered := by
  cases op with
  | complete t result => exact List.mem_append_left _ h
  | _ => exact h

theorem booted_start {hub : KeyHub} {s : Session} (hs : s.IsFresh) :
    (⟨⟨hub, s.start⟩, [], []⟩ : History).Booted := by
  rcases hs with ⟨id, config, keys, rfl⟩ | ⟨set, config, keys, rfl⟩
  · refine ⟨rfl, fun t r h _ => ?_, fun _ _ _ _ _ => Session.blank_start id config keys⟩
    cases List.mem_singleton.1 h
    rfl
  · obtain ⟨made, ho, hn, hi, hp⟩ := (Session.new set.id config keys).install_grows set
    have hout : (Session.ofSet set config keys).start.outbox = made := ho
    have hnever : ∀ t r, (t, r) ∈ (Session.ofSet set config keys).start.outbox →
        t.purpose ≠ .annotationSet := by
      rw [hout]
      exact fun t r h => hp _ h
    refine ⟨?_, fun t r h hp => absurd hp (hnever t r h),
      fun t r h hp _ => absurd hp (hnever t r h)⟩
    show (Session.ofSet set config keys).start.outbox.map _ =
      List.range (Session.ofSet set config keys).start.nextTicket
    rw [hout, hi, List.range_eq_range']
    exact congrArg (List.range' 0) ((Nat.zero_add _).symm.trans hn.symm)

theorem Booted.perform (hb : H.Booted) (h : H.Allows op) : (H.perform op).Booted := by
  -- an open request for the annotation set was open before, and nothing else happened
  have hwait : ∀ t r, (t, r) ∈ H.issued → t.purpose = .annotationSet →
      t.id ∉ (H.perform op).answered → (H.perform op).session.Blank (H.perform op).issued := by
    intro t r hr hp ha
    have hblank := hb.waiting t r hr hp fun hn => ha (answered_perform hn)
    rcases perform_blank hblank h with hs | ⟨t', result, set, rfl, hp', -⟩
    · exact hs
    · obtain ⟨⟨r', hr'⟩, -⟩ := h
      refine absurd ?_ ha
      show t.id ∈ H.answered ++ [t'.id]
      rw [hb.first t r hr hp, hb.first t' r' hr' hp']
      exact List.mem_append_right _ (List.mem_singleton_self _)
  by_cases hop : op = .takeRequests
  · subst hop
    refine ⟨?_, ?_, ?_⟩ <;> rw [issued_takeRequests]
    · exact hb.numbered
    · exact hb.first
    · intro t r hr hp ha
      rw [← issued_takeRequests]
      exact hwait t r hr hp ha
  · obtain ⟨made, ho, hn, hi, hmade⟩ := perform_grows h hop
    have hissued : (H.perform op).issued = H.issued ++ made := by
      show (H.perform op).taken ++ _ = (H.taken ++ _) ++ _
      rw [taken_perform hop, ho, List.append_assoc]
    have hold : ∀ t r, (t, r) ∈ (H.perform op).issued → t.purpose = .annotationSet →
        (t, r) ∈ H.issued := by
      intro t r hr hp
      rw [hissued] at hr
      rcases List.mem_append.1 hr with hr | hr
      · exact hr
      · exact absurd hp (hmade _ hr)
    refine ⟨?_, fun t r hr hp => hb.first t r (hold t r hr hp) hp,
      fun t r hr hp => hwait t r (hold t r hr hp) hp⟩
    rw [hissued, List.map_append, hb.numbered, hi, hn, List.range_eq_range', List.range_eq_range',
      ← List.range'_append_1, Nat.zero_add]

/-- Tickets are in order in every history. -/
theorem ReachableUnder.booted (h : ReachableUnder promise H) : H.Booted := by
  induction h with
  | start hs => exact booted_start hs
  | step _ ha _ ih => exact ih.perform ha

/-- A ticket's number belongs to one request. -/
theorem ReachableUnder.ticket_unique (h : ReachableUnder promise H) {t t' : Ticket}
    {r r' : Request} (ht : (t, r) ∈ H.issued) (ht' : (t', r') ∈ H.issued) (hid : t.id = t'.id) :
    (t, r) = (t', r') := by
  have hnodup : (H.issued.map fun m => m.1.id).Nodup := by
    rw [h.booted.numbered]
    exact List.nodup_range
  exact List.inj_on_of_nodup_map hnodup ht ht' hid

/-! ## What holds in every history -/

/-- Nothing in particular. -/
abbrev Always (_ : List (Ticket × Request)) (_ : List Deferred) (_ : Session) : Prop := True

/-- Stored annotations that arrive by a result of which something is promised. -/
def Handed (promise : Session → SessionOp → Prop) (s : Session) (data : Json) : Prop :=
  ∃ t result, t.purpose = .existingData ∧ s.isStale t = false ∧
    promise s (.complete t result) ∧ result.json = .ok data

theorem Handed.mono {promise' : Session → SessionOp → Prop} {s : Session} {data : Json}
    (h : Handed promise s data) (hp : ∀ op, promise s op → promise' s op) :
    Handed promise' s data := by
  obtain ⟨t, result, ht, hs, hpr, hd⟩ := h
  exact ⟨t, result, ht, hs, hp _ hpr, hd⟩

/-- What has to be shown of the elementary steps for something to hold in every history. It
may speak of the requests that were taken, of the work that is left to do in a round that
goes on, and of the session; and the steps may rely on something that is known to hold. -/
structure Invariant (honest : Prop) (promise : Session → SessionOp → Prop)
    (given I : List (Ticket × Request) → List Deferred → Session → Prop) : Prop where
  promised : honest → ∀ s op, promise s op → s.Honest op
  blank : ∀ taken s, s.Blank (taken ++ s.outbox) → I taken [] s
  installed : ∀ taken (s : Session) set, s.Blank (taken ++ s.outbox) →
    I taken [] { s with tool := Tool.ofSet? set s.config.bindings, annotationSet := some set }
  work : ∀ taken s s', given taken [] s → I taken [] s →
    Session.Work (Handed promise) honest s s' → I taken [] s'
  fetch : ∀ taken due s s', given taken due s → I taken due s → Session.Fetch True s s' →
    I taken due s'
  turn : ∀ taken s s', given taken [] s → I taken [] s → Session.Turn s s' → I taken [] s'
  listed : ∀ taken s keys, given taken [] s → I taken [] s →
    I taken [] { s with keyList := some keys }
  asked : ∀ taken (s : Session) a source, given taken [] s → I taken [] s →
    s.annotationSet.bind AnnotationSet.source? = some source →
    I taken [] (s.issue (.itemMeta a) (.item source.id a.key .metadata false))
  followed : ∀ taken (s : Session) t a result known, given taken [] s → I taken [] s →
    promise s (.complete t result) → t.purpose = .itemMeta a →
    result.parse (Json.nullable ItemMeta.read?) = .ok known →
    I taken [] (s.follow a (known.getD .empty))
  taken : ∀ taken s, given taken [] s → I taken [] s →
    I (taken ++ s.outbox) [] { s with outbox := [] }
  round : ∀ taken s, given taken [] s → I taken [] s → I taken s.deferred { s with deferred := [] }
  dropped : ∀ taken task due s, given taken (task :: due) s → I taken (task :: due) s →
    I taken due s
  entered : ∀ taken a g due (s : Session), given taken (.begin a g :: due) s →
    I taken (.begin a g :: due) s → g = s.generation ∨ s.config.stale = .apply →
    I taken due (s.enter a)
  shown : ∀ taken index due (s : Session), given taken (.showFrame index s.frameSeq :: due) s →
    I taken (.showFrame index s.frameSeq :: due) s → s.frameCount ≠ 0 →
    I taken due { s with frame := some (index % Session.signed s.frameCount).toNat }

namespace Invariant

variable {given I : List (Ticket × Request) → List Deferred → Session → Prop}
  {taken : List (Ticket × Request)} {due : List Deferred} {s s' : Session}

/-- What was relied on is shown separately. -/
theorem and (hI : Invariant honest promise given I)
    (hG : Invariant False (fun _ _ => True) Always given) :
    Invariant honest promise Always fun taken due s => given taken due s ∧ I taken due s where
  promised := hI.promised
  blank taken s h := ⟨hG.blank taken s h, hI.blank taken s h⟩
  installed taken s set h := ⟨hG.installed taken s set h, hI.installed taken s set h⟩
  work taken s s' _ h hw :=
    ⟨hG.work taken s s' trivial h.1
        (hw.weaken (fun _ _ hd => hd.mono fun _ _ => trivial) False.elim),
      hI.work taken s s' h.1 h.2 hw⟩
  fetch taken due s s' _ h hf :=
    ⟨hG.fetch taken due s s' trivial h.1 hf, hI.fetch taken due s s' h.1 h.2 hf⟩
  turn taken s s' _ h ht := ⟨hG.turn taken s s' trivial h.1 ht, hI.turn taken s s' h.1 h.2 ht⟩
  listed taken s keys _ h :=
    ⟨hG.listed taken s keys trivial h.1, hI.listed taken s keys h.1 h.2⟩
  asked taken s a source _ h hs :=
    ⟨hG.asked taken s a source trivial h.1 hs, hI.asked taken s a source h.1 h.2 hs⟩
  followed taken s t a result known _ h hp ht hr :=
    ⟨hG.followed taken s t a result known trivial h.1 trivial ht hr,
      hI.followed taken s t a result known h.1 h.2 hp ht hr⟩
  taken taken s _ h := ⟨hG.taken taken s trivial h.1, hI.taken taken s h.1 h.2⟩
  round taken s _ h := ⟨hG.round taken s trivial h.1, hI.round taken s h.1 h.2⟩
  dropped taken task due s _ h :=
    ⟨hG.dropped taken task due s trivial h.1, hI.dropped taken task due s h.1 h.2⟩
  entered taken a g due s _ h hg :=
    ⟨hG.entered taken a g due s trivial h.1 hg, hI.entered taken a g due s h.1 h.2 hg⟩
  shown taken index due s _ h hc :=
    ⟨hG.shown taken index due s trivial h.1 hc, hI.shown taken index due s h.1 h.2 hc⟩

theorem works (hI : Invariant honest promise Always I) (h : I taken [] s)
    (hw : Session.Works (Handed promise) honest s s') : I taken [] s' := by
  induction hw with
  | refl => exact h
  | tail _ hw ih => exact hI.work _ _ _ trivial ih hw

theorem fetches (hI : Invariant honest promise Always I) (h : I taken due s)
    (hf : Session.Fetches True s s') : I taken due s' := by
  induction hf with
  | refl => exact h
  | tail _ hf ih => exact hI.fetch _ _ _ _ trivial ih hf

theorem turns (hI : Invariant honest promise Always I) (h : I taken [] s)
    (ht : Session.Turns s s') : I taken [] s' := by
  induction ht with
  | refl => exact h
  | tail _ ht ih => exact hI.turn _ _ _ trivial ih ht

theorem install (hI : Invariant honest promise Always I) (h : s.Blank (taken ++ s.outbox))
    (set : AnnotationSet) : I taken [] (s.install set) := by
  obtain ⟨x, hw, ht⟩ := s.install_steps set
  exact hI.turns (hI.works (hI.installed _ _ _ h) (hw.weaken (fun _ _ => False.elim)
    fun _ => trivial)) ht

theorem runDeferred (hI : Invariant honest promise Always I) {task : Deferred}
    (h : I taken (task :: due) s) : I taken due (s.runDeferred task) := by
  rcases s.runDeferred_cases task with hs | ⟨a, g, rfl, hg, hs⟩ | ⟨index, rfl, hc, hs⟩ <;> rw [hs]
  · exact hI.dropped _ _ _ _ trivial h
  · exact hI.fetches (hI.entered _ _ _ _ _ trivial h hg) (s.beginItem_fetches a)
  · exact hI.fetches (hI.shown _ _ _ _ trivial h hc) (Session.loadFrameImage_fetches _)

/-- A round up to any of its pieces of work. -/
theorem foldl_runDeferred (hI : Invariant honest promise Always I)
    (taken : List (Ticket × Request)) {before : List Deferred} :
    ∀ {s : Session}, I taken (before ++ due) s →
      I taken due (before.foldl Session.runDeferred s) := by
  induction before with
  | nil => exact fun h => h
  | cons task rest ih => exact fun h => ih (hI.runDeferred h)

theorem perform (hI : Invariant honest promise Always I) (hb : H.Booted)
    (h : I H.taken [] H.session) (ha : H.Allows op) (hp : promise H.session op) :
    I (H.perform op).taken [] (H.perform op).session := by
  by_cases hop : op = .takeRequests
  · subst hop
    exact hI.taken _ _ trivial h
  rw [taken_perform hop]
  rcases perform_cases ha (fun hh => hI.promised hh _ _ hp) with
    hw | ht | rfl | rfl | ⟨t, result, rfl, he | ⟨hs, he⟩⟩
  · exact hI.works h (hw.weaken (fun _ _ => False.elim) id)
  · exact hI.turns h ht
  · refine hI.foldl_runDeferred H.taken ?_
    rw [List.append_nil]
    exact hI.round _ _ trivial h
  · exact absurd rfl hop
  · rw [he]
    exact h
  · generalize (H.perform (.complete t result)).session = s' at he
    cases he with
    | works _ hw =>
      -- what the tool is told of here came by this result, of which the promise speaks
      refine hI.works h (hw.weaken ?_ fun _ => trivial)
      rintro x data ⟨rfl, hpurpose, hdata⟩
      exact ⟨t, result, hpurpose, hs, hp, hdata⟩
    | turns ht => exact hI.turns h ht
    | installed hp' =>
      obtain ⟨⟨r, hr⟩, hn⟩ := ha
      exact hI.install (hb.waiting t r hr hp' hn) _
    | asked _ hs => exact hI.asked _ _ _ _ trivial h hs
    | followed hp' hr => exact hI.followed _ _ _ _ _ _ trivial h hp hp' hr
    | listed _ ht => exact hI.turns (hI.listed _ _ _ trivial h) ht

/-- What the elementary steps keep holds in every history. -/
theorem reachable (hI : Invariant honest promise Always I) (h : ReachableUnder promise H) :
    I H.taken [] H.session := by
  induction h with
  | start hs =>
    rcases hs with ⟨id, config, keys, rfl⟩ | ⟨set, config, keys, rfl⟩
    · exact hI.blank _ _ (Session.blank_start id config keys)
    · exact hI.install (Session.blank_new set.id config keys) set
  | step hr ha hp ih => exact hI.perform hr.booted ih ha hp

end Invariant

/-! ## Runs -/

/-- Perform some operations, one after the other. -/
def performAll (H : History) (ops : List SessionOp) : History := ops.foldl perform H

/-- Some operations may happen one after the other, and each keeps the promise. -/
def AllowsAll (promise : Session → SessionOp → Prop) (H : History) : List SessionOp → Prop
  | [] => True
  | op :: rest => H.Allows op ∧ promise H.session op ∧ (H.perform op).AllowsAll promise rest

theorem ReachableUnder.performAll {ops : List SessionOp} :
    ∀ {H : History}, ReachableUnder promise H → H.AllowsAll promise ops →
      ReachableUnder promise (H.performAll ops) := by
  induction ops with
  | nil => exact fun h _ => h
  | cons op rest ih => exact fun h ha => ih (.step h ha.1 ha.2.1) ha.2.2

/-- Decide whether an operation may happen next. -/
def allowsb (H : History) : SessionOp → Bool
  | .start => false
  | .complete t _ => H.issued.any (fun m => m.1 = t) && !H.answered.contains t.id
  | _ => true

theorem allowsb_sound (h : H.allowsb op = true) : H.Allows op := by
  cases op with
  | start => cases h
  | complete t result =>
    simp only [allowsb, Bool.and_eq_true, List.any_eq_true, decide_eq_true_eq, Bool.not_eq_true',
      List.contains_eq_mem, decide_eq_false_iff_not] at h
    obtain ⟨⟨⟨t', r⟩, hr, rfl⟩, hopen⟩ := h
    exact ⟨⟨r, hr⟩, hopen⟩
  | _ => trivial

/-- Decide whether some operations may happen one after the other. -/
def allowsAllb (H : History) : List SessionOp → Bool
  | [] => true
  | op :: rest => H.allowsb op && (H.perform op).allowsAllb rest

theorem allowsAllb_sound {ops : List SessionOp} :
    ∀ {H : History}, H.allowsAllb ops = true → H.AllowsAll (fun _ _ => True) ops := by
  induction ops with
  | nil => exact fun _ => trivial
  | cons op rest ih =>
    intro H h
    rw [allowsAllb, Bool.and_eq_true] at h
    exact ⟨allowsb_sound h.1, trivial, ih h.2⟩

/-- A history that has only begun, of a session whose annotation set is known. -/
def ofSet (set : AnnotationSet) : History :=
  ⟨⟨.empty, (Session.ofSet set .default 0).start⟩, [], []⟩

theorem reachable_ofSet (set : AnnotationSet) : ReachableUnder promise (ofSet set) :=
  .start (Or.inr ⟨set, .default, 0, rfl⟩)

/-- An annotation set for a tool, with a video as its source and with detections. -/
def exampleSet (tool : ToolKind) (output : DataType) : AnnotationSet :=
  ⟨1, ⟨2, "", output⟩, [⟨3, "", .video⟩, ⟨4, "", .detection⟩], tool, none⟩

end History

end Labeling
