import Labeling.Proofs.Session.OrderlyUse
import Labeling.Proofs.Session.TrackFrames

/-!
# The message in the place of an item

Where there is nothing to label, and where nothing was labeled yet, the session shows a message in
the place of an item. Either way to choose an item clears it, `Session.getNewItem` and
`Session.getOldItem`. `Session.update` does not: what it asks for comes on show beside the message
(`History.message_beside_item`). So under the policy that discards late answers no item is shown
with a message, unless `update` asked for one while the message was there
(`History.message_without_item`).

The reason is that a message is shown only once no request of the current choice is outstanding
(`History.NoChoice`): it comes with the answer to one of them, and each choice has one request
outstanding at most (`History.Open.id_eq`); or with a listing that is empty, which was the answer to
the last choice and after which none is asked for.
-/

namespace Labeling

namespace Session

variable {s s' : Session} {stored : Session → Json → Prop} {honest : Prop}

/-- No choice is made: no item is asked for, and what is listed and the message stay. -/
structure Lingers (s s' : Session) : Prop where
  mode : s'.mode = s.mode
  keyList : s'.keyList = s.keyList
  message : s'.message = s.message
  navSeq : s'.navSeq = s.navSeq
  adds : Adds (fun t => t.purpose.isNavigation = false) s s'

theorem Lingers.refl (s : Session) : Lingers s s := ⟨rfl, rfl, rfl, rfl, .of_eq rfl⟩

theorem Lingers.trans {s'' : Session} (h : Lingers s s') (h' : Lingers s' s'') : Lingers s s'' where
  mode := h'.mode.trans h.mode
  keyList := h'.keyList.trans h.keyList
  message := h'.message.trans h.message
  navSeq := h'.navSeq.trans h.navSeq
  adds := h.adds.trans h'.adds

theorem Works.lingers (hw : Works stored honest s s') : Lingers s s' where
  mode := hw.sameItem.mode
  keyList := hw.sameItem.keyList
  message := hw.sameItem.message
  navSeq := hw.sameItem.navSeq
  adds _ _ hm := (hw.grows.mem_outbox hm).imp_right fun hp => hp.1

theorem runDeferred_message (s : Session) (task : Deferred) :
    (s.runDeferred task).message = s.message := by
  rcases s.runDeferred_cases task with h | ⟨a, g, -, -, h⟩ | ⟨index, -, -, h⟩ <;> rw [h]
  · exact (s.beginItem_fetches a).sameItem.message
  · exact (loadFrameImage_fetches _).sameItem.message

theorem tick_message (s : Session) : s.tick.message = s.message := by
  have hround : ∀ (tasks : List Deferred) (x : Session),
      (tasks.foldl runDeferred x).message = x.message := by
    intro tasks
    induction tasks with
    | nil => exact fun _ => rfl
    | cons task rest ih => exact fun x => (ih _).trans (x.runDeferred_message task)
  exact hround s.deferred _

theorem tick_lingers (s : Session) : Lingers s s.tick where
  mode := s.stays_tick.mode
  keyList := s.stays_tick.keyList
  message := s.tick_message
  navSeq := (foldl_runDeferred_steady s.deferred _).navSeq
  adds _ _ hm := (s.tick_grows.mem_outbox hm).imp_right fun hp => hp.1.1

/-! ## No item -/

/-- No item is shown, and none is about to be. -/
structure Vacant (s : Session) : Prop where
  assignment : s.assignment = none
  frame : s.frame = none
  begins : ∀ a, .begin a s.generation ∉ s.deferred

theorem Work.frame_eq_none (hw : Work stored honest s s') (hf : s.frame = none) :
    s'.frame = none := by
  cases hw with
  | fetch h => cases h <;> exact hf
  | leaveFrame index ha hc => rfl
  | _ => exact hf

theorem Works.frame_eq_none (hw : Works stored honest s s') (hf : s.frame = none) :
    s'.frame = none := by
  induction hw with
  | refl => exact hf
  | tail _ hw ih => exact hw.frame_eq_none ih

theorem Vacant.works (h : s.Vacant) (hw : Works stored honest s s') : s'.Vacant where
  assignment := hw.sameItem.assignment.trans h.assignment
  frame := hw.frame_eq_none h.frame
  begins a hm := by
    rw [hw.sameItem.generation] at hm
    exact h.begins a (hw.begin_mem hm)

/-- Nothing that waits would show an item or a frame. -/
theorem Vacant.tick (h : s.Vacant) (ha : s.Agenda s.deferred) (hd : s.config.stale = .discard) :
    s.tick.Vacant := by
  have hdropped : s.tick = { s with deferred := [] } :=
    foldl_runDeferred_of_superseded fun task hm => by
      cases task with
      | begin a g => exact ⟨fun hg => h.begins a (hg ▸ hm), hd⟩
      | showFrame index n =>
        refine Or.inl fun hn => ?_
        have hitem := ((ha.shows index n hm).2 hn).1
        rw [h.assignment] at hitem
        cases hitem
  rw [hdropped]
  exact ⟨h.assignment, h.frame, fun a hm => absurd hm List.not_mem_nil⟩

/-- Leaving the item supersedes all that waits, whatever is shown in its place. -/
theorem vacant_of_left (ha : s.Agenda s.deferred) {mode : NavMode} {keyList : Option (List String)}
    {message : Option String}
    (hs : s' = { s.resetItem with mode := mode, keyList := keyList, message := message }) :
    s'.Vacant := by
  subst hs
  refine ⟨rfl, rfl, fun a hm => ?_⟩
  exact absurd (ha.begins a _ hm).1 (Nat.not_succ_le_self _)

/-! ## Choosing -/

/-- To ask for an item is a new choice; without anything to ask for nothing happens. -/
theorem update_cases (s : Session) :
    s.update = s ∨ ∃ set key, s.update = s.askFor set key ∧
      (s.mode = .new ∨ s.keyList ≠ some []) := by
  unfold update
  split
  · exact Or.inl rfl
  · rename_i set _
    split
    · rename_i hm
      exact Or.inr ⟨set, none, rfl, Or.inl hm⟩
    · split
      · exact Or.inl rfl
      · exact Or.inl rfl
      · rename_i keys hne hk
        refine Or.inr ⟨set, _, rfl, Or.inr fun he => ?_⟩
        rw [hk] at he
        exact hne (Option.some.inj he)

theorem update_message (s : Session) : s.update.message = s.message := by
  rcases s.update_cases with h | ⟨set, key, h, -⟩ <;> rw [h]
  rfl

theorem getNewItem_message (s : Session) : s.getNewItem.message = none := update_message _

theorem getNewItem_keyList (s : Session) : s.getNewItem.keyList = none := update_keyList _

/-- Only an empty listing leads to a message. -/
theorem getOldItem_cases (s : Session) (index : Int) :
    (s.getOldItem index).message = none ∧ (s.getOldItem index).keyList ≠ some [] ∨
    s.keyList = some [] ∧ s.getOldItem index =
      { { s with mode := .existing, message := none }.resetItem with
        message := some noLabelsMessage } := by
  unfold getOldItem
  dsimp only
  split
  · rename_i hk
    refine Or.inl ?_
    split
    · exact ⟨rfl, by rw [hk]; simp⟩
    · exact ⟨rfl, by show s.keyList ≠ _; rw [hk]; simp⟩
  · rename_i hk
    exact Or.inr ⟨hk, rfl⟩
  · rename_i keys hne hk
    refine Or.inl ⟨update_message _, ?_⟩
    rw [update_keyList]
    show s.keyList ≠ _
    rw [hk]
    exact fun he => hne (Option.some.inj he)

/-- Once the annotation set is taken over and its tool has heard of it, the first item is chosen, if
the tool goes through items. -/
theorem install_cases (s : Session) (set : AnnotationSet) :
    ∃ s', Works (fun _ _ => True) False
        { s with tool := Tool.ofSet? set s.config.bindings, annotationSet := some set } s' ∧
      (s.install set = s' ∨ s.install set = s'.getNewItem) := by
  unfold install
  cases h : Tool.ofSet? set s.config.bindings with
  | none => exact ⟨_, .single (.report _), Or.inl rfl⟩
  | some t =>
    refine ⟨_, notify_works _ (e := .ready) trivial, ?_⟩
    dsimp only
    split
    · exact Or.inr rfl
    · exact Or.inl rfl

/-- An answer that leads to no other item is work on the one that is shown. -/
theorem apply_works {p : Purpose} (hp : p.leads = false) (s : Session) (result : Response) :
    Works (fun _ _ => True) honest s (s.apply p result) := by
  unfold apply
  cases p with
  | existingData =>
    dsimp only
    split
    · exact s.notify_works trivial
    · exact .single (.report _)
  | saveParams =>
    dsimp only
    split
    · exact .refl
    · exact .single (.report _)
  | frameImage n =>
    dsimp only
    split
    · exact s.imageLoaded_works _
    · exact .single (.report _)
  | tool p => exact s.notify_works trivial
  | _ => cases hp

end Session

namespace History

variable {H : History} {op : SessionOp}

/-! ## Outstanding choices -/

/-- Of each choice one request at most is outstanding: the metadata of an item is asked for only
when the choice was answered. -/
theorem Open.id_eq (h : H.Reachable) (hd : H.session.config.stale = .discard) {t t' : Ticket}
    (ht : H.Open t) (ht' : H.Open t') (hnav : t.purpose.isNavigation = true)
    (hnav' : t'.purpose.isNavigation = true) (hg : t.generation = t'.generation) :
    t.id = t'.id := by
  obtain ⟨log, hlog⟩ := Chronicle.exists_log h
  have hagrees : log.Agrees H.answered H.issued _ _ _ := hlog.logged hd
  -- a request of the same choice that is no request for metadata was answered
  have hanswered : ∀ {x y : Ticket}, H.Open x → H.Open y → x.purpose.isMetadata = true →
      y.purpose.isNavigation = true → y.purpose.isMetadata = false →
      x.generation ≠ y.generation := by
    intro x y ⟨⟨r, hr⟩, _⟩ ⟨⟨r', hr'⟩, hopen⟩ hmeta hnav hno heq
    obtain ⟨-, t₀, r₀, hr₀, hp₀, hg₀, hdone⟩ := hagrees.chosen x r hr hmeta
    have hlink : t₀.link = y.link := by
      unfold Ticket.link
      rw [hp₀, hg₀, heq, hno]
      rfl
    rw [hagrees.unique t₀ r₀ y r' hr₀ hr' (by rw [hp₀]; rfl) hnav hlink] at hdone
    exact hopen hdone
  have hsame : t.purpose.isMetadata = t'.purpose.isMetadata → t.id = t'.id := by
    intro hmeta
    obtain ⟨⟨r, hr⟩, -⟩ := ht
    obtain ⟨⟨r', hr'⟩, -⟩ := ht'
    refine hagrees.unique t r t' r' hr hr' hnav hnav' ?_
    unfold Ticket.link
    rw [hmeta, hg]
  cases hmeta : t.purpose.isMetadata <;> cases hmeta' : t'.purpose.isMetadata
  · exact hsame (hmeta.trans hmeta'.symm)
  · exact absurd hg.symm (hanswered ht' ht hmeta' hnav hmeta)
  · exact absurd hg (hanswered ht ht' hmeta hnav' hmeta')
  · exact hsame (hmeta.trans hmeta'.symm)

/-- No request of the current choice is outstanding. -/
def NoChoice (H : History) : Prop :=
  ∀ t, H.Open t → t.purpose.isNavigation = true → t.generation ≠ H.session.navSeq

/-- Once the choice is answered and nothing else was asked for, no request of it is left. -/
theorem noChoice_of_answer (h : H.Reachable) (hd : H.session.config.stale = .discard) {t : Ticket}
    {result : Response} (ht : H.Open t) (hnav : t.purpose.isNavigation = true)
    (hs : H.session.isStale t = false)
    (hn : (H.perform (.complete t result)).session.navSeq = H.session.navSeq)
    (hadds : Session.Adds (fun t => t.purpose.isNavigation = false) H.session
      (H.perform (.complete t result)).session) :
    (H.perform (.complete t result)).NoChoice := by
  intro t' ht' hnav' hg
  rcases ht'.perform (by simp) hadds with hopen | hno
  · have hcurrent := (Session.generation_of_current hd hs).1 hnav
    have hid := Open.id_eq h hd hopen ht hnav' hnav (by rw [hg, hn, hcurrent])
    refine ht'.2 ?_
    rw [hid]
    exact List.mem_append_right _ (List.mem_singleton_self _)
  · rw [hnav'] at hno
    cases hno

/-- Nothing is shown, nothing is about to be, and nothing is asked for. -/
structure Idle (H : History) : Prop where
  vacant : H.session.Vacant
  choice : H.NoChoice

/-! ## Retries -/

/-- While the message was there that is shown, `update` asked for an item. -/
inductive Retried : History → Prop where
  | retry {H : History} (h : H.Reachable) (hm : H.session.message.isSome = true)
      (hn : (H.perform .update).session.navSeq ≠ H.session.navSeq) : Retried (H.perform .update)
  | stays {H : History} {op : SessionOp} (h : Retried H) (ha : H.Allows op)
      (hm : (H.perform op).session.message = H.session.message) : Retried (H.perform op)

/-- What is known of a message that is shown, and of an empty listing. -/
structure Explained (H : History) : Prop where
  listed : H.session.keyList = some [] → H.session.mode = .existing ∧ H.NoChoice
  shown : H.session.message.isSome = true → H.Idle ∨ H.Retried

theorem Explained.of_no_message (hm : H.session.message = none)
    (hk : H.session.keyList ≠ some []) : H.Explained where
  listed he := absurd he hk
  shown hs := by
    rw [hm] at hs
    cases hs

theorem Explained.of_idle (hi : H.Idle)
    (hmode : H.session.keyList = some [] → H.session.mode = .existing) : H.Explained where
  listed he := ⟨hmode he, hi.choice⟩
  shown _ := Or.inl hi

/-- An operation that makes no choice. If it brings an item, there was no message before, or `update`
had asked for one. -/
theorem Explained.lingers (h : H.Explained) (ha : H.Allows op) (hop : op ≠ .takeRequests)
    (hl : Session.Lingers H.session (H.perform op).session)
    (hv : H.Idle → (H.perform op).session.Vacant) : (H.perform op).Explained := by
  have hchoice : H.NoChoice → (H.perform op).NoChoice := by
    intro hno t ht hnav
    rw [hl.navSeq]
    rcases ht.perform hop hl.adds with hopen | hother
    · exact hno t hopen hnav
    · rw [hnav] at hother
      cases hother
  refine ⟨fun hk => ?_, fun hm => ?_⟩
  · rw [hl.keyList] at hk
    rw [hl.mode]
    exact (h.listed hk).imp_right hchoice
  · rw [hl.message] at hm
    exact (h.shown hm).imp (fun hi => ⟨hv hi, hchoice hi.choice⟩) fun hr => hr.stays ha hl.message

theorem Explained.works (h : H.Explained) (ha : H.Allows op) (hop : op ≠ .takeRequests)
    (hw : Session.Works (fun _ _ => True) False H.session (H.perform op).session) :
    (H.perform op).Explained :=
  h.lingers ha hop hw.lingers fun hi => hi.vacant.works hw

/-- While a request of the current choice is outstanding, a message is there only after a retry, and
no listing is empty. So its answer may bring an item. -/
theorem Explained.of_choice (h : H.Explained) (ha : H.Allows op) (hno : ¬ H.NoChoice)
    (hk : (H.perform op).session.keyList = H.session.keyList)
    (hm : (H.perform op).session.message = H.session.message) : (H.perform op).Explained where
  listed he := absurd (h.listed (hk ▸ he)).2 hno
  shown hs := by
    rw [hm] at hs
    exact (h.shown hs).elim (fun hi => absurd hi.choice hno) fun hr => Or.inr (hr.stays ha hm)

theorem Explained.takeRequests (h : H.Explained) : (H.perform .takeRequests).Explained := by
  have hchoice : H.NoChoice → (H.perform .takeRequests).NoChoice := by
    rintro hno t ⟨⟨r, hr⟩, hopen⟩
    rw [issued_takeRequests] at hr
    exact hno t ⟨⟨r, hr⟩, hopen⟩
  refine ⟨fun hk => (h.listed hk).imp_right hchoice, fun hm => ?_⟩
  exact (h.shown hm).imp
    (fun hi => ⟨⟨hi.vacant.assignment, hi.vacant.frame, hi.vacant.begins⟩, hchoice hi.choice⟩)
    fun hr => hr.stays trivial rfl

theorem Explained.update (hr : H.Reachable) (h : H.Explained) : (H.perform .update).Explained := by
  rcases H.session.update_cases with hsame | ⟨set, key, hask, hlisted⟩
  · refine h.lingers trivial (by simp) ?_ fun hi => ?_
    · rw [show (H.perform .update).session = H.session from hsame]
      exact .refl _
    · rw [show (H.perform .update).session = H.session from hsame]
      exact hi.vacant
  · have hs : (H.perform .update).session = H.session.askFor set key := hask
    refine ⟨fun hk => ?_, fun hm => Or.inr (.retry hr ?_ ?_)⟩
    · have hk' : H.session.keyList = some [] := by rwa [hs] at hk
      rcases hlisted with hmode | hne
      · rw [(h.listed hk').1] at hmode
        cases hmode
      · exact absurd hk' hne
    · rwa [hs] at hm
    · rw [hs]
      exact Nat.succ_ne_self _

theorem Explained.of_getNewItem {s : Session} (hs : H.session = s.getNewItem) : H.Explained :=
  .of_no_message (hs ▸ Session.getNewItem_message _)
    (by rw [hs, Session.getNewItem_keyList]; simp)

theorem Explained.getOldItem (hr : H.Reachable) (hd : H.session.config.stale = .discard)
    (h : H.Explained) (hop : op ≠ .takeRequests) {index : Int}
    (hs : (H.perform op).session = H.session.getOldItem index) : (H.perform op).Explained := by
  rcases H.session.getOldItem_cases index with ⟨hm, hk⟩ | ⟨hk, hleft⟩
  · exact .of_no_message (hs ▸ hm) (hs ▸ hk)
  · rw [hleft] at hs
    refine .of_idle ⟨Session.vacant_of_left (agenda_invariant.reachable hr hd) hs,
      fun t ht hnav => ?_⟩ fun _ => by rw [hs]; rfl
    · rw [hs]
      have hopen : H.Open t := (ht.perform (P := fun _ => False) hop (.of_eq (by rw [hs]; rfl))).elim
        id False.elim
      exact (h.listed hk).2 t hopen hnav

/-! ## Answers -/

/-- The annotation set arrives: nothing was chosen before, and a message would be gone. -/
theorem Explained.install (h : H.Explained) (ha : H.Allows op) (hop : op ≠ .takeRequests)
    {set : AnnotationSet} (hs : (H.perform op).session = H.session.install set) :
    (H.perform op).Explained := by
  obtain ⟨x, hw, hx | hx⟩ := H.session.install_cases set <;> rw [hx] at hs
  · generalize hy : ({ H.session with
      tool := Tool.ofSet? set H.session.config.bindings, annotationSet := some set } : Session) = y
      at hw
    have htaken : Session.Lingers H.session y := by
      subst hy
      exact ⟨rfl, rfl, rfl, rfl, .of_eq rfl⟩
    have hvacant : H.session.Vacant → y.Vacant := by
      subst hy
      exact fun hv => ⟨hv.assignment, hv.frame, hv.begins⟩
    exact h.lingers ha hop (hs ▸ htaken.trans hw.lingers) fun hi => hs ▸ (hvacant hi.vacant).works hw
  · exact .of_getNewItem hs

/-- The answer to the question which item to label. -/
theorem Explained.onAssignment (hr : H.Reachable) (hd : H.session.config.stale = .discard)
    (h : H.Explained) {t : Ticket} {result : Response} (ht : H.Open t) (hp : t.purpose = .assignment)
    (hstale : H.session.isStale t = false)
    (hs : (H.perform (.complete t result)).session = H.session.onAssignment result) :
    (H.perform (.complete t result)).Explained := by
  have hnav : t.purpose.isNavigation = true := by rw [hp]; rfl
  have hno : ¬ H.NoChoice := fun hno =>
    hno t ht hnav ((Session.generation_of_current hd hstale).1 hnav)
  unfold Session.onAssignment at hs
  split at hs
  · split at hs
    · exact h.of_choice ht hno (by rw [hs]; rfl) (by rw [hs]; rfl)
    · exact h.of_choice ht hno (by rw [hs]; rfl) (by rw [hs]; rfl)
  · split at hs
    · refine .of_idle ⟨Session.vacant_of_left (agenda_invariant.reachable hr hd) hs,
        noChoice_of_answer hr hd ht hnav hstale (by rw [hs]; rfl) (.of_eq (by rw [hs]; rfl))⟩
        fun hk => ?_
      rw [hs] at hk ⊢
      exact (h.listed hk).1
    · exact h.of_choice ht hno (by rw [hs]; rfl) (by rw [hs]; rfl)

/-- What is known about an item. -/
theorem Explained.onItemMeta (hd : H.session.config.stale = .discard)
    (h : H.Explained) {t : Ticket} {a : Assignment} {result : Response} (ht : H.Open t)
    (hp : t.purpose = .itemMeta a) (hstale : H.session.isStale t = false)
    (hs : (H.perform (.complete t result)).session = H.session.onItemMeta a result) :
    (H.perform (.complete t result)).Explained := by
  have hnav : t.purpose.isNavigation = true := by rw [hp]; rfl
  have hno : ¬ H.NoChoice := fun hno =>
    hno t ht hnav ((Session.generation_of_current hd hstale).1 hnav)
  unfold Session.onItemMeta at hs
  split at hs <;> exact h.of_choice ht hno (by rw [hs]; rfl) (by rw [hs]; rfl)

/-- The listing of the stored annotations. -/
theorem Explained.onKeyList (hr : H.Reachable) (hd : H.session.config.stale = .discard)
    (h : H.Explained) {t : Ticket} {index : Int} {result : Response} (ht : H.Open t)
    (hp : t.purpose = .keyList index) (hstale : H.session.isStale t = false)
    (hs : (H.perform (.complete t result)).session = H.session.onKeyList index result) :
    (H.perform (.complete t result)).Explained := by
  have hnav : t.purpose.isNavigation = true := by rw [hp]; rfl
  have hno : ¬ H.NoChoice := fun hno =>
    hno t ht hnav ((Session.generation_of_current hd hstale).1 hnav)
  unfold Session.onKeyList at hs
  split at hs
  · exact h.of_choice ht hno (by rw [hs]; rfl) (by rw [hs]; rfl)
  · rename_i keys _
    rcases Session.getOldItem_cases { H.session with keyList := some (keys.getD []) } index with
      ⟨hm, hk⟩ | ⟨hk, hleft⟩
    · exact .of_no_message (hs ▸ hm) (hs ▸ hk)
    · rw [hleft] at hs
      exact .of_idle ⟨Session.vacant_of_left (agenda_invariant.reachable hr hd) hs,
        noChoice_of_answer hr hd ht hnav hstale (by rw [hs]; rfl) (.of_eq (by rw [hs]; rfl))⟩
        fun _ => by rw [hs]; rfl

theorem Explained.complete (hr : H.Reachable) (hd : H.session.config.stale = .discard)
    (h : H.Explained) {t : Ticket} {result : Response} (ht : H.Open t) :
    (H.perform (.complete t result)).Explained := by
  by_cases hstale : H.session.isStale t = true
  · have hs : (H.perform (.complete t result)).session = H.session := if_pos hstale
    exact h.lingers ht (by simp) (hs ▸ .refl _) fun hi => hs ▸ hi.vacant
  · have hcurrent : H.session.isStale t = false := by simpa using hstale
    have hs : (H.perform (.complete t result)).session = H.session.apply t.purpose result :=
      if_neg hstale
    by_cases hl : t.purpose.leads = true
    · cases hp : t.purpose with
      | annotationSet =>
        rw [hp] at hs
        unfold Session.apply at hs
        dsimp only at hs
        split at hs
        · exact h.install ht (by simp) hs
        · refine h.works ht (by simp) ?_
          rw [hs]
          exact .single (.report _)
      | assignment => exact h.onAssignment hr hd ht hp hcurrent (by rw [hp] at hs; exact hs)
      | itemMeta a => exact h.onItemMeta hd ht hp hcurrent (by rw [hp] at hs; exact hs)
      | keyList index => exact h.onKeyList hr hd ht hp hcurrent (by rw [hp] at hs; exact hs)
      | submit =>
        rw [hp] at hs
        change _ = H.session.onSubmitted result at hs
        unfold Session.onSubmitted at hs
        split at hs
        · refine h.works ht (by simp) ?_
          rw [hs]
          exact .single (.report _)
        · split at hs
          · exact .of_getNewItem hs
          · exact .getOldItem hr hd h (by simp) hs
      | _ => rw [hp] at hl; cases hl
    · exact h.works ht (by simp) (hs ▸ Session.apply_works (by simpa using hl) _ result)

/-! ## All operations -/

theorem explained_start {hub : KeyHub} {s : Session} (hs : s.IsFresh) :
    (⟨⟨hub, s.start⟩, [], []⟩ : History).Explained := by
  rcases hs with ⟨id, config, keys, rfl⟩ | ⟨set, config, keys, rfl⟩
  · exact .of_no_message rfl (by simp [session, Session.start, Session.new, Session.issue])
  · obtain ⟨x, hw, hx | hx⟩ := (Session.new set.id config keys).install_cases set
    · have hs : (Session.ofSet set config keys).start = x := hx
      refine .of_no_message ?_ ?_
      · show (Session.ofSet set config keys).start.message = none
        rw [hs, hw.sameItem.message]
        rfl
      · show (Session.ofSet set config keys).start.keyList ≠ some []
        rw [hs, hw.sameItem.keyList]
        exact (Option.some_ne_none _).symm
    · exact .of_getNewItem hx

theorem Explained.perform (hr : H.Reachable) (hd : H.session.config.stale = .discard)
    (h : H.Explained) (ha : H.Allows op) : (H.perform op).Explained := by
  have hagenda := agenda_invariant.reachable hr hd
  cases op with
  | start => exact absurd ha id
  | tick =>
    refine h.lingers trivial (by simp) H.session.tick_lingers fun hi => hi.vacant.tick ?_ hd
    exact hagenda
  | takeRequests => exact h.takeRequests
  | complete t result => exact h.complete hr hd ha
  | update => exact h.update hr
  | getNewItem => exact .of_getNewItem (s := H.session) rfl
  | getOldItem index => exact h.getOldItem hr hd (by simp) rfl
  | tool wish => exact h.works trivial (by simp) (H.session.performTool_works False.elim)
  | getFrame index => exact h.works trivial (by simp) (H.session.getFrame_works index)
  | jumpToRelative fraction =>
    exact h.works trivial (by simp) (H.session.jumpToRelative_works fraction)
  | finishFrame => exact h.works trivial (by simp) H.session.finishFrame_works
  | annotateItem => exact h.works trivial (by simp) H.session.annotateItem_works
  | saveParams => exact h.works trivial (by simp) H.session.saveParams_works
  | imageLoaded dims => exact h.works trivial (by simp) (H.session.imageLoaded_works dims)
  | dispatch e => exact h.works trivial (by simp) .refl
  | pumpKeys => exact h.works trivial (by simp) (H.session.handleKeys_works _)
  | dragStart pos => exact h.works trivial (by simp) (H.session.ask_works trivial)
  | endTrack => exact h.works trivial (by simp) H.session.endTrack_works
  | takeErrors => exact h.works trivial (by simp) (.single .takeErrors)
  | _ => exact h.works trivial (by simp) (H.session.notify_works trivial)

/-- In every history a message that is shown is explained. -/
theorem explained (h : H.Reachable) (hd : H.session.config.stale = .discard) : H.Explained := by
  induction h with
  | start hs => exact explained_start hs
  | step hr ha _ ih =>
    rw [config_perform ha] at hd
    exact (ih hd).perform hr hd ha

/-- Under the policy that discards late answers, in every history: while a message is shown there is
no item and no frame, unless `update` asked for an item while the message was there. -/
theorem message_without_item (h : H.Reachable) (hd : H.session.config.stale = .discard)
    (hm : H.session.message.isSome = true) :
    H.session.assignment = none ∧ H.session.frame = none ∨ H.Retried :=
  ((explained h hd).shown hm).imp_left fun hi => ⟨hi.vacant.assignment, hi.vacant.frame⟩

/-- An item is shown, and the next answer says that all is labeled: the message takes its place. -/
theorem message_without_item_left :
    let H := (ofSet (exampleSet .int .int)).performAll
      [.complete ⟨0, .assignment, 1⟩ (.ok (.json (.arr [.str "a"]))),
        .complete ⟨1, .itemMeta ⟨"a", false, none⟩, 1⟩ (.ok (.json .null)), .tick, .getNewItem,
        .complete ⟨3, .assignment, 2⟩ (.error (.transport 500 Failure.everythingLabeledBody))]
    H.session.message = some Session.everythingLabeledMessage ∧
      (H.session.assignment = none ∧ H.session.frame = none ∨ H.Retried) := by
  intro H
  have hreach : H.Reachable :=
    (reachable_ofSet _).performAll (allowsAllb_sound (by decide +kernel))
  have hm : H.session.message = some Session.everythingLabeledMessage := by decide +kernel
  exact ⟨hm, message_without_item hreach (by decide +kernel) (by rw [hm]; rfl)⟩

/-- All is labeled at first. `update` asks once more and is given an item, which the round shows
with its first frame; the message is still there. -/
theorem message_beside_item :
    let H := (ofSet (exampleSet .int .int)).performAll
      [.complete ⟨0, .assignment, 1⟩ (.error (.transport 500 Failure.everythingLabeledBody)),
        .update, .complete ⟨1, .assignment, 2⟩ (.ok (.json (.arr [.str "a"]))),
        .complete ⟨2, .itemMeta ⟨"a", false, none⟩, 2⟩ (.ok (.json .null)), .tick]
    H.Reachable ∧ H.session.config.stale = .discard ∧
      H.session.message = some Session.everythingLabeledMessage ∧
      H.session.assignment = some ⟨"a", false, none⟩ ∧ H.session.frame = some 0 := by
  intro H
  exact ⟨(reachable_ofSet _).performAll (allowsAllb_sound (by decide +kernel)), by decide +kernel,
    by decide +kernel, by decide +kernel, by decide +kernel⟩

end History

end Labeling
