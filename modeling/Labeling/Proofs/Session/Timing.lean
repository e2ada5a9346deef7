import Labeling.Proofs.Session.Agenda

/-!
# What can happen while work waits

An item or a frame that waits for the next round comes on show without an image: nothing is shown
from the time it began to wait, and the image of what was shown before is gone
(`Session.Timely.waits`). This holds in every run, however the host behaves
(`Desk.timely_perform`): tickets may be answered more than once, and under the policy that applies
late answers several items may come on show in one round.

A frame that is shown belongs to an item. Under the policy that discards late answers that item
also has frames, as long as what is known of items yields some. Under the other policy it may be
without: its number of frames is forgotten when the item before it is given up, and it comes on
show all the same. Such an item must not be clicked at in the track tool (`Session.Leavable`).
-/

namespace Labeling

namespace Session

variable {s s' : Session} {stored : Session → Json → Prop} {honest : Prop} {due : List Deferred}

/-- A piece of work that will be done, unless the frame is left once more before. -/
def IsLive (s : Session) : Deferred → Prop
  | .begin _ _ => True
  | .showFrame _ frameSeq => frameSeq = s.frameSeq

/-- A piece of work waits without an image. Its numbers are not ahead of those of the session. -/
def Awaits (s : Session) : Deferred → Prop
  | .begin _ generation => s.dims = none ∧
      (s.config.stale = .discard →
        generation ≤ s.generation ∧ (generation = s.generation → s.frameCount ≠ 0))
  | .showFrame _ frameSeq => frameSeq ≤ s.frameSeq ∧
      (frameSeq = s.frameSeq → s.dims = none ∧ s.assignment.isSome = true)

/-- What holds while some work is to be done in this round, and the rest waits for the next. -/
structure Timely (s : Session) (due : List Deferred) : Prop where
  loaded : s.tool.isSome = true → s.annotationSet.isSome = true
  item : s.frame.isSome = true → s.assignment.isSome = true
  counted : s.config.stale = .discard → s.frame.isSome = true → s.frameCount ≠ 0
  waits : ∀ task ∈ due ++ s.deferred, s.Awaits task
  /-- No frame is shown while something waits for the next round. -/
  still : ∀ task ∈ s.deferred, s.IsLive task → s.frame = none

/-- What is asked of a run, so that the frame that is shown can be left. Under the policy that
discards late answers, what is known of an item yields frames; under the one that applies them,
detections are clicked at only on an item that has frames. -/
def Leavable (s : Session) : SessionOp → Prop
  | .complete t result => s.config.stale = .discard → ∀ a known, t.purpose = .itemMeta a →
      result.parse (Json.nullable ItemMeta.read?) = .ok known →
      s.framesOf (known.getD .empty) ≠ 0
  | .click _ => s.config.stale = .apply → s.tool.map Tool.kind = some .detectionToTrack →
      s.frame.isSome = true → s.frameCount ≠ 0
  | _ => True

/-! ## Elementary steps -/

theorem Timely.fetch (h : s.Timely due) (hf : Fetch honest s s') : s'.Timely due := by
  cases hf <;> exact ⟨h.loaded, h.item, h.counted, h.waits, h.still⟩

theorem Timely.fetches (h : s.Timely due) (hf : Fetches honest s s') : s'.Timely due := by
  induction hf with
  | refl => exact h
  | tail _ hf ih => exact ih.fetch hf

/-- When a frame is left, the frames that waited are superseded. -/
theorem Timely.leaveFrame (h : s.Timely []) (ha : s.assignment.isSome = true) (index : Int) :
    Timely { s.resetFrame with deferred := s.deferred ++ [.showFrame index (s.frameSeq + 1)] }
      [] where
  loaded ht := h.loaded (s.isSome_map_resetFrame ▸ ht)
  item hf := by cases hf
  counted _ hf := by cases hf
  waits task hm := by
    change task ∈ s.deferred ++ [.showFrame index (s.frameSeq + 1)] at hm
    rcases List.mem_append.1 hm with hm | hm
    · have hold := h.waits task hm
      cases task with
      | begin a g => exact ⟨rfl, hold.2⟩
      | showFrame i n =>
        exact ⟨Nat.le_succ_of_le hold.1, fun hn => ⟨rfl, ha⟩⟩
    · cases List.mem_singleton.1 hm
      exact ⟨Nat.le_refl _, fun _ => ⟨rfl, ha⟩⟩
  still _ _ _ := rfl

theorem Timely.work (h : s.Timely []) (hw : Work stored honest s s') : s'.Timely [] := by
  have hloaded := hw.sameItem.loaded_of_tool h.loaded
  cases hw with
  | fetch hf => exact h.fetch hf
  | leaveFrame index ha hc => exact h.leaveFrame ha index
  | image dims hf =>
    -- a frame is shown, so that nothing waits for which the image would be too early
    have hidle : ∀ task ∈ s.deferred, ¬ s.IsLive task := by
      intro task hm hl
      rw [h.still task hm hl] at hf
      cases hf
    refine ⟨hloaded, h.item, h.counted, fun task hm => ?_, h.still⟩
    have hold := h.waits task hm
    cases task with
    | begin a g => exact absurd trivial (hidle _ hm)
    | showFrame i n => exact ⟨hold.1, fun hn => absurd hn (hidle _ hm)⟩
  | _ => exact ⟨hloaded, h.item, h.counted, h.waits, h.still⟩

theorem Timely.works (h : s.Timely []) (hw : Works stored honest s s') : s'.Timely [] := by
  induction hw with
  | refl => exact h
  | tail _ hw ih => exact ih.work hw

/-- When an item is left, all that waited for it is superseded. -/
theorem Timely.leaveItem (h : s.Timely []) : s.resetItem.Timely [] where
  loaded ht := h.loaded (s.isSome_map_resetFrame ▸ ht)
  item hf := by cases hf
  counted _ hf := by cases hf
  waits task hm := by
    have hold := h.waits task hm
    cases task with
    | begin a g =>
      refine ⟨rfl, fun hd => ?_⟩
      have hg := (hold.2 hd).1
      exact ⟨Nat.le_succ_of_le hg, fun he => absurd he (Nat.ne_of_lt (Nat.lt_succ_of_le hg))⟩
    | showFrame i n =>
      exact ⟨Nat.le_succ_of_le hold.1,
        fun he => absurd he (Nat.ne_of_lt (Nat.lt_succ_of_le hold.1))⟩
  still _ _ _ := rfl

theorem Timely.turn (h : s.Timely []) (ht : Turn s s') : s'.Timely [] := by
  cases ht with
  | leaveItem message =>
    have hleft := h.leaveItem
    exact ⟨hleft.loaded, hleft.item, hleft.counted, hleft.waits, hleft.still⟩
  | _ => exact ⟨h.loaded, h.item, h.counted, h.waits, h.still⟩

theorem Timely.turns (h : s.Timely []) (ht : Turns s s') : s'.Timely [] := by
  induction ht with
  | refl => exact h
  | tail _ ht ih => exact ih.turn ht

/-- The item that is to be shown next waits for the next round. -/
theorem Timely.follow (h : s.Timely []) (a : Assignment) (itemMeta : ItemMeta)
    (hc : s.config.stale = .discard → s.framesOf itemMeta ≠ 0) :
    (s.follow a itemMeta).Timely [] := by
  have hleft := h.leaveItem
  refine ⟨hleft.loaded, fun hf => (by cases hf), fun _ hf => (by cases hf), fun task hm => ?_,
    fun _ _ _ => rfl⟩
  change task ∈ s.deferred ++ [.begin a (s.generation + 1)] at hm
  rcases List.mem_append.1 hm with hm | hm
  · have hold := hleft.waits task hm
    cases task with
    | begin a g => exact ⟨rfl, fun hd => ⟨(hold.2 hd).1, fun _ => hc hd⟩⟩
    | showFrame i n => exact hold
  · cases List.mem_singleton.1 hm
    exact ⟨rfl, fun hd => ⟨Nat.le_refl _, fun _ => hc hd⟩⟩

/-- Which annotation set there was before does not matter when one is installed. -/
theorem Timely.install (h : s.Timely []) (before : Option AnnotationSet) (set : AnnotationSet) :
    (Session.install { s with annotationSet := before } set).Timely [] := by
  obtain ⟨x, hw, ht⟩ := install_steps { s with annotationSet := before } set
  have hset : Timely { s with tool := Tool.ofSet? set s.config.bindings
                              annotationSet := some set } [] :=
    ⟨fun _ => rfl, h.item, h.counted, h.waits, h.still⟩
  exact (hset.works hw).turns ht

/-! ## Rounds -/

theorem Timely.tail {task : Deferred} (h : s.Timely (task :: due)) : s.Timely due :=
  ⟨h.loaded, h.item, h.counted, fun t hm => h.waits t (List.mem_cons_of_mem _ hm), h.still⟩

theorem Timely.enter {a : Assignment} {g : Nat} (h : s.Timely (.begin a g :: due))
    (hd : s.deferred = []) (hg : g = s.generation ∨ s.config.stale = .apply) :
    (s.enter a).Timely due where
  loaded ht := h.loaded (s.isSome_enter_tool a ▸ ht)
  item _ := rfl
  counted hstale _ := by
    have hbegin := h.waits _ (List.mem_cons_self ..)
    exact (hbegin.2 hstale).2 (eq_of_current hg hstale)
  waits task hm := by
    have hold := h.tail.waits task hm
    cases task with
    | begin a' g' => exact hold
    | showFrame i n => exact ⟨hold.1, fun hn => ⟨(hold.2 hn).1, rfl⟩⟩
  still task hm := by
    rw [show (s.enter a).deferred = [] from hd] at hm
    cases hm

theorem Timely.showFrame {index : Int} (h : s.Timely (.showFrame index s.frameSeq :: due))
    (hd : s.deferred = []) (hc : s.frameCount ≠ 0) (frame : Option Nat) :
    Timely { s with frame } due where
  loaded := h.loaded
  item _ := ((h.waits _ (List.mem_cons_self ..)).2 rfl).2
  counted _ _ := hc
  waits task hm := h.tail.waits task hm
  still task hm := by
    rw [show ({ s with frame } : Session).deferred = [] from hd] at hm
    cases hm

theorem Timely.runDeferred {task : Deferred} (h : s.Timely (task :: due)) (hd : s.deferred = []) :
    (s.runDeferred task).Timely due := by
  rcases s.runDeferred_cases task with hs | ⟨a, g, rfl, hg, hs⟩ | ⟨index, rfl, hc, hs⟩ <;> rw [hs]
  · exact h.tail
  · exact (h.enter hd hg).fetches (s.beginItem_fetches a)
  · exact (h.showFrame hd hc _).fetches (loadFrameImage_fetches _)

/-- At the beginning of a round all that waited is due. -/
theorem Timely.round (h : s.Timely []) : Timely { s with deferred := [] } s.deferred := by
  refine ⟨h.loaded, h.item, h.counted, fun task hm => h.waits task ?_, fun task hm => ?_⟩
  · simpa using hm
  · cases hm

theorem Timely.tick (h : s.Timely []) : s.tick.Timely [] := by
  have hrun : ∀ (due : List Deferred) (x : Session), x.Timely due → x.deferred = [] →
      (due.foldl Session.runDeferred x).Timely [] := by
    intro due
    induction due with
    | nil => exact fun x hx _ => hx
    | cons task rest ih =>
      exact fun x hx hd =>
        ih _ (hx.runDeferred hd) ((x.runDeferred_steady task).deferred.trans hd)
  exact hrun s.deferred _ h.round rfl

/-! ## Operations -/

theorem Timely.apply (h : s.Timely []) {t : Ticket} {result : Response}
    (hp : s.Leavable (.complete t result)) : (s.apply t.purpose result).Timely [] := by
  have he := s.apply_effect t.purpose result
  generalize s.apply t.purpose result = s' at he
  cases he with
  | works _ hw => exact h.works hw
  | turns ht => exact h.turns ht
  | installed _ => exact h.install s.annotationSet _
  | asked _ _ => exact ⟨h.loaded, h.item, h.counted, h.waits, h.still⟩
  | followed hp' hr => exact h.follow _ _ fun hd => hp hd _ _ hp' hr
  | @listed _ _ keys _ ht =>
    have hlisted : Timely { s with keyList := some keys } [] :=
      ⟨h.loaded, h.item, h.counted, h.waits, h.still⟩
    exact hlisted.turns ht

theorem Timely.start (h : s.Timely []) : s.start.Timely [] := by
  unfold Session.start
  split
  · exact h.install none _
  · exact ⟨h.loaded, h.item, h.counted, h.waits, h.still⟩

theorem timely_of_isFresh (hs : s.IsFresh) : s.Timely [] := by
  rcases hs with ⟨id, config, keys, rfl⟩ | ⟨set, config, keys, rfl⟩ <;>
    exact ⟨fun ht => (by cases ht), fun hf => (by cases hf), fun _ hf => (by cases hf),
      fun task hm => (by cases hm), fun task hm => (by cases hm)⟩

end Session

namespace Desk

variable {d : Desk} {op : SessionOp}

theorem timely_perform (h : d.session.Timely []) (hp : d.session.Leavable op) :
    (d.perform op).session.Timely [] := by
  have hop : False → d.session.Honest op := False.elim
  rcases Session.perform_cases d hop with hw | ht | rfl | rfl | rfl | ⟨t, result, rfl⟩
  · exact h.works hw
  · exact h.turns ht
  · exact h.start
  · exact h.tick
  · exact ⟨h.loaded, h.item, h.counted, h.waits, h.still⟩
  · show (d.session.complete t result).Timely []
    unfold Session.complete
    split
    · exact h
    · exact h.apply hp

end Desk

end Labeling
