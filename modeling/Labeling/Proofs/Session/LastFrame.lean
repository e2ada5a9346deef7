import Labeling.Proofs.Session.TrackFrames
import Labeling.Proofs.Session.FrameImages

/-!
# The frame that was asked for last is shown

However often a frame is asked for between two rounds, the round shows the one that was asked for
last (`History.last_frame`). Each call leaves the frame that is shown and gives the session a new
number, so that the frames asked for before are superseded before they were ever shown. Images that
were asked for earlier are dead for the same reason, and stay so, as the number never goes down.

This holds under either policy and however the host behaves: the session may be started more than
once, and tickets may be answered twice or be made up. What is needed of the work that waits and
of the tickets is that no number is ahead of that of the session, and that no other item is about
to come on show while one is shown (`Session.Numbered`).
-/

namespace Labeling

namespace Session

variable {s s' : Session} {stored : Session → Json → Prop} {honest : Prop} {least : Nat}
  {taken issued : List (Ticket × Request)}

/-! ## Numbers of frames -/

/-- A piece of work that waits is for an item while none is shown, or for a frame whose number
was reached. -/
def Expects (s : Session) : Deferred → Prop
  | .begin _ _ => s.assignment = none
  | .showFrame _ n => n ≤ s.frameSeq

/-- The number of the frame has reached a certain one, and no work that waits and no image that
was asked for is ahead of it. -/
structure Numbered (s : Session) (least : Nat) (issued : List (Ticket × Request)) : Prop where
  reached : least ≤ s.frameSeq
  waits : ∀ task ∈ s.deferred, s.Expects task
  images : ∀ t r n, (t, r) ∈ issued → t.purpose = .frameImage n → n ≤ s.frameSeq

namespace Numbered

/-- Numbers go up, and an item that comes on show does so while no other waits. -/
theorem mono (h : s.Numbered least issued) (hf : s.frameSeq ≤ s'.frameSeq)
    (hw : ∀ task ∈ s'.deferred, (task ∈ s.deferred ∧ (s.assignment = none → s'.assignment = none)) ∨
      s'.Expects task) : s'.Numbered least issued where
  reached := Nat.le_trans h.reached hf
  waits task hm := by
    rcases hw task hm with ⟨hm, ha⟩ | hexpects
    · have hold := h.waits task hm
      cases task with
      | begin a g => exact ha hold
      | showFrame index n => exact Nat.le_trans hold hf
    · exact hexpects
  images t r n hm hp := Nat.le_trans (h.images t r n hm hp) hf

/-- An image is asked for under the current number. -/
theorem issue (h : s.Numbered least (taken ++ s.outbox)) {p : Purpose} {r : Request}
    (hp : ∀ n, p = .frameImage n → n = s.frameSeq) :
    (s.issue p r).Numbered least (taken ++ (s.issue p r).outbox) := by
  refine ⟨h.reached, h.waits, fun t' r' n hm hp' => ?_⟩
  rw [show (s.issue p r).outbox = s.outbox ++ [_] from rfl, ← List.append_assoc] at hm
  rcases List.mem_append.1 hm with hm | hm
  · exact h.images t' r' n hm hp'
  · obtain ⟨rfl, rfl⟩ := Prod.mk.inj (List.mem_singleton.1 hm)
    exact Nat.le_of_eq (hp n hp')

/-! ### Elementary steps -/

theorem fetch (h : s.Numbered least (taken ++ s.outbox)) (hf : Fetch honest s s') :
    s'.Numbered least (taken ++ s'.outbox) := by
  cases hf with
  | tool ht hc => exact h.issue fun n hn => by cases hn
  | image hr =>
    refine h.issue fun n hn => ?_
    cases hn
    rfl
  | stored hset ha => exact h.issue fun n hn => by cases hn

theorem fetches (h : s.Numbered least (taken ++ s.outbox)) (hf : Fetches honest s s') :
    s'.Numbered least (taken ++ s'.outbox) := by
  induction hf with
  | refl => exact h
  | tail _ hf ih => exact ih.fetch hf

theorem work (h : s.Numbered least (taken ++ s.outbox)) (hw : Work stored honest s s') :
    s'.Numbered least (taken ++ s'.outbox) := by
  cases hw with
  | fetch hf => exact h.fetch hf
  | submit hset ha ht => exact h.issue fun n hn => by cases hn
  | saveParams params ht =>
    have hstored : Numbered { s with
        annotationSet := s.annotationSet.map fun set : AnnotationSet =>
          ({ set with params := some params } : AnnotationSet) } least (taken ++ s.outbox) :=
      ⟨h.reached, h.waits, h.images⟩
    exact hstored.issue fun n hn => by cases hn
  | leaveFrame index ha hc =>
    refine h.mono (Nat.le_succ _) fun task hm => ?_
    rcases List.mem_append.1 hm with hm | hm
    · exact .inl ⟨hm, id⟩
    · cases List.mem_singleton.1 hm
      exact .inr (Nat.le_refl _)
  | _ => exact ⟨h.reached, h.waits, h.images⟩

theorem works (h : s.Numbered least (taken ++ s.outbox)) (hw : Works stored honest s s') :
    s'.Numbered least (taken ++ s'.outbox) := by
  induction hw with
  | refl => exact h
  | tail _ hw ih => exact ih.work hw

/-- With the item everything is left that was shown of it. -/
theorem leaveItem (h : s.Numbered least issued) : s.resetItem.Numbered least issued :=
  h.mono (Nat.le_succ _) fun _ hm => .inl ⟨hm, fun _ => rfl⟩

theorem turn (h : s.Numbered least (taken ++ s.outbox)) (ht : Turn s s') :
    s'.Numbered least (taken ++ s'.outbox) := by
  have hchosen : Numbered { s with navSeq := s.navSeq + 1 } least (taken ++ s.outbox) :=
    ⟨h.reached, h.waits, h.images⟩
  cases ht with
  | choose hset hkey => exact hchosen.issue fun n hn => by cases hn
  | list index hset hm hk => exact hchosen.issue fun n hn => by cases hn
  | leaveItem message =>
    have hleft := h.leaveItem
    exact ⟨hleft.reached, hleft.waits, hleft.images⟩
  | _ => exact ⟨h.reached, h.waits, h.images⟩

theorem turns (h : s.Numbered least (taken ++ s.outbox)) (ht : Turns s s') :
    s'.Numbered least (taken ++ s'.outbox) := by
  induction ht with
  | refl => exact h
  | tail _ ht ih => exact ih.turn ht

/-- Which annotation set there was before does not matter when one is installed. -/
theorem install (h : s.Numbered least (taken ++ s.outbox)) (before : Option AnnotationSet)
    (set : AnnotationSet) :
    (Session.install { s with annotationSet := before } set).Numbered least
      (taken ++ (Session.install { s with annotationSet := before } set).outbox) := by
  obtain ⟨x, hw, ht⟩ := install_steps { s with annotationSet := before } set
  have hset : Numbered { s with tool := Tool.ofSet? set s.config.bindings
                                annotationSet := some set } least (taken ++ s.outbox) :=
    ⟨h.reached, h.waits, h.images⟩
  exact (hset.works hw).turns ht

theorem start (h : s.Numbered least (taken ++ s.outbox)) :
    s.start.Numbered least (taken ++ s.start.outbox) := by
  unfold Session.start
  split
  · exact h.install none _
  · exact h.issue fun n hn => by cases hn

theorem apply (h : s.Numbered least (taken ++ s.outbox)) (p : Purpose) (result : Response) :
    (s.apply p result).Numbered least (taken ++ (s.apply p result).outbox) := by
  have he := s.apply_effect p result
  generalize s.apply p result = s' at he
  cases he with
  | works _ hw => exact h.works hw
  | turns ht => exact h.turns ht
  | installed _ => exact h.install s.annotationSet _
  | asked _ _ => exact h.issue fun n hn => by cases hn
  | followed _ _ =>
    refine h.leaveItem.mono (Nat.le_refl _) fun task hm => ?_
    rcases List.mem_append.1 hm with hm | hm
    · exact .inl ⟨hm, id⟩
    · cases List.mem_singleton.1 hm
      exact .inr rfl
  | @listed _ _ keys _ ht =>
    have hlisted : Numbered { s with keyList := some keys } least (taken ++ s.outbox) :=
      ⟨h.reached, h.waits, h.images⟩
    exact hlisted.turns ht

/-! ### Rounds -/

/-- While a round goes on nothing waits for the next one. -/
theorem runDeferred (h : s.Numbered least (taken ++ s.outbox)) (hd : s.deferred = [])
    (task : Deferred) :
    (s.runDeferred task).Numbered least (taken ++ (s.runDeferred task).outbox) := by
  have hnothing : ∀ {x : Session}, x.deferred = s.deferred → ∀ task, task ∉ x.deferred := by
    intro x hx task hm
    rw [hx, hd] at hm
    cases hm
  rcases s.runDeferred_cases task with hs | ⟨a, g, -, -, hs⟩ | ⟨index, -, -, hs⟩ <;> rw [hs]
  · exact h
  · have henter : (s.enter a).Numbered least (taken ++ (s.enter a).outbox) :=
      h.mono (Nat.le_refl _) fun task hm => absurd hm (hnothing rfl task)
    exact henter.fetches (s.beginItem_fetches a)
  · have hshown : Numbered { s with frame := some (index % signed s.frameCount).toNat } least
        (taken ++ s.outbox) := ⟨h.reached, h.waits, h.images⟩
    exact hshown.fetches (loadFrameImage_fetches _)

theorem tick (h : s.Numbered least (taken ++ s.outbox)) :
    s.tick.Numbered least (taken ++ s.tick.outbox) := by
  have hrun : ∀ (due : List Deferred) (x : Session), x.Numbered least (taken ++ x.outbox) →
      x.deferred = [] → (due.foldl Session.runDeferred x).Numbered least
        (taken ++ (due.foldl Session.runDeferred x).outbox) := by
    intro due
    induction due with
    | nil => exact fun x hx _ => hx
    | cons task rest ih =>
      exact fun x hx hd =>
        ih _ (hx.runDeferred hd task) ((x.runDeferred_steady task).deferred.trans hd)
  have hround : Numbered { s with deferred := [] } least (taken ++ s.outbox) :=
    h.mono (Nat.le_refl _) fun task hm => by cases hm
  exact hrun s.deferred _ hround rfl

/-! ### The last frame -/

/-- Once a frame was asked for, everything that waited before is superseded. -/
theorem superseded (h : s.Numbered least issued) (ha : s.assignment.isSome = true) :
    ∀ task ∈ s.deferred, s.resetFrame.Superseded task := by
  intro task hm
  have hold := h.waits task hm
  cases task with
  | begin a g =>
    rw [show s.assignment = none from hold] at ha
    cases ha
  | showFrame index n => exact Or.inl (Nat.ne_of_lt (Nat.lt_succ_of_le hold))

/-- The round after that shows the frame, with its index taken modulo the number of frames, and does
nothing else. -/
theorem tick_getFrame (h : s.Numbered least issued) (ha : s.assignment.isSome = true)
    (hne : s.frameCount ≠ 0) (hfit : s.frameCount < 2 ^ 63) (last : Int) :
    (s.getFrame last).tick = { s.getFrame last with
      deferred := []
      frame := some (last % (s.frameCount : Int)).toNat }.loadFrameImage := by
  rw [tick_getFrame_of_superseded (h.superseded ha) ha hne last, getFrame_eq ha hne last,
    signed_eq hfit]

/-- An image with a number that was left is dropped. -/
theorem complete_eq (h : s.Numbered least issued) {t : Ticket} {n : Nat}
    (hp : t.purpose = .frameImage n) (hn : n < least) (result : Response) :
    s.complete t result = s := by
  refine if_pos ?_
  have hreached := h.reached
  unfold isStale
  rw [hp, bne_iff_ne]
  omega

end Numbered

theorem numbered_of_isFresh (hs : s.IsFresh) : s.Numbered 0 s.outbox := by
  rcases hs with ⟨id, config, keys, rfl⟩ | ⟨set, config, keys, rfl⟩ <;>
    exact ⟨Nat.zero_le _, fun _ hm => (by cases hm), fun _ _ _ hm => (by cases hm)⟩

/-- The request for the image of a frame of an item, if the annotation set has a source. -/
def imageRequests (s : Session) (a : Assignment) (frame : Nat) : List Request :=
  match s.annotationSet.bind AnnotationSet.source? with
  | some source =>
    [.frameImage source.id a.key (if source.dataType = .video then some frame else none)]
  | none => []

/-- Showing a frame is nothing but to ask for its image. -/
theorem loadFrameImage_outbox {a : Assignment} (ha : s.assignment = some a) {k : Nat}
    (hk : s.frame = some k) :
    s.loadFrameImage.outbox = s.outbox ++ (s.imageRequests a k).map fun r =>
      (⟨s.nextTicket, .frameImage s.frameSeq, s.generation⟩, r) := by
  rw [loadFrameImage_eq]
  unfold frameRequest? imageRequests
  rw [ha, hk]
  cases s.annotationSet.bind AnnotationSet.source? with
  | none => simp
  | some source => rfl

/-- Asking for a frame stays with the item and makes no request. -/
structure Leaves (s s' : Session) : Prop extends SameItem s s' where
  outbox : s'.outbox = s.outbox

theorem getFrame_leaves (s : Session) (index : Int) : Leaves s (s.getFrame index) where
  toSameItem :=
    have hworks : Works (fun _ _ => False) False s (s.getFrame index) := s.getFrame_works index
    hworks.sameItem
  outbox := by
    unfold getFrame
    split <;> rfl

theorem foldl_getFrame_leaves (indices : List Int) :
    ∀ s : Session, Leaves s (indices.foldl getFrame s) := by
  induction indices with
  | nil => exact fun s => ⟨.refl s, rfl⟩
  | cons index rest ih =>
    exact fun s => ⟨(s.getFrame_leaves index).toSameItem.trans (ih _).toSameItem,
      (ih _).outbox.trans (s.getFrame_leaves index).outbox⟩

/-- What the tool is told of plays no part in what is asked for. -/
theorem imageRequests_congr
    (h : s'.annotationSet.bind AnnotationSet.source? = s.annotationSet.bind AnnotationSet.source?)
    (a : Assignment) (k : Nat) : s'.imageRequests a k = s.imageRequests a k := by
  unfold imageRequests
  rw [h]

end Session

namespace History

variable {H : History} {least : Nat}

theorem numbered_perform (h : H.session.Numbered least H.issued) (op : SessionOp) :
    (H.perform op).session.Numbered least (H.perform op).issued := by
  by_cases hop : op = .takeRequests
  · subst hop
    rw [issued_takeRequests]
    exact ⟨h.reached, h.waits, h.images⟩
  unfold issued
  rw [taken_perform hop]
  have hhonest : False → H.session.Honest op := False.elim
  rcases Session.perform_cases H.desk hhonest with hw | ht | rfl | rfl | rfl | ⟨t, result, rfl⟩
  · exact Session.Numbered.works h hw
  · exact Session.Numbered.turns h ht
  · exact Session.Numbered.start h
  · exact Session.Numbered.tick h
  · exact absurd rfl hop
  · show (H.session.complete t result).Numbered least (H.taken ++ (H.session.complete t result).outbox)
    unfold Session.complete
    split
    · exact h
    · exact Session.Numbered.apply h t.purpose result

theorem numbered_performAll (ops : List SessionOp) :
    ∀ {H : History}, H.session.Numbered least H.issued →
      (H.performAll ops).session.Numbered least (H.performAll ops).issued := by
  induction ops with
  | nil => exact fun h => h
  | cons op rest ih => exact fun h => ih (numbered_perform h op)

theorem session_getFrames (indices : List Int) :
    ∀ H : History, (H.performAll (indices.map .getFrame)).session =
      indices.foldl Session.getFrame H.session := by
  induction indices with
  | nil => exact fun H => rfl
  | cons index rest ih => exact fun H => ih (H.perform (.getFrame index))

/-- The session was made and then used in any way at all: it may not even have been started, or
more than once, and any tickets may have been answered, also made-up ones. -/
def OfFresh (H : History) : Prop :=
  ∃ hub s ops, s.IsFresh ∧ H = (⟨⟨hub, s⟩, [], []⟩ : History).performAll ops

theorem ofFresh_ofSet (set : AnnotationSet) (ops : List SessionOp) :
    ((ofSet set).performAll ops).OfFresh :=
  ⟨.empty, .ofSet set .default 0, .start :: ops, Or.inr ⟨set, .default, 0, rfl⟩, rfl⟩

theorem OfFresh.numbered (h : H.OfFresh) : H.session.Numbered 0 H.issued := by
  obtain ⟨hub, s, ops, hs, rfl⟩ := h
  exact numbered_performAll ops (Session.numbered_of_isFresh hs)

/-- When a frame is left for another one, the images that were asked for before are dropped whenever
they come. -/
theorem complete_after_getFrame (h : H.session.Numbered least H.issued)
    (hsome : H.session.assignment.isSome = true) (hne : H.session.frameCount ≠ 0) (index : Int)
    {t : Ticket} {r : Request} {n : Nat} (hm : (t, r) ∈ H.issued)
    (hp : t.purpose = .frameImage n) (later : List SessionOp) (result : Response) :
    ((H.perform (.getFrame index)).performAll later).session.complete t result =
      ((H.perform (.getFrame index)).performAll later).session := by
  have hn : n ≤ H.session.frameSeq := h.images t r n hm hp
  have hseq : (H.perform (.getFrame index)).session.frameSeq = H.session.frameSeq + 1 :=
    congrArg Session.frameSeq (Session.getFrame_eq hsome hne index)
  have hasked := numbered_perform h (.getFrame index)
  -- from here on the number does not go back to those that were left
  have hleft : (H.perform (.getFrame index)).session.Numbered (H.session.frameSeq + 1)
      (H.perform (.getFrame index)).issued :=
    ⟨Nat.le_of_eq hseq.symm, hasked.waits, hasked.images⟩
  exact (numbered_performAll later hleft).complete_eq hp (Nat.lt_succ_of_le hn) result

/-- Of several frames that are asked for, whatever their indices, the next round shows the last one,
with its index taken modulo the number of frames. It asks for the image of this frame and for
nothing else, nothing is left to do, and no image that was asked for before the last call is
applied at any later time. -/
theorem last_frame (h : H.OfFresh) {a : Assignment} (ha : H.session.assignment = some a)
    (hpos : 1 ≤ H.session.frameCount) (hfit : H.session.frameCount < 2 ^ 63) (indices : List Int)
    (last : Int) :
    let before := H.performAll (indices.map .getFrame)
    let asked := before.perform (.getFrame last)
    let shown := asked.perform .tick
    let frame := (last % (H.session.frameCount : Int)).toNat
    shown.session.frame = some frame ∧ shown.session.assignment = some a ∧
      shown.session.deferred = [] ∧ asked.session.outbox = H.session.outbox ∧
      shown.session.outbox = asked.session.outbox ++ (H.session.imageRequests a frame).map
        (fun r => (⟨asked.session.nextTicket, .frameImage shown.session.frameSeq,
          shown.session.generation⟩, r)) ∧
      ∀ t r n, (t, r) ∈ before.issued → t.purpose = .frameImage n → ∀ later result,
        (asked.performAll later).session.complete t result = (asked.performAll later).session := by
  intro before asked shown frame
  have hbefore : before.session.Numbered 0 before.issued := numbered_performAll _ h.numbered
  have hleaves : Session.Leaves H.session before.session := by
    rw [show before.session = _ from session_getFrames indices H]
    exact Session.foldl_getFrame_leaves indices H.session
  have hitem : before.session.assignment = some a := hleaves.assignment.trans ha
  have hsome : before.session.assignment.isSome = true := by rw [hitem]; rfl
  have hcount : before.session.frameCount = H.session.frameCount := hleaves.frameCount
  have hne : before.session.frameCount ≠ 0 := by omega
  have hlast : Session.Leaves before.session asked.session := before.session.getFrame_leaves last
  -- the round shows the last frame and does nothing else
  have hshown : shown.session =
      { asked.session with deferred := [], frame := some frame }.loadFrameImage := by
    have htick := hbefore.tick_getFrame hsome hne (hcount ▸ hfit) last
    rw [hcount] at htick
    exact htick
  have hsteady := Session.loadFrameImage_fetches
    { asked.session with deferred := [], frame := some frame }
  refine ⟨?_, ?_, ?_, hlast.outbox.trans hleaves.outbox, ?_, fun t r n hm hp later result =>
    complete_after_getFrame hbefore hsome hne last hm hp later result⟩
  · rw [hshown, Session.loadFrameImage_frame]
  · rw [hshown, hsteady.sameItem.assignment]
    exact hlast.assignment.trans hitem
  · rw [hshown, hsteady.steady.deferred]
  · have houtbox := Session.loadFrameImage_outbox
      (s := { asked.session with deferred := [], frame := some frame })
      (hlast.assignment.trans hitem) rfl
    have hrequests : Session.imageRequests { asked.session with
        deferred := [], frame := some frame } a frame = H.session.imageRequests a frame :=
      Session.imageRequests_congr (hlast.source.trans hleaves.source) a frame
    rw [hrequests] at houtbox
    rw [hshown, hsteady.frame_eq.2, hsteady.steady.generation]
    exact houtbox

/-- A video of five frames is shown, and its first image is on the way. Two frames are asked for by
indices that the video does not have, which stand for its fifth and its fourth frame. The fourth one
is shown, and the image that comes afterwards is dropped. -/
theorem last_frame_twice :
    let H := (ofSet (exampleSet .int .int)).performAll
      [.complete ⟨0, .assignment, 1⟩ (.ok (.json (.arr [.str "a"]))),
        .complete ⟨1, .itemMeta ⟨"a", false, none⟩, 1⟩ (.ok (.json (.obj
          [("Framerate", .arr [.int 2, .int 1]), ("Duration", .float 2.5)]))), .tick]
    let asked := (H.performAll ([9].map .getFrame)).perform (.getFrame (-7))
    let shown := asked.perform .tick
    H.session.assignment = some ⟨"a", false, none⟩ ∧ H.session.frameCount = 5 ∧
      (⟨2, .frameImage 1, 1⟩, .frameImage 3 "a" (some 0)) ∈ H.issued ∧
      shown.session.frame = some 3 ∧ shown.session.deferred = [] ∧
      shown.session.outbox = asked.session.outbox ++
        [(⟨3, .frameImage 3, 1⟩, .frameImage 3 "a" (some 3))] ∧
      shown.session.complete ⟨2, .frameImage 1, 1⟩ (.ok (.image ⟨100, 100⟩)) = shown.session := by
  intro H asked shown
  have hfresh : H.OfFresh := ofFresh_ofSet _ _
  have ha : H.session.assignment = some ⟨"a", false, none⟩ := by decide +kernel
  have hcount : H.session.frameCount = 5 := by decide +kernel
  have hm : (⟨2, .frameImage 1, 1⟩, .frameImage 3 "a" (some 0)) ∈ H.issued := by decide +kernel
  obtain ⟨hframe, -, hdone, -, houtbox, hold⟩ :=
    last_frame hfresh ha (by omega) (by omega) [9] (-7)
  have hmod : ((-7 : Int) % (H.session.frameCount : Int)).toNat = 3 := by
    rw [hcount]
    decide
  have hmade : ((H.session.imageRequests ⟨"a", false, none⟩ 3).map fun r =>
      ((⟨asked.session.nextTicket, .frameImage shown.session.frameSeq,
        shown.session.generation⟩ : Ticket), r)) =
      [(⟨3, .frameImage 3, 1⟩, .frameImage 3 "a" (some 3))] := by decide +kernel
  rw [hmod] at hframe houtbox
  rw [hmade] at houtbox
  have hstill : (⟨2, .frameImage 1, 1⟩, .frameImage 3 "a" (some 0)) ∈
      (H.performAll ([9].map .getFrame)).issued := by decide +kernel
  have hdropped := hold _ _ 1 hstill rfl [.tick] (.ok (.image ⟨100, 100⟩))
  exact ⟨ha, hcount, hm, hframe, hdone, houtbox, hdropped⟩

end History

end Labeling
