import Labeling.Proofs.Session.Currency
import Labeling.Proofs.Session.LateBounds

/-!
# Images of frames

Under either policy, an image that is applied is the one of the frame that is shown. The only
guard is the number of the frame, which goes up when a frame is left. So what has to be excluded is
that two frames come on show under one number without one of them being left in between.

Between two rounds this cannot happen, and in a round a frame of the item that is shown cannot
come on show together with another item (`Session.Queued`). But under the policy that applies late
answers several items can wait for one round, and then they come on show under one number, each
taking the place of the one before.

* `History.image_of_frame`: the image is the right one whenever no round found two different items
  waiting while the number was the current one (`Session.ShowsOne`);
* `History.image_of_overtaken`: a run with such a round, in which the image of the item that was
  shown first is applied to the one that took its place.
-/

namespace Labeling

/-- The key of the item that a piece of work shows. -/
def Deferred.itemKey? : Deferred → Option String
  | .begin a _ => some a.key
  | .showFrame _ _ => none

namespace Session

variable {s s' : Session} {stored : Session → Json → Prop} {honest : Prop} {n : Nat}
  {taken issued : List (Ticket × Request)}

/-! ## What waits between two rounds -/

/-- What is known of the work that waits, under either policy. While an item waits none is shown.
In a round everything that waited is due. -/
structure Queued (s : Session) (due : List Deferred) : Prop where
  agenda : s.Agenda s.deferred
  begins : ∀ a g, .begin a g ∈ s.deferred → s.assignment = none
  round : due ≠ [] → s.deferred = []

theorem queued_of_nothing {due : List Deferred} (hd : s.deferred = []) : s.Queued due where
  agenda := by
    rw [hd]
    exact s.agenda_nil
  begins a g hm := by
    rw [hd] at hm
    cases hm
  round _ := hd

theorem Queued.work {due : List Deferred} (h : s.Queued due) (hd : due = [])
    (hw : Work stored honest s s') : s'.Queued due where
  agenda := Agenda.work (show s.Agenda ([] ++ s.deferred) from h.agenda) hw
  begins a g hm := by
    rw [hw.sameItem.assignment]
    refine h.begins a g ?_
    cases hw with
    | fetch hf => cases hf <;> exact hm
    | leaveFrame index ha hc =>
      rcases List.mem_append.1 hm with hm | hm
      · exact hm
      · cases List.mem_singleton.1 hm
    | _ => exact hm
  round hne := absurd hd hne

theorem Queued.fetch {due : List Deferred} (h : s.Queued due) (hf : Fetch honest s s') :
    s'.Queued due := by
  cases hf <;> exact ⟨⟨h.agenda.nodup, h.agenda.begins, h.agenda.shows⟩, h.begins, h.round⟩

theorem Queued.turn (h : s.Queued []) (ht : Turn s s') : s'.Queued [] where
  agenda := Agenda.turn (show s.Agenda ([] ++ s.deferred) from h.agenda) ht
  begins a g hm := by
    cases ht with
    | leaveItem message => rfl
    | _ => exact h.begins a g hm
  round hne := absurd rfl hne

/-! ## Images and numbers -/

/-- Whatever image was asked for under a number is the one of the frame that is shown, as long as
the number is the current one. -/
def Pictured (s : Session) (n : Nat) (issued : List (Ticket × Request)) : Prop :=
  ∀ t r, (t, r) ∈ issued → t.purpose = .frameImage n →
    n ≤ s.frameSeq ∧ (n = s.frameSeq → s.frameRequest? = some r)

/-- While the number is the current one, the frame that is shown must stay. -/
theorem Pictured.mono (h : s.Pictured n issued) (hf : s.frameSeq ≤ s'.frameSeq)
    (hr : n = s.frameSeq → n = s'.frameSeq →
      ∀ r, s.frameRequest? = some r → s'.frameRequest? = some r) : s'.Pictured n issued := by
  intro t r hm hp
  obtain ⟨hle, hlive⟩ := h t r hm hp
  refine ⟨by omega, fun he => ?_⟩
  have hn : n = s.frameSeq := by omega
  exact hr hn he r (hlive hn)

/-- A number that goes on leaves the images behind. -/
theorem Pictured.leave (h : s.Pictured n issued) (hf : s.frameSeq < s'.frameSeq) :
    s'.Pictured n issued :=
  h.mono (by omega) fun hn hn' => by omega

theorem pictured_of_no_image (h : ∀ t r, (t, r) ∈ issued → t.purpose ≠ .frameImage n) :
    s.Pictured n issued :=
  fun t r hm hp => absurd hp (h t r hm)

/-- An image is only asked for if it is the one of the frame that is shown. -/
theorem Pictured.issue (h : s.Pictured n (taken ++ s.outbox)) {p : Purpose} {r : Request}
    (hp : ∀ m, p = .frameImage m → m = s.frameSeq ∧ s.frameRequest? = some r) :
    (s.issue p r).Pictured n (taken ++ (s.issue p r).outbox) := by
  intro t' r' hm hp'
  rw [show (s.issue p r).outbox = s.outbox ++ [_] from rfl, ← List.append_assoc] at hm
  rcases List.mem_append.1 hm with hm | hm
  · exact h t' r' hm hp'
  · obtain ⟨rfl, rfl⟩ := Prod.mk.inj (List.mem_singleton.1 hm)
    obtain ⟨rfl, hr⟩ := hp n hp'
    exact ⟨Nat.le_refl _, fun _ => hr⟩

theorem Pictured.work (h : s.Pictured n (taken ++ s.outbox)) (hw : Work stored honest s s') :
    s'.Pictured n (taken ++ s'.outbox) := by
  have hsource := hw.sameItem.source
  cases hw with
  | fetch hf =>
    cases hf with
    | tool ht hc => exact h.issue fun m hm => by cases hm
    | image hr =>
      refine h.issue fun m hm => ?_
      cases hm
      exact ⟨rfl, hr⟩
    | stored hset ha => exact h.issue fun m hm => by cases hm
  | submit hset ha ht => exact h.issue fun m hm => by cases hm
  | saveParams params ht =>
    have hstored : Pictured { s with
        annotationSet := s.annotationSet.map fun set : AnnotationSet =>
          ({ set with params := some params } : AnnotationSet) } n (taken ++ s.outbox) :=
      h.mono (Nat.le_refl _) fun _ _ r hr => (frameRequest?_congr hsource rfl rfl).trans hr
    exact hstored.issue fun m hm => by cases hm
  | leaveFrame index ha hc => exact h.leave (Nat.lt_succ_self _)
  | _ => exact h

theorem Pictured.turn (h : s.Pictured n (taken ++ s.outbox)) (ht : Turn s s') :
    s'.Pictured n (taken ++ s'.outbox) := by
  have hchosen : Pictured { s with navSeq := s.navSeq + 1 } n (taken ++ s.outbox) := h
  cases ht with
  | choose hset hkey => exact hchosen.issue fun m hm => by cases hm
  | list index hset hm hk => exact hchosen.issue fun m hm => by cases hm
  | leaveItem message => exact h.leave (Nat.lt_succ_self _)
  | _ => exact h

theorem Pictured.works (h : s.Pictured n (taken ++ s.outbox)) (hw : Works stored honest s s') :
    s'.Pictured n (taken ++ s'.outbox) := by
  induction hw with
  | refl => exact h
  | tail _ hw ih => exact ih.work hw

theorem Pictured.turns (h : s.Pictured n (taken ++ s.outbox)) (ht : Turns s s') :
    s'.Pictured n (taken ++ s'.outbox) := by
  induction ht with
  | refl => exact h
  | tail _ ht ih => exact ih.turn ht

/-- As long as no image was asked for at all, any annotation set can be installed. -/
theorem pictured_install (h : ∀ t r, (t, r) ∈ taken ++ s.outbox → t.purpose ≠ .frameImage n)
    (set : AnnotationSet) : (s.install set).Pictured n (taken ++ (s.install set).outbox) := by
  obtain ⟨x, hw, ht⟩ := s.install_steps set
  have hset : Pictured { s with tool := Tool.ofSet? set s.config.bindings
                                annotationSet := some set } n (taken ++ s.outbox) :=
    pictured_of_no_image h
  exact (hset.works hw).turns ht

theorem Pictured.effect {p : Purpose} {result : Response} (h : s.Pictured n (taken ++ s.outbox))
    (hset : p = .annotationSet → ∀ t r, (t, r) ∈ taken ++ s.outbox → t.purpose ≠ .frameImage n)
    (he : Effect s p result s') : s'.Pictured n (taken ++ s'.outbox) := by
  cases he with
  | works _ hw => exact h.works hw
  | turns ht => exact h.turns ht
  | installed hp => exact pictured_install (hset hp) _
  | asked _ _ => exact h.issue fun m hm => by cases hm
  | followed _ _ => exact h.leave (Nat.lt_succ_self _)
  | @listed _ _ keys _ ht =>
    have hlisted : Pictured { s with keyList := some keys } n (taken ++ s.outbox) := h
    exact hlisted.turns ht

/-! ## Rounds -/

/-- To ask for something leaves the frame on show. -/
theorem Fetches.frame_eq (hf : Fetches honest s s') :
    s'.frame = s.frame ∧ s'.frameSeq = s.frameSeq := by
  induction hf with
  | refl => exact ⟨rfl, rfl⟩
  | tail _ hf ih =>
    rw [← ih.1, ← ih.2]
    cases hf <;> exact ⟨rfl, rfl⟩

/-- All items that are due have one key, which is also the key of the item that is shown, with its
first frame. No frame of an item that was shown before is due. -/
structure Opens (s : Session) (key : String) (due : List Deferred) : Prop where
  begins : ∀ a g, .begin a g ∈ due → a.key = key
  shows : ∀ index m, .showFrame index m ∈ due → m ≠ s.frameSeq
  first : ∀ a k, s.assignment = some a → s.frame = some k → a.key = key ∧ k = 0

/-- When an item comes on show in place of one with the same key, the image is the same. -/
theorem Opens.frameRequest?_enter {key : String} {due : List Deferred} (h : s.Opens key due)
    {a : Assignment} (ha : a.key = key) {r : Request} (hr : s.frameRequest? = some r) :
    (s.enter a).frameRequest? = some r := by
  obtain ⟨source, a', k, hsource, ha', hk, rfl⟩ := frameRequest?_eq_some hr
  obtain ⟨hkey, rfl⟩ := h.first a' k ha' hk
  unfold frameRequest?
  rw [show (s.enter a).annotationSet = s.annotationSet from rfl, hsource, hkey, ← ha]
  rfl

theorem Opens.enter {key : String} {a : Assignment} {g : Nat} {due : List Deferred}
    (h : s.Opens key (.begin a g :: due)) : (s.beginItem a).Opens key due := by
  obtain ⟨hframe, hseq⟩ := (s.beginItem_fetches a).frame_eq
  refine ⟨fun a' g' hm => h.begins a' g' (List.mem_cons_of_mem _ hm), fun index m hm => ?_,
    fun a' k ha' hk => ?_⟩
  · rw [hseq]
    exact h.shows index m (List.mem_cons_of_mem _ hm)
  · have hsame : SameItem (s.enter a) (s.beginItem a) := (s.beginItem_fetches a).sameItem
    rw [hsame.assignment] at ha'
    rw [hframe] at hk
    cases ha'
    cases hk
    exact ⟨h.begins a g (List.mem_cons_self ..), rfl⟩

theorem Agenda.fetches {due : List Deferred} (h : s.Agenda due) (hf : Fetches honest s s') :
    s'.Agenda due := by
  induction hf with
  | refl => exact h
  | tail _ hf ih => cases hf <;> exact ⟨ih.nodup, ih.begins, ih.shows⟩

theorem Pictured.fetches (h : s.Pictured n (taken ++ s.outbox)) (hf : Fetches honest s s') :
    s'.Pictured n (taken ++ s'.outbox) := h.works hf.works

/-- A round in which items of one key come on show. -/
theorem Pictured.foldl_begins {key : String} (due : List Deferred) :
    ∀ {s : Session}, s.Pictured n (taken ++ s.outbox) → (n = s.frameSeq → s.Opens key due) →
      (due.foldl runDeferred s).Pictured n (taken ++ (due.foldl runDeferred s).outbox) := by
  induction due with
  | nil => exact fun h _ => h
  | cons task rest ih =>
    intro s h ho
    have hrest : ∀ {x : Session}, x.Opens key (task :: rest) → x.Opens key rest := fun hx =>
      ⟨fun a g hm => hx.begins a g (List.mem_cons_of_mem _ hm),
        fun index m hm => hx.shows index m (List.mem_cons_of_mem _ hm), hx.first⟩
    rw [List.foldl_cons]
    rcases s.runDeferred_cases task with hs | ⟨a, g, rfl, -, hs⟩ | ⟨index, rfl, -, hs⟩ <;> rw [hs]
    · exact ih h fun hn => hrest (ho hn)
    · have henter : (s.enter a).Pictured n (taken ++ (s.enter a).outbox) :=
        h.mono (Nat.le_refl _) fun hn _ r hr =>
          (ho hn).frameRequest?_enter ((ho hn).begins a g (List.mem_cons_self ..)) hr
      refine ih (henter.fetches (s.beginItem_fetches a)) fun hn => ?_
      rw [(s.beginItem_fetches a).frame_eq.2] at hn
      exact (ho hn).enter
    · -- a frame comes on show under another number only
      have hn : n ≠ s.frameSeq := fun hn => (ho hn).shows index _ (List.mem_cons_self ..) rfl
      have hshown : Pictured { s with frame := some (index % signed s.frameCount).toNat } n
          (taken ++ s.outbox) := h.mono (Nat.le_refl _) fun hn' => absurd hn' hn
      refine ih (hshown.fetches (loadFrameImage_fetches _)) fun hn' => ?_
      rw [(loadFrameImage_fetches _).frame_eq.2] at hn'
      exact absurd hn' hn

/-- A round in which frames of the item that is shown come on show. -/
theorem Pictured.foldl_shows (due : List Deferred) :
    ∀ {s : Session}, s.Pictured n (taken ++ s.outbox) → s.Agenda due →
      (∀ a g, .begin a g ∉ due) →
      (due.foldl runDeferred s).Pictured n (taken ++ (due.foldl runDeferred s).outbox) := by
  induction due with
  | nil => exact fun h _ _ => h
  | cons task rest ih =>
    intro s h ha hb
    have hrest : ∀ a g, .begin a g ∉ rest := fun a g hm => hb a g (List.mem_cons_of_mem _ hm)
    rw [List.foldl_cons]
    rcases s.runDeferred_cases task with hs | ⟨a, g, rfl, -, -⟩ | ⟨index, rfl, -, hs⟩
    · rw [hs]
      exact ih h ha.tail hrest
    · exact absurd (List.mem_cons_self ..) (hb a g)
    · rw [hs]
      -- no frame was shown since the number became the current one
      have hnone : s.frame = none := ((ha.shows index _ (List.mem_cons_self ..)).2 rfl).2
      have hshown : Pictured { s with frame := some (index % signed s.frameCount).toNat } n
          (taken ++ s.outbox) := by
        refine h.mono (Nat.le_refl _) fun _ _ r hr => ?_
        obtain ⟨source, a, k, -, -, hk, -⟩ := frameRequest?_eq_some hr
        rw [hnone] at hk
        cases hk
      have hagenda : Agenda { s with frame := some (index % signed s.frameCount).toNat } rest :=
        ha.showFrame
      have hfetches := loadFrameImage_fetches
        { s with frame := some (index % signed s.frameCount).toNat }
      exact ih (hshown.fetches hfetches) (hagenda.fetches hfetches) hrest

/-- A round under the number shows items of one key only. -/
def ShowsOne (n : Nat) (s : Session) : SessionOp → Prop
  | .tick => s.frameSeq = n →
      ∀ key ∈ s.deferred.filterMap Deferred.itemKey?,
        ∀ key' ∈ s.deferred.filterMap Deferred.itemKey?, key = key'
  | _ => True

theorem Pictured.tick (h : s.Pictured n (taken ++ s.outbox)) (hq : s.Queued [])
    (hone : s.ShowsOne n .tick) : s.tick.Pictured n (taken ++ s.tick.outbox) := by
  have hround : Pictured { s with deferred := [] } n (taken ++ s.outbox) := h
  have hagenda : Agenda { s with deferred := [] } s.deferred :=
    ⟨hq.agenda.nodup, hq.agenda.begins, hq.agenda.shows⟩
  by_cases hbegin : ∃ a g, .begin a g ∈ s.deferred
  · obtain ⟨a, g, hm⟩ := hbegin
    have hnone : s.assignment = none := hq.begins a g hm
    have hopens : n = s.frameSeq → Opens { s with deferred := [] } a.key s.deferred := by
      refine fun hn => ⟨fun a' g' hm' => ?_, fun index m hm' he => ?_, fun a' k ha' => ?_⟩
      · exact hone hn.symm _ (List.mem_filterMap.2 ⟨_, hm', rfl⟩) _
          (List.mem_filterMap.2 ⟨_, hm, rfl⟩)
      · have hitem := ((hq.agenda.shows index m hm').2 he).1
        rw [hnone] at hitem
        cases hitem
      · rw [show ({ s with deferred := [] } : Session).assignment = none from hnone] at ha'
        cases ha'
    exact hround.foldl_begins s.deferred hopens
  · exact hround.foldl_shows s.deferred hagenda fun a g hm => hbegin ⟨a, g, hm⟩

end Session

namespace History

theorem queued_invariant :
    Invariant False (fun _ _ => True) Always (fun _ due s => s.Queued due) where
  promised h := h.elim
  blank _ _ h := Session.queued_of_nothing h.deferred
  installed _ _ _ h := Session.queued_of_nothing h.deferred
  work _ _ _ _ h hw := h.work rfl hw
  fetch _ _ _ _ _ h hf := h.fetch hf
  turn _ _ _ _ h ht := h.turn ht
  listed _ _ _ _ h :=
    ⟨⟨h.agenda.nodup, h.agenda.begins, h.agenda.shows⟩, h.begins, h.round⟩
  asked _ _ _ _ _ h _ :=
    ⟨⟨h.agenda.nodup, h.agenda.begins, h.agenda.shows⟩, h.begins, h.round⟩
  followed _ s _ a _ _ _ h _ _ _ :=
    ⟨Session.Agenda.follow (show s.Agenda ([] ++ s.deferred) from h.agenda) a _, fun _ _ _ => rfl,
      fun hne => absurd rfl hne⟩
  taken _ _ _ h := ⟨⟨h.agenda.nodup, h.agenda.begins, h.agenda.shows⟩, h.begins, h.round⟩
  round _ _ _ _ := Session.queued_of_nothing rfl
  dropped _ _ _ _ _ h := ⟨h.agenda, h.begins, fun _ => h.round (List.cons_ne_nil _ _)⟩
  entered _ _ _ _ _ _ h _ := Session.queued_of_nothing (h.round (List.cons_ne_nil _ _))
  shown _ _ _ _ _ h _ := Session.queued_of_nothing (h.round (List.cons_ne_nil _ _))

variable {H : History} {n : Nat}

/-- What is asked for under a number is the image of the frame that is shown, if no round under
this number shows two different items. -/
theorem pictured (h : ReachableUnder (fun s op => s.ShowsOne n op) H) :
    H.session.Pictured n H.issued := by
  induction h with
  | start hs =>
    rcases hs with ⟨id, config, keys, rfl⟩ | ⟨set, config, keys, rfl⟩
    · refine Session.pictured_of_no_image fun t r hm => ?_
      rw [(Session.blank_start id config keys).issued t r hm]
      simp
    · have hnothing : ∀ t r, (t, r) ∈ [] ++ (Session.new set.id config keys).outbox →
          t.purpose ≠ .frameImage n := fun t r hm => by cases hm
      exact Session.pictured_install hnothing set
  | @step H op hr ha hp ih =>
    by_cases hop : op = .takeRequests
    · subst hop
      rw [issued_takeRequests]
      exact ih
    unfold issued
    rw [taken_perform hop]
    rcases perform_cases ha False.elim with hw | ht | rfl | rfl | ⟨t, result, rfl, he | ⟨-, he⟩⟩
    · exact Session.Pictured.works ih hw
    · exact Session.Pictured.turns ih ht
    · exact Session.Pictured.tick ih
        (queued_invariant.reachable (hr.mono fun _ _ _ => trivial)) hp
    · exact absurd rfl hop
    · rw [he]
      exact ih
    · refine Session.Pictured.effect ih (fun hset t' r' hm hp' => ?_) he
      -- while the annotation set is awaited nothing else was asked for
      obtain ⟨⟨r, hr'⟩, hopen⟩ := ha
      have hblank := hr.booted.waiting t r hr' hset hopen
      have hother := hblank.issued t' r' hm
      rw [hp'] at hother
      cases hother

/-- Under either policy: an image that is applied is the one of the frame that is shown, with the
key of the item and in a video with the index of the frame, and an image of anything else changes
nothing. The only exception is a number under which a round showed two different items. -/
theorem image_of_frame (h : ReachableUnder (fun s op => s.ShowsOne n op) H) {t : Ticket}
    {r : Request} (hr : (t, r) ∈ H.issued) (hp : t.purpose = .frameImage n) (result : Response) :
    (H.session.isStale t = false → H.session.AboutFrame r) ∧
      (¬ H.session.AboutFrame r → H.session.complete t result = H.session) := by
  have habout : H.session.isStale t = false → H.session.AboutFrame r := by
    intro hs
    refine Session.frameRequest?_eq_some ((pictured h t r hr hp).2 ?_)
    unfold Session.isStale at hs
    rw [hp] at hs
    simpa using hs
  refine ⟨habout, fun hn => if_pos ?_⟩
  by_contra hs
  exact hn (habout (by simpa using hs))

/-- The item that was chosen first is shown, and then the other one takes its place. The image of
the second one is applied, and that of the first one would not be. -/
theorem image_of_frame_second :
    let H := exampleLate [.tick, .complete ⟨1, .assignment, 2⟩ (.ok (.json (.arr [.str "b"]))),
      .complete ⟨4, .itemMeta ⟨"b", false, none⟩, 2⟩ (.ok (.json .null)), .tick]
    H.session.config.stale = .apply ∧
      (⟨3, .frameImage 1, 1⟩, .frameImage 3 "a" (some 0)) ∈ H.issued ∧
      (⟨5, .frameImage 2, 2⟩, .frameImage 3 "b" (some 0)) ∈ H.issued ∧
      H.session.isStale ⟨5, .frameImage 2, 2⟩ = false ∧
      H.session.AboutFrame (.frameImage 3 "b" (some 0)) := by
  intro H
  have hreach : ReachableUnder (fun s op => s.ShowsOne 2 op) H := by
    refine ReachableUnder.performAll
      (.start (Or.inr ⟨exampleSet .int .int, ⟨.apply, .default⟩, 0, rfl⟩))
      ⟨trivial, trivial, allowsb_sound (by decide +kernel), trivial,
        allowsb_sound (by decide +kernel), trivial, trivial, ?_, allowsb_sound (by decide +kernel),
        trivial, allowsb_sound (by decide +kernel), trivial, trivial, ?_, trivial⟩
    · exact fun hn => absurd hn (by decide +kernel)
    · exact fun _ => by decide +kernel
  have hm : (⟨5, .frameImage 2, 2⟩, .frameImage 3 "b" (some 0)) ∈ H.issued := by decide +kernel
  have hs : H.session.isStale ⟨5, .frameImage 2, 2⟩ = false := by decide +kernel
  exact ⟨by decide +kernel, by decide +kernel, hm, hs,
    (image_of_frame hreach hm rfl (.ok (.image ⟨100, 100⟩))).1 hs⟩

/-- Both items wait for the same round, and the second one takes the place of the first. The image
of the first one is applied all the same. -/
theorem image_of_overtaken :
    let H := exampleLate [.complete ⟨1, .assignment, 2⟩ (.ok (.json (.arr [.str "b"]))),
      .complete ⟨3, .itemMeta ⟨"b", false, none⟩, 2⟩ (.ok (.json .null)), .tick]
    Reachable H ∧ H.session.config.stale = .apply ∧
      (⟨4, .frameImage 2, 2⟩, .frameImage 3 "a" (some 0)) ∈ H.issued ∧
      H.Allows (.complete ⟨4, .frameImage 2, 2⟩ (.ok (.image ⟨100, 100⟩))) ∧
      H.session.assignment.map Assignment.key = some "b" ∧ H.session.dims = none ∧
      (H.session.complete ⟨4, .frameImage 2, 2⟩ (.ok (.image ⟨100, 100⟩))).dims =
        some ⟨100, 100⟩ := by
  intro H
  refine ⟨?_, by decide +kernel, by decide +kernel, allowsb_sound (by decide +kernel),
    by decide +kernel, by decide +kernel, by decide +kernel⟩
  exact ReachableUnder.performAll
    (.start (Or.inr ⟨exampleSet .int .int, ⟨.apply, .default⟩, 0, rfl⟩))
    (allowsAllb_sound (by decide +kernel))

end History

end Labeling
