import Labeling.Proofs.Session.TrackFrames
import Labeling.Proofs.Tool.Filled

/-!
# Frames under the policy that applies late answers

Under the policy that applies late answers an item may come on show after another one has taken
its place. The frame that is shown is one of the item's frames even so, and the tool has entries
for them, with one exception: an item that was given up between the answer about it and the
round, because no other one is left or the listing is empty, comes on show all the same, with its
first frame and without any frames (`Session.ShowsAbandoned`).

* `History.late_frame_bounds`: nothing else can go wrong, and this only in a round that finds
  such an item waiting;
* `History.late_frame_abandoned`: a run in which it does.

The number of frames of an item is unsigned here, as nothing more than a positive number is
promised of it (`Session.YieldsFrames`). An index is reduced by it as a signed number, which is
negative for a very large one, and still names one of its frames (`Session.toNat_emod_signed_lt`).
-/

namespace Labeling

namespace Session

variable {s s' s'' : Session} {stored : Session → Json → Prop} {honest : Prop}

/-! ## Counting frames -/

/-- What is known about an item leads to a number of frames that is not zero. -/
def YieldsFrames (s : Session) : SessionOp → Prop
  | .complete t result => ∀ a known, t.purpose = .itemMeta a →
      result.parse (Json.nullable ItemMeta.read?) = .ok known →
      1 ≤ s.framesOf (known.getD .empty)
  | _ => True

/-- A number of frames fits into an unsigned number of 64 bits. -/
theorem framesOf_lt (s : Session) (itemMeta : ItemMeta) : s.framesOf itemMeta < 2 ^ 64 := by
  unfold framesOf
  split
  · unfold Labeling.frameCount
    split
    · dsimp only
      split
      · decide
      · exact UInt64.toNat_lt _
    · decide
  · decide

/-- An index reduced by a number of frames is that of a frame. -/
theorem toNat_emod_signed_lt {n : Nat} (hpos : 1 ≤ n) (hlt : n < 2 ^ 64) (index : Int) :
    (index % signed n).toNat < n := by
  by_cases hsmall : n < 2 ^ 63
  · rw [signed_eq hsmall]
    have hmod := Int.emod_lt_of_pos index (show (0 : Int) < n by omega)
    omega
  · -- a number from 2 ^ 63 on is negative when it is read as a signed one
    have hneg : signed n = (n : Int) - 2 ^ 64 := by
      unfold signed wrapInt64
      rw [Int.bmod_def]
      omega
    have hmod := Int.emod_lt index (show signed n ≠ 0 by omega)
    omega

/-- What is known about an item and the number of its frames come and go together. -/
def Counted (s : Session) : Prop :=
  (s.itemMeta.isSome = true ∧ 1 ≤ s.frameCount ∧ s.frameCount < 2 ^ 64) ∨
    (s.itemMeta = none ∧ s.frameCount = 0)

/-! ## Items that come on show late -/

/-- An item is on show that had been given up before: nothing is known of it and it has no frames,
yet its first frame is shown. -/
structure ShowsAbandoned (s : Session) : Prop where
  frame : s.frame = some 0
  itemMeta : s.itemMeta = none
  frameCount : s.frameCount = 0
  stale : s.config.stale = .apply

/-- What holds of the frames while some work waits, under either policy. -/
structure LateBounded (s : Session) (tasks : List Deferred) : Prop where
  loaded : s.tool.isSome = true → s.annotationSet.isSome = true
  counted : (s.assignment.isSome = true ∨ ∃ a g, .begin a g ∈ tasks) → s.Counted
  /-- Nothing is known of an item that waits only if it was superseded. -/
  begins : ∀ a g, .begin a g ∈ tasks →
    g ≤ s.generation ∧ (g = s.generation → s.itemMeta.isSome = true)
  shows : ∀ index n, .showFrame index n ∈ tasks →
    n ≤ s.frameSeq ∧ (n = s.frameSeq → s.assignment.isSome = true)
  frame : ∀ k, s.frame = some k → s.assignment.isSome = true ∧
    (k < s.frameCount ∨ k = 0 ∧ s.itemMeta = none ∧ s.config.stale = .apply)
  filled : s.assignment.isSome = true → ∀ t, s.tool = some t → t.Filled s.frameCount

/-- While no item is shown and none waits, nothing is required. -/
theorem lateBounded_nil (hl : s.tool.isSome = true → s.annotationSet.isSome = true)
    (ha : s.assignment = none) (hf : s.frame = none) : s.LateBounded [] where
  loaded := hl
  counted h := by
    rcases h with h | ⟨a, g, h⟩
    · rw [ha] at h
      cases h
    · cases h
  begins a g h := by cases h
  shows index n h := by cases h
  frame k hk := by
    rw [hf] at hk
    cases hk
  filled h := by
    rw [ha] at h
    cases h

theorem LateBounded.mono {tasks tasks' : List Deferred} (h : s.LateBounded tasks)
    (hsub : ∀ task ∈ tasks', task ∈ tasks) : s.LateBounded tasks' where
  loaded := h.loaded
  counted hs := h.counted (hs.imp_right fun ⟨a, g, hm⟩ => ⟨a, g, hsub _ hm⟩)
  begins a g hm := h.begins a g (hsub _ hm)
  shows index n hm := h.shows index n (hsub _ hm)
  frame := h.frame
  filled := h.filled

theorem LateBounded.work (h : s.LateBounded s.deferred) (hw : Work stored honest s s') :
    s'.LateBounded s'.deferred := by
  have hloaded := hw.sameItem.loaded_of_tool h.loaded
  cases hw with
  | fetch hf =>
    cases hf <;> exact ⟨hloaded, h.counted, h.begins, h.shows, h.frame, h.filled⟩
  | @react set t t' hset ht hr =>
    refine ⟨hloaded, h.counted, h.begins, h.shows, h.frame, fun ha t'' ht'' => ?_⟩
    cases ht''
    exact hr.filled (v := s.view set) (h.filled ha _ ht)
  | leaveFrame index ha hc =>
    refine ⟨hloaded, fun hs => h.counted (.inl ha), fun a g hm => ?_, fun index' n hm => ?_,
      fun k hk => (by cases hk), fun _ t ht => ?_⟩
    · rcases List.mem_append.1 hm with hm | hm
      · exact h.begins a g hm
      · cases List.mem_singleton.1 hm
    · rcases List.mem_append.1 hm with hm | hm
      · exact ⟨Nat.le_succ_of_le (h.shows index' n hm).1, fun _ => ha⟩
      · cases List.mem_singleton.1 hm
        exact ⟨Nat.le_refl _, fun _ => ha⟩
    · obtain ⟨t', ht', rfl⟩ := Option.map_eq_some_iff.1 ht
      exact (h.filled ha t' ht').resetFrame
  | _ => exact ⟨hloaded, h.counted, h.begins, h.shows, h.frame, h.filled⟩

/-- When an item is left, nothing is known of any item, and what waits is superseded. -/
theorem LateBounded.leaveItem {tasks : List Deferred} (h : s.LateBounded tasks) :
    s.resetItem.LateBounded tasks where
  loaded hs := h.loaded (s.isSome_map_resetFrame ▸ hs)
  counted _ := .inr ⟨rfl, rfl⟩
  begins a g hm := by
    have hg := (h.begins a g hm).1
    exact ⟨Nat.le_succ_of_le hg, fun he => absurd he (Nat.ne_of_lt (Nat.lt_succ_of_le hg))⟩
  shows index n hm := by
    have hn := (h.shows index n hm).1
    exact ⟨Nat.le_succ_of_le hn, fun he => absurd he (Nat.ne_of_lt (Nat.lt_succ_of_le hn))⟩
  frame k hk := by cases hk
  filled hs := by cases hs

theorem LateBounded.turn (h : s.LateBounded s.deferred) (ht : Turn s s') :
    s'.LateBounded s'.deferred := by
  cases ht with
  | leaveItem message =>
    have hleft := h.leaveItem
    exact ⟨hleft.loaded, hleft.counted, hleft.begins, hleft.shows, hleft.frame, hleft.filled⟩
  | _ => exact ⟨h.loaded, h.counted, h.begins, h.shows, h.frame, h.filled⟩

/-- Once the answer about an item is there, it is known and waits with the current number. -/
theorem LateBounded.follow (h : s.LateBounded s.deferred) (a : Assignment) {itemMeta : ItemMeta}
    (hc : 1 ≤ s.framesOf itemMeta) :
    (s.follow a itemMeta).LateBounded (s.follow a itemMeta).deferred where
  loaded hs := h.loaded (s.isSome_map_resetFrame ▸ hs)
  counted _ := .inl ⟨rfl, hc, s.framesOf_lt itemMeta⟩
  begins a' g hm := by
    rcases List.mem_append.1 hm with hm | hm
    · exact ⟨Nat.le_succ_of_le (h.begins a' g hm).1, fun _ => rfl⟩
    · cases List.mem_singleton.1 hm
      exact ⟨Nat.le_refl _, fun _ => rfl⟩
  shows index n hm := by
    rcases List.mem_append.1 hm with hm | hm
    · exact h.leaveItem.shows index n hm
    · cases List.mem_singleton.1 hm
  frame k hk := by cases hk
  filled hs := by cases hs

/-- An item comes on show with its first frame. If nothing is known of it, it was superseded, and
the policy is the one under which it is shown all the same. -/
theorem LateBounded.enter {a : Assignment} {g : Nat} {tasks : List Deferred}
    (h : s.LateBounded (.begin a g :: tasks)) (hg : g = s.generation ∨ s.config.stale = .apply) :
    (s.enter a).LateBounded tasks := by
  have hcounted : s.Counted := h.counted (.inr ⟨a, g, List.mem_cons_self ..⟩)
  have hbegins := h.begins a g (List.mem_cons_self ..)
  have htail := h.mono fun task hm => List.mem_cons_of_mem _ hm
  refine ⟨fun hs => h.loaded (s.isSome_enter_tool a ▸ hs), fun _ => hcounted, htail.begins,
    fun index n hm => ⟨(htail.shows index n hm).1, fun _ => rfl⟩, fun k hk => ⟨rfl, ?_⟩,
    fun _ t ht => ?_⟩
  · cases hk
    rcases hcounted with ⟨-, hpos, -⟩ | ⟨hnone, -⟩
    · exact .inl hpos
    · refine .inr ⟨rfl, hnone, hg.resolve_left fun he => ?_⟩
      have hsome := hbegins.2 he
      rw [hnone] at hsome
      cases hsome
  · obtain ⟨t₀, set, -, rfl⟩ := enter_tool_eq h.loaded ht
    exact t₀.itemShown_filled _

theorem LateBounded.showFrame {index : Int} {tasks : List Deferred}
    (h : s.LateBounded (.showFrame index s.frameSeq :: tasks)) (hc : s.frameCount ≠ 0) :
    LateBounded { s with frame := some (index % signed s.frameCount).toNat } tasks := by
  have hitem := (h.shows index s.frameSeq (List.mem_cons_self ..)).2 rfl
  have htail := h.mono fun task hm => List.mem_cons_of_mem _ hm
  refine ⟨h.loaded, htail.counted, htail.begins, htail.shows, fun k hk => ⟨hitem, .inl ?_⟩,
    h.filled⟩
  cases hk
  rcases h.counted (.inl hitem) with ⟨-, hpos, hlt⟩ | ⟨-, hzero⟩
  · exact toNat_emod_signed_lt hpos hlt index
  · exact absurd hzero hc

/-! ## Where the exception comes from -/

/-- A frame that is shown was shown before, and as much was known about its item. -/
def StaysShown (s s' : Session) : Prop :=
  s'.frame.isSome = true → s'.frame = s.frame ∧ s'.itemMeta = s.itemMeta ∧
    s'.frameCount = s.frameCount ∧ s'.config = s.config

theorem staysShown_of_no_frame (hf : s'.frame = none) : StaysShown s s' := by
  intro hs
  rw [hf] at hs
  cases hs

theorem StaysShown.refl (s : Session) : StaysShown s s := fun _ => ⟨rfl, rfl, rfl, rfl⟩

theorem StaysShown.trans (h : StaysShown s s') (h' : StaysShown s' s'') : StaysShown s s'' := by
  intro hs
  obtain ⟨hf', hm', hc', hp'⟩ := h' hs
  obtain ⟨hf, hm, hc, hp⟩ := h (hf' ▸ hs)
  exact ⟨hf'.trans hf, hm'.trans hm, hc'.trans hc, hp'.trans hp⟩

theorem StaysShown.showsAbandoned (h : StaysShown s s') (ha : s'.ShowsAbandoned) :
    s.ShowsAbandoned := by
  obtain ⟨hf, hm, hc, hp⟩ := h (by rw [ha.frame]; rfl)
  exact ⟨hf ▸ ha.frame, hm ▸ ha.itemMeta, hc ▸ ha.frameCount, hp ▸ ha.stale⟩

theorem Work.staysShown (hw : Work stored honest s s') : StaysShown s s' := by
  cases hw with
  | fetch hf => cases hf <;> exact fun _ => ⟨rfl, rfl, rfl, rfl⟩
  | leaveFrame index ha hc => exact staysShown_of_no_frame rfl
  | _ => exact fun _ => ⟨rfl, rfl, rfl, rfl⟩

theorem Works.staysShown (hw : Works stored honest s s') : StaysShown s s' := by
  induction hw with
  | refl => exact .refl s
  | tail _ hw ih => exact ih.trans hw.staysShown

theorem Turn.staysShown (ht : Turn s s') : StaysShown s s' := by
  cases ht with
  | leaveItem message => exact staysShown_of_no_frame rfl
  | _ => exact fun _ => ⟨rfl, rfl, rfl, rfl⟩

theorem Turns.staysShown (ht : Turns s s') : StaysShown s s' := by
  induction ht with
  | refl => exact .refl s
  | tail _ ht ih => exact ih.trans ht.staysShown

theorem Effect.staysShown {p : Purpose} {result : Response} (h : Effect s p result s') :
    StaysShown s s' := by
  cases h with
  | works _ hw => exact hw.staysShown
  | turns ht => exact ht.staysShown
  | @installed set _ =>
    obtain ⟨x, hw, ht⟩ := s.install_steps set
    have hready : StaysShown s
        { s with tool := Tool.ofSet? set s.config.bindings, annotationSet := some set } :=
      fun _ => ⟨rfl, rfl, rfl, rfl⟩
    exact hready.trans (hw.staysShown.trans ht.staysShown)
  | asked _ _ => exact fun _ => ⟨rfl, rfl, rfl, rfl⟩
  | followed _ _ => exact staysShown_of_no_frame rfl
  | @listed _ _ keys _ ht =>
    have hlisted : StaysShown s { s with keyList := some keys } := fun _ => ⟨rfl, rfl, rfl, rfl⟩
    exact hlisted.trans ht.staysShown

/-- A round leaves alone what is known about the item. -/
theorem foldl_runDeferred_itemMeta (tasks : List Deferred) :
    ∀ s : Session, (tasks.foldl runDeferred s).itemMeta = s.itemMeta := by
  induction tasks with
  | nil => exact fun _ => rfl
  | cons task rest ih =>
    intro s
    rw [List.foldl_cons, ih]
    rcases s.runDeferred_cases task with h | ⟨a, g, -, -, h⟩ | ⟨index, -, -, h⟩ <;> rw [h]
    · have henter : SameItem (s.enter a) _ := (s.beginItem_fetches a).sameItem
      exact henter.itemMeta
    · exact (loadFrameImage_fetches _).sameItem.itemMeta

/-- A round that shows an item that was given up found it waiting. -/
theorem LateBounded.tick_showsAbandoned (h : s.LateBounded s.deferred)
    (ha : s.tick.ShowsAbandoned) :
    s.ShowsAbandoned ∨
      s.itemMeta = none ∧ ∃ a g, .begin a g ∈ s.deferred ∧ g < s.generation := by
  have hmeta : s.itemMeta = none := by
    rw [← ha.itemMeta]
    exact (foldl_runDeferred_itemMeta s.deferred { s with deferred := [] }).symm
  by_cases hbegin : ∃ a g, .begin a g ∈ s.deferred
  · obtain ⟨a, g, hm⟩ := hbegin
    obtain ⟨hle, hknown⟩ := h.begins a g hm
    have hne : g ≠ s.generation := by
      intro he
      have hsome := hknown he
      rw [hmeta] at hsome
      cases hsome
    exact .inr ⟨hmeta, a, g, hm, Nat.lt_of_le_of_ne hle hne⟩
  · -- without an item that waits the round does nothing: there are no frames to show
    have hsuperseded : ∀ task ∈ s.deferred, Superseded { s with deferred := [] } task := by
      intro task hm
      cases task with
      | begin a g => exact absurd ⟨a, g, hm⟩ hbegin
      | showFrame index n =>
        by_cases hn : n = s.frameSeq
        · have hitem := (h.shows index n hm).2 hn
          rcases h.counted (.inl hitem) with ⟨hsome, -, -⟩ | ⟨-, hzero⟩
          · rw [hmeta] at hsome
            cases hsome
          · exact .inr hzero
        · exact .inl hn
    have htick : s.tick = { s with deferred := [] } := foldl_runDeferred_of_superseded hsuperseded
    rw [htick] at ha
    exact .inl ⟨ha.frame, ha.itemMeta, ha.frameCount, ha.stale⟩

end Session

namespace History

variable {H : History}

theorem lateBounded_invariant :
    Invariant False (fun s op => s.YieldsFrames op) Always
      (fun _ due s => s.LateBounded (due ++ s.deferred)) where
  promised h := h.elim
  blank taken s h := by
    rw [h.deferred]
    refine Session.lateBounded_nil (fun hs => ?_) h.assignment h.frame
    rw [h.tool] at hs
    cases hs
  installed taken s set h := by
    rw [show [] ++ _ = s.deferred from rfl, h.deferred]
    exact Session.lateBounded_nil (fun _ => rfl) h.assignment h.frame
  work taken s s' _ h hw := Session.LateBounded.work h hw
  fetch taken due s s' _ h hf := by
    cases hf <;> exact ⟨h.loaded, h.counted, h.begins, h.shows, h.frame, h.filled⟩
  turn taken s s' _ h ht := Session.LateBounded.turn h ht
  listed taken s keys _ h := ⟨h.loaded, h.counted, h.begins, h.shows, h.frame, h.filled⟩
  asked taken s a source _ h _ := ⟨h.loaded, h.counted, h.begins, h.shows, h.frame, h.filled⟩
  followed taken s t a result known _ h hp ht hr := Session.LateBounded.follow h a (hp a known ht hr)
  taken taken s _ h := ⟨h.loaded, h.counted, h.begins, h.shows, h.frame, h.filled⟩
  round taken s _ h := by
    rw [List.append_nil]
    exact ⟨h.loaded, h.counted, h.begins, h.shows, h.frame, h.filled⟩
  dropped taken task due s _ h := h.mono fun task' hm => List.mem_cons_of_mem _ hm
  entered taken a g due s _ h hg := Session.LateBounded.enter h hg
  shown taken index due s _ h hc := Session.LateBounded.showFrame h hc

/-- In a round only, an item that was given up comes on show. -/
theorem perform_showsAbandoned (h : H.session.LateBounded H.session.deferred) {op : SessionOp}
    (hop : H.Allows op) (ha : (H.perform op).session.ShowsAbandoned) :
    H.session.ShowsAbandoned ∨ op = .tick ∧ H.session.itemMeta = none ∧
      ∃ a g, .begin a g ∈ H.session.deferred ∧ g < H.session.generation := by
  rcases perform_cases hop False.elim with hw | ht | rfl | rfl | ⟨t, result, rfl, he | ⟨-, he⟩⟩
  · exact .inl (hw.staysShown.showsAbandoned ha)
  · exact .inl (ht.staysShown.showsAbandoned ha)
  · exact (h.tick_showsAbandoned ha).imp_right fun hwait => ⟨rfl, hwait⟩
  · exact .inl ⟨ha.frame, ha.itemMeta, ha.frameCount, ha.stale⟩
  · rw [he] at ha
    exact .inl ha
  · exact .inl (he.staysShown.showsAbandoned ha)

/-- Under either policy: a frame that is shown is one of the frames of the item that is shown, and
the tool has entries for them, unless the item had been given up before it came on show. This
happens under the policy that applies late answers only, and in a round only, which finds the item
waiting after it was given up. -/
theorem late_frame_bounds (h : ReachableUnder (fun s op => s.YieldsFrames op) H) :
    (∀ k, H.session.frame = some k → ¬ H.session.ShowsAbandoned →
      k < H.session.frameCount ∧ H.session.assignment.isSome = true ∧
        ∀ t, H.session.tool = some t → t.Filled H.session.frameCount) ∧
    ∀ op, H.Allows op → (H.perform op).session.ShowsAbandoned → H.session.ShowsAbandoned ∨
      op = .tick ∧ H.session.itemMeta = none ∧
        ∃ a g, .begin a g ∈ H.session.deferred ∧ g < H.session.generation := by
  have hbounded : H.session.LateBounded H.session.deferred := lateBounded_invariant.reachable h
  refine ⟨fun k hk hshown => ?_, fun op hop => perform_showsAbandoned hbounded hop⟩
  obtain ⟨hitem, hlt | ⟨rfl, hmeta, hstale⟩⟩ := hbounded.frame k hk
  · exact ⟨hlt, hitem, hbounded.filled hitem⟩
  · have hzero : H.session.frameCount = 0 := by
      rcases hbounded.counted (.inl hitem) with ⟨hsome, -, -⟩ | ⟨-, hzero⟩
      · rw [hmeta] at hsome
        cases hsome
      · exact hzero
    exact absurd ⟨hk, hmeta, hzero, hstale⟩ hshown

/-- The session of an annotation set for integers, under the policy that applies late answers. It
asks for an item twice, and the first answer names one. -/
def exampleLate (ops : List SessionOp) : History :=
  (History.mk ⟨.empty, (Session.ofSet (exampleSet .int .int) ⟨.apply, .default⟩ 0).start⟩ []
    []).performAll ([.getNewItem,
      .complete ⟨0, .assignment, 1⟩ (.ok (.json (.arr [.str "a"]))),
      .complete ⟨2, .itemMeta ⟨"a", false, none⟩, 2⟩ (.ok (.json .null))] ++ ops)

/-- Before the round the second answer names another item. Both come on show in the round, the
second one last, with a label for its only frame. -/
theorem late_frame_bounds_overtaken :
    let H := exampleLate [.complete ⟨1, .assignment, 2⟩ (.ok (.json (.arr [.str "b"]))),
      .complete ⟨3, .itemMeta ⟨"b", false, none⟩, 2⟩ (.ok (.json .null)), .tick]
    H.session.config.stale = .apply ∧ H.session.frame = some 0 ∧ ¬ H.session.ShowsAbandoned ∧
      H.session.assignment.map Assignment.key = some "b" ∧ 0 < H.session.frameCount ∧
      ∃ t, H.session.tool = some t ∧ t.Filled H.session.frameCount := by
  intro H
  have hreach : ReachableUnder (fun s op => s.YieldsFrames op) H := by
    refine ReachableUnder.performAll
      (.start (Or.inr ⟨exampleSet .int .int, ⟨.apply, .default⟩, 0, rfl⟩))
      ⟨trivial, trivial, allowsb_sound (by decide +kernel), ?_, allowsb_sound (by decide +kernel),
        ?_, allowsb_sound (by decide +kernel), ?_, allowsb_sound (by decide +kernel), ?_, trivial,
        trivial, trivial⟩
    · exact fun a known hp _ => by cases hp
    · intro a known _ hk
      cases hk
      decide +kernel
    · exact fun a known hp _ => by cases hp
    · intro a known _ hk
      cases hk
      decide +kernel
  have hf : H.session.frame = some 0 := by decide +kernel
  have hcount : H.session.frameCount = 1 := by decide +kernel
  have hshown : ¬ H.session.ShowsAbandoned := by
    intro ha
    have hzero := ha.frameCount
    rw [hcount] at hzero
    cases hzero
  obtain ⟨hlt, -, hfilled⟩ := (late_frame_bounds hreach).1 0 hf hshown
  obtain ⟨t, ht⟩ := Option.isSome_iff_exists.1
    (show H.session.tool.isSome = true by decide +kernel)
  exact ⟨by decide +kernel, hf, hshown, by decide +kernel, hlt, t, ht, hfilled t ht⟩

/-- The first answer names an item, and what is known about it arrives. The second answer says
that nothing is left to label, so the item is given up. The round shows its first frame, but there
are no frames and no labels. -/
theorem late_frame_abandoned :
    let H := exampleLate
      [.complete ⟨1, .assignment, 2⟩ (.error (.transport 500 Failure.everythingLabeledBody)), .tick]
    Reachable H ∧ H.session.config.stale = .apply ∧ H.session.frame = some 0 ∧
      H.session.frameCount = 0 ∧ H.session.tool.bind Tool.entries? = some 0 := by
  intro H
  refine ⟨?_, by decide +kernel, by decide +kernel, by decide +kernel, by decide +kernel⟩
  exact ReachableUnder.performAll
    (.start (Or.inr ⟨exampleSet .int .int, ⟨.apply, .default⟩, 0, rfl⟩))
    (allowsAllb_sound (by decide +kernel))

end History

end Labeling
