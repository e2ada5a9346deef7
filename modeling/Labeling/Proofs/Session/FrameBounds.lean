import Mathlib.Algebra.Group.Nat.Defs
import Labeling.Proofs.Session.Agenda
import Labeling.Proofs.Tool.Entries

/-!
# The frame that is shown exists

Under the policy that discards late answers, the frame that is shown is one of the frames
of an item that is shown too, and the tool has one entry for each of them. The number of
frames is known before the item comes on show and the entries are made when it does, so
in between neither may be relied on: `Session.Bounded` says what may.

* `History.frame_bounds` is the result for every history of a tool that keeps entries;
* `History.perform_submit` says when annotations are handed in, and which.

The number of frames of an item is taken from what the backend knows about it. That it is
a positive number that the program's signed numbers can hold is promised by the history
(`Session.CountsFrames`).
-/

namespace Labeling

namespace Session

variable {s s' : Session} {stored : Session → Json → Prop} {honest : Prop}

/-- What is known about an item leads to a number of frames that is not zero and fits into
a signed number. -/
def CountsFrames (s : Session) : SessionOp → Prop
  | .complete t result => ∀ a known, t.purpose = .itemMeta a →
      result.parse (Json.nullable ItemMeta.read?) = .ok known →
      1 ≤ s.framesOf (known.getD .empty) ∧ s.framesOf (known.getD .empty) < 2 ^ 63
  | _ => True

/-- The item has frames, and not more than a signed number can count. -/
def HasFrames (s : Session) : Prop := 1 ≤ s.frameCount ∧ s.frameCount < 2 ^ 63

/-- What holds of the frames while some work waits. -/
structure Bounded (s : Session) (tasks : List Deferred) : Prop where
  loaded : s.tool.isSome = true → s.annotationSet.isSome = true
  /-- The frames of an item are counted before it comes on show. -/
  count : (s.assignment.isSome = true ∨ ∃ a, .begin a s.generation ∈ tasks) → s.HasFrames
  frame : ∀ k, s.frame = some k → s.assignment.isSome = true ∧ k < s.frameCount
  sized : s.assignment.isSome = true → ∀ t, s.tool = some t → t.Sized s.frameCount

/-- While no item is shown and none is about to be, nothing is required. -/
theorem bounded_nil (hl : s.tool.isSome = true → s.annotationSet.isSome = true)
    (ha : s.assignment = none) (hf : s.frame = none) : s.Bounded [] where
  loaded := hl
  count h := by
    rcases h with h | ⟨a, h⟩
    · rw [ha] at h
      cases h
    · cases h
  frame k hk := by
    rw [hf] at hk
    cases hk
  sized h := by
    rw [ha] at h
    cases h

theorem Bounded.work {due : List Deferred} (h : s.Bounded (due ++ s.deferred))
    (hw : Work stored honest s s') : s'.Bounded (due ++ s'.deferred) := by
  have hloaded := hw.sameItem.loaded_of_tool h.loaded
  cases hw with
  | fetch hf => cases hf <;> exact ⟨hloaded, h.count, h.frame, h.sized⟩
  | react hset ht hr =>
    refine ⟨hloaded, h.count, h.frame, fun ha t' ht' => ?_⟩
    cases ht'
    exact hr.sized (h.sized ha _ ht)
  | leaveFrame index ha hc =>
    refine ⟨hloaded, fun hs => ?_, fun k hk => ?_, fun ha t ht => ?_⟩
    · refine h.count (hs.imp_right ?_)
      rintro ⟨a, hm⟩
      rw [← List.append_assoc] at hm
      rcases List.mem_append.1 hm with hm | hm
      · exact ⟨a, hm⟩
      · cases List.mem_singleton.1 hm
    · cases hk
    · obtain ⟨t', ht', rfl⟩ := Option.map_eq_some_iff.1 ht
      intro n hn
      rw [t'.entries?_resetFrame] at hn
      exact h.sized ha t' ht' n hn
  | _ => exact ⟨hloaded, h.count, h.frame, h.sized⟩

/-- When an item is left, whatever was about to come on show is superseded. -/
theorem Bounded.leaveItem {tasks : List Deferred} (h : s.Bounded tasks) (ha : s.Agenda tasks) :
    s.resetItem.Bounded tasks where
  loaded hs := h.loaded (s.isSome_map_resetFrame ▸ hs)
  count hs := by
    rcases hs with hs | ⟨a, hm⟩
    · cases hs
    · exact absurd (ha.begins a _ hm).1 (Nat.not_succ_le_self _)
  frame k hk := by cases hk
  sized hs := by cases hs

theorem Bounded.turn {due : List Deferred} (h : s.Bounded (due ++ s.deferred))
    (ha : s.Agenda (due ++ s.deferred)) (ht : Turn s s') : s'.Bounded (due ++ s'.deferred) := by
  cases ht with
  | leaveItem message =>
    have hleft := h.leaveItem ha
    exact ⟨hleft.loaded, hleft.count, hleft.frame, hleft.sized⟩
  | _ => exact ⟨h.loaded, h.count, h.frame, h.sized⟩

theorem Bounded.follow {due : List Deferred} (h : s.Bounded (due ++ s.deferred)) {a : Assignment}
    {itemMeta : ItemMeta} (hc : 1 ≤ s.framesOf itemMeta ∧ s.framesOf itemMeta < 2 ^ 63) :
    (s.follow a itemMeta).Bounded (due ++ (s.follow a itemMeta).deferred) where
  loaded hs := h.loaded (s.isSome_map_resetFrame ▸ hs)
  count _ := hc
  frame k hk := by cases hk
  sized hs := by cases hs

/-- The item comes on show with its first frame, and with entries for all of them. -/
theorem Bounded.enter {a : Assignment} {tasks : List Deferred}
    (h : s.Bounded (.begin a s.generation :: tasks)) : (s.enter a).Bounded tasks := by
  have hc : s.HasFrames := h.count (Or.inr ⟨a, List.mem_cons_self ..⟩)
  refine ⟨fun hs => h.loaded (s.isSome_enter_tool a ▸ hs), fun _ => hc, fun k hk => ?_,
    fun _ t ht => ?_⟩
  · cases hk
    exact ⟨rfl, hc.1⟩
  · obtain ⟨t₀, set, -, rfl⟩ := enter_tool_eq h.loaded ht
    exact t₀.itemShown_sized _

theorem signed_eq {n : Nat} (h : n < 2 ^ 63) : signed n = n :=
  wrapInt64_of_isInt64 (isInt64_iff.2 (by omega))

/-- An index is taken modulo the number of frames. -/
theorem Bounded.showFrame {index : Int} {tasks : List Deferred}
    (h : s.Bounded (.showFrame index s.frameSeq :: tasks))
    (ha : s.Agenda (.showFrame index s.frameSeq :: tasks)) :
    Bounded { s with frame := some (index % signed s.frameCount).toNat } tasks := by
  have hitem := ((ha.shows index s.frameSeq (List.mem_cons_self ..)).2 rfl).1
  obtain ⟨hpos, hlt⟩ := h.count (Or.inl hitem)
  refine ⟨h.loaded, fun hs => h.count (hs.imp_right ?_), fun k hk => ⟨hitem, ?_⟩, h.sized⟩
  · rintro ⟨a, hm⟩
    exact ⟨a, List.mem_cons_of_mem _ hm⟩
  · cases hk
    rw [signed_eq hlt]
    have hmod := Int.emod_lt_of_pos index (show (0 : Int) < s.frameCount by omega)
    show (index % (s.frameCount : Int)).toNat < s.frameCount
    omega

theorem Bounded.tail {task : Deferred} {tasks : List Deferred} (h : s.Bounded (task :: tasks)) :
    s.Bounded tasks where
  loaded := h.loaded
  count hs := by
    refine h.count (hs.imp_right ?_)
    rintro ⟨a, hm⟩
    exact ⟨a, List.mem_cons_of_mem _ hm⟩
  frame := h.frame
  sized := h.sized

/-- What holds of the frames under the policy that discards late answers. -/
def Framed (s : Session) (due : List Deferred) : Prop :=
  s.config.stale = .discard → s.Bounded (due ++ s.deferred)

theorem Framed.work {due : List Deferred} (h : s.Framed due) (hw : Work stored honest s s') :
    s'.Framed due :=
  fun hd => (h (hw.sameItem.config ▸ hd)).work hw

theorem Framed.works {due : List Deferred} (h : s.Framed due) (hw : Works stored honest s s') :
    s'.Framed due := by
  induction hw with
  | refl => exact h
  | tail _ hw ih => exact ih.work hw

/-! ## Handing in -/

/-- The request that hands in the annotations of the item that is shown. -/
def HandsIn (s : Session) (r : Request) : Prop :=
  ∃ set a t, s.annotationSet = some set ∧ s.assignment = some a ∧ s.tool = some t ∧
    r = .submit set.annotatePath
      (.json a.key (t.annotations (s.view set)).1 (t.annotations (s.view set)).2)

theorem Work.handsIn (hw : Work stored honest s s') {t : Ticket} {r : Request}
    (hm : (t, r) ∈ s'.outbox) (hp : t.purpose = .submit) : (t, r) ∈ s.outbox ∨ s.HandsIn r := by
  cases hw with
  | fetch hf => exact (hf.grows.mem_outbox hm).imp_right fun h => absurd hp h.2
  | submit hset ha ht =>
    rcases List.mem_append.1 hm with hm | hm
    · exact Or.inl hm
    · obtain ⟨-, rfl⟩ := Prod.mk.inj (List.mem_singleton.1 hm)
      exact Or.inr ⟨_, _, _, hset, ha, ht, rfl⟩
  | saveParams params ht =>
    rcases List.mem_append.1 hm with hm | hm
    · exact Or.inl hm
    · obtain ⟨rfl, -⟩ := Prod.mk.inj (List.mem_singleton.1 hm)
      cases hp
  | _ => exact Or.inl hm

/-- What is handed in while an item is shown are its annotations at some moment. -/
theorem Works.handsIn (hw : Works stored honest s s') {t : Ticket} {r : Request}
    (hm : (t, r) ∈ s'.outbox) (hp : t.purpose = .submit) :
    (t, r) ∈ s.outbox ∨ ∃ x, Works stored honest s x ∧ x.HandsIn r := by
  induction hw with
  | refl => exact Or.inl hm
  | tail hx hw ih =>
    rcases hw.handsIn hm hp with hm | hr
    · exact ih hm
    · exact Or.inr ⟨_, hx, hr⟩

theorem Turns.handsIn (ht : Turns s s') {t : Ticket} {r : Request}
    (hm : (t, r) ∈ s'.outbox) (hp : t.purpose = .submit) : (t, r) ∈ s.outbox := by
  refine (ht.grows.mem_outbox hm).resolve_right fun hnav => ?_
  rw [hp] at hnav
  cases hnav

/-- When an annotation set arrives, no item is shown that could be handed in. -/
theorem install_handsIn (ha : s.assignment = none) {set : AnnotationSet} {t : Ticket}
    {r : Request} (hm : (t, r) ∈ (s.install set).outbox) (hp : t.purpose = .submit) :
    (t, r) ∈ s.outbox := by
  obtain ⟨y, hw, ht⟩ := s.install_steps set
  rcases hw.handsIn (ht.handsIn hm hp) hp with hm | ⟨x, hx, -, a, -, -, ha', -⟩
  · exact hm
  · have hsame := hx.sameItem.assignment
    rw [ha'] at hsame
    rw [show s.assignment = some a from hsame.symm] at ha
    cases ha

/-- A result hands in annotations only if it is one about the item that is shown. -/
theorem Effect.handsIn {p : Purpose} {result : Response} (h : Effect s p result s')
    (hblank : p = .annotationSet → s.assignment = none) {t : Ticket} {r : Request}
    (hm : (t, r) ∈ s'.outbox) (hp : t.purpose = .submit) :
    (t, r) ∈ s.outbox ∨ ∃ x, Works (s.Holds p result) True s x ∧ x.HandsIn r := by
  cases h with
  | works _ hw => exact hw.handsIn hm hp
  | turns ht => exact Or.inl (ht.handsIn hm hp)
  | installed hset => exact Or.inl (install_handsIn (hblank hset) hm hp)
  | asked _ _ =>
    rcases List.mem_append.1 hm with hm | hm
    · exact Or.inl hm
    · obtain ⟨rfl, -⟩ := Prod.mk.inj (List.mem_singleton.1 hm)
      cases hp
  | followed _ _ => exact Or.inl hm
  | listed _ ht => exact Or.inl (ht.handsIn (s := { s with keyList := _ }) hm hp)

end Session

namespace History

variable {H : History} {op : SessionOp} {promise : Session → SessionOp → Prop}

/-- The frames are in order in every history in which they can be counted. -/
theorem framed_invariant :
    Invariant False (fun s op => s.CountsFrames op) (fun _ due s => s.Planned due)
      (fun _ due s => s.Framed due) where
  promised h := h.elim
  blank taken s h _ := by
    rw [h.deferred]
    refine Session.bounded_nil (fun hs => ?_) h.assignment h.frame
    rw [h.tool] at hs
    cases hs
  installed taken s set h _ := by
    rw [show [] ++ _ = s.deferred from rfl, h.deferred]
    exact Session.bounded_nil (fun _ => rfl) h.assignment h.frame
  work taken s s' _ h hw := h.work hw
  fetch taken due s s' _ h hf := h.work hf.work
  turn taken s s' ha h ht hd := by
    rw [ht.config_eq] at hd
    exact (h hd).turn (ha hd) ht
  listed taken s keys _ h hd := ⟨(h hd).loaded, (h hd).count, (h hd).frame, (h hd).sized⟩
  asked taken s a source _ h _ hd := ⟨(h hd).loaded, (h hd).count, (h hd).frame, (h hd).sized⟩
  followed taken s t a result known _ h hp ht hr hd := (h hd).follow (hp a known ht hr)
  taken taken s _ h hd := ⟨(h hd).loaded, (h hd).count, (h hd).frame, (h hd).sized⟩
  round taken s _ h hd := by
    rw [List.append_nil]
    exact ⟨(h hd).loaded, (h hd).count, (h hd).frame, (h hd).sized⟩
  dropped taken task due s _ h hd := (h hd).tail
  entered taken a g due s _ h hg hd := by
    obtain rfl := Session.eq_of_current hg hd
    exact (h hd).enter
  shown taken index due s ha h _ hd := (h hd).showFrame (ha hd)

/-- What an operation hands in are the annotations of the item that is shown, as they are at
some moment of its work. -/
theorem perform_submit (hb : H.Booted) (ha : H.Allows op) {t : Ticket} {r : Request}
    (hm : (t, r) ∈ (H.perform op).issued) (hp : t.purpose = .submit) :
    (t, r) ∈ H.issued ∨ ∃ x, Session.Works (fun _ _ => True) False H.session x ∧ x.HandsIn r := by
  by_cases hop : op = .takeRequests
  · subst hop
    rw [issued_takeRequests] at hm
    exact Or.inl hm
  unfold issued at hm
  rw [taken_perform hop] at hm
  rcases List.mem_append.1 hm with hm | hm
  · exact Or.inl (List.mem_append_left _ hm)
  refine Or.imp_left (List.mem_append_right _) ?_
  rcases perform_cases ha False.elim with hw | ht | rfl | rfl | ⟨t', result, rfl, he | ⟨-, he⟩⟩
  · exact (hw.weaken (fun _ _ => False.elim) id).handsIn hm hp
  · exact Or.inl (ht.handsIn hm hp)
  · exact (H.session.tick_grows.mem_outbox hm).imp_right fun h => absurd hp h.2
  · exact absurd rfl hop
  · rw [he] at hm
    exact Or.inl hm
  · have hblank : t'.purpose = .annotationSet → H.session.assignment = none := by
      intro hp'
      obtain ⟨⟨r', hr'⟩, hn⟩ := ha
      exact (hb.waiting t' r' hr' hp' hn).assignment
    refine (he.handsIn hblank hm hp).imp_right ?_
    rintro ⟨x, hw, hr⟩
    exact ⟨x, hw.weaken (fun _ _ _ => trivial) fun _ => trivial, hr⟩

/-- Under the policy that discards late answers, and with a tool that keeps entries: the
frame that is shown is one of the frames of the item that is shown, the tool has one entry
for each of them, and whatever is handed in next is a list of that many entries under the
key of this item. -/
theorem frame_bounds (h : ReachableUnder (fun s op => s.CountsFrames op) H)
    (hd : H.session.config.stale = .discard) {tool : Tool} (ht : H.session.tool = some tool)
    (hk : tool.kind = .shape ∨ tool.kind = .int) :
    (∀ k, H.session.frame = some k →
      H.session.assignment.isSome = true ∧ k < H.session.frameCount) ∧
    (H.session.assignment.isSome = true →
      1 ≤ H.session.frameCount ∧ tool.entries? = some H.session.frameCount) ∧
    ∀ op, H.Allows op → ∀ t r, (t, r) ∈ (H.perform op).issued → (t, r) ∉ H.issued →
      t.purpose = .submit → ∃ a path items metadata,
        H.session.assignment = some a ∧ r = .submit path (.json a.key (.arr items) metadata) ∧
          items.length = H.session.frameCount := by
  have hI : H.session.Framed [] := ((framed_invariant.and agenda_invariant).reachable h).2
  obtain ⟨n, hn⟩ := Tool.entries?_isSome hk
  refine ⟨(hI hd).frame, fun ha => ⟨((hI hd).count (Or.inl ha)).1, ?_⟩, ?_⟩
  · rw [hn, (hI hd).sized ha tool ht n hn]
  · intro op hop t r hm hnew hp
    obtain ⟨x, hw, set, a, tool', hset, hitem, htool, rfl⟩ :=
      (perform_submit h.booted hop hm hp).resolve_left hnew
    -- the moment at which the annotations are handed in is one of the same item
    have hsame := hw.sameItem
    have hx := hI.works hw (by rw [hsame.config, hd])
    have hkind : tool'.kind = tool.kind := by
      have := hsame.toolKind
      rw [htool, ht] at this
      exact Option.some.inj this
    obtain ⟨n', hn'⟩ := Tool.entries?_isSome (hkind ▸ hk)
    obtain ⟨items, hitems, hlen⟩ := Tool.annotations_eq hn' (x.view set)
    refine ⟨a, set.annotatePath, items, _, hsame.assignment ▸ hitem, by rw [hitems], ?_⟩
    rw [hlen, hx.sized (by rw [hitem]; rfl) tool' htool n' hn', hsame.frameCount]

/-- A video of one frame, for which three labels were stored. -/
theorem frame_bounds_stored :
    let H := (ofSet (exampleSet .int .int)).performAll
      [.complete ⟨0, .assignment, 1⟩ (.ok (.json (.arr [.str "a", .bool true]))),
        .complete ⟨1, .itemMeta ⟨"a", true, none⟩, 1⟩ (.ok (.json .null)), .tick,
        .complete ⟨3, .existingData, 1⟩ (.ok (.json (.arr [.int 7, .int 8, .int 9])))]
    H.session.config.stale = .discard ∧ H.session.frame = some 0 ∧ 0 < H.session.frameCount ∧
      H.session.tool.bind Tool.entries? = some H.session.frameCount := by
  intro H
  have hreach : ReachableUnder (fun s op => s.CountsFrames op) H := by
    refine (reachable_ofSet _).performAll
      ⟨allowsb_sound (by decide +kernel), ?_, allowsb_sound (by decide +kernel), ?_, trivial,
        trivial, allowsb_sound (by decide +kernel), ?_, trivial⟩
    · exact fun a known hp _ => by cases hp
    · intro a known _ hk
      cases hk
      decide +kernel
    · exact fun a known hp _ => by cases hp
  have hd : H.session.config.stale = .discard := by decide +kernel
  have hf : H.session.frame = some 0 := by decide +kernel
  obtain ⟨tool, ht, hk⟩ := Option.map_eq_some_iff.1
    (show H.session.tool.map Tool.kind = some .int by decide +kernel)
  obtain ⟨hframe, hentries, -⟩ := frame_bounds hreach hd ht (Or.inr hk)
  obtain ⟨hitem, hlt⟩ := hframe 0 hf
  refine ⟨hd, hf, hlt, ?_⟩
  rw [ht]
  exact (hentries hitem).2

end History

end Labeling
