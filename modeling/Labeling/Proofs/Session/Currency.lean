import Labeling.Proofs.Session.Agenda

/-!
# Answers are about the item that is shown

Under the policy that discards late answers, an answer that is applied belongs to the item
and to the frame that are shown when it arrives, however the user went on since the request
was made.

Each of the two counters is tied to what is shown while it has its value. A number of an
item is given when the item before it is left, and the item itself comes on show later, in
a round; the number of its first frame is given at the same time. So what has to be
excluded is that one value serves two items, or two frames of one item.

* `Session.Tied`: a request whose number is still the current one is about what is shown.
  That no value serves twice follows from what is known of the work that waits
  (`Session.Agenda`);
* `History.complete_current`: only answers about what is shown are applied, and all others
  change nothing.
-/

namespace Labeling

/-- The answer is data of one item. -/
def Purpose.isItemData : Purpose → Bool
  | .existingData => true
  | .tool p => p.isComputed
  | _ => false

namespace Session

variable {s s' : Session} {stored : Session → Json → Prop} {honest : Prop}

/-- The request is about the item that is shown. -/
def AboutItem (s : Session) (r : Request) : Prop :=
  ∃ a, s.assignment = some a ∧ r.itemKey? = some a.key

/-- The request is for the image of the frame that is shown, which is a frame of its own in
a video only. -/
def AboutFrame (s : Session) (r : Request) : Prop :=
  ∃ source a k, s.annotationSet.bind AnnotationSet.source? = some source ∧
    s.assignment = some a ∧ s.frame = some k ∧
    r = .frameImage source.id a.key (if source.dataType = .video then some k else none)

/-- The answer to a request with a purpose is about what is shown. -/
def Fits (s : Session) (p : Purpose) (r : Request) : Prop :=
  match p with
  | .existingData => s.AboutItem r
  | .tool .freshDetections => s.AboutItem r
  | .tool .freshMetadata => s.AboutItem r
  | .frameImage _ => s.AboutFrame r
  | _ => True

/-! ## Numbers and requests -/

/-- A request with a current number is about what is shown. -/
structure Tied (s : Session) (issued : List (Ticket × Request)) : Prop where
  item : ∀ t r, (t, r) ∈ issued → t.purpose.isItemData = true →
    t.generation ≤ s.generation ∧ (t.generation = s.generation → s.AboutItem r)
  image : ∀ t r n, (t, r) ∈ issued → t.purpose = .frameImage n →
    n ≤ s.frameSeq ∧ (n = s.frameSeq → s.frameRequest? = some r)

/-- The request for the annotation set is about no item. -/
theorem tied_of_blank {issued : List (Ticket × Request)}
    (h : ∀ t r, (t, r) ∈ issued → t.purpose = .annotationSet) : s.Tied issued where
  item t r hm hp := by
    rw [h t r hm] at hp
    cases hp
  image t r n hm hp := by
    rw [h t r hm] at hp
    cases hp

/-- A counter that goes on leaves no request with a current number, and while it stays what
is shown must stay. -/
theorem Tied.mono {issued : List (Ticket × Request)} (h : s.Tied issued)
    (hg : s.generation ≤ s'.generation)
    (ha : s.generation = s'.generation → ∀ a, s.assignment = some a → s'.assignment = some a)
    (hf : s.frameSeq ≤ s'.frameSeq)
    (hr : s.frameSeq = s'.frameSeq → ∀ r, s.frameRequest? = some r → s'.frameRequest? = some r) :
    s'.Tied issued where
  item t r hm hp := by
    obtain ⟨hle, hlive⟩ := h.item t r hm hp
    refine ⟨by omega, fun he => ?_⟩
    obtain ⟨a, hs, hkey⟩ := hlive (by omega)
    exact ⟨a, ha (by omega) a hs, hkey⟩
  image t r n hm hp := by
    obtain ⟨hle, hlive⟩ := h.image t r n hm hp
    refine ⟨by omega, fun he => ?_⟩
    exact hr (by omega) r (hlive (by omega))

/-- A new request carries the current number, so it has to be about what is shown. -/
theorem Tied.issue {taken : List (Ticket × Request)} (h : s.Tied (taken ++ s.outbox))
    {p : Purpose} {r : Request} (hi : p.isItemData = true → s.AboutItem r)
    (hf : ∀ n, p = .frameImage n → n = s.frameSeq ∧ s.frameRequest? = some r) :
    (s.issue p r).Tied (taken ++ (s.issue p r).outbox) := by
  have hmem : ∀ t' r', (t', r') ∈ taken ++ (s.issue p r).outbox →
      (t', r') ∈ taken ++ s.outbox ∨
        t' = ⟨s.nextTicket, p, if p.isNavigation then s.navSeq else s.generation⟩ ∧ r' = r := by
    intro t' r' hm
    rw [show (s.issue p r).outbox = s.outbox ++ [_] from rfl, ← List.append_assoc] at hm
    rcases List.mem_append.1 hm with hm | hm
    · exact Or.inl hm
    · exact Or.inr (Prod.mk.inj (List.mem_singleton.1 hm))
  refine ⟨fun t' r' hm hp => ?_, fun t' r' n hm hp => ?_⟩
  · rcases hmem t' r' hm with hm | ⟨rfl, rfl⟩
    · exact h.item t' r' hm hp
    · have hnav : p.isNavigation = false := by
        cases p <;> first | rfl | cases hp
      simp only [hnav]
      exact ⟨Nat.le_refl _, fun _ => hi hp⟩
  · rcases hmem t' r' hm with hm | ⟨rfl, rfl⟩
    · exact h.image t' r' n hm hp
    · obtain ⟨rfl, hr⟩ := hf n hp
      exact ⟨Nat.le_refl _, fun _ => hr⟩

/-- An item is left. -/
theorem Tied.leaveItem {issued : List (Ticket × Request)} (h : s.Tied issued) :
    s.resetItem.Tied issued :=
  h.mono (Nat.le_succ _) (fun he => absurd he (Nat.ne_of_lt (Nat.lt_succ_self _)))
    (Nat.le_succ _) (fun he => absurd he (Nat.ne_of_lt (Nat.lt_succ_self _)))

theorem frameRequest?_congr
    (hs : s'.annotationSet.bind AnnotationSet.source? = s.annotationSet.bind AnnotationSet.source?)
    (ha : s'.assignment = s.assignment) (hf : s'.frame = s.frame) :
    s'.frameRequest? = s.frameRequest? := by
  unfold frameRequest?
  rw [hs, ha, hf]

theorem Tied.work {taken : List (Ticket × Request)} (h : s.Tied (taken ++ s.outbox))
    (hw : Work stored True s s') : s'.Tied (taken ++ s'.outbox) := by
  cases hw with
  | fetch hf =>
    cases hf with
    | tool ht hc => exact h.issue (hc trivial) (fun n hn => by cases hn)
    | image hr =>
      refine h.issue (fun hp => by cases hp) fun n hn => ?_
      cases hn
      exact ⟨rfl, hr⟩
    | stored hset ha => exact h.issue (fun _ => ⟨_, ha, rfl⟩) (fun n hn => by cases hn)
  | submit hset ha ht => exact h.issue (fun hp => by cases hp) (fun n hn => by cases hn)
  | saveParams params ht =>
    have hstored : Tied { s with
        annotationSet := s.annotationSet.map fun set : AnnotationSet =>
          ({ set with params := some params } : AnnotationSet) } (taken ++ s.outbox) := by
      refine h.mono (Nat.le_refl _) (fun _ _ ha => ha) (Nat.le_refl _) fun _ r hr => ?_
      -- the parameters do not matter for the image
      rw [← hr]
      refine frameRequest?_congr ?_ rfl rfl
      cases s.annotationSet <;> simp [AnnotationSet.source?]
    exact hstored.issue (fun hp => by cases hp) (fun n hn => by cases hn)
  | leaveFrame index ha hc =>
    exact h.mono (Nat.le_refl _) (fun _ _ ha => ha) (Nat.le_succ _)
      (fun he => absurd he (Nat.ne_of_lt (Nat.lt_succ_self _)))
  | _ => exact ⟨h.item, h.image⟩

theorem Tied.turn {taken : List (Ticket × Request)} (h : s.Tied (taken ++ s.outbox))
    (ht : Turn s s') : s'.Tied (taken ++ s'.outbox) := by
  have hchosen : Tied { s with navSeq := s.navSeq + 1 } (taken ++ s.outbox) := ⟨h.item, h.image⟩
  cases ht with
  | choose hset hkey => exact hchosen.issue (fun hp => by cases hp) (fun n hn => by cases hn)
  | list index hset hm hk => exact hchosen.issue (fun hp => by cases hp) (fun n hn => by cases hn)
  | leaveItem message => exact ⟨h.leaveItem.item, h.leaveItem.image⟩
  | _ => exact ⟨h.item, h.image⟩

/-- Nothing was asked about an item that is yet to come on show. -/
theorem Tied.enter {a : Assignment} {issued : List (Ticket × Request)} (h : s.Tied issued)
    (ha : s.assignment = none) : (s.enter a).Tied issued := by
  refine h.mono (Nat.le_refl _) (fun _ a' ha' => ?_) (Nat.le_refl _) (fun _ r hr => ?_)
  · rw [ha] at ha'
    cases ha'
  · obtain ⟨source, a', k, -, ha', -, -⟩ := frameRequest?_eq_some hr
    rw [ha] at ha'
    cases ha'

/-- Nothing was asked about a frame that is yet to come on show. -/
theorem Tied.showFrame {frame : Option Nat} {issued : List (Ticket × Request)} (h : s.Tied issued)
    (hf : s.frame = none) : Tied { s with frame := frame } issued := by
  refine h.mono (Nat.le_refl _) (fun _ _ ha => ha) (Nat.le_refl _) (fun _ r hr => ?_)
  obtain ⟨source, a, k, -, -, hk, -⟩ := frameRequest?_eq_some hr
  rw [hf] at hk
  cases hk

/-- What holds of the numbers under the policy that discards late answers. -/
def Current (s : Session) (taken : List (Ticket × Request)) : Prop :=
  s.config.stale = .discard → s.Tied (taken ++ s.outbox)

theorem Current.work {taken : List (Ticket × Request)} (h : s.Current taken)
    (hw : Work stored True s s') : s'.Current taken :=
  fun hd => (h (hw.sameItem.config ▸ hd)).work hw

end Session

namespace History

variable {H : History}

/-- Requests are about what is shown, as long as the host makes up no others. -/
theorem current_invariant :
    Invariant True (fun s op => s.Honest op) (fun _ due s => s.Planned due)
      (fun taken _ s => s.Current taken) where
  promised _ _ _ hp := hp
  blank taken s h _ := Session.tied_of_blank h.issued
  installed taken s set h _ := Session.tied_of_blank h.issued
  work taken s s' _ h hw := h.work hw
  fetch taken due s s' _ h hf := h.work hf.work
  turn taken s s' _ h ht hd := (h (ht.config_eq ▸ hd)).turn ht
  listed taken s keys _ h hd := ⟨(h hd).item, (h hd).image⟩
  asked taken s a source _ h hs hd :=
    (h hd).issue (fun hp => by cases hp) (fun n hn => by cases hn)
  followed taken s t a result known _ h _ _ _ hd := ⟨(h hd).leaveItem.item, (h hd).leaveItem.image⟩
  taken taken s _ h hd := by
    rw [List.append_nil]
    exact ⟨(h hd).item, (h hd).image⟩
  round taken s _ h hd := ⟨(h hd).item, (h hd).image⟩
  dropped taken task due s _ h := h
  entered taken a g due s ha h hg hd := by
    have hg' := Session.eq_of_current hg hd
    exact (h hd).enter (((ha hd).begins a g (List.mem_cons_self ..)).2 hg')
  shown taken index due s ha h _ hd :=
    (h hd).showFrame (((ha hd).shows index s.frameSeq (List.mem_cons_self ..)).2 rfl).2

/-- Under the policy that discards late answers, an answer that is applied is about the item
and the frame that are shown, and an answer about anything else changes nothing. Nothing that
the user does matters for this; only a host that itself asks for data of another item in the
tool's name is left out (`Session.Honest`). -/
theorem complete_current (h : ReachableUnder (fun s op => s.Honest op) H)
    (hd : H.session.config.stale = .discard) {t : Ticket} {r : Request} (hr : (t, r) ∈ H.issued)
    (result : Response) :
    (H.session.isStale t = false → H.session.Fits t.purpose r) ∧
      (¬ H.session.Fits t.purpose r → H.session.complete t result = H.session) := by
  have htied := ((current_invariant.and agenda_invariant).reachable h).2 hd
  have hfits : H.session.isStale t = false → H.session.Fits t.purpose r := by
    intro hs
    have hitem : t.purpose.isItemData = true → H.session.AboutItem r := by
      intro hp
      refine (htied.item t r hr hp).2 ((Session.generation_of_current hd hs).2 ?_)
      cases hpt : t.purpose <;> rw [hpt] at hp <;> first | rfl | cases hp
    unfold Session.Fits
    split
    · rename_i hp
      exact hitem (by rw [hp]; rfl)
    · rename_i hp
      exact hitem (by rw [hp]; rfl)
    · rename_i hp
      exact hitem (by rw [hp]; rfl)
    · rename_i n hp
      refine Session.frameRequest?_eq_some ((htied.image t r n hr hp).2 ?_)
      unfold Session.isStale at hs
      rw [hp] at hs
      simpa using hs
    · trivial
  refine ⟨hfits, fun hn => ?_⟩
  cases hs : H.session.isStale t with
  | true => exact if_pos hs
  | false => exact absurd (hfits hs) hn

/-- The stored labels of the item that was chosen first arrive while it is shown. -/
theorem complete_current_stored :
    let H := (ofSet (exampleSet .int .int)).performAll
      [.complete ⟨0, .assignment, 1⟩ (.ok (.json (.arr [.str "a", .bool true]))),
        .complete ⟨1, .itemMeta ⟨"a", true, none⟩, 1⟩ (.ok (.json .null)), .tick]
    H.session.config.stale = .discard ∧
      (⟨3, .existingData, 1⟩, .item 2 "a" .json true) ∈ H.issued ∧
      H.session.Fits .existingData (.item 2 "a" .json true) := by
  intro H
  have hreach : ReachableUnder (fun s op => s.Honest op) H :=
    (reachable_ofSet _).performAll
      ⟨allowsb_sound (by decide +kernel), trivial, allowsb_sound (by decide +kernel), trivial,
        trivial, trivial, trivial⟩
  have hd : H.session.config.stale = .discard := by decide +kernel
  have hm : (⟨3, .existingData, 1⟩, .item 2 "a" .json true) ∈ H.issued := by decide +kernel
  exact ⟨hd, hm, (complete_current hreach hd hm (.ok (.json .null))).1 (by decide +kernel)⟩

end History

end Labeling
