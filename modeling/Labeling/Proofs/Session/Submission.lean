import Labeling.Proofs.Session.FrameBounds

/-!
# Where an accepted submission leads

After its annotations were accepted, the session goes on through the listing of stored
annotations. A ticket for a submission says nothing about the place of the item that was
handed in, and it is never too late, so what counts is the place at which the session is when
the answer arrives (`History.complete_submit`): it goes one step on from there, whichever item
was handed in. That agrees with "one step from the item that was handed in" only if the
session still is at that item, or if the listing has one key. Otherwise an item is skipped,
as when the user goes on before the answer is there (`History.complete_submit_skips`).

`Session.Placed` is the invariant behind it: the place is one of the listing. It is not kept
by the elementary steps, since a new listing and a place in it arrive in two of them, but by
every operation.
-/

namespace Labeling

namespace Session

variable {s s' : Session} {stored : Session → Json → Prop} {honest : Prop}

/-- The session is at a place of the listing, unless there is none or it is empty. -/
def Placed (s : Session) : Prop :=
  ∀ keys, s.keyList = some keys → keys ≠ [] → s.itemIndex < keys.length

theorem placed_of_no_list (h : s.keyList = none) : s.Placed := by
  intro keys hk
  rw [h] at hk
  cases hk

/-- Only the listing and the place in it matter. -/
theorem Placed.of_eq (h : s.Placed) (hk : s'.keyList = s.keyList)
    (hi : s'.itemIndex = s.itemIndex) : s'.Placed := by
  intro keys hkeys hne
  rw [hi]
  exact h keys (hk ▸ hkeys) hne

theorem Placed.works (h : s.Placed) (hw : Works stored honest s s') : s'.Placed :=
  h.of_eq hw.sameItem.keyList hw.sameItem.itemIndex

/-- An index is wrapped around the listing. -/
theorem toNat_emod_lt {keys : List String} (index : Int) (hne : keys ≠ []) :
    (index % (keys.length : Int)).toNat < keys.length := by
  have hpos : 0 < keys.length := List.length_pos_iff.2 hne
  have hlt : index % (keys.length : Int) < keys.length := Int.emod_lt_of_pos _ (by omega)
  have hge : 0 ≤ index % (keys.length : Int) := Int.emod_nonneg _ (by omega)
  omega

theorem Placed.turn (h : s.Placed) (ht : Turn s s') : s'.Placed := by
  cases ht with
  | toNew => exact placed_of_no_list rfl
  | place index hm hk hne =>
    intro keys hkeys hne'
    obtain rfl := Option.some.inj (hk.symm.trans hkeys)
    exact toNat_emod_lt index hne
  | _ => exact h.of_eq rfl rfl

theorem Placed.turns (h : s.Placed) (ht : Turns s s') : s'.Placed := by
  induction ht with
  | refl => exact h
  | tail _ ht ih => exact ih.turn ht

theorem update_eq {set : AnnotationSet} {keys : List String} (hset : s.annotationSet = some set)
    (hm : s.mode = .existing) (hk : s.keyList = some keys) (hne : keys ≠ []) :
    s.update = s.askFor set keys[s.itemIndex]? := by
  unfold update
  rw [hset, hm, hk]
  cases keys with
  | nil => exact absurd rfl hne
  | cons k rest => rfl

theorem getOldItem_eq {keys : List String} (hk : s.keyList = some keys) (hne : keys ≠ [])
    (index : Int) :
    s.getOldItem index =
      { s with mode := .existing, message := none
               itemIndex := (index % (keys.length : Int)).toNat }.update := by
  unfold getOldItem
  dsimp only
  rw [hk]
  cases keys with
  | nil => exact absurd rfl hne
  | cons k rest => rfl

theorem update_keyList (s : Session) : s.update.keyList = s.keyList := by
  unfold update
  split
  · rfl
  · split
    · rfl
    · split <;> rfl

theorem update_itemIndex (s : Session) : s.update.itemIndex = s.itemIndex := by
  unfold update
  split
  · rfl
  · split
    · rfl
    · split <;> rfl

/-- Wherever the session was, it is at a place of the listing once it was sent to one. -/
theorem placed_getOldItem (s : Session) (index : Int) : (s.getOldItem index).Placed := by
  unfold getOldItem
  dsimp only
  split
  · rename_i hk
    split
    · exact placed_of_no_list hk
    · exact placed_of_no_list hk
  · rename_i hk
    intro keys hkeys hne
    exact absurd (Option.some.inj (hkeys.symm.trans hk)) hne
  · rename_i keys hne hk
    intro keys' hkeys hne'
    rw [update_itemIndex]
    rw [update_keyList] at hkeys
    obtain rfl := Option.some.inj (hk.symm.trans hkeys)
    exact toNat_emod_lt index hne'

theorem Placed.onKeyList (h : s.Placed) (index : Int) (result : Response) :
    (s.onKeyList index result).Placed := by
  unfold Session.onKeyList
  split
  · exact h.of_eq rfl rfl
  · exact placed_getOldItem _ index

theorem Placed.apply (h : s.Placed) (p : Purpose) (result : Response) :
    (s.apply p result).Placed := by
  have he := s.apply_effect p result
  generalize hs' : s.apply p result = s' at he
  cases he with
  | works _ hw => exact h.works hw
  | turns ht => exact h.turns ht
  | @installed set _ =>
    obtain ⟨x, hw, ht⟩ := s.install_steps set
    have hset : Placed { s with tool := Tool.ofSet? set s.config.bindings
                                annotationSet := some set } := h.of_eq rfl rfl
    exact (hset.works hw).turns ht
  | asked _ _ => exact h.of_eq rfl rfl
  | followed _ _ => exact h.of_eq rfl rfl
  | listed hp _ =>
    rw [← hs', hp]
    exact h.onKeyList _ result

theorem Placed.runDeferred (h : s.Placed) (task : Deferred) : (s.runDeferred task).Placed := by
  rcases s.runDeferred_cases task with hs | ⟨a, g, -, -, hs⟩ | ⟨index, -, -, hs⟩ <;> rw [hs]
  · exact h
  · have henter : (s.enter a).Placed := h.of_eq rfl rfl
    exact henter.works (s.beginItem_fetches a).works
  · have hframe : Placed { s with frame := some (index % signed s.frameCount).toNat } :=
      h.of_eq rfl rfl
    exact hframe.works (loadFrameImage_fetches _).works

theorem Placed.tick (h : s.Placed) : s.tick.Placed := by
  have hround : Placed { s with deferred := [] } := h.of_eq rfl rfl
  unfold Session.tick
  generalize s.deferred = tasks
  generalize { s with deferred := [] } = x at hround
  induction tasks generalizing x with
  | nil => exact hround
  | cons task rest ih => exact ih _ (hround.runDeferred task)

theorem placed_start (hs : s.IsFresh) : s.start.Placed := by
  rcases hs with ⟨id, config, keys, rfl⟩ | ⟨set, config, keys, rfl⟩
  · exact placed_of_no_list rfl
  · have hnew : (new set.id config keys).Placed := placed_of_no_list rfl
    obtain ⟨x, hw, ht⟩ := (new set.id config keys).install_steps set
    have hset : Placed { new set.id config keys with
        tool := Tool.ofSet? set config.bindings, annotationSet := some set } := hnew.of_eq rfl rfl
    exact (hset.works hw).turns ht

/-! ## Nothing is handed in without an annotation set -/

/-- The annotation set is there, or it is all that was asked for so far. -/
def Loaded (s : Session) (issued : List (Ticket × Request)) : Prop :=
  s.annotationSet.isSome = true ∨ s.tool = none ∧ ∀ m ∈ issued, m.1.purpose = .annotationSet

/-- Without an annotation set and its tool nothing is asked for. -/
theorem Work.outbox_of_no_set (hw : Work stored honest s s')
    (hset : s.annotationSet = none) (ht : s.tool = none) : s'.outbox = s.outbox := by
  cases hw with
  | fetch hf =>
    cases hf with
    | tool ht' _ => rw [ht] at ht'; cases ht'
    | image hr =>
      obtain ⟨source, a, k, hs, -⟩ := frameRequest?_eq_some hr
      rw [hset] at hs
      cases hs
    | stored hset' _ => rw [hset] at hset'; cases hset'
  | submit _ _ ht' => rw [ht] at ht'; cases ht'
  | saveParams params ht' => rw [ht] at ht'; cases ht'
  | _ => rfl

theorem Turn.outbox_of_no_set (h : Turn s s') (hset : s.annotationSet = none) :
    s'.outbox = s.outbox := by
  cases h with
  | choose hset' _ => rw [hset] at hset'; cases hset'
  | list index hset' _ _ => rw [hset] at hset'; cases hset'
  | _ => rfl

/-- Neither the annotation set nor the tool comes or goes, and without them nothing is asked
for. -/
theorem Loaded.of_idle {taken : List (Ticket × Request)} (h : s.Loaded (taken ++ s.outbox))
    (hset : s'.annotationSet.isSome = s.annotationSet.isSome)
    (htool : s'.tool.isSome = s.tool.isSome)
    (hidle : s.annotationSet = none → s.tool = none → s'.outbox = s.outbox) :
    s'.Loaded (taken ++ s'.outbox) := by
  rcases h with h | ⟨ht, hissued⟩
  · exact Or.inl (hset.trans h)
  · cases hs : s.annotationSet with
    | some set => exact Or.inl (by rw [hset, hs]; rfl)
    | none =>
      have ht' : s'.tool = none := by
        rw [← Option.not_isSome_iff_eq_none, htool, ht]
        exact Bool.false_ne_true
      exact Or.inr ⟨ht', by rwa [hidle hs ht]⟩

theorem Loaded.work {taken : List (Ticket × Request)} (h : s.Loaded (taken ++ s.outbox))
    (hw : Work stored honest s s') : s'.Loaded (taken ++ s'.outbox) :=
  h.of_idle hw.sameItem.loaded hw.sameItem.tool_isSome hw.outbox_of_no_set

theorem Loaded.turn {taken : List (Ticket × Request)} (h : s.Loaded (taken ++ s.outbox))
    (ht : Turn s s') : s'.Loaded (taken ++ s'.outbox) :=
  h.of_idle (congrArg Option.isSome ht.annotationSet_eq) ht.tool_isSome fun hset _ =>
    ht.outbox_of_no_set hset

/-! ## The answer to a submission -/

/-- The answer to a submission is never too late. -/
theorem isStale_submit {t : Ticket} (hp : t.purpose = .submit) : s.isStale t = false := by
  unfold isStale
  rw [hp]
  cases s.config.stale <;> rfl

/-- Once a submission is accepted, the session asks for the item after the one at which it is. -/
theorem complete_accepted {t : Ticket} {set : AnnotationSet} {keys : List String}
    (hp : t.purpose = .submit) (hset : s.annotationSet = some set) (hm : s.mode = .existing)
    (hk : s.keyList = some keys) (hi : s.itemIndex < keys.length) (hlt : keys.length < 2 ^ 63)
    (payload : Payload) :
    s.complete t (.ok payload) =
      { s with message := none, itemIndex := (s.itemIndex + 1) % keys.length }.askFor set
        keys[(s.itemIndex + 1) % keys.length]? := by
  have hne : keys ≠ [] := List.ne_nil_of_length_pos (by omega)
  have happly : s.complete t (.ok payload) = s.getOldItem (signed s.itemIndex + 1) := by
    unfold complete
    rw [if_neg (by simp [isStale_submit hp]), hp]
    show s.onSubmitted (.ok payload) = _
    unfold onSubmitted
    dsimp only
    rw [hm]
  have hindex : ((signed s.itemIndex + 1) % (keys.length : Int)).toNat =
      (s.itemIndex + 1) % keys.length := by
    rw [signed_eq (by omega)]
    exact_mod_cast Int.toNat_natCast _
  rw [happly, getOldItem_eq hk hne, hindex, ← hm]
  exact update_eq hset hm hk hne

end Session

namespace History

variable {H : History} {op : SessionOp} {promise : Session → SessionOp → Prop}

theorem placed_perform (h : H.session.Placed) (ha : H.Allows op) :
    (H.perform op).session.Placed := by
  rcases perform_cases ha False.elim with hw | ht | rfl | rfl | ⟨t, result, rfl, -⟩
  · exact h.works hw
  · exact h.turns ht
  · exact h.tick
  · exact h.of_eq rfl rfl
  · show (H.session.complete t result).Placed
    unfold Session.complete
    split
    · exact h
    · exact h.apply t.purpose result

/-- In every history the session is at a place of its listing. -/
theorem ReachableUnder.placed (h : ReachableUnder promise H) : H.session.Placed := by
  induction h with
  | start hs => exact Session.placed_start hs
  | step _ ha _ ih => exact placed_perform ih ha

theorem loaded_invariant :
    Invariant False (fun _ _ => True) Always fun taken _ s => s.Loaded (taken ++ s.outbox) where
  promised h := h.elim
  blank taken s h := Or.inr ⟨h.tool, fun m hm => h.issued m.1 m.2 hm⟩
  installed taken s set h := Or.inl rfl
  work taken s s' _ h hw := h.work hw
  fetch taken due s s' _ h hf := h.work hf.work
  turn taken s s' _ h ht := h.turn ht
  listed taken s keys _ h := h
  asked taken s a source _ h hs := by
    refine Or.inl ?_
    show s.annotationSet.isSome = true
    obtain ⟨set, hset, -⟩ := Option.bind_eq_some_iff.1 hs
    rw [hset]
    rfl
  followed taken s t a result known _ h _ _ _ :=
    h.of_idle rfl s.isSome_map_resetFrame fun _ _ => rfl
  taken taken s _ h := by
    show Session.Loaded _ (_ ++ [])
    rwa [List.append_nil]
  round taken s _ h := h
  dropped taken task due s _ h := h
  entered taken a g due s _ h _ := h.imp_right fun ⟨ht, hissued⟩ =>
    ⟨Session.enter_tool_eq_none ht a, hissued⟩
  shown taken index due s _ h _ := h

/-- The annotation set is there once anything else was asked for. -/
theorem ReachableUnder.annotationSet_isSome (h : ReachableUnder promise H) {t : Ticket}
    {r : Request} (hr : (t, r) ∈ H.issued) (hp : t.purpose ≠ .annotationSet) :
    H.session.annotationSet.isSome = true :=
  (loaded_invariant.reachable (h.mono fun _ _ _ => trivial)).resolve_right
    fun hl => hp (hl.2 _ hr)

/-- One step on from a place is that place itself, or one step on from another place, only if
there is a single place or the two are the same. -/
theorem succ_mod_eq_iff {n i j : Nat} (hi : i < n) (hj : j < n) :
    ((i + 1) % n = i ∨ (i + 1) % n = (j + 1) % n) ↔ (n = 1 ∨ i = j) := by
  have hmod : ∀ k < n, (k + 1) % n = if k + 1 = n then 0 else k + 1 := by
    intro k hk
    split
    · rename_i h
      rw [h, Nat.mod_self]
    · exact Nat.mod_eq_of_lt (by omega)
  rw [hmod i hi, hmod j hj]
  split <;> split <;> omega

/-- In the mode of stored annotations, with a listing of keys that can be counted: an accepted
submission leads one step on from the place at which the session is, whichever item was handed
in, and the item at the next place is asked for. This is where the session was, or one step
from the place `i` of the item that was handed in, only if the session is still at that place
or there is no other. -/
theorem complete_submit (h : ReachableUnder promise H) {t : Ticket} {r : Request}
    (hr : (t, r) ∈ H.issued) (hp : t.purpose = .submit) (hm : H.session.mode = .existing)
    {keys : List String} (hk : H.session.keyList = some keys) (hne : keys ≠ [])
    (hlt : keys.length < 2 ^ 63) (payload : Payload) :
    (∃ set, H.session.annotationSet = some set ∧
      H.session.complete t (.ok payload) =
        { H.session with message := none
                         itemIndex := (H.session.itemIndex + 1) % keys.length }.askFor set
          keys[(H.session.itemIndex + 1) % keys.length]?) ∧
    ∀ i < keys.length,
      ((H.session.complete t (.ok payload)).itemIndex = H.session.itemIndex ∨
        (H.session.complete t (.ok payload)).itemIndex = (i + 1) % keys.length) ↔
      (keys.length = 1 ∨ H.session.itemIndex = i) := by
  obtain ⟨set, hset⟩ := Option.isSome_iff_exists.1
    (h.annotationSet_isSome hr (by rw [hp]; exact fun hc => by cases hc))
  have hi := h.placed keys hk hne
  have heq := Session.complete_accepted hp hset hm hk hi hlt payload
  refine ⟨⟨set, hset, heq⟩, fun i hin => ?_⟩
  have hindex : (H.session.complete t (.ok payload)).itemIndex =
      (H.session.itemIndex + 1) % keys.length := by
    rw [heq]
    rfl
  rw [hindex]
  exact succ_mod_eq_iff hi hin

/-- The first of four stored items is shown. -/
def exampleListed : History :=
  (ofSet (exampleSet .int .int)).performAll
    [.getOldItem 0,
      .complete ⟨1, .keyList 0, 2⟩ (.ok (.json (.arr
        (["a", "b", "c", "d"].map fun key => .obj [("Key", .str key)])))),
      .complete ⟨2, .assignment, 3⟩ (.ok (.json (.arr [.str "a", .bool true]))),
      .complete ⟨3, .itemMeta ⟨"a", true, none⟩, 3⟩ (.ok (.json .null)), .tick]

/-- The first item is handed in, and accepted while it is still shown. -/
theorem complete_submit_second :
    let H := exampleListed.perform .annotateItem
    let t : Ticket := ⟨6, .submit, 1⟩
    (∃ r, (t, r) ∈ H.issued) ∧ H.session.mode = .existing ∧
      H.session.keyList = some ["a", "b", "c", "d"] ∧ H.session.itemIndex = 0 ∧
      (H.session.complete t (.ok (.json .null))).itemIndex = 1 := by
  intro H t
  have hreach : Reachable H :=
    .step ((reachable_ofSet _).performAll (allowsAllb_sound (by decide +kernel))) trivial trivial
  have hr : (t, .submit "/annotate-datasets/1/annotate" (.json "a" (.arr [.int (-1)]) none)) ∈
      H.issued := by decide +kernel
  have hm : H.session.mode = .existing := by decide +kernel
  have hk : H.session.keyList = some ["a", "b", "c", "d"] := by decide +kernel
  have hi : H.session.itemIndex = 0 := by decide +kernel
  obtain ⟨⟨set, -, heq⟩, -⟩ :=
    complete_submit hreach hr rfl hm hk (by decide) (by decide) (.json .null)
  refine ⟨⟨_, hr⟩, hm, hk, hi, ?_⟩
  rw [heq]
  show (H.session.itemIndex + 1) % 4 = 1
  rw [hi]

/-- The first item is handed in, and the user goes on to the third before that is accepted.
The session then asks for the fourth, which is neither the item that is shown nor the one after
the item that was handed in. -/
theorem complete_submit_skips :
    let t : Ticket := ⟨6, .submit, 1⟩
    let H := exampleListed.performAll [.annotateItem, .getOldItem 2,
      .complete ⟨7, .assignment, 4⟩ (.ok (.json (.arr [.str "c", .bool true]))),
      .complete ⟨8, .itemMeta ⟨"c", true, none⟩, 4⟩ (.ok (.json .null)), .tick]
    exampleListed.session.assignment.map Assignment.key = some "a" ∧
      t.id ∉ exampleListed.issued.map (fun m => m.1.id) ∧
      t ∈ (exampleListed.perform .annotateItem).issued.map Prod.fst ∧
      Reachable H ∧ H.Allows (.complete t (.ok (.json .null))) ∧
      H.session.config.stale = .discard ∧ H.session.mode = .existing ∧
      H.session.keyList = some ["a", "b", "c", "d"] ∧ H.session.itemIndex = 2 ∧
      (H.session.complete t (.ok (.json .null))).itemIndex = 3 := by
  intro t H
  refine ⟨by decide +kernel, by decide +kernel, by decide +kernel, ?_, ?_, by decide +kernel,
    by decide +kernel, by decide +kernel, by decide +kernel, by decide +kernel⟩
  · exact ((reachable_ofSet _).performAll (allowsAllb_sound (by decide +kernel))).performAll
      (allowsAllb_sound (by decide +kernel))
  · exact allowsb_sound (by decide +kernel)

end History
end Labeling
