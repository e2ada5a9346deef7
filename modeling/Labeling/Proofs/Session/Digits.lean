import Labeling.Proofs.Keyboard.Hub
import Labeling.Proofs.Session.ArrivalOrder
import Labeling.Proofs.Session.NoFrame
import Labeling.Proofs.Session.TrackFrames

/-!
# Labeling an item by digits

With the integer tool an item is labeled by pressing a digit key for each of its frames. A press
labels the frame that is shown and asks for the next one, and the press for the last frame hands in
the labels (`Desk.digit_run`).

A key that is pressed once too often does no harm. The press that labels a frame withdraws it, and
until the round that shows another one the tool takes no notice of the keyboard. So of all the keys
that are pressed between two rounds only the first counts, no matter how many of them reached the
session at once. `Desk.LeadsTo` says this of a desk on the way to the next round: the session is
going to be one that is known already.
-/

namespace Labeling

/-! ## The text of a list of integers -/

namespace Json

theorem write_int (n : Int) (rest : List Char) :
    write (.int n) rest = (toString n).toList ++ rest := rfl

theorem writeItems_cons (v : Json) (vs : List Json) (rest : List Char) :
    writeItems (v :: vs) rest = ',' :: write v (writeItems vs rest) := rfl

theorem writeItems_ints (ns : List Int) (rest : List Char) :
    writeItems (ns.map .int) rest = (ns.flatMap fun n => ',' :: (toString n).toList) ++ rest := by
  induction ns with
  | nil => rfl
  | cons n ns ih =>
    rw [List.map_cons, writeItems_cons, write_int, ih, List.flatMap_cons, List.append_assoc]
    rfl

theorem toList_intercalate_cons (t : String) (ts : List String) :
    (",".intercalate (t :: ts)).toList = t.toList ++ ts.flatMap fun t => ',' :: t.toList := by
  induction ts generalizing t with
  | nil => simp
  | cons t' ts ih =>
    rw [String.intercalate_cons_cons, String.toList_append, ih]
    simp

/-- Integers are written between brackets, with a comma between any two of them. -/
theorem text_ints (ns : List Int) :
    (Json.arr (ns.map .int)).text = "[" ++ ",".intercalate (ns.map toString) ++ "]" := by
  cases ns with
  | nil => rfl
  | cons n ns =>
    refine String.toList_inj.1 ?_
    rw [text, String.toList_ofList, String.toList_append, String.toList_append, List.map_cons,
      List.map_cons, toList_intercalate_cons, List.flatMap_map]
    show '[' :: write (.int n) (writeItems (ns.map .int) [']']) = _
    rw [writeItems_ints, write_int]
    simp

end Json

/-! ## Digit keys -/

/-- The key of a digit. -/
def Key.ofDigit (d : Fin 10) : Key := .char (Char.ofNat (48 + d))

theorem Key.digit?_ofDigit : ∀ d : Fin 10, (Key.ofDigit d).digit? = some (d : Nat) := by decide

namespace LabelTool

/-- The text of a frame that is labeled with a digit. -/
def digitText (d : Fin 10) : String := toString ((d : Nat) : Int)

theorem valueOf_digitText : ∀ d : Fin 10, valueOf (digitText d) = (d : Nat) := by decide +kernel

/-- Label a frame with a digit. -/
def label (t : LabelTool) (k : Nat) (d : Fin 10) : LabelTool :=
  { t with labels := t.labels.set k (digitText d) }

/-- The first frames are labeled with some digits. -/
def Begins (t : LabelTool) (digits : List (Fin 10)) : Prop :=
  t.labels.take digits.length = digits.map digitText

theorem Begins.label {t : LabelTool} {digits : List (Fin 10)} (h : t.Begins digits)
    (hk : digits.length < t.labels.length) (d : Fin 10) :
    (t.label digits.length d).Begins (digits ++ [d]) := by
  show (t.labels.set digits.length (digitText d)).take (digits ++ [d]).length = _
  rw [List.length_append, List.length_singleton,
    List.take_succ_eq_append_getElem (by simpa using hk), List.take_set_of_le (Nat.le_refl _),
    List.getElem_set_self, h, List.map_append]
  rfl

/-- Once all frames are labeled the digits are what is handed in. -/
theorem Begins.annotations {t : LabelTool} {digits : List (Fin 10)} (h : t.Begins digits)
    (hlen : t.labels.length = digits.length) :
    t.annotations = .arr ((digits.map fun d : Fin 10 => ((d : Nat) : Int)).map .int) := by
  have hall : t.labels = digits.map digitText := by
    rw [← h, ← hlen, List.take_length]
  unfold LabelTool.annotations
  rw [hall, List.map_map, List.map_map]
  exact congrArg Json.arr (List.map_congr_left fun d _ => congrArg Json.int (valueOf_digitText d))

/-- A digit key labels the frame that is shown, and the session is to go on. -/
theorem handleKey_digit {t : LabelTool} {v : View} {k : Nat} (hv : v.frame = some k)
    (hk : k < t.labels.length) (d : Fin 10) :
    t.handleKey v (.press (.ofDigit d)) = ⟨t.label k d, [.finishFrame], .flag true⟩ := by
  have hinput : t.setInput v (digitText d) = (true, t.label k d) := by
    unfold setInput
    rw [hv]
    exact if_pos hk
  have hpress : t.pressButton v (d : Nat) = ⟨t.label k d, [.finishFrame], .nothing⟩ := by
    unfold pressButton
    rw [show t.setInput v (toString ((d : Nat) : Int)) = _ from hinput]
  unfold handleKey
  rw [show (KeyEvent.press (.ofDigit d)).key.digit? = some (d : Nat) from Key.digit?_ofDigit d]
  show { t.pressButton v (d : Nat) with reply := .flag true } = _
  rw [hpress]

end LabelTool

namespace Session

variable {s : Session} {set : AnnotationSet} {t : LabelTool}

/-- Without a frame the integer tool takes no notice of the keyboard. -/
theorem notify_key_of_no_frame (ht : s.tool = some (.int t)) (hf : s.frame = none) (e : KeyEvent) :
    s.notify (.key e) = s := by
  cases hset : s.annotationSet with
  | none =>
    unfold notify withTool
    rw [hset]
  | some set =>
    obtain ⟨reply, hkey⟩ := t.handleKey_of_no_frame (v := s.view set) hf e
    have hhandle : (Tool.int t).handle (s.view set) (.key e) = ⟨.int t, [], reply⟩ :=
      congrArg (Outcome.map Tool.int) hkey
    rw [notify_eq hset ht, hhandle]
    show { s with tool := some (.int t) } = s
    rw [← ht]

theorem notify_digit (hset : s.annotationSet = some set) (ht : s.tool = some (.int t)) {k : Nat}
    (hf : s.frame = some k) (hk : k < t.labels.length) (d : Fin 10) :
    s.notify (.key (.press (.ofDigit d))) =
      { s with tool := some (.int (t.label k d)) }.finishFrame := by
  have hhandle : (Tool.int t).handle (s.view set) (.key (.press (.ofDigit d))) =
      ⟨.int (t.label k d), [.finishFrame], .flag true⟩ :=
    congrArg (Outcome.map Tool.int) (t.handleKey_digit (v := s.view set) hf hk d)
  rw [notify_eq hset ht, hhandle]
  rfl

end Session

/-! ## Going on -/

namespace Session

variable {s : Session} {set : AnnotationSet} {source : Dataset} {a : Assignment} {k : Nat}

/-- The request for the image of a frame. -/
def imageRequest (source : Dataset) (a : Assignment) (k : Nat) : Request :=
  .frameImage source.id a.key (if source.dataType = .video then some k else none)

/-- Show another frame, whose image is asked for. -/
def turnTo (s : Session) (source : Dataset) (a : Assignment) (k : Nat) : Session :=
  { s with frameSeq := s.frameSeq + 1, frame := some k, dims := none }.issue
    (.frameImage (s.frameSeq + 1)) (imageRequest source a k)

theorem loadFrameImage_of_source (hset : s.annotationSet = some set)
    (hsource : set.source? = some source) (ha : s.assignment = some a) (hf : s.frame = some k) :
    s.loadFrameImage = s.issue (.frameImage s.frameSeq) (imageRequest source a k) := by
  unfold loadFrameImage
  rw [hset, ha, hf]
  dsimp only
  rw [hsource]
  rfl

/-- Before the last frame to go on is to leave the frame, and to show the next one in the round. -/
theorem tick_finishFrame {t : LabelTool} (hset : s.annotationSet = some set)
    (hsource : set.source? = some source) (ha : s.assignment = some a)
    (ht : s.tool = some (.int t)) (hf : s.frame = some k) (hidle : s.deferred = [])
    (hk : k + 1 < s.frameCount) (hc : s.frameCount < 2 ^ 63) :
    s.finishFrame.keys = s.keys ∧ (∀ e, s.finishFrame.notify (.key e) = s.finishFrame) ∧
      s.finishFrame.tick = s.turnTo source a (k + 1) := by
  have hitem : s.assignment.isSome = true := by rw [ha]; rfl
  have hnext : s.finishFrame = s.getFrame (signed k + 1) := by
    unfold finishFrame
    rw [hf]
    exact if_neg (by omega)
  have hindex : ((signed k + 1) % signed s.frameCount).toNat = k + 1 := by
    rw [signed_eq (by omega), signed_eq hc, Int.emod_eq_of_lt (by omega) (by omega)]
    omega
  rw [hnext]
  refine ⟨?_, ?_, ?_⟩
  · rw [getFrame_eq hitem (by omega)]
    rfl
  · rw [getFrame_eq hitem (by omega)]
    refine notify_key_of_no_frame (t := t) ?_ rfl
    show s.tool.map Tool.resetFrame = _
    rw [ht]
    rfl
  · have hleft : ({ s.resetFrame with deferred := [], frame := some (k + 1) } : Session) =
        { s with frameSeq := s.frameSeq + 1, frame := some (k + 1), dims := none } := by
      unfold resetFrame
      rw [← hidle, ht]
      rfl
    rw [tick_getFrame_of_superseded (by rw [hidle]; exact nofun) hitem (by omega), hindex, hleft]
    exact loadFrameImage_of_source hset hsource ha rfl

/-- On the last frame to go on is to hand in the labels. -/
theorem finishFrame_last {t : LabelTool} (hset : s.annotationSet = some set)
    (ha : s.assignment = some a) (ht : s.tool = some (.int t)) (hf : s.frame = some k)
    (hk : s.frameCount ≤ k + 1) :
    s.finishFrame =
      s.issue .submit (.submit set.annotatePath (.json a.key t.annotations none)) := by
  unfold finishFrame
  rw [hf]
  dsimp only
  rw [if_pos hk]
  unfold annotateItem
  rw [hset, ha, ht]
  rfl

/-- The requests for the images of the frames after the first one. -/
def imageLoads (s : Session) (source : Dataset) (a : Assignment) (n : Nat) :
    List (Ticket × Request) :=
  (List.range n).map fun k =>
    (⟨s.nextTicket + k, .frameImage (s.frameSeq + k + 1), s.generation⟩,
      imageRequest source a (k + 1))

theorem imageLoads_succ (s : Session) (source : Dataset) (a : Assignment) (n : Nat) :
    s.imageLoads source a (n + 1) = s.imageLoads source a n ++
      [(⟨s.nextTicket + n, .frameImage (s.frameSeq + n + 1), s.generation⟩,
        imageRequest source a (n + 1))] := by
  unfold imageLoads
  rw [List.range_succ, List.map_append]
  rfl

end Session

/-! ## Keys on their way -/

/-- A key event is dispatched, or the session takes those that reached it. -/
def SessionOp.isKeyboard : SessionOp → Bool
  | .dispatch _ => true
  | .pumpKeys => true
  | _ => false

namespace Desk

variable {d : Desk} {s : Session}

/-- Once the session takes the key events that are queued for it, it comes to a certain state. -/
structure LeadsTo (d : Desk) (s : Session) : Prop where
  keys : d.session.keys = s.keys
  queue : ∃ queue, d.hub.queues.lookup s.keys = some queue ∧ d.session.handleKeys queue = s

/-- A key event that changes nothing there does not lead anywhere else. -/
theorem LeadsTo.dispatch (h : d.LeadsTo s) {e : KeyEvent} (he : s.notify (.key e) = s) :
    (d.perform (.dispatch e)).LeadsTo s := by
  obtain ⟨queue, hq, hs⟩ := h.queue
  refine ⟨h.keys, queue ++ [e], KeyHub.lookup_dispatch hq e, ?_⟩
  show d.session.handleKeys (queue ++ [e]) = s
  unfold Session.handleKeys at hs ⊢
  rw [List.foldl_append, hs]
  exact he

theorem LeadsTo.session_pumpKeys (h : d.LeadsTo s) : (d.perform .pumpKeys).session = s := by
  obtain ⟨queue, hq, hs⟩ := h.queue
  show d.session.handleKeys (d.hub.queued d.session.keys) = s
  rw [h.keys, KeyHub.queued_of_lookup hq, hs]

theorem LeadsTo.lookup_pumpKeys (h : d.LeadsTo s) :
    (d.perform .pumpKeys).hub.queues.lookup s.keys = some [] := by
  obtain ⟨queue, hq, -⟩ := h.queue
  show (d.hub.drain d.session.keys).2.queues.lookup s.keys = some []
  rw [h.keys]
  exact KeyHub.lookup_drain hq

theorem LeadsTo.pumpKeys (h : d.LeadsTo s) : (d.perform .pumpKeys).LeadsTo s where
  keys := by rw [h.session_pumpKeys]
  queue := ⟨[], h.lookup_pumpKeys, h.session_pumpKeys⟩

/-- A session that takes no notice of the keyboard is where any key events lead to. -/
theorem LeadsTo.performAll (hs : ∀ e, s.notify (.key e) = s) {ops : List SessionOp}
    (hops : ∀ op ∈ ops, op.isKeyboard = true) :
    ∀ {d : Desk}, d.LeadsTo s → (d.performAll ops).LeadsTo s := by
  induction ops with
  | nil => exact fun h => h
  | cons op rest ih =>
    intro d h
    refine ih (fun op' hm => hops op' (List.mem_cons_of_mem _ hm)) ?_
    cases op with
    | dispatch e => exact h.dispatch (hs e)
    | pumpKeys => exact h.pumpKeys
    | _ => cases hops _ (List.mem_cons_self ..)

end Desk

/-! ## Rounds -/

/-- What the user does for one frame: a digit key is pressed, and other keys may be, before the
session takes the last of them and the next round comes. -/
structure DigitRound where
  digit : Fin 10
  /-- Further key events, which the session may take one by one or together. -/
  more : List SessionOp
  keyboard : ∀ op ∈ more, op.isKeyboard = true

namespace DigitRound

/-- No other key is pressed. -/
def alone (digit : Fin 10) : DigitRound := ⟨digit, [], nofun⟩

/-- The operations of a round. -/
def ops (r : DigitRound) : List SessionOp :=
  .dispatch (.press (.ofDigit r.digit)) :: r.more ++ [.pumpKeys, .tick]

end DigitRound

namespace Desk

variable {d : Desk} {s : Session} {set : AnnotationSet} {a : Assignment} {t : LabelTool} {k : Nat}

/-- A frame of an item of the integer tool is shown, and neither work nor keys wait. The tool holds
a text for each frame. -/
structure OnFrame (d : Desk) (set : AnnotationSet) (a : Assignment) (t : LabelTool) (k : Nat) :
    Prop where
  annotationSet : d.session.annotationSet = some set
  assignment : d.session.assignment = some a
  tool : d.session.tool = some (.int t)
  sized : t.labels.length = d.session.frameCount
  frame : d.session.frame = some k
  idle : d.session.deferred = []
  /-- The session listens to the keyboard. -/
  listens : d.hub.queues.lookup d.session.keys = some []

/-- The round in which an item comes on show leads to its first frame. -/
theorem onFrame_tick (hset : d.session.annotationSet = some set)
    (ht : d.session.tool = some (.int t))
    (hbegin : d.session.deferred = [.begin a d.session.generation])
    (hlisten : d.hub.queues.lookup d.session.keys = some []) :
    (d.perform .tick).OnFrame set a
      { t with labels := List.replicate d.session.frameCount "" } 0 := by
  have htick : d.session.tick = { d.session with deferred := [] }.beginItem a := by
    unfold Session.tick
    rw [hbegin]
    exact if_neg fun h => h.1 rfl
  obtain ⟨_, ⟨made, hshown, -, -⟩, -, -⟩ := { d.session with deferred := [] }.beginItem_posts a
  rw [hshown] at htick
  have hsession : (d.perform .tick).session = _ := htick
  exact {
    annotationSet := by rw [hsession]; exact hset
    assignment := by rw [hsession]; rfl
    tool := by
      rw [hsession]
      show ({ d.session with deferred := [] }.enter a).tool = _
      unfold Session.enter
      dsimp only
      rw [hset, ht]
      rfl
    sized := by rw [hsession]; exact List.length_replicate
    frame := by rw [hsession]; rfl
    idle := by rw [hsession]; rfl
    listens := by rw [hsession]; exact hlisten }

/-- After the press for the frame that is shown the session is on its way to go on, and it gets
there in the round. Other keys do not change that if it takes no notice of them. -/
theorem OnFrame.performAll_ops (h : d.OnFrame set a t k) (hk : k < d.session.frameCount)
    (r : DigitRound)
    (hs : { d.session with tool := some (.int (t.label k r.digit)) }.finishFrame = s)
    (hkeys : s.keys = d.session.keys) (hmore : r.more = [] ∨ ∀ e, s.notify (.key e) = s) :
    (d.performAll r.ops).session = s.tick ∧
      (d.performAll r.ops).hub.queues.lookup s.keys = some [] := by
  have hpressed : (d.perform (.dispatch (.press (.ofDigit r.digit)))).LeadsTo s := by
    refine ⟨hkeys.symm, _, KeyHub.lookup_dispatch (hkeys ▸ h.listens) _, ?_⟩
    rw [← hs]
    exact Session.notify_digit h.annotationSet h.tool h.frame (h.sized ▸ hk) r.digit
  have hleads :
      ((d.perform (.dispatch (.press (.ofDigit r.digit)))).performAll r.more).LeadsTo s := by
    rcases hmore with hnone | hdeaf
    · rw [hnone]
      exact hpressed
    · exact .performAll hdeaf r.keyboard hpressed
  have hops : d.performAll r.ops =
      (((d.perform (.dispatch (.press (.ofDigit r.digit)))).performAll r.more).perform
        .pumpKeys).perform .tick := by
    show (r.more ++ [SessionOp.pumpKeys, .tick]).foldl Desk.perform _ = _
    rw [List.foldl_append]
    rfl
  rw [hops]
  refine ⟨?_, hleads.lookup_pumpKeys⟩
  show Session.tick _ = _
  rw [hleads.session_pumpKeys]

end Desk

/-! ## The run -/

namespace Desk

variable {d : Desk} {first : Session} {set : AnnotationSet} {source : Dataset} {a : Assignment}
  {t : LabelTool} {digits : List (Fin 10)}

/-- Since an item came on show its first frames were labeled with some digits. All that was asked
for meanwhile are the images of the frames after the first one, up to the one that is shown. -/
structure Labeled (first : Session) (set : AnnotationSet) (source : Dataset) (a : Assignment)
    (digits : List (Fin 10)) (d : Desk) : Prop where
  shown : ∃ t : LabelTool, d.OnFrame set a t digits.length ∧ t.Begins digits
  frameCount : d.session.frameCount = first.frameCount
  outbox : d.session.outbox = first.outbox ++ first.imageLoads source a digits.length
  nextTicket : d.session.nextTicket = first.nextTicket + digits.length
  frameSeq : d.session.frameSeq = first.frameSeq + digits.length
  generation : d.session.generation = first.generation

theorem OnFrame.labeled (h : d.OnFrame set a t 0) (source : Dataset) :
    Labeled d.session set source a [] d where
  shown := ⟨t, h, rfl⟩
  frameCount := rfl
  outbox := (List.append_nil _).symm
  nextTicket := rfl
  frameSeq := rfl
  generation := rfl

/-- A round before the last frame labels the frame that is shown, and shows the next one. -/
theorem Labeled.round (h : Labeled first set source a digits d)
    (hsource : set.source? = some source) (hc : first.frameCount < 2 ^ 63) (r : DigitRound)
    (hk : digits.length + 1 < first.frameCount) :
    Labeled first set source a (digits ++ [r.digit]) (d.performAll r.ops) := by
  obtain ⟨t, hframe, hbegins⟩ := h.shown
  have hlt : digits.length + 1 < d.session.frameCount := h.frameCount ▸ hk
  obtain ⟨hkeys, hdeaf, htick⟩ := Session.tick_finishFrame
    (s := { d.session with tool := some (.int (t.label digits.length r.digit)) })
    hframe.annotationSet hsource hframe.assignment rfl hframe.frame hframe.idle hlt
    (h.frameCount ▸ hc)
  obtain ⟨hsession, hlisten⟩ :=
    hframe.performAll_ops (by omega) r rfl hkeys (Or.inr hdeaf)
  rw [htick] at hsession
  rw [hkeys] at hlisten
  have hlen : (digits ++ [r.digit]).length = digits.length + 1 := List.length_append
  have hnext : (d.performAll r.ops).OnFrame set a (t.label digits.length r.digit)
      (digits ++ [r.digit]).length := {
    annotationSet := by rw [hsession]; exact hframe.annotationSet
    assignment := by rw [hsession]; exact hframe.assignment
    tool := by rw [hsession]; rfl
    sized := by rw [hsession]; exact List.length_set.trans hframe.sized
    frame := by rw [hsession, hlen]; rfl
    idle := by rw [hsession]; exact hframe.idle
    listens := by rw [hsession]; exact hlisten }
  refine ⟨⟨_, hnext, hbegins.label (by rw [hframe.sized]; omega) r.digit⟩, ?_, ?_, ?_, ?_, ?_⟩
  · rw [hsession]
    exact h.frameCount
  · rw [hsession, hlen, Session.imageLoads_succ, ← List.append_assoc, ← h.outbox, ← h.nextTicket,
      ← h.frameSeq, ← h.generation]
    rfl
  · rw [hsession, hlen, ← Nat.add_assoc, ← h.nextTicket]
    rfl
  · rw [hsession, hlen, ← Nat.add_assoc, ← h.frameSeq]
    rfl
  · rw [hsession]
    exact h.generation

/-- So do all rounds before the last frame. -/
theorem Labeled.performAll (hsource : set.source? = some source) (hc : first.frameCount < 2 ^ 63)
    (rounds : List DigitRound) : ∀ {digits : List (Fin 10)} {d : Desk},
      Labeled first set source a digits d → digits.length + rounds.length < first.frameCount →
        Labeled first set source a (digits ++ rounds.map DigitRound.digit)
          (d.performAll (rounds.flatMap DigitRound.ops)) := by
  induction rounds with
  | nil =>
    intro digits d h _
    rwa [List.map_nil, List.append_nil]
  | cons r rest ih =>
    intro digits d h hn
    rw [List.length_cons] at hn
    have hround := h.round hsource hc r (by omega)
    have hrest := ih hround (by rw [List.length_append, List.length_singleton]; omega)
    have hops : d.performAll ((r :: rest).flatMap DigitRound.ops) =
        (d.performAll r.ops).performAll (rest.flatMap DigitRound.ops) := by
      unfold Desk.performAll
      rw [List.flatMap_cons, List.foldl_append]
    rw [hops, List.map_cons, List.append_cons]
    exact hrest

/-- The press for the last frame hands in all the digits. -/
theorem Labeled.last (h : Labeled first set source a digits d) (digit : Fin 10)
    (hk : digits.length + 1 = first.frameCount) :
    let all := digits ++ [digit]
    (d.performAll (DigitRound.alone digit).ops).session.outbox = d.session.outbox ++
      [(⟨first.nextTicket + digits.length, .submit, first.generation⟩,
        .submit set.annotatePath
          ⟨a.key, "[" ++ ",".intercalate (all.map toString) ++ "]", "json", none⟩)] := by
  intro all
  obtain ⟨t, hframe, hbegins⟩ := h.shown
  have hlt : digits.length < d.session.frameCount := by rw [h.frameCount]; omega
  have hdata : (t.label digits.length digit).annotations.text =
      "[" ++ ",".intercalate (all.map toString) ++ "]" := by
    have hlen : (t.label digits.length digit).labels.length = all.length := by
      rw [List.length_append, List.length_singleton, hk, ← h.frameCount, ← hframe.sized]
      exact List.length_set
    rw [(hbegins.label (hframe.sized ▸ hlt) digit).annotations hlen, Json.text_ints, List.map_map]
    rfl
  have hfinish := Session.finishFrame_last
    (s := { d.session with tool := some (.int (t.label digits.length digit)) })
    hframe.annotationSet hframe.assignment rfl hframe.frame
    (show d.session.frameCount ≤ digits.length + 1 by rw [h.frameCount]; omega)
  obtain ⟨hsession, -⟩ :=
    hframe.performAll_ops hlt (.alone digit) hfinish rfl (Or.inl rfl)
  rw [hsession, ← hdata, ← h.nextTicket, ← h.generation]
  -- no work waits, so that the round does nothing
  show Session.outbox (List.foldl _ _ d.session.deferred) = _
  rw [hframe.idle]
  rfl

/-- An item of the integer tool has come on show. The tool holds a text for each of its frames, so
that there are no more than a signed number can count. For every frame a digit key is pressed, and
before the last one any other keys too. Then up to the press for the last frame nothing is asked for
but the images of the frames after the first one, in their order, and that press hands in the
digits, once and as a list. -/
theorem digit_run (h : d.OnFrame set a t 0) (hsource : set.source? = some source)
    (hc : d.session.frameCount < 2 ^ 63) (rounds : List DigitRound) (last : Fin 10)
    (hn : rounds.length + 1 = d.session.frameCount) :
    let before := d.performAll (rounds.flatMap DigitRound.ops)
    let digits := rounds.map DigitRound.digit ++ [last]
    before.session.outbox = d.session.outbox ++ d.session.imageLoads source a rounds.length ∧
      (before.performAll (DigitRound.alone last).ops).session.outbox = before.session.outbox ++
        [(⟨d.session.nextTicket + rounds.length, .submit, d.session.generation⟩,
          .submit set.annotatePath
            ⟨a.key, "[" ++ ",".intercalate (digits.map toString) ++ "]", "json", none⟩)] := by
  intro before digits
  have hlabeled : Labeled d.session set source a (rounds.map DigitRound.digit) before :=
    (h.labeled source).performAll hsource hc rounds (by rw [List.length_nil]; omega)
  have hlen : (rounds.map DigitRound.digit).length = rounds.length := List.length_map _
  have hlast := hlabeled.last last (hlen ▸ hn)
  rw [hlen] at hlast
  exact ⟨hlen ▸ hlabeled.outbox, hlast⟩

/-- A video of two frames. The first one is labeled with a three; a nine is pressed too, before the
second one is shown, and counts for nothing. -/
theorem digit_run_twice :
    let known := (Desk.open fun keys =>
        (Session.ofSet (History.exampleSet .int .int) .default keys).start).performAll
      [.complete ⟨0, .assignment, 1⟩ (.ok (.json (.arr [.str "clip"]))),
        .complete ⟨1, .itemMeta ⟨"clip", false, none⟩, 1⟩ (.ok (.json (.obj
          [("Framerate", .arr [.int 2, .int 1]), ("Duration", .float 1.0)])))]
    let d := known.perform .tick
    let rounds : List DigitRound := [⟨3, [.pumpKeys, .dispatch (.press (.ofDigit 9))], by decide⟩]
    let before := d.performAll (rounds.flatMap DigitRound.ops)
    d.session.frame = some 0 ∧
      (before.performAll (DigitRound.alone 7).ops).session.outbox = d.session.outbox ++
        [(⟨3, .frameImage 2, 1⟩, .frameImage 3 "clip" (some 1)),
          (⟨4, .submit, 1⟩,
            .submit "/annotate-datasets/1/annotate" ⟨"clip", "[3,7]", "json", none⟩)] := by
  intro known d rounds before
  obtain ⟨tool, htool, hkind⟩ := Option.map_eq_some_iff.1
    (show known.session.tool.map Tool.kind = some .int by decide +kernel)
  cases tool with
  | int t =>
    have hset : known.session.annotationSet = some (History.exampleSet .int .int) := by
      decide +kernel
    have hframe : d.OnFrame (History.exampleSet .int .int) ⟨"clip", false, none⟩ _ 0 :=
      onFrame_tick (d := known) hset htool (by decide +kernel) (by decide +kernel)
    have hcount : d.session.frameCount = 2 := by decide +kernel
    have hsource : (History.exampleSet .int .int).source? = some ⟨3, "", .video⟩ := rfl
    obtain ⟨himages, hsubmit⟩ :=
      digit_run hframe hsource (by rw [hcount]; decide) rounds 7 hcount.symm
    have hnext : d.session.nextTicket = 3 := by decide +kernel
    have hseq : d.session.frameSeq = 1 := by decide +kernel
    have hgen : d.session.generation = 1 := by decide +kernel
    refine ⟨hframe.frame, ?_⟩
    rw [hsubmit, himages, List.append_assoc, hnext, hgen]
    unfold Session.imageLoads
    rw [hnext, hseq, hgen]
    decide +kernel
  | _ => cases hkind

end Desk

end Labeling
