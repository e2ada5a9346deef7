import Labeling.Proofs.Session.Agenda
import Labeling.Proofs.Tool.Shapes

/-!
# Shapes stay as they should be

Whatever is drawn, dragged, deleted or loaded, and whichever frames and items are shown in
between: all shapes of all frames can be drawn, boxes have two corners, and all shapes are read
back from what is handed in (`History.shapes_sound`). What has to be promised for it is about
the stored shapes that arrive (`Session.StoresShapes`): that their boxes have two corners, and
that a drag in progress still has a shape to hold on to when they replace what was drawn so
far. That the second does not hold by itself is shown by `ShapeTool.load_during_drag`.

A drag never outlives its frame: it is given up when the frame is left, and under the policy
that discards late answers nothing is shown before something else was left.
-/

namespace Labeling

namespace Session

variable {s s' : Session} {stored : Session → Json → Prop} {honest : Prop}

/-- The shape tool can go on with the stored shapes that it is told of. -/
def StoresShapes (s : Session) : SessionOp → Prop
  | .complete t result => t.purpose = .existingData → s.isStale t = false →
      ∀ data, result.json = .ok data → ∀ set tool, s.annotationSet = some set →
        s.tool = some (.shape tool) → tool.Accepts (s.view set) data
  | _ => True

/-- The shapes of the shape tool are as they should be for the frame that is shown, and there
is such a frame only while an item is shown. -/
structure Shaped (s : Session) : Prop where
  item : s.assignment = none → s.frame = none
  shapes : ∀ t, s.tool = some t → t.ShapesHold s.frame

/-- Whatever is left, no shapes are dragged any more. -/
theorem Shaped.reset (h : s.Shaped) (frame : Option Nat) :
    ∀ t, s.tool.map Tool.resetFrame = some t → t.ShapesHold frame := by
  intro t ht
  obtain ⟨t', ht', rfl⟩ := Option.map_eq_some_iff.1 ht
  exact (h.shapes t' ht').resetFrame frame

theorem Shaped.work (h : s.Shaped) (hw : Work stored honest s s')
    (hst : ∀ data, stored s data → ∀ set tool, s.annotationSet = some set →
      s.tool = some (.shape tool) → tool.Accepts (s.view set) data) : s'.Shaped := by
  cases hw with
  | fetch hf => cases hf <;> exact ⟨h.item, h.shapes⟩
  | @react set t t' hset ht hr =>
    refine ⟨h.item, fun t'' ht'' => ?_⟩
    cases ht''
    refine hr.shapesHold (v := s.view set) (h.shapes t ht) id fun data hdata x hx => ?_
    exact hst data hdata set x hset (hx ▸ ht)
  | leaveFrame index _ _ => exact ⟨fun _ => rfl, h.reset none⟩
  | _ => exact ⟨h.item, h.shapes⟩

theorem Shaped.leaveItem (h : s.Shaped) : s.resetItem.Shaped := ⟨fun _ => rfl, h.reset none⟩

theorem Shaped.turn (h : s.Shaped) (ht : Turn s s') : s'.Shaped := by
  cases ht with
  | leaveItem message => exact ⟨fun _ => rfl, h.leaveItem.shapes⟩
  | _ => exact ⟨h.item, h.shapes⟩

/-- An item comes on show while nothing is dragged. -/
theorem Shaped.enter (h : s.Shaped) (ha : s.assignment = none) (a : Assignment) :
    (s.enter a).Shaped := by
  refine ⟨fun hnone => absurd hnone (Option.some_ne_none a), fun t ht => ?_⟩
  have hbefore : ∀ t, s.tool = some t → t.ShapesHold none := h.item ha ▸ h.shapes
  obtain ⟨t₀, ht₀, ⟨-, rfl⟩ | ⟨set, -, rfl⟩⟩ := enter_tool_cases ht
  · exact (hbefore t ht₀).of_none _
  · exact Tool.shapesHold_itemShown (hbefore t₀ ht₀) _ _

/-- So does a frame. -/
theorem Shaped.showFrame (h : s.Shaped) (hf : s.frame = none) (ha : s.assignment.isSome = true)
    (frame : Option Nat) : Shaped { s with frame := frame } := by
  refine ⟨fun hnone => ?_, fun t ht => ?_⟩
  · rw [show s.assignment = none from hnone] at ha
    cases ha
  · exact Tool.ShapesHold.of_none (hf ▸ h.shapes t ht) frame

/-- The shapes of a tool that was just made. -/
theorem shaped_installed (hf : s.frame = none) (set : AnnotationSet) :
    Shaped { s with tool := Tool.ofSet? set s.config.bindings, annotationSet := some set } := by
  refine ⟨fun _ => hf, fun t ht => ?_⟩
  rintro x rfl
  have hnew : x = ShapeTool.new set s.config.bindings := by
    unfold Tool.ofSet? at ht
    split at ht <;> cases ht
    rfl
  subst hnew
  exact ShapeTool.holds_of_no_drag (fun shapes hs => by cases hs) rfl

/-- Something of the shape tool is known from what is computed of the session. -/
theorem shape_eq {β : Type} {f : ShapeTool → β} {t : ShapeTool} {b : β}
    (ht : s.tool = some (.shape t)) (hb : (s.tool.bind Tool.shape?).map f = some b) : f t = b := by
  rw [ht] at hb
  exact Option.some.inj hb

end Session

namespace History

variable {H : History}

theorem shaped_invariant :
    Invariant False (fun s op => s.StoresShapes op) (fun _ due s => s.Planned due)
      (fun _ _ s => s.config.stale = .discard → s.Shaped) where
  promised h := h.elim
  blank taken s h _ :=
    ⟨fun _ => h.frame, fun t ht => absurd (h.tool ▸ ht) (Option.some_ne_none t).symm⟩
  installed taken s set h _ := Session.shaped_installed h.frame set
  work taken s s' _ h hw hd := by
    refine (h (hw.sameItem.config ▸ hd)).work hw ?_
    rintro data ⟨t, result, hp, hs, hpromise, hdata⟩
    exact hpromise hp hs data hdata
  fetch taken due s s' _ h hf hd := by
    have hshaped := h (hf.work.sameItem.config ▸ hd)
    cases hf <;> exact ⟨hshaped.item, hshaped.shapes⟩
  turn taken s s' _ h ht hd := (h (ht.config_eq ▸ hd)).turn ht
  listed taken s keys _ h hd := ⟨(h hd).item, (h hd).shapes⟩
  asked taken s a source _ h _ hd := ⟨(h hd).item, (h hd).shapes⟩
  followed taken s t a result known _ h _ _ _ hd := ⟨fun _ => rfl, (h hd).leaveItem.shapes⟩
  taken taken s _ h hd := ⟨(h hd).item, (h hd).shapes⟩
  round taken s _ h hd := ⟨(h hd).item, (h hd).shapes⟩
  dropped taken task due s _ h := h
  entered taken a g due s hplan h hg hd := by
    obtain rfl := Session.eq_of_current hg hd
    exact (h hd).enter (((hplan hd).begins a _ (List.mem_cons_self ..)).2 rfl) a
  shown taken index due s hplan h _ hd := by
    obtain ⟨ha, hf⟩ := ((hplan hd).shows index _ (List.mem_cons_self ..)).2 rfl
    exact (h hd).showFrame hf ha _

/-- Under the policy that discards late answers, and as long as the tool can go on with the
stored shapes that arrive: every shape of every frame can be drawn, every box has two corners,
and none of them is dropped when they are handed in and read back. -/
theorem shapes_sound (h : ReachableUnder (fun s op => s.StoresShapes op) H)
    (hd : H.session.config.stale = .discard) {t : ShapeTool}
    (ht : H.session.tool = some (.shape t)) :
    (∀ shapes ∈ t.frames, ∀ s ∈ shapes,
      s.isDrawable = true ∧ (s.kind = .box → s.points.length = 2)) ∧
    t.encoding.frames? (t.encoding.framesToJson t.frames) =
      some (t.frames.map fun shapes => shapes.map t.encoding.recovered) := by
  obtain ⟨-, hshaped⟩ := (shaped_invariant.and agenda_invariant).reachable h
  have hsound := ((hshaped hd).shapes _ ht t rfl).sound
  refine ⟨fun shapes hshapes s hs => ?_, ?_⟩
  · have hs' := hsound shapes hshapes s hs
    exact ⟨hs'.isDrawable, hs'.takes.2⟩
  · exact Encoding.frames?_framesToJson _ fun shapes hshapes s hs =>
      ⟨(hsound shapes hshapes s hs).isDrawable, (hsound shapes hshapes s hs).inRange⟩

/-- A stored box arrives before anything is drawn, and is moved as a whole. -/
theorem shapes_sound_moved :
    let stored := Encoding.shape.framesToJson [[.box ⟨1, 2⟩ ⟨30, 40⟩]]
    let H := (ofSet (exampleSet .shape .shape)).performAll
      [.complete ⟨0, .assignment, 1⟩ (.ok (.json (.arr [.str "a", .bool true]))),
        .complete ⟨1, .itemMeta ⟨"a", true, none⟩, 1⟩ (.ok (.json .null)), .tick,
        .complete ⟨2, .frameImage 1, 1⟩ (.ok (.image ⟨100, 100⟩)),
        .complete ⟨3, .existingData, 1⟩ (.ok (.json stored)), .dragStart ⟨10, 10⟩,
        .dragMove ⟨12, 12⟩]
    H.session.config.stale = .discard ∧
      ∃ t, H.session.tool = some (.shape t) ∧ t.canvas.drag.isSome = true ∧
        (∀ shapes ∈ t.frames, ∀ s ∈ shapes,
          s.isDrawable = true ∧ (s.kind = .box → s.points.length = 2)) ∧
        (t.encoding.frames? (t.encoding.framesToJson t.frames)).map (·.map List.length) =
          some [1] := by
  intro stored H
  have hreach : ReachableUnder (fun s op => s.StoresShapes op) H := by
    refine (reachable_ofSet _).performAll ⟨allowsb_sound (by decide +kernel), ?_,
      allowsb_sound (by decide +kernel), ?_, trivial, trivial, allowsb_sound (by decide +kernel),
      ?_, allowsb_sound (by decide +kernel), ?_, trivial, trivial, trivial, trivial, trivial⟩
    · exact fun hp => by cases hp
    · exact fun hp => by cases hp
    · exact fun hp => by cases hp
    · intro _ _ data hdata set tool _ htool
      cases hdata
      have henc : tool.encoding = .shape := Session.shape_eq htool (by decide +kernel)
      have hdrag : tool.canvas.drag.isSome = false :=
        Session.shape_eq (f := fun x => x.canvas.drag.isSome) htool (by decide +kernel)
      have hone : ∀ shapes ∈ [[Shape.box ⟨1, 2⟩ ⟨30, 40⟩]], ∀ s ∈ shapes,
          s.isDrawable = true ∧ s.InRange := by
        intro shapes hshapes s hs
        cases List.mem_singleton.1 hshapes
        cases List.mem_singleton.1 hs
        exact ⟨rfl, (Shape.sound_box ⟨rfl, rfl⟩ ⟨rfl, rfl⟩).inRange⟩
      refine ⟨fun frames hframes shapes hshapes s hs _ => ?_, fun d hd => ?_⟩
      · rw [henc, Encoding.frames?_framesToJson _ hone] at hframes
        cases hframes
        cases List.mem_singleton.1 hshapes
        cases List.mem_singleton.1 hs
        rfl
      · rw [hd] at hdrag
        cases hdrag
  have hd : H.session.config.stale = .discard := by decide +kernel
  obtain ⟨tool, htool, hkind⟩ := Option.map_eq_some_iff.1
    (show H.session.tool.map Tool.kind = some .shape by decide +kernel)
  cases tool with
  | shape t =>
    obtain ⟨hsound, hread⟩ := shapes_sound hreach hd htool
    have hdrag : t.canvas.drag.isSome = true :=
      Session.shape_eq (f := fun x => x.canvas.drag.isSome) htool (by decide +kernel)
    have hlen : t.frames.map List.length = [1] :=
      Session.shape_eq (f := fun x => x.frames.map List.length) htool (by decide +kernel)
    refine ⟨hd, t, htool, hdrag, hsound, ?_⟩
    rw [hread, Option.map_some, List.map_map, ← hlen]
    exact congrArg some (List.map_congr_left fun shapes _ => List.length_map _)
  | _ => cases hkind

end History

end Labeling
