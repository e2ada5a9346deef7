import Labeling.Proofs.Tool.Entries
import Labeling.Proofs.Canvas.Edits

/-!
# What an input does to the shapes of all frames

The shape tool lends its canvas the shapes of the frame that is shown, and puts those that come back
in their place. So an input leaves the shapes of all other frames as they are, and touches one shape
at most of the frame that is shown (`ShapeTool.edits_of_input`), whatever happened to the tool
before.

What the canvas does depends on its mode, and the mode is kept twice, by the canvas and among the
parameters of the tool. Both are the same in every tool that can be reached.
-/

namespace Labeling

/-- What the user does with the shape tool: an event of the pointer or the keyboard, or an
operation of the controls. -/
inductive ShapeInput where
  | event (e : ToolEvent)
  | control (op : ToolOp)

/-- The operation of the canvas that an input comes to; none for what is no input of the user to the
shape tool. -/
def ShapeInput.canvasOp? : ShapeInput → Option (CanvasOp Float)
  | .event (.click p) => some (.click p)
  | .event (.pointerMove p) => some (.pointerMove p)
  | .event (.dragStart p) => some (.dragStart p)
  | .event (.dragMove p) => some (.dragMove p)
  | .event .dragEnd => some .dragEnd
  | .event (.key e) => some (.key e)
  | .event (.resize width height) => some (.resize width height)
  | .control .cancelDraw => some .cancelDraw
  | .control .deleteSelection => some .deleteSelection
  | .control (.setMode mode) => some (.setMode mode)
  | .control (.setCategories text) => some (.setCategories (commaItems text))
  | .control (.setCategory category) => some (.setCategory category)
  | .control (.setSelectedCategory category) => some (.setSelectedCategory category)
  | .control (.setSelectedTrack text) => some (.setSelectedTrack text)
  | _ => none

namespace ShapeTool

variable {t : ShapeTool} {v : View}

/-- What comes of an input. -/
def input? (t : ShapeTool) (v : View) : ShapeInput → Option (Outcome ShapeTool)
  | .event e => some (t.handle v e)
  | .control op => Tool.performShape t v op

/-- What can become of the tool of an annotation set. -/
inductive Reachable : ShapeTool → Prop where
  | new (set : AnnotationSet) (bindings : KeyBindings) : Reachable (ShapeTool.new set bindings)
  | input {t : ShapeTool} (h : Reachable t) (v : View) {input : ShapeInput}
      {o : Outcome ShapeTool} (ho : t.input? v input = some o) : Reachable o.tool
  | resetFrame {t : ShapeTool} (h : Reachable t) : Reachable t.resetFrame

/-- What some inputs, each with what is shown at the time, make of the tool. -/
def inputAll (t : ShapeTool) (inputs : List (View × ShapeInput)) : ShapeTool :=
  inputs.foldl (fun t i => ((t.input? i.1 i.2).map Outcome.tool).getD t) t

theorem inputAll_cons (t : ShapeTool) (v : View) (input : ShapeInput)
    (rest : List (View × ShapeInput)) :
    t.inputAll ((v, input) :: rest) =
      (((t.input? v input).map Outcome.tool).getD t).inputAll rest := rfl

theorem Reachable.inputAll {inputs : List (View × ShapeInput)} :
    ∀ {t : ShapeTool}, t.Reachable → (t.inputAll inputs).Reachable := by
  induction inputs with
  | nil => exact fun h => h
  | cons i rest ih =>
    intro t h
    rw [inputAll_cons]
    refine ih ?_
    cases ho : t.input? i.1 i.2 with
    | none => exact h
    | some o => exact h.input i.1 ho

/-! ## The frame that is shown -/

theorem shown_of_frame {k : Nat} {shapes : List Shape} (hk : v.frame = some k)
    (hs : t.frames[k]? = some shapes) : t.shown v = shapes := by
  unfold shown
  rw [hk, Option.bind_some, hs, Option.getD_some]

/-- Without a frame that is shown nothing happens. -/
theorem editOutcome_cases (t : ShapeTool) (v : View) (op : CanvasOp Float) (otherwise : Reply) :
    t.editOutcome v op otherwise = ⟨t, [], otherwise⟩ ∨
      ∃ k, v.frame = some k ∧ k < t.frames.length ∧
        t.editOutcome v op otherwise =
          ⟨{ t with canvas := (t.canvas.perform (t.shown v) op).2.1
                    frames := t.frames.set k (t.canvas.perform (t.shown v) op).2.2 }, [],
            (t.canvas.perform (t.shown v) op).1⟩ := by
  unfold editOutcome
  split
  · rename_i reply t' he
    obtain ⟨k, shapes, hk, hs, rfl, rfl⟩ := exists_of_editFrame he
    rw [shown_of_frame hk hs]
    exact Or.inr ⟨k, hk, (List.getElem?_eq_some_iff.1 hs).1, rfl⟩
  · exact Or.inl rfl

/-! ## The mode -/

/-- The canvas is in the mode of the parameters. -/
def InMode (t : ShapeTool) : Prop := t.canvas.DrawsIn t.params.mode

theorem InMode.editShown (h : t.InMode) (v : View) (op : CanvasOp Float)
    (hop : op.modeAfter t.params.mode = t.params.mode) : (t.editShown v op).2.InMode := by
  have hperform := h.perform (t.shown v) op
  rw [hop] at hperform
  exact hperform

theorem InMode.editOutcome (h : t.InMode) (v : View) (op : CanvasOp Float) (otherwise : Reply)
    (hop : op.modeAfter t.params.mode = t.params.mode) :
    (t.editOutcome v op otherwise).tool.InMode := by
  rcases t.editOutcome_cases v op otherwise with hcase | ⟨k, -, -, hcase⟩
  · rw [hcase]
    exact h
  · rw [hcase]
    exact h.editShown v op hop

theorem InMode.render (h : t.InMode) (v : View) : (t.render v).InMode :=
  h.editShown v .render rfl

theorem InMode.load (h : t.InMode) (v : View) (data : Json) : (t.load v data).InMode := by
  unfold ShapeTool.load
  split
  · exact h
  · split
    · exact h
    · rename_i frames _
      have hloaded : InMode { t with frames := resized v.frameCount [] frames } := h
      dsimp only
      split
      · exact hloaded.render v
      · exact hloaded

theorem InMode.handle (h : t.InMode) (v : View) (e : ToolEvent) : (t.handle v e).tool.InMode := by
  cases e with
  | stored data => exact h.load v data
  | imageLoaded =>
    show (t.imageLoaded v).InMode
    unfold ShapeTool.imageLoaded
    cases v.dims with
    | none => exact h.render v
    | some dims =>
      have hattached : InMode { t with canvas := t.canvas.attach dims } :=
        h.perform [] (.attach dims)
      exact hattached.render v
  | key e => exact h.editOutcome v _ _ rfl
  | click p => exact h.editOutcome v _ _ rfl
  | dragMove p => exact h.editOutcome v _ _ rfl
  | pointerMove p => exact h.editShown v (.pointerMove p) rfl
  | dragStart p => exact h.editShown v (.dragStart p) rfl
  | dragEnd => exact h.editShown v .dragEnd rfl
  | resize width height =>
    have hresized : InMode { t with canvas := t.canvas.resize width height } :=
      h.perform [] (.resize width height)
    exact hresized.render v
  | render => exact h.render v
  | _ => exact h

theorem InMode.performShape (h : t.InMode) (v : View) {op : ToolOp} {o : Outcome ShapeTool}
    (ho : Tool.performShape t v op = some o) : o.tool.InMode := by
  cases op <;> simp only [Tool.performShape, Option.some.injEq, reduceCtorEq] at ho <;> subst ho
  case setMode mode => exact h.perform (t.shown v) (.setMode mode)
  case setCategories text =>
    have hgiven : InMode { t with
        params := { t.params with categories := commaItems text }
        canvas := t.canvas.setCategories (commaItems text) } :=
      h.perform [] (.setCategories (commaItems text))
    exact hgiven.editShown v (.setMode t.params.mode) rfl
  case setCategory category => exact h.editShown v (.setCategory category) rfl
  case setSelectedCategory category => exact h.editOutcome v _ _ rfl
  case setSelectedTrack text => exact h.editOutcome v _ _ rfl
  case deleteSelection => exact h.editOutcome v _ _ rfl
  case cancelDraw => exact h.editShown v .cancelDraw rfl

/-- The mode is the same in the canvas and among the parameters, whatever happened. -/
theorem Reachable.inMode (h : t.Reachable) : t.InMode := by
  induction h with
  | new set bindings => exact Canvas.drawsIn_new _ _ _
  | @input t h v input o ho ih =>
    cases input with
    | event e =>
      cases ho
      exact ih.handle v e
    | control op => exact ih.performShape v ho
  | @resetFrame t h ih => exact ih.perform [] .resetFrame

/-! ## The shapes -/

/-- What became of the tool by an operation on the frame that is shown: at most one shape of that
frame was touched, and none of another frame. -/
structure EditedBy (t : ShapeTool) (v : View) (op : CanvasOp Float) (o : Outcome ShapeTool) :
    Prop where
  length_eq : o.tool.frames.length = t.frames.length
  others : ∀ k, v.frame ≠ some k → o.tool.frames[k]? = t.frames[k]?
  shown : t.canvas.Edits (t.shown v) op o.reply (o.tool.shown v)

theorem EditedBy.of_same {op : CanvasOp Float} {o : Outcome ShapeTool}
    (hf : o.tool.frames = t.frames) (hr : ∀ s, o.reply ≠ .shape (some s)) : t.EditedBy v op o where
  length_eq := by rw [hf]
  others := fun k _ => by rw [hf]
  shown := by
    have hshown : o.tool.shown v = t.shown v := by
      unfold ShapeTool.shown
      rw [hf]
    rw [hshown]
    exact .kept hr

theorem InMode.edited (h : t.InMode) (v : View) (op : CanvasOp Float) {otherwise : Reply}
    (hr : ∀ s, otherwise ≠ .shape (some s)) : t.EditedBy v op (t.editOutcome v op otherwise) := by
  rcases t.editOutcome_cases v op otherwise with hcase | ⟨k, hk, hlt, hcase⟩
  · rw [hcase]
    exact .of_same rfl hr
  · rw [hcase]
    refine ⟨List.length_set, fun k' hk' => ?_, ?_⟩
    · have hne : k ≠ k' := fun he => hk' (he ▸ hk)
      exact List.getElem?_set_ne hne
    · have hback := shown_of_frame (v := v) (t := { t with
          canvas := (t.canvas.perform (t.shown v) op).2.1
          frames := t.frames.set k (t.canvas.perform (t.shown v) op).2.2 }) hk
        (List.getElem?_set_self hlt)
      rw [hback]
      exact Canvas.DrawsIn.edits h (t.shown v) op

/-- Every input of the user edits the frame that is shown. -/
theorem Reachable.exists_edited (h : t.Reachable) (v : View) {input : ShapeInput}
    {op : CanvasOp Float} (hop : input.canvasOp? = some op) :
    ∃ o, t.input? v input = some o ∧ t.EditedBy v op o := by
  have hedited : ∀ (op : CanvasOp Float) {otherwise : Reply},
      (∀ s, otherwise ≠ .shape (some s)) → t.EditedBy v op (t.editOutcome v op otherwise) :=
    fun op _ hr => h.inMode.edited v op hr
  cases input with
  | event e =>
    refine ⟨t.handle v e, rfl, ?_⟩
    cases e <;> simp only [ShapeInput.canvasOp?, Option.some.injEq, reduceCtorEq] at hop <;>
      subst hop
    case key e => exact hedited _ (by simp)
    case click p => exact hedited _ (by simp)
    case dragMove p => exact hedited _ (by simp)
    all_goals exact .of_same rfl fun s hs => by cases hs
  | control c =>
    cases c <;> simp only [ShapeInput.canvasOp?, Option.some.injEq, reduceCtorEq] at hop <;>
      subst hop <;> refine ⟨_, rfl, ?_⟩
    case setSelectedCategory category => exact hedited _ (by simp)
    case setSelectedTrack text => exact hedited _ (by simp)
    case deleteSelection => exact hedited _ (by simp)
    all_goals exact .of_same rfl fun s hs => by cases hs

/-- An input of the user leaves the shapes of all frames but the one that is shown as they are, and
touches at most one shape of that. Which kind of shape it can add is that of the mode of the
parameters, in which the canvas is. -/
theorem edits_of_input (h : t.Reachable) (v : View) {input : ShapeInput} {op : CanvasOp Float}
    (hop : input.canvasOp? = some op) :
    t.canvas.mode = t.params.mode ∧ ∃ o, t.input? v input = some o ∧ t.EditedBy v op o :=
  ⟨h.inMode.mode_eq, h.exists_edited v hop⟩

/-- The first of two frames has two stored points. A click on the second selects it, and so it is
the one that is removed. -/
theorem edits_of_input_removal :
    let set : AnnotationSet := ⟨1, ⟨2, "", .shape⟩, [], .shape, none⟩
    let v : View :=
      { View.ofSet set with frame := some 0, frameCount := 2, dims := some ⟨100, 100⟩ }
    let stored := (Encoding.ofDataType .shape).framesToJson
      [[.point ⟨10, 10⟩, .point ⟨50, 50⟩], [.point ⟨1, 1⟩]]
    let t := (ShapeTool.new set .default).inputAll [(v, .event .itemShown),
      (v, .event (.stored stored)), (v, .event .imageLoaded), (v, .event (.click ⟨50, 50⟩))]
    t.frames = [[.point ⟨10, 10⟩, .point ⟨50, 50⟩], [.point ⟨1, 1⟩]] ∧
      ∃ o, t.input? v (.control .deleteSelection) = some o ∧ t.EditedBy v .deleteSelection o ∧
        o.tool.frames = [[.point ⟨10, 10⟩], [.point ⟨1, 1⟩]] := by
  intro set v stored t
  have hreach : t.Reachable := (Reachable.new set .default).inputAll
  have hop : (ShapeInput.control .deleteSelection).canvasOp? = some .deleteSelection := rfl
  obtain ⟨-, o, ho, hedited⟩ := edits_of_input hreach v hop
  refine ⟨by decide +kernel, o, ho, hedited, ?_⟩
  cases ho
  decide +kernel

end ShapeTool

end Labeling
