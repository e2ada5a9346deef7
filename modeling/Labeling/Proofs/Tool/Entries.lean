import Labeling.Proofs.Frames
import Labeling.Proofs.Tool.Reaction

/-!
# One entry for every frame

The shape tool and the integer tool keep a list with one entry for every frame of the
item. The list is made when an item is shown, and whatever happens afterwards it keeps
its length: an edit changes entries in place, and stored annotations are cut off or
filled up, whatever their number.

* `Tool.itemShown_sized`: the list is made with the right length;
* `Tool.Reacts.sized`: no reaction changes that;
* `Tool.annotations_eq`: it is this list that is handed in.
-/

namespace Labeling

/-! ## The shape tool -/

namespace ShapeTool

@[simp] theorem editShown_frames (t : ShapeTool) (v : View) (op : CanvasOp Float) :
    (t.editShown v op).2.frames = t.frames := rfl

@[simp] theorem render_frames (t : ShapeTool) (v : View) : (t.render v).frames = t.frames := rfl

/-- An operation on the frame that is shown is one of the canvas on its shapes, and what comes back
takes their place. -/
theorem exists_of_editFrame {t t' : ShapeTool} {v : View} {op : CanvasOp Float} {reply : Reply}
    (h : t.editFrame v op = some (reply, t')) :
    ∃ k shapes, v.frame = some k ∧ t.frames[k]? = some shapes ∧
      reply = (t.canvas.perform shapes op).1 ∧
      t' = { t with canvas := (t.canvas.perform shapes op).2.1
                    frames := t.frames.set k (t.canvas.perform shapes op).2.2 } := by
  unfold editFrame at h
  simp only [Option.bind_eq_bind, Option.bind_eq_some_iff] at h
  obtain ⟨k, hk, shapes, hshapes, h⟩ := h
  cases h
  exact ⟨k, shapes, hk, hshapes, rfl, rfl⟩

theorem editFrame_length {t t' : ShapeTool} {v : View} {op : CanvasOp Float} {reply : Reply}
    (h : t.editFrame v op = some (reply, t')) : t'.frames.length = t.frames.length := by
  obtain ⟨k, shapes, -, -, -, rfl⟩ := exists_of_editFrame h
  exact List.length_set

@[simp] theorem editOutcome_length (t : ShapeTool) (v : View) (op : CanvasOp Float)
    (otherwise : Reply) : (t.editOutcome v op otherwise).tool.frames.length = t.frames.length := by
  unfold editOutcome
  split
  · rename_i h
    exact editFrame_length h
  · rfl

/-- Stored shapes are taken for as many frames as the item has. -/
theorem load_length {t : ShapeTool} {v : View} (h : t.frames.length = v.frameCount)
    (data : Json) : (t.load v data).frames.length = v.frameCount := by
  unfold load
  split
  · exact h
  · split
    · exact h
    · split <;> simp

theorem handle_length {t : ShapeTool} {v : View} (h : t.frames.length = v.frameCount)
    (e : ToolEvent) : (t.handle v e).tool.frames.length = v.frameCount := by
  cases e with
  | itemShown => exact List.length_replicate
  | stored data => exact load_length h data
  | imageLoaded =>
    show (t.imageLoaded v).frames.length = v.frameCount
    unfold imageLoaded
    split <;> exact h
  | key e => exact (t.editOutcome_length v _ _).trans h
  | click p => exact (t.editOutcome_length v _ _).trans h
  | dragMove p => exact (t.editOutcome_length v _ _).trans h
  | _ => exact h

theorem perform_length {t : ShapeTool} {v : View} {op : ToolOp} {o : Outcome ShapeTool}
    (h : t.frames.length = v.frameCount) (ho : Tool.performShape t v op = some o) :
    o.tool.frames.length = v.frameCount := by
  cases op <;> simp only [Tool.performShape, Option.some.injEq, reduceCtorEq] at ho <;> subst ho
  case setSelectedCategory => exact (t.editOutcome_length v _ _).trans h
  case setSelectedTrack => exact (t.editOutcome_length v _ _).trans h
  case deleteSelection => exact (t.editOutcome_length v _ _).trans h
  all_goals exact h

end ShapeTool

/-! ## The integer tool -/

namespace LabelTool

@[simp] theorem setInput_length (t : LabelTool) (v : View) (text : String) :
    (t.setInput v text).2.labels.length = t.labels.length := by
  unfold setInput
  split
  · rfl
  · split
    · exact List.length_set
    · rfl

@[simp] theorem pressButton_length (t : LabelTool) (v : View) (value : Int) :
    (t.pressButton v value).tool.labels.length = t.labels.length := by
  have h := t.setInput_length v (toString value)
  unfold pressButton
  split <;> rename_i hs <;> rwa [hs] at h

/-- Stored labels are taken for as many frames as the item has. -/
theorem load_length {t : LabelTool} {v : View} (h : t.labels.length = v.frameCount)
    (data : Json) : (t.load v data).labels.length = v.frameCount := by
  unfold load
  split
  · exact length_resized _ _ _
  · exact h

theorem handleKey_length (t : LabelTool) (v : View) (e : KeyEvent) :
    (t.handleKey v e).tool.labels.length = t.labels.length := by
  unfold handleKey
  split
  · rfl
  · split
    · rfl
    · exact t.pressButton_length v _

theorem handle_length {t : LabelTool} {v : View} (h : t.labels.length = v.frameCount)
    (e : ToolEvent) : (t.handle v e).tool.labels.length = v.frameCount := by
  cases e with
  | itemShown => exact List.length_replicate
  | stored data => exact load_length h data
  | key e => exact (t.handleKey_length v e).trans h
  | _ => exact h

theorem perform_length {t : LabelTool} {v : View} {op : ToolOp} {o : Outcome LabelTool}
    (h : t.labels.length = v.frameCount) (ho : Tool.performLabel t v op = some o) :
    o.tool.labels.length = v.frameCount := by
  cases op <;> simp only [Tool.performLabel, Option.some.injEq, reduceCtorEq] at ho <;> subst ho
  case pressButton => exact (t.pressButton_length v _).trans h
  case setInput => exact (t.setInput_length v _).trans h
  all_goals exact h

end LabelTool

/-! ## Tools in general -/

namespace Tool

/-- The number of entries of a tool that keeps one for every frame. -/
def entries? : Tool → Option Nat
  | .shape t => some t.frames.length
  | .int t => some t.labels.length
  | _ => none

/-- If the tool keeps entries, there is one for each of some frames. -/
def Sized (t : Tool) (frames : Nat) : Prop := ∀ n, t.entries? = some n → n = frames

@[simp] theorem entries?_resetFrame (t : Tool) : t.resetFrame.entries? = t.entries? := by
  cases t <;> rfl

/-- The entries are made when an item is shown. -/
theorem itemShown_sized (t : Tool) (v : View) :
    (t.handle v .itemShown).tool.Sized v.frameCount := by
  intro n hn
  cases t with
  | shape t => exact (Option.some.inj hn).symm.trans List.length_replicate
  | int t => exact (Option.some.inj hn).symm.trans List.length_replicate
  | track t => cases hn
  | geoJson t => cases hn

theorem handle_sized {t : Tool} {v : View} (h : t.Sized v.frameCount) (e : ToolEvent) :
    (t.handle v e).tool.Sized v.frameCount := by
  intro n hn
  cases t with
  | shape t => exact (Option.some.inj hn).symm.trans (ShapeTool.handle_length (h _ rfl) e)
  | int t => exact (Option.some.inj hn).symm.trans (LabelTool.handle_length (h _ rfl) e)
  | track t => cases hn
  | geoJson t => cases hn

/-- No reaction adds or removes entries. -/
theorem Reacts.sized {told : ToolEvent → Prop} {t t' : Tool} {v : View}
    (hr : t.Reacts told v t') (h : t.Sized v.frameCount) : t'.Sized v.frameCount := by
  rcases hr with ⟨e, -, rfl⟩ | ⟨op, o, ho, rfl⟩
  · exact handle_sized h e
  · rcases perform_eq_some ho with ⟨c, -, rfl⟩ | rfl | ⟨s, p, rfl, hp, rfl⟩ | ⟨s, p, rfl, hp, rfl⟩ |
      ⟨s, p, rfl, -, rfl⟩ | ⟨s, p, rfl, -, rfl⟩
    · exact h
    · exact handle_sized h .render
    · intro n hn
      exact (Option.some.inj hn).symm.trans (ShapeTool.perform_length (h _ rfl) hp)
    · intro n hn
      exact (Option.some.inj hn).symm.trans (LabelTool.perform_length (h _ rfl) hp)
    · intro n hn
      cases hn
    · intro n hn
      cases hn

/-- The entries are handed in as a list. -/
theorem annotations_eq {t : Tool} {n : Nat} (h : t.entries? = some n) (v : View) :
    ∃ items, (t.annotations v).1 = .arr items ∧ items.length = n := by
  cases t with
  | shape t => exact ⟨_, rfl, (List.length_map _).trans (Option.some.inj h)⟩
  | int t => exact ⟨_, rfl, (List.length_map _).trans (Option.some.inj h)⟩
  | track t => cases h
  | geoJson t => cases h

/-- The tools that keep entries are those for shapes and for integers. -/
theorem entries?_isSome {t : Tool} (h : t.kind = .shape ∨ t.kind = .int) :
    ∃ n, t.entries? = some n := by
  cases t with
  | shape t => exact ⟨_, rfl⟩
  | int t => exact ⟨_, rfl⟩
  | track t => rcases h with h | h <;> cases h
  | geoJson t => rcases h with h | h <;> cases h

end Tool

end Labeling
