import Labeling.Tool.Basic

/-!
# How tools react

Everything that happens to a tool is an event it is told of, an operation of its own
controls, or that it forgets a frame. `Tool.Reacts` joins the first two, so that what
no reaction can break is proved once and holds for every operation of a session. What
the tool is told may be limited, as something may hold only as long as certain events
do not occur.

The module also says what a tool may ask the session for. Drawing tools ask for
nothing, the integer tool only goes on to the next frame, and a request for computed
detections is always about the item in view (`Tool.handle_asks`, `Tool.perform_asks`).
-/

namespace Labeling

/-! ## Requests about an item -/

/-- The key of the item that a request is about. -/
def Request.itemKey? : Request → Option String
  | .item _ key _ _ => some key
  | .frameImage _ key _ => some key
  | _ => none

/-- What is asked for was computed for one item, and belongs to no other. -/
def ToolPurpose.isComputed : ToolPurpose → Bool
  | .freshDetections => true
  | .freshMetadata => true
  | _ => false

/-- A request for what was computed is about the item in view. -/
def View.Covers (v : View) (p : ToolPurpose) (r : Request) : Prop :=
  p.isComputed = true → ∃ a, v.assignment = some a ∧ r.itemKey? = some a.key

/-- All requests among some commands are about the item in view. -/
def View.CoversAll (v : View) (commands : List Command) : Prop :=
  ∀ p r, Command.fetch p r ∈ commands → v.Covers p r

namespace View

theorem coversAll_nil (v : View) : v.CoversAll [] := by
  intro p r h
  cases h

/-- A command that fetches nothing covers nothing. -/
theorem coversAll_singleton {v : View} {c : Command} (h : ∀ p r, c ≠ .fetch p r) :
    v.CoversAll [c] := by
  intro p r hc
  exact absurd (List.mem_singleton.1 hc).symm (h p r)

theorem covers_of_not_computed {v : View} {p : ToolPurpose} {r : Request}
    (h : p.isComputed = false) : v.Covers p r := by
  intro hp
  rw [h] at hp
  cases hp

end View

/-! ## The drawing tools and the integer tool -/

namespace ShapeTool

@[simp] theorem editOutcome_commands (t : ShapeTool) (v : View) (op : CanvasOp Float)
    (otherwise : Reply) : (t.editOutcome v op otherwise).commands = [] := by
  unfold editOutcome
  split <;> rfl

@[simp] theorem showOutcome_commands (t : ShapeTool) (v : View) (op : CanvasOp Float) :
    (t.showOutcome v op).commands = [] := rfl

/-- The shape tool asks for nothing. -/
@[simp] theorem handle_commands (t : ShapeTool) (v : View) (e : ToolEvent) :
    (t.handle v e).commands = [] := by
  cases e <;> simp [handle, Outcome.quiet]

end ShapeTool

namespace LabelTool

theorem pressButton_commands (t : LabelTool) (v : View) (value : Int) :
    (t.pressButton v value).commands = [] ∨ (t.pressButton v value).commands = [.finishFrame] := by
  unfold pressButton
  split
  · exact Or.inr rfl
  · exact Or.inl rfl

theorem handleKey_commands (t : LabelTool) (v : View) (e : KeyEvent) :
    (t.handleKey v e).commands = [] ∨ (t.handleKey v e).commands = [.finishFrame] := by
  unfold handleKey
  split
  · exact Or.inl rfl
  · split
    · exact Or.inl rfl
    · exact t.pressButton_commands v _

/-- The integer tool only goes on to the next frame. -/
theorem handle_commands (t : LabelTool) (v : View) (e : ToolEvent) :
    (t.handle v e).commands = [] ∨ (t.handle v e).commands = [.finishFrame] := by
  cases e with
  | key e => exact t.handleKey_commands v e
  | _ => exact Or.inl rfl

end LabelTool

/-! ## Tools in general -/

namespace Tool

/-- A tool becomes another one by an event of which it may be told, or by an operation of
its controls. -/
def Reacts (told : ToolEvent → Prop) (t : Tool) (v : View) (t' : Tool) : Prop :=
  (∃ e, told e ∧ t' = (t.handle v e).tool) ∨ (∃ op o, t.perform v op = some o ∧ t' = o.tool)

variable {told told' : ToolEvent → Prop}

theorem reacts_handle (t : Tool) (v : View) {e : ToolEvent} (he : told e) :
    t.Reacts told v (t.handle v e).tool :=
  Or.inl ⟨e, he, rfl⟩

/-- A wish of the host leaves the tool as it is. -/
theorem reacts_refl (t : Tool) (v : View) : t.Reacts told v t :=
  Or.inr ⟨.command .finishFrame, ⟨t, [.finishFrame], .nothing⟩, rfl, rfl⟩

theorem reacts_perform {t : Tool} {v : View} {op : ToolOp} {o : Outcome Tool}
    (h : t.perform v op = some o) : t.Reacts told v o.tool :=
  Or.inr ⟨op, o, h, rfl⟩

theorem Reacts.mono {t t' : Tool} {v : View} (h : t.Reacts told v t')
    (htold : ∀ e, told e → told' e) : t.Reacts told' v t' :=
  h.imp_left fun ⟨e, he, ht⟩ => ⟨e, htold e he, ht⟩

@[simp] theorem kind_handle (t : Tool) (v : View) (e : ToolEvent) :
    (t.handle v e).tool.kind = t.kind := by
  cases t <;> rfl

/-- An operation is one of the tool's own, drawing, or a wish of the host. -/
theorem perform_eq_some {t : Tool} {v : View} {op : ToolOp} {o : Outcome Tool}
    (h : t.perform v op = some o) :
    (∃ c, op = .command c ∧ o = ⟨t, [c], .nothing⟩) ∨
    o = t.handle v .render ∨
    (∃ s p, t = .shape s ∧ performShape s v op = some p ∧ o = p.map .shape) ∨
    (∃ s p, t = .int s ∧ performLabel s v op = some p ∧ o = p.map .int) ∨
    (∃ s p, t = .track s ∧ performTrack s v op = some p ∧ o = p.map .track) ∨
    (∃ s p, t = .geoJson s ∧ performFeature s v op = some p ∧ o = p.map .geoJson) := by
  unfold perform at h
  split at h
  · rename_i c
    cases h
    exact Or.inl ⟨c, rfl, rfl⟩
  · cases h
    exact Or.inr (Or.inl rfl)
  · cases t <;> simp only [Option.map_eq_some_iff] at h <;> obtain ⟨p, hp, rfl⟩ := h
    · exact Or.inr (Or.inr (Or.inl ⟨_, p, rfl, hp, rfl⟩))
    · exact Or.inr (Or.inr (Or.inr (Or.inl ⟨_, p, rfl, hp, rfl⟩)))
    · exact Or.inr (Or.inr (Or.inr (Or.inr (Or.inl ⟨_, p, rfl, hp, rfl⟩))))
    · exact Or.inr (Or.inr (Or.inr (Or.inr (Or.inr ⟨_, p, rfl, hp, rfl⟩))))

/-- The kind of a tool never changes. -/
theorem Reacts.kind_eq {t t' : Tool} {v : View} (h : t.Reacts told v t') : t'.kind = t.kind := by
  rcases h with ⟨e, -, rfl⟩ | ⟨op, o, ho, rfl⟩
  · exact t.kind_handle v e
  · rcases perform_eq_some ho with ⟨c, -, rfl⟩ | rfl | ⟨s, p, rfl, -, rfl⟩ | ⟨s, p, rfl, -, rfl⟩ |
      ⟨s, p, rfl, -, rfl⟩ | ⟨s, p, rfl, -, rfl⟩
    · rfl
    · exact t.kind_handle v .render
    all_goals rfl

@[simp] theorem kind_resetFrame (t : Tool) : t.resetFrame.kind = t.kind := by
  cases t <;> rfl

/-! ### What tools ask for -/

/-- The track tool asks for detections only when an item is shown, and then for those of
that item. -/
theorem trackTool_asks (t : TrackTool) (v : View) (e : ToolEvent) :
    v.CoversAll (t.handle v e).commands := by
  cases e with
  | itemShown =>
    show v.CoversAll (t.itemShown v).commands
    unfold TrackTool.itemShown
    split
    · rename_i a detections ha hd
      intro p r h
      simp only [TrackTool.fetchItem, List.mem_cons, List.not_mem_nil, or_false,
        Command.fetch.injEq] at h
      rcases h with ⟨-, rfl⟩ | ⟨-, rfl⟩ <;> exact fun _ => ⟨a, ha, rfl⟩
    · exact v.coversAll_nil
  | fetched p r =>
    show v.CoversAll (t.fetched v p r).commands
    unfold TrackTool.fetched
    split
    · exact v.coversAll_nil
    · exact View.coversAll_singleton (by intro p r; simp)
  | key e =>
    show v.CoversAll (t.handleKey v e).commands
    unfold TrackTool.handleKey
    split
    · exact v.coversAll_nil
    · intro p r h
      simp [TrackTool.endTrack] at h
  | click p =>
    show v.CoversAll (t.click v p).commands
    unfold TrackTool.click
    split
    · exact v.coversAll_nil
    · split
      · split
        · exact v.coversAll_nil
        · exact View.coversAll_singleton (by intro p r; simp)
      · exact v.coversAll_nil
  | _ => exact v.coversAll_nil

/-- The feature tool asks for its own collection only. -/
theorem featureTool_asks (t : FeatureTool) (v : View) (e : ToolEvent) :
    v.CoversAll (t.handle v e).commands := by
  cases e with
  | ready =>
    intro p r h
    simp only [FeatureTool.handle, FeatureTool.ready, List.mem_singleton, Command.fetch.injEq] at h
    exact View.covers_of_not_computed (by rw [h.1]; rfl)
  | fetched p r =>
    show v.CoversAll (t.fetched p r).commands
    unfold FeatureTool.fetched
    split
    · exact v.coversAll_nil
    · split
      · exact v.coversAll_nil
      · exact View.coversAll_singleton (by intro p r; simp)
    · exact v.coversAll_nil
    · exact View.coversAll_singleton (by intro p r; simp)
  | _ => exact v.coversAll_nil

/-- What a tool asks for after an event is about the item in view. -/
theorem handle_asks (t : Tool) (v : View) (e : ToolEvent) :
    v.CoversAll (t.handle v e).commands := by
  cases t with
  | shape t =>
    show v.CoversAll (t.handle v e).commands
    rw [t.handle_commands v e]
    exact v.coversAll_nil
  | int t =>
    show v.CoversAll (t.handle v e).commands
    rcases t.handle_commands v e with h | h <;> rw [h]
    · exact v.coversAll_nil
    · exact View.coversAll_singleton (by intro p r; simp)
  | track t => exact trackTool_asks t v e
  | geoJson t => exact featureTool_asks t v e

/-- When an item is shown the track tool asks for what was computed for it, and no other
tool asks for anything. -/
theorem itemShown_fetches (t : Tool) (v : View) :
    (t.handle v .itemShown).commands = [] ∨
    t.kind = .detectionToTrack ∧ ∃ r r', (t.handle v .itemShown).commands =
      [.fetch .freshDetections r, .fetch .freshMetadata r'] := by
  cases t with
  | track t =>
    show (t.itemShown v).commands = [] ∨ _ ∧ ∃ r r', (t.itemShown v).commands = _
    unfold TrackTool.itemShown
    split
    · exact Or.inr ⟨rfl, _, _, rfl⟩
    · exact Or.inl rfl
  | _ => exact Or.inl rfl

theorem performShape_commands {t : ShapeTool} {v : View} {op : ToolOp} {o : Outcome ShapeTool}
    (h : performShape t v op = some o) : o.commands = [] := by
  cases op <;> simp only [performShape, Option.some.injEq, reduceCtorEq] at h <;> subst h <;>
    simp [Outcome.quiet]

theorem performLabel_asks {t : LabelTool} {v : View} {op : ToolOp} {o : Outcome LabelTool}
    (h : performLabel t v op = some o) : v.CoversAll o.commands := by
  cases op <;> simp only [performLabel, Option.some.injEq, reduceCtorEq] at h <;> subst h
  · exact v.coversAll_nil
  · rcases t.pressButton_commands v _ with h | h <;> rw [h]
    · exact v.coversAll_nil
    · exact View.coversAll_singleton (by intro p r; simp)
  · exact v.coversAll_nil
  · unfold LabelTool.submitInput
    intro p r hc
    split at hc <;> simp at hc

theorem performTrack_asks {t : TrackTool} {v : View} {op : ToolOp} {o : Outcome TrackTool}
    (h : performTrack t v op = some o) : v.CoversAll o.commands := by
  cases op <;> simp only [performTrack, Option.some.injEq, reduceCtorEq] at h
  subst h
  intro p r hc
  simp [TrackTool.endTrack] at hc

theorem performFeature_asks {t : FeatureTool} {v : View} {op : ToolOp} {o : Outcome FeatureTool}
    (h : performFeature t v op = some o) : v.CoversAll o.commands := by
  cases op <;> simp only [performFeature, Option.some.injEq, reduceCtorEq] at h <;> subst h <;>
    try exact v.coversAll_nil
  intro p r hc
  simp only [FeatureTool.save, List.mem_singleton, Command.fetch.injEq] at hc
  exact View.covers_of_not_computed (by rw [hc.1]; rfl)

/-- What a tool asks for in an operation of its controls is about the item in view. Only
a wish of the host may be about anything. -/
theorem perform_asks {t : Tool} {v : View} {op : ToolOp} {o : Outcome Tool}
    (h : t.perform v op = some o) (hop : ∀ p r, op = .command (.fetch p r) → v.Covers p r) :
    v.CoversAll o.commands := by
  rcases perform_eq_some h with ⟨c, rfl, rfl⟩ | rfl | ⟨s, p, rfl, hp, rfl⟩ | ⟨s, p, rfl, hp, rfl⟩ |
    ⟨s, p, rfl, hp, rfl⟩ | ⟨s, p, rfl, hp, rfl⟩
  · intro p r hc
    exact hop p r (by rw [List.mem_singleton.1 hc])
  · exact t.handle_asks v .render
  · show v.CoversAll p.commands
    rw [performShape_commands hp]
    exact v.coversAll_nil
  · exact performLabel_asks hp
  · exact performTrack_asks hp
  · exact performFeature_asks hp

/-! ### What tools do not ask for -/

/-- No tool asks which item is next after an event. -/
theorem handle_not_nextItem (t : Tool) (v : View) (e : ToolEvent) (p : ToolPurpose) (path : String)
    (key : Option String) : Command.fetch p (.nextItem path key) ∉ (t.handle v e).commands := by
  cases t with
  | shape t => simp [handle, Outcome.map]
  | int t => rcases t.handle_commands v e with h | h <;> simp [handle, Outcome.map, h]
  | track t =>
    show Command.fetch p (.nextItem path key) ∉ (t.handle v e).commands
    cases e with
    | itemShown =>
      simp only [TrackTool.handle, TrackTool.itemShown]
      split <;> simp [TrackTool.fetchItem, Outcome.quiet]
    | fetched _ result =>
      simp only [TrackTool.handle, TrackTool.fetched]
      split <;> simp [Outcome.quiet]
    | key e =>
      simp only [TrackTool.handle, TrackTool.handleKey]
      split <;> simp [TrackTool.endTrack]
    | click pos =>
      simp only [TrackTool.handle, TrackTool.click]
      split
      · simp [Outcome.quiet]
      · split
        · split <;> simp [Outcome.quiet]
        · simp [Outcome.quiet]
    | _ => simp [TrackTool.handle, Outcome.quiet]
  | geoJson t =>
    show Command.fetch p (.nextItem path key) ∉ (t.handle v e).commands
    cases e with
    | ready => simp [FeatureTool.handle, FeatureTool.ready]
    | fetched _ result =>
      simp only [FeatureTool.handle, FeatureTool.fetched]
      split
      · simp [Outcome.quiet]
      · split <;> simp [Outcome.quiet]
      all_goals simp [Outcome.quiet]
    | _ => simp [FeatureTool.handle]

/-- No tool asks which item is next in an operation of its controls; only the host may wish it
to. -/
theorem perform_not_nextItem {t : Tool} {v : View} {op : ToolOp} {o : Outcome Tool}
    (h : t.perform v op = some o) {p : ToolPurpose} {path : String} {key : Option String}
    (hc : Command.fetch p (.nextItem path key) ∈ o.commands) :
    op = .command (.fetch p (.nextItem path key)) := by
  rcases perform_eq_some h with ⟨c, rfl, rfl⟩ | rfl | ⟨s, q, rfl, hq, rfl⟩ | ⟨s, q, rfl, hq, rfl⟩ |
    ⟨s, q, rfl, hq, rfl⟩ | ⟨s, q, rfl, hq, rfl⟩
  · rw [List.mem_singleton.1 hc]
  · exact absurd hc (t.handle_not_nextItem v .render p path key)
  · change _ ∈ q.commands at hc
    rw [performShape_commands hq] at hc
    cases hc
  · change _ ∈ q.commands at hc
    cases op <;> simp only [performLabel, Option.some.injEq, reduceCtorEq] at hq <;> subst hq
    · cases hc
    · rcases s.pressButton_commands v _ with h | h <;> rw [h] at hc <;> simp at hc
    · cases hc
    · unfold LabelTool.submitInput at hc
      split at hc <;> simp at hc
  · change _ ∈ q.commands at hc
    cases op <;> simp only [performTrack, Option.some.injEq, reduceCtorEq] at hq
    subst hq
    simp [TrackTool.endTrack] at hc
  · change _ ∈ q.commands at hc
    cases op <;> simp only [performFeature, Option.some.injEq, reduceCtorEq] at hq <;> subst hq
    all_goals simp [Outcome.quiet, FeatureTool.save] at hc

end Tool

end Labeling
