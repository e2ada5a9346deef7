import Labeling.Proofs.Session.History
import Labeling.Proofs.Tool.Params

/-!
# Parameters are stored and read again

When the parameters of the tool are stored, their text goes to the backend and into the annotation
set (`Session.Saves`). The tool that is made from that set is in the place of the one that was
saved.

* For the shape tool and the feature tool it has the same parameters, whatever the text of the set
  was before and whatever was edited in between (`Session.params_saved`).
* For the integer tool, in every history, it has the same range and the same other parameters, with
  two exceptions (`History.label_saved`). A range of zero stands for no range, so a tool that takes
  text comes back with buttons (`History.label_saved_zero`). And the parameters with a
  floating-point number that does not come back from its own text are left out of account.
-/

namespace Labeling

namespace Session

variable {s s' : Session} {set : AnnotationSet} {stored : Session → Json → Prop} {honest : Prop}

/-- The parameters are stored under a text, at the backend and in the annotation set. -/
structure Saves (s : Session) (set : AnnotationSet) (text : String) : Prop where
  posted : s.saveParams.outbox = s.outbox ++
    [(⟨s.nextTicket, .saveParams, s.generation⟩, .saveParams s.annotationSetId text)]
  kept : s.saveParams.annotationSet = some (set.withParams text)

theorem saves_of_tool {t : Tool} {json : Json} (hset : s.annotationSet = some set)
    (ht : s.tool = some t) (hjson : t.paramsJson? = some json) : s.Saves set json.text := by
  have hsave : s.tool.bind Tool.paramsJson? = some json := by
    rw [ht]
    exact hjson
  constructor <;> unfold saveParams <;> rw [hsave]
  · rfl
  · rw [hset]
    rfl

/-! ## Operations of the controls -/

/-- Perform some operations of the tool's own controls, one after the other. -/
def performTools (s : Session) (ops : List ToolOp) : Session :=
  ops.foldl (fun s op => (s.performTool op).2) s

/-- The annotation set and the parameters of the tool stay. -/
structure KeepsParams (s s' : Session) : Prop where
  set : s'.annotationSet = s.annotationSet
  settings : s'.tool.map Tool.settings = s.tool.map Tool.settings

theorem KeepsParams.trans {s'' : Session} (h : KeepsParams s s') (h' : KeepsParams s' s'') :
    KeepsParams s s'' :=
  ⟨h'.set.trans h.set, h'.settings.trans h.settings⟩

theorem keepsParams_getFrame (s : Session) (index : Int) : KeepsParams s (s.getFrame index) := by
  unfold getFrame
  split
  · exact ⟨rfl, rfl⟩
  · refine ⟨rfl, ?_⟩
    show (s.tool.map Tool.resetFrame).map Tool.settings = _
    rw [Option.map_map]
    exact Option.map_congr fun t _ => t.settings_resetFrame

theorem keepsParams_annotateItem (s : Session) : KeepsParams s s.annotateItem := by
  unfold annotateItem
  split <;> exact ⟨rfl, rfl⟩

/-- What a tool asks for does not change its parameters. -/
theorem keepsParams_carryOut (s : Session) (c : Command) : KeepsParams s (s.carryOut c) := by
  cases c with
  | goToFrame frame => exact s.keepsParams_getFrame _
  | finishFrame =>
    show KeepsParams s s.finishFrame
    unfold finishFrame
    split
    · exact ⟨rfl, rfl⟩
    · split
      · exact s.keepsParams_annotateItem
      · exact s.keepsParams_getFrame _
  | annotateItem => exact s.keepsParams_annotateItem
  | _ => exact ⟨rfl, rfl⟩

theorem keepsParams_foldl_carryOut (commands : List Command) :
    ∀ s : Session, KeepsParams s (commands.foldl carryOut s) := by
  induction commands with
  | nil => exact fun s => ⟨rfl, rfl⟩
  | cons c rest ih => exact fun s => (s.keepsParams_carryOut c).trans (ih _)

/-- An operation of the controls changes the parameters as it says. -/
theorem performTool_settings {t : Tool} (hset : s.annotationSet = some set) (ht : s.tool = some t)
    (op : ToolOp) : (s.performTool op).2.annotationSet = some set ∧
      ∃ t', (s.performTool op).2.tool = some t' ∧ t'.settings = t.settings.after op := by
  cases ho : t.perform (s.view set) op with
  | none =>
    have hperform : (s.performTool op).2 = s := by
      unfold performTool
      rw [hset, ht]
      dsimp only
      rw [ho]
    rw [hperform]
    exact ⟨hset, t, ht, (Tool.settings_after_of_perform_eq_none ho).symm⟩
  | some o =>
    have hperform : (s.performTool op).2 =
        o.commands.foldl carryOut { s with tool := some o.tool } := by
      unfold performTool withTool
      rw [hset, ht]
      dsimp only
      rw [ho]
    rw [hperform]
    obtain ⟨hkept, hsettings⟩ :=
      keepsParams_foldl_carryOut o.commands { s with tool := some o.tool }
    obtain ⟨t', ht', hsame⟩ := Option.map_eq_some_iff.1 hsettings
    exact ⟨hkept.trans hset, t', ht', hsame.trans (Tool.settings_perform ho)⟩

theorem performTools_settings (ops : List ToolOp) : ∀ {s : Session} {t : Tool},
    s.annotationSet = some set → s.tool = some t →
      (s.performTools ops).annotationSet = some set ∧
        ∃ t', (s.performTools ops).tool = some t' ∧
          t'.settings = ops.foldl Settings.after t.settings := by
  induction ops with
  | nil => exact fun hset ht => ⟨hset, _, ht, rfl⟩
  | cons op rest ih =>
    intro s t hset ht
    obtain ⟨hset', t', ht', hsettings⟩ := performTool_settings hset ht op
    obtain ⟨hlast, u, hu, hall⟩ := ih hset' ht'
    exact ⟨hlast, u, hu, by rw [hall, hsettings]; rfl⟩

theorem performTools_shape {t : ShapeTool} (hset : s.annotationSet = some set)
    (ht : s.tool = some (.shape t)) (ops : List ToolOp) :
    (s.performTools ops).annotationSet = some set ∧
      ∃ t', (s.performTools ops).tool = some (.shape t') ∧
        t'.params = ops.foldl ShapeParams.after t.params := by
  obtain ⟨hset', t', ht', hsettings⟩ := performTools_settings ops hset ht
  rw [show (Tool.shape t).settings = .shape t.params from rfl,
    Settings.foldl_after_shape] at hsettings
  cases t' with
  | shape t' => exact ⟨hset', t', ht', Settings.shape.inj hsettings⟩
  | _ => cases hsettings

theorem performTools_geoJson {t : FeatureTool} (hset : s.annotationSet = some set)
    (ht : s.tool = some (.geoJson t)) (ops : List ToolOp) :
    (s.performTools ops).annotationSet = some set ∧
      ∃ t', (s.performTools ops).tool = some (.geoJson t') ∧
        t'.tileUrl = ops.foldl tileUrlAfter t.tileUrl := by
  obtain ⟨hset', t', ht', hsettings⟩ := performTools_settings ops hset ht
  rw [show (Tool.geoJson t).settings = .geoJson t.tileUrl from rfl,
    Settings.foldl_after_geoJson] at hsettings
  cases t' with
  | geoJson t' => exact ⟨hset', t', ht', Settings.geoJson.inj hsettings⟩
  | _ => cases hsettings

/-- Whatever the text of the annotation set was and whatever was edited: the next shape tool has the
mode and the categories that were saved, its canvas begins with them, and the categories are shown
as they were typed last; the next feature tool has the address that was saved. -/
theorem params_saved (hset : s.annotationSet = some set) (ops : List ToolOp) :
    (∀ t, s.tool = some (.shape t) →
      ∃ t', (s.performTools ops).tool = some (.shape t') ∧
        t'.params = ops.foldl ShapeParams.after t.params ∧
        (s.performTools ops).Saves set t'.params.toJson.text ∧
        ∀ bindings,
          let next := ShapeTool.new (set.withParams t'.params.toJson.text) bindings
          next.params = t'.params ∧
          next.canvas = .new t'.params.mode t'.params.categories bindings ∧
          ∀ earlier text later, ops = earlier ++ .setCategories text :: later →
            (∀ other, .setCategories other ∉ later) → next.params.categoriesText = text) ∧
    (∀ t, s.tool = some (.geoJson t) →
      ∃ t', (s.performTools ops).tool = some (.geoJson t') ∧
        t'.tileUrl = ops.foldl tileUrlAfter t.tileUrl ∧
        (s.performTools ops).Saves set t'.paramsJson.text ∧
        (FeatureTool.new (set.withParams t'.paramsJson.text)).tileUrl = t'.tileUrl) := by
  refine ⟨fun t ht => ?_, fun t ht => ?_⟩
  · obtain ⟨hset', t', ht', hparams⟩ := performTools_shape hset ht ops
    refine ⟨t', ht', hparams, saves_of_tool hset' ht' rfl, fun bindings => ?_⟩
    obtain ⟨hread, hcanvas⟩ := t'.new_saved (set.params_withParams _) bindings
    refine ⟨hread, hcanvas, fun earlier text later hops hlast => ?_⟩
    rw [hread, ShapeParams.categoriesText, hparams, hops,
      ShapeParams.categories_foldl_after hlast, commaText_commaItems]
  · obtain ⟨hset', t', ht', htileUrl⟩ := performTools_geoJson hset ht ops
    exact ⟨t', ht', htileUrl, saves_of_tool hset' ht' rfl,
      t'.new_saved (set.params_withParams _)⟩

/-- Parameters that are no JSON, and ones that were never given. -/
theorem params_saved_typed :
    let shapes : AnnotationSet := { History.exampleSet .shape .shape with params := some "[" }
    let features := History.exampleSet .geoJson .geoJson
    let drawing := [ToolOp.setMode .line, .setCategories ",a,,b "]
    (∃ t, ((History.ofSet shapes).session.performTools drawing).tool = some (.shape t) ∧
      t.params = ⟨.line, ["", "a", "", "b "]⟩ ∧
      ((History.ofSet shapes).session.performTools drawing).Saves shapes t.params.toJson.text ∧
      (ShapeTool.new (shapes.withParams t.params.toJson.text) .default).params = t.params ∧
      (ShapeTool.new (shapes.withParams t.params.toJson.text)
        .default).params.categoriesText = ",a,,b ") ∧
    (∃ t, ((History.ofSet features).session.performTools [.setTileUrl "http://tiles/"]).tool =
        some (.geoJson t) ∧
      (FeatureTool.new (features.withParams t.paramsJson.text)).tileUrl = "http://tiles/") := by
  intro shapes features drawing
  have hshapes : (History.ofSet shapes).session.annotationSet = some shapes := rfl
  have hshape : (History.ofSet shapes).session.tool =
      some (.shape (ShapeTool.new shapes .default)) := rfl
  have hfeatures : (History.ofSet features).session.annotationSet = some features := rfl
  have hfeature : (History.ofSet features).session.tool =
      some (.geoJson (FeatureTool.new features)) := rfl
  refine ⟨?_, ?_⟩
  · obtain ⟨t, ht, hparams, hsaves, hnext⟩ := (params_saved hshapes drawing).1 _ hshape
    obtain ⟨hread, -, hlast⟩ := hnext .default
    refine ⟨t, ht, ?_, hsaves, hread, ?_⟩
    · rw [hparams]
      have hitems : commaItems ",a,,b " = ["", "a", "", "b "] := by decide +kernel
      exact congrArg (ShapeParams.mk .line) hitems
    · exact hlast [.setMode .line] ",a,,b " [] rfl fun other hm => by cases hm
  · obtain ⟨t, ht, htileUrl, -, hread⟩ :=
      (params_saved hfeatures [.setTileUrl "http://tiles/"]).2 _ hfeature
    exact ⟨t, ht, hread.trans htileUrl⟩

/-! ## The integer tool -/

/-- There is no tool without an annotation set, and the parameters of the integer tool are as they
are once they were read. -/
structure HoldsStored (s : Session) : Prop where
  loaded : s.tool.isSome = true → s.annotationSet.isSome = true
  stored : ∀ t range fields, s.tool = some t → t.settings = .int range fields →
    LabelTool.Stored fields

theorem HoldsStored.resetFrame (h : s.HoldsStored) {t : Tool} {range : Int} {fields : Fields Json}
    (ht : s.tool.map Tool.resetFrame = some t) (hsettings : t.settings = .int range fields) :
    LabelTool.Stored fields := by
  obtain ⟨t', ht', rfl⟩ := Option.map_eq_some_iff.1 ht
  rw [Tool.settings_resetFrame] at hsettings
  exact h.stored t' range fields ht' hsettings

theorem HoldsStored.react (h : s.HoldsStored) {t t' : Tool} (ht : s.tool = some t)
    {told : ToolEvent → Prop} {v : View} (hr : t.Reacts told v t') {range : Int}
    {fields : Fields Json} (hsettings : t'.settings = .int range fields) :
    LabelTool.Stored fields := by
  rcases hr with ⟨e, -, rfl⟩ | ⟨op, o, ho, rfl⟩
  · rw [Tool.settings_handle] at hsettings
    exact h.stored t range fields ht hsettings
  · rw [Tool.settings_perform ho] at hsettings
    cases t with
    | int t =>
      cases hsettings
      exact h.stored _ _ _ ht rfl
    | _ => cases hsettings

theorem HoldsStored.work (h : s.HoldsStored) (hw : Work stored honest s s') : s'.HoldsStored := by
  have hloaded := hw.sameItem.loaded_of_tool h.loaded
  cases hw with
  | fetch hf => cases hf <;> exact ⟨hloaded, h.stored⟩
  | @react set t t' hset ht hr =>
    refine ⟨hloaded, fun t'' range fields ht'' hsettings => ?_⟩
    cases ht''
    exact h.react ht hr hsettings
  | leaveFrame index _ _ => exact ⟨hloaded, fun _ _ _ ht => h.resetFrame ht⟩
  | _ => exact ⟨hloaded, h.stored⟩

theorem HoldsStored.turn (h : s.HoldsStored) (ht : Turn s s') : s'.HoldsStored := by
  have hloaded : s'.tool.isSome = true → s'.annotationSet.isSome = true := by
    rw [ht.tool_isSome, ht.annotationSet_eq]
    exact h.loaded
  cases ht with
  | leaveItem message => exact ⟨hloaded, fun _ _ _ ht => h.resetFrame ht⟩
  | _ => exact ⟨hloaded, h.stored⟩

theorem holdsStored_installed (s : Session) (set : AnnotationSet) :
    HoldsStored { s with tool := Tool.ofSet? set s.config.bindings, annotationSet := some set } where
  loaded _ := rfl
  stored t range fields ht hsettings := by
    have ht : Tool.ofSet? set s.config.bindings = some t := ht
    unfold Tool.ofSet? at ht
    split at ht <;> cases ht <;> cases hsettings
    exact LabelTool.stored_paramsOf set

theorem HoldsStored.enter (h : s.HoldsStored) (a : Assignment) : (s.enter a).HoldsStored := by
  refine ⟨fun hs => h.loaded (s.isSome_enter_tool a ▸ hs), fun t range fields ht hsettings => ?_⟩
  obtain ⟨t₀, ht₀, ⟨-, rfl⟩ | ⟨set, -, rfl⟩⟩ := enter_tool_cases ht
  · exact h.stored _ range fields ht₀ hsettings
  · rw [Tool.settings_handle] at hsettings
    exact h.stored _ range fields ht₀ hsettings

end Session

namespace History

variable {H : History}

theorem holdsStored_invariant :
    Invariant False (fun _ _ => True) Always (fun _ _ s => s.HoldsStored) where
  promised h := h.elim
  blank taken s h := by
    refine ⟨fun hs => ?_, fun t _ _ ht => ?_⟩
    · rw [h.tool] at hs
      cases hs
    · rw [h.tool] at ht
      cases ht
  installed taken s set _ := s.holdsStored_installed set
  work taken s s' _ h hw := h.work hw
  fetch taken due s s' _ h hf := h.work hf.work
  turn taken s s' _ h ht := h.turn ht
  listed taken s keys _ h := ⟨h.loaded, h.stored⟩
  asked taken s a source _ h _ := ⟨h.loaded, h.stored⟩
  followed taken s t a result known _ h _ _ _ :=
    ⟨fun hs => h.loaded (s.isSome_map_resetFrame ▸ hs), fun _ _ _ ht => h.resetFrame ht⟩
  taken taken s _ h := ⟨h.loaded, h.stored⟩
  round taken s _ h := ⟨h.loaded, h.stored⟩
  dropped taken task due s _ h := h
  entered taken a g due s _ h _ := h.enter a
  shown taken index due s _ h _ := ⟨h.loaded, h.stored⟩

/-- In every history, the integer tool that is made from the parameters that were stored has the
range that was saved, and with it the same buttons or text field, unless that range is zero, which
stands for the default. It has every other parameter that it had, and no more; and a parameter is
the same if its floating-point numbers come back from their text. -/
theorem label_saved (h : Reachable H) {t : LabelTool} (ht : H.session.tool = some (.int t))
    (hrange : isInt64 t.range = true)
    (hread : ∀ name v, name ≠ "Range" → Fields.get? t.params name = some v →
      ∀ x ∈ v.floats, Json.Readable x) :
    ∃ set, H.session.annotationSet = some set ∧
      H.session.Saves set t.paramsJson.text ∧
      (LabelTool.new (set.withParams t.paramsJson.text)).range =
        (if t.range = 0 then LabelTool.defaultRange else t.range) ∧
      (t.range ≠ 0 → (LabelTool.new (set.withParams t.paramsJson.text)).usesTextField =
        t.usesTextField) ∧
      ∀ name, name ≠ "Range" →
        (Fields.get? (LabelTool.new (set.withParams t.paramsJson.text)).params name).isSome =
            (Fields.get? t.params name).isSome ∧
          ∀ v, Fields.get? t.params name = some v → (∀ x ∈ v.floats, Json.Returns x) →
            Fields.get? (LabelTool.new (set.withParams t.paramsJson.text)).params name =
              some v := by
  have hholds := holdsStored_invariant.reachable h
  obtain ⟨set, hset⟩ := Option.isSome_iff_exists.1 (hholds.loaded (by rw [ht]; rfl))
  have hstored := hholds.stored _ _ _ ht rfl
  have hnext := LabelTool.range_saved hstored hrange hread (set.params_withParams _)
  refine ⟨set, hset, Session.saves_of_tool hset ht rfl, hnext, fun hne => ?_, fun name hname =>
    LabelTool.get?_saved hstored hrange hread (set.params_withParams _) hname⟩
  unfold LabelTool.usesTextField
  rw [hnext, if_neg hne]

/-- A range is changed, and a parameter that the tool does not know is kept. -/
theorem label_saved_hint :
    let set : AnnotationSet := { exampleSet .int .int with
      params := some "\x7b\"Hint\": \"cars\", \"Range\": \"4\"\x7d" }
    let t : LabelTool := { LabelTool.new set with range := 6 }
    let H := (ofSet set).perform (.tool (.setRange 6))
    let next := LabelTool.new (set.withParams t.paramsJson.text)
    Reachable H ∧ H.session.tool = some (.int t) ∧ isInt64 t.range = true ∧
      (∀ name v, name ≠ "Range" → Fields.get? t.params name = some v →
        ∀ x ∈ v.floats, Json.Readable x) ∧
      H.session.Saves set t.paramsJson.text ∧ next.range = 6 ∧
      (Fields.get? next.params "Hint").bind Json.str? = some "cars" := by
  intro set t H next
  have hreach : Reachable H := .step (reachable_ofSet set) trivial trivial
  have ht : H.session.tool = some (.int t) := rfl
  have hfloats : (t.params.all fun f => f.2.floats.isEmpty) = true := by decide +kernel
  have hnone : ∀ name v, Fields.get? t.params name = some v → v.floats = [] := by
    intro name v hget
    exact List.isEmpty_iff.1 (List.all_eq_true.1 hfloats _ (Fields.mem_of_get? hget))
  have hread : ∀ name v, name ≠ "Range" → Fields.get? t.params name = some v →
      ∀ x ∈ v.floats, Json.Readable x := by
    intro name v _ hget x hx
    rw [hnone name v hget] at hx
    cases hx
  obtain ⟨set', hset, hsaves, hrange, -, hothers⟩ := label_saved hreach ht (by decide) hread
  cases (hset.symm : some set' = some set)
  have hhint : (Fields.get? t.params "Hint").bind Json.str? = some "cars" := by decide +kernel
  refine ⟨hreach, ht, by decide, hread, hsaves, hrange, ?_⟩
  obtain ⟨v, hget, hv⟩ := Option.bind_eq_some_iff.1 hhint
  rw [(hothers "Hint" (by decide)).2 v hget fun x hx => by
    rw [hnone "Hint" v hget] at hx
    cases hx]
  exact hv

/-- A range that is no number makes a tool that takes text, and it is saved as zero. The tool that
is made from it has two buttons, though nothing was edited. -/
theorem label_saved_zero :
    let set : AnnotationSet := { exampleSet .int .int with
      params := some "\x7b\"Range\": \"abc\"\x7d" }
    let t := LabelTool.new set
    let next := LabelTool.new (set.withParams t.paramsJson.text)
    (ofSet set).session.tool = some (.int t) ∧ (ofSet set).session.Saves set t.paramsJson.text ∧
      t.range = 0 ∧ t.usesTextField = true ∧ next.range = 2 ∧ next.usesTextField = false := by
  intro set t next
  have ht : (ofSet set).session.tool = some (.int t) := rfl
  refine ⟨ht, Session.saves_of_tool rfl ht rfl, ?_⟩
  decide +kernel

end History

end Labeling
