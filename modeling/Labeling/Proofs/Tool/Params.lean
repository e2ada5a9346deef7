import Labeling.Proofs.Canvas.Grip
import Labeling.Proofs.Json.Canonical
import Labeling.Proofs.Tool.Reaction

/-!
# The parameters of a tool

The parameters of a tool are changed by four operations of its controls and by nothing else
(`Settings.after`): no event changes them. They are stored as JSON text, from which the next tool
is made. This module says what that tool is.

* The shape tool and the feature tool get the parameters that were stored
  (`ShapeTool.new_saved`, `FeatureTool.new_saved`). The text of the categories that was edited
  last is shown again as it was typed (`commaText_commaItems`), even with blank or empty items.
* The integer tool gets its range, unless that is zero, which stands for none
  (`LabelTool.range_saved`). Its other parameters are those that the text is read as, and a
  parameter whose floating-point numbers come back comes back as it was (`LabelTool.get?_saved`).
-/

namespace Labeling

/-! ## Lists separated by commas -/

theorem splitCommas_ne_nil (cs : List Char) : splitCommas cs ≠ [] := by
  cases cs with
  | nil => exact List.cons_ne_nil _ _
  | cons c rest =>
    rw [splitCommas]
    split
    · exact List.cons_ne_nil _ _
    · split <;> exact List.cons_ne_nil _ _

/-- The parts between the commas of some characters, with commas between them, are the same
characters. -/
theorem joinCommas_splitCommas (cs : List Char) : joinCommas (splitCommas cs) = cs := by
  induction cs with
  | nil => rfl
  | cons c rest ih =>
    obtain ⟨part, parts, hparts⟩ := List.exists_cons_of_ne_nil (splitCommas_ne_nil rest)
    rw [hparts] at ih
    rw [splitCommas, hparts]
    by_cases hc : c = ','
    · rw [if_pos hc, joinCommas, ih, hc]
      · rfl
      · exact List.cons_ne_nil _ _
    · rw [if_neg hc]
      dsimp only
      cases parts with
      | nil => exact congrArg (c :: ·) ih
      | cons next parts => exact congrArg (c :: ·) ih

/-- A text of items is shown again as it was typed. -/
theorem commaText_commaItems (text : String) : commaText (commaItems text) = text := by
  unfold commaText commaItems
  split
  · rename_i hempty
    exact (String.isEmpty_iff.1 hempty).symm
  · rw [List.map_map, show String.toList ∘ String.ofList = id from
      funext fun cs => String.toList_ofList, List.map_id, joinCommas_splitCommas,
      String.ofList_toList]

/-! ## What changes the parameters -/

/-- The parameters of the shape tool after an operation of the controls. -/
def ShapeParams.after (p : ShapeParams) : ToolOp → ShapeParams
  | .setMode mode => { p with mode }
  | .setCategories text => { p with categories := commaItems text }
  | _ => p

/-- The categories are those that were edited last. -/
theorem ShapeParams.categories_foldl_after {earlier later : List ToolOp} {text : String}
    (h : ∀ other, .setCategories other ∉ later) (p : ShapeParams) :
    ((earlier ++ .setCategories text :: later).foldl ShapeParams.after p).categories =
      commaItems text := by
  rw [List.foldl_append, List.foldl_cons]
  generalize hp : (earlier.foldl ShapeParams.after p).after (.setCategories text) = q
  have hq : q.categories = commaItems text := by rw [← hp, ShapeParams.after]
  clear hp
  induction later generalizing q with
  | nil => exact hq
  | cons op rest ih =>
    rw [List.foldl_cons]
    refine ih (fun other hm => h other (List.mem_cons_of_mem _ hm)) _ ?_
    cases op with
    | setCategories other => exact absurd (List.mem_cons_self ..) (h other)
    | _ => exact hq

/-- The range of the integer tool after an operation of the controls. -/
def rangeAfter (range : Int) : ToolOp → Int
  | .setRange range => range
  | _ => range

/-- The address of the map tiles after an operation of the controls. -/
def tileUrlAfter (tileUrl : String) : ToolOp → String
  | .setTileUrl tileUrl => tileUrl
  | _ => tileUrl

/-- The parameters of a tool. -/
inductive Settings where
  | shape (params : ShapeParams)
  /-- The range of the integer tool, and its parameters as they were stored. -/
  | int (range : Int) (stored : Fields Json)
  | geoJson (tileUrl : String)
  /-- The track tool has none. -/
  | none

/-- The parameters after an operation of the controls. -/
def Settings.after (settings : Settings) (op : ToolOp) : Settings :=
  match settings with
  | .shape p => .shape (p.after op)
  | .int range stored => .int (rangeAfter range op) stored
  | .geoJson tileUrl => .geoJson (tileUrlAfter tileUrl op)
  | .none => .none

theorem Settings.foldl_after_shape (ops : List ToolOp) : ∀ p : ShapeParams,
    ops.foldl Settings.after (.shape p) = .shape (ops.foldl ShapeParams.after p) := by
  induction ops with
  | nil => exact fun _ => rfl
  | cons op rest ih => exact fun p => ih (p.after op)

theorem Settings.foldl_after_geoJson (ops : List ToolOp) : ∀ tileUrl : String,
    ops.foldl Settings.after (.geoJson tileUrl) = .geoJson (ops.foldl tileUrlAfter tileUrl) := by
  induction ops with
  | nil => exact fun _ => rfl
  | cons op rest ih => exact fun tileUrl => ih (tileUrlAfter tileUrl op)

/-- The parameters of a tool. -/
def Tool.settings : Tool → Settings
  | .shape t => .shape t.params
  | .int t => .int t.range t.params
  | .track _ => .none
  | .geoJson t => .geoJson t.tileUrl

namespace ShapeTool

@[simp] theorem editShown_params (t : ShapeTool) (v : View) (op : CanvasOp Float) :
    (t.editShown v op).2.params = t.params := rfl

@[simp] theorem showOutcome_params (t : ShapeTool) (v : View) (op : CanvasOp Float) :
    (t.showOutcome v op).tool.params = t.params := rfl

@[simp] theorem editOutcome_params (t : ShapeTool) (v : View) (op : CanvasOp Float)
    (otherwise : Reply) : (t.editOutcome v op otherwise).tool.params = t.params := by
  unfold editOutcome
  split
  · rename_i reply t' he
    simp only [editFrame, Option.bind_eq_bind, Option.bind_eq_some_iff] at he
    obtain ⟨k, -, shapes, -, he⟩ := he
    cases he
    rfl
  · rfl

@[simp] theorem render_params (t : ShapeTool) (v : View) : (t.render v).params = t.params := rfl

@[simp] theorem load_params (t : ShapeTool) (v : View) (data : Json) :
    (t.load v data).params = t.params := by
  unfold load
  split
  · rfl
  · split
    · rfl
    · dsimp only
      split <;> rfl

@[simp] theorem imageLoaded_params (t : ShapeTool) (v : View) :
    (t.imageLoaded v).params = t.params := by
  unfold imageLoaded
  cases v.dims <;> rfl

@[simp] theorem handle_params (t : ShapeTool) (v : View) (e : ToolEvent) :
    (t.handle v e).tool.params = t.params := by
  cases e <;> simp [handle, Outcome.quiet]

end ShapeTool

namespace LabelTool

theorem setInput_settings (t : LabelTool) (v : View) (text : String) :
    (t.setInput v text).2.range = t.range ∧ (t.setInput v text).2.params = t.params := by
  unfold setInput
  split
  · exact ⟨rfl, rfl⟩
  · split <;> exact ⟨rfl, rfl⟩

theorem pressButton_settings (t : LabelTool) (v : View) (value : Int) :
    (t.pressButton v value).tool.range = t.range ∧
      (t.pressButton v value).tool.params = t.params := by
  have hinput := t.setInput_settings v (toString value)
  unfold pressButton
  split <;> rename_i h <;> rw [h] at hinput <;> exact hinput

theorem load_settings (t : LabelTool) (v : View) (data : Json) :
    (t.load v data).range = t.range ∧ (t.load v data).params = t.params := by
  unfold load
  split <;> exact ⟨rfl, rfl⟩

theorem handle_settings (t : LabelTool) (v : View) (e : ToolEvent) :
    (t.handle v e).tool.range = t.range ∧ (t.handle v e).tool.params = t.params := by
  cases e with
  | stored data => exact t.load_settings v data
  | key e =>
    show (t.handleKey v e).tool.range = _ ∧ (t.handleKey v e).tool.params = _
    unfold handleKey
    split
    · exact ⟨rfl, rfl⟩
    · split
      · exact ⟨rfl, rfl⟩
      · exact t.pressButton_settings v _
  | _ => exact ⟨rfl, rfl⟩

end LabelTool

namespace FeatureTool

theorem load_tileUrl (t : FeatureTool) (value : Json) : (t.load value).tileUrl = t.tileUrl := by
  unfold load
  split <;> rfl

theorem handle_tileUrl (t : FeatureTool) (v : View) (e : ToolEvent) :
    (t.handle v e).tool.tileUrl = t.tileUrl := by
  cases e with
  | fetched purpose result =>
    show (t.fetched purpose result).tool.tileUrl = _
    unfold fetched
    split
    · exact t.load_tileUrl _
    · split <;> rfl
    · rfl
    · rfl
  | _ => rfl

end FeatureTool

namespace Tool

/-- No event changes the parameters. -/
@[simp] theorem settings_handle (t : Tool) (v : View) (e : ToolEvent) :
    (t.handle v e).tool.settings = t.settings := by
  cases t with
  | shape t => exact congrArg Settings.shape (t.handle_params v e)
  | int t =>
    obtain ⟨hrange, hparams⟩ := t.handle_settings v e
    show Settings.int _ _ = Settings.int _ _
    rw [hrange, hparams]
  | track t => rfl
  | geoJson t => exact congrArg Settings.geoJson (t.handle_tileUrl v e)

@[simp] theorem settings_resetFrame (t : Tool) : t.resetFrame.settings = t.settings := by
  cases t <;> rfl

theorem settings_performShape {t : ShapeTool} {v : View} {op : ToolOp} {o : Outcome ShapeTool}
    (h : performShape t v op = some o) :
    Settings.shape o.tool.params = (Settings.shape t.params).after op := by
  cases op <;> cases h <;> simp [Settings.after, ShapeParams.after, Outcome.quiet,
    ShapeTool.setMode, ShapeTool.setCategories]

theorem settings_performLabel {t : LabelTool} {v : View} {op : ToolOp} {o : Outcome LabelTool}
    (h : performLabel t v op = some o) :
    Settings.int o.tool.range o.tool.params = (Settings.int t.range t.params).after op := by
  cases op with
  | setRange range =>
    cases h
    rfl
  | pressButton value =>
    cases h
    obtain ⟨hrange, hparams⟩ := t.pressButton_settings v value
    rw [hrange, hparams]
    rfl
  | setInput text =>
    cases h
    obtain ⟨hrange, hparams⟩ := t.setInput_settings v text
    show Settings.int (t.setInput v text).2.range (t.setInput v text).2.params = _
    rw [hrange, hparams]
    rfl
  | submitInput =>
    cases h
    rfl
  | _ => cases h

theorem settings_performFeature {t : FeatureTool} {v : View} {op : ToolOp}
    {o : Outcome FeatureTool} (h : performFeature t v op = some o) :
    Settings.geoJson o.tool.tileUrl = (Settings.geoJson t.tileUrl).after op := by
  cases op with
  | replaceFeature index feature =>
    obtain rfl := Option.some.inj h
    show Settings.geoJson (t.replace index feature).2.tileUrl = _
    unfold FeatureTool.replace
    split <;> rfl
  | removeFeature index =>
    obtain rfl := Option.some.inj h
    show Settings.geoJson (t.remove index).2.tileUrl = _
    unfold FeatureTool.remove
    split <;> rfl
  | addFeature feature =>
    cases h
    rfl
  | saveFeatures =>
    cases h
    rfl
  | setTileUrl tileUrl =>
    cases h
    rfl
  | _ => cases h

/-- An operation of the controls changes the parameters as it says. -/
theorem settings_perform {t : Tool} {v : View} {op : ToolOp} {o : Outcome Tool}
    (h : t.perform v op = some o) : o.tool.settings = t.settings.after op := by
  unfold perform at h
  split at h
  · cases h
    cases t <;> rfl
  · cases h
    rw [settings_handle]
    cases t <;> rfl
  · cases t <;> simp only [Option.map_eq_some_iff] at h <;> obtain ⟨p, hp, rfl⟩ := h
    · exact settings_performShape hp
    · exact settings_performLabel hp
    · rfl
    · exact settings_performFeature hp

/-- An operation that a tool does not have would not change its parameters. -/
theorem settings_after_of_perform_eq_none {t : Tool} {v : View} {op : ToolOp}
    (h : t.perform v op = none) : t.settings.after op = t.settings := by
  unfold perform at h
  split at h
  · cases h
  · cases h
  · cases t <;> rename_i t hcommand hrender <;> rw [Option.map_eq_none_iff] at h <;>
      cases op <;> first | rfl | cases h

end Tool

/-- The annotation set after its parameters were stored. -/
def AnnotationSet.withParams (set : AnnotationSet) (text : String) : AnnotationSet :=
  { set with params := some text }

@[simp] theorem AnnotationSet.params_withParams (set : AnnotationSet) (text : String) :
    (set.withParams text).params = some text := rfl

/-- The parameters of a set are read from their text. -/
theorem AnnotationSet.paramsDocument?_of_text {set : AnnotationSet} {v : Json}
    (h : set.params = some v.text) : set.paramsDocument? = some v.document := by
  rw [paramsDocument?, h, Option.bind_eq_bind, Option.bind_some, Document.ofText?_text]

/-! ## The shape tool -/

theorem DrawMode.ofParam_name (m : DrawMode) : DrawMode.ofParam m.name = m := by
  cases m <;> rfl

theorem ShapeParams.toJson_eq (p : ShapeParams) : p.toJson =
    .obj [("Categories", .arr (p.categories.map .str)), ("Mode", .str p.mode.name)] := by
  have hlt : "Categories" < "Mode" := by decide
  simp [toJson, Json.object, Fields.ofList, Fields.insert, hlt]

/-- An optional field of a stored record is read, if its value comes back. -/
theorem Record.optional_of_document {β : Type} {r : Record Document} {position : Nat}
    {name : String} (read : Json → Option β) {v : Json} {b : β}
    (hr : r.field? position [name] = some (some v.document)) (hv : v.document.value? = some v)
    (hne : v ≠ .null) (hread : read v = some b) : r.optional position name read = some (some b) := by
  have hvalue : Source.value? v.document = some v := hv
  unfold optional given
  rw [hr]
  dsimp only [Option.bind_eq_bind, Option.bind_some]
  rw [hvalue]
  exact Json.nullable_eq_some hne hread

/-- A list of texts comes back. -/
theorem Json.value?_document_strings (texts : List String) :
    (Json.arr (texts.map .str)).document.value? = some (.arr (texts.map .str)) := by
  rw [document, Document.value?, values?_documents (f := id) fun v hv => ?_, List.map_id]
  · rfl
  · obtain ⟨text, -, rfl⟩ := List.mem_map.1 hv
    rfl

theorem ShapeParams.read?_document (p : ShapeParams) : read? p.toJson.document = some p := by
  have hrecord : Source.recordOf p.toJson.document 2 = some (.named
      [("Categories", (Json.arr (p.categories.map .str)).document),
        ("Mode", (Json.str p.mode.name).document)]) := by
    rw [p.toJson_eq]
    rfl
  have hstrings : Json.listOf Json.str? (.arr (p.categories.map .str)) =
      some (p.categories.map id) := Json.listOf_arr_map fun c _ => rfl
  rw [List.map_id] at hstrings
  unfold read?
  rw [hrecord]
  dsimp only [Option.bind_eq_bind, Option.bind_some]
  rw [Record.optional_of_document Json.str? (v := .str p.mode.name) rfl rfl (by simp) rfl,
    Record.optional_of_document (Json.listOf Json.str?) (v := .arr (p.categories.map .str)) rfl
      (Json.value?_document_strings p.categories) (by simp) hstrings]
  exact congrArg (fun m => some (ShapeParams.mk m p.categories)) (DrawMode.ofParam_name p.mode)

/-- The parameters of the shape tool come back as they were stored. -/
theorem ShapeParams.ofSet_saved (p : ShapeParams) {set : AnnotationSet}
    (hset : set.params = some p.toJson.text) : ShapeParams.ofSet set = p := by
  rw [ofSet, set.paramsDocument?_of_text hset, Option.bind_some, p.read?_document]
  rfl

/-- The next shape tool has the parameters that were stored, and its canvas begins with them. -/
theorem ShapeTool.new_saved (t : ShapeTool) {set : AnnotationSet}
    (hset : set.params = some t.params.toJson.text) (bindings : KeyBindings) :
    (ShapeTool.new set bindings).params = t.params ∧
      (ShapeTool.new set bindings).canvas =
        .new t.params.mode t.params.categories bindings := by
  unfold ShapeTool.new
  rw [t.params.ofSet_saved hset]
  exact ⟨rfl, rfl⟩

/-! ## The feature tool -/

/-- The address of the tiles comes back as it was stored. -/
theorem FeatureTool.new_saved (t : FeatureTool) {set : AnnotationSet}
    (hset : set.params = some t.paramsJson.text) : (FeatureTool.new set).tileUrl = t.tileUrl := by
  have hrecord : Source.recordOf t.paramsJson.document 1 = some (.named
      [("TileURL", (Json.str t.tileUrl).document)]) := rfl
  have hread : readTileUrl? t.paramsJson.document = some (some t.tileUrl) := by
    unfold readTileUrl?
    rw [hrecord, Option.bind_eq_bind, Option.bind_some]
    exact Record.optional_of_document Json.str? (v := .str t.tileUrl) rfl rfl (by simp) rfl
  show ((set.paramsDocument?.bind readTileUrl?).join).getD "" = t.tileUrl
  rw [set.paramsDocument?_of_text hset, Option.bind_some, hread]
  rfl

/-! ## The integer tool -/

namespace LabelTool

/-- The parameters of the integer tool as they are once they were read: canonical, and not nested
too deep to be read again. -/
def Stored (fields : Fields Json) : Prop :=
  (Json.obj fields).Canonical ∧ (Json.obj fields).document.depth ≤ Json.depthLimit

theorem stored_paramsOf (set : AnnotationSet) : Stored (paramsOf set) := by
  unfold paramsOf
  split
  · rename_i fields h
    obtain ⟨text, -, hread⟩ := Option.bind_eq_some_iff.1 h
    exact Json.ofText?_canonical hread
  · exact ⟨.obj List.Pairwise.nil fun f hf => (by cases hf), by decide⟩

variable {t : LabelTool} {set : AnnotationSet}

theorem canonical_paramsJson (hstored : Stored t.params) (hrange : isInt64 t.range = true) :
    t.paramsJson.Canonical := by
  cases hstored.1 with
  | obj hs hfields =>
    refine .obj (Fields.sorted_insert hs _ _) fun f hf => ?_
    rcases Fields.mem_of_mem_insert hf with rfl | hf
    · exact .int (Or.inl hrange)
    · exact hfields f hf

theorem depth_paramsJson_le (hstored : Stored t.params) :
    t.paramsJson.document.depth ≤ Json.depthLimit := by
  have hfields : ∀ f ∈ t.params, f.2.document.depth ≤ 126 := by
    intro f hf
    have hle : f.2.document.depth ≤ Document.depthOfFields (Json.namedDocuments t.params) :=
      Document.depth_le_depthOfFields (Json.mem_namedDocuments hf)
    have hdepth : Document.depthOfFields (Json.namedDocuments t.params) + 1 ≤ 127 := hstored.2
    omega
  refine Nat.succ_le_succ (Document.depthOfFields_namedDocuments_le (n := 126) fun f hf => ?_)
  rcases Fields.mem_of_mem_insert hf with rfl | hf
  · exact Nat.zero_le _
  · exact hfields f hf

section Saved

variable (hstored : Stored t.params) (hrange : isInt64 t.range = true)
  (hread : ∀ name v, name ≠ "Range" → Fields.get? t.params name = some v →
    ∀ x ∈ v.floats, Json.Readable x)
  (hset : set.params = some t.paramsJson.text)

include hstored hrange hread hset

/-- The parameters of the next tool are those of the tool that was saved, each as it is read from
its text. -/
theorem paramsOf_saved :
    paramsOf set = (Fields.insert "Range" (.int t.range) t.params).map fun f =>
      (f.1, f.2.reread) := by
  have hvalue : t.paramsJson.document.value? = some (.obj
      ((Fields.insert "Range" (.int t.range) t.params).map fun f => (f.1, f.2.reread))) := by
    cases canonical_paramsJson hstored hrange with
    | obj hs hfields =>
      refine Json.value?_document_obj hs fun f hf =>
        (hfields f hf).value?_document_reread fun x hx => ?_
      have hget := Fields.get?_of_mem hs hf
      rw [Fields.get?_insert] at hget
      split at hget
      · -- the range is no floating-point number
        rw [← Option.some.inj hget] at hx
        cases hx
      · rename_i hname
        exact hread f.1 f.2 (Ne.symm hname) hget x hx
  unfold paramsOf
  rw [hset, Option.bind_some, Json.ofText?_text_of_depth (depth_paramsJson_le hstored), hvalue]

/-- The range of the next tool is the one that was saved, unless that was zero. -/
theorem range_saved :
    (LabelTool.new set).range = if t.range = 0 then defaultRange else t.range := by
  show ((Fields.get? (paramsOf set) "Range").map rangeOf).getD defaultRange = _
  rw [paramsOf_saved hstored hrange hread hset, Fields.get?_map, Fields.get?_insert, if_pos rfl,
    Option.map_some, Option.map_some, Option.getD_some,
    (Json.Canonical.int (Or.inl hrange)).reread_eq fun x hx => (by cases hx)]
  show rangeOfInt (if isInt64 t.range then t.range else _) = _
  rw [if_pos hrange, rangeOfInt]

/-- A parameter other than the range is there again if and only if it was there, and it is the same
if its floating-point numbers come back. -/
theorem get?_saved {name : String} (hname : name ≠ "Range") :
    (Fields.get? (LabelTool.new set).params name).isSome =
        (Fields.get? t.params name).isSome ∧
      ∀ v, Fields.get? t.params name = some v → (∀ x ∈ v.floats, Json.Returns x) →
        Fields.get? (LabelTool.new set).params name = some v := by
  have hget : Fields.get? (LabelTool.new set).params name =
      (Fields.get? t.params name).map Json.reread := by
    show Fields.get? (paramsOf set) name = _
    rw [paramsOf_saved hstored hrange hread hset, Fields.get?_map, Fields.get?_insert,
      if_neg (Ne.symm hname)]
  rw [hget, Option.isSome_map]
  refine ⟨rfl, fun v hv hx => ?_⟩
  cases hstored.1 with
  | obj hs hfields =>
    rw [hv, Option.map_some, (hfields _ (Fields.mem_of_get? hv)).reread_eq hx]

end Saved

end LabelTool

end Labeling
