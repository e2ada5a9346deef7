import Mathlib.Logic.Relation
import Labeling.Session.Operation
import Labeling.Proofs.Tool.Reaction

/-!
# The elementary steps of a session

Every operation of a session is a chain of a few elementary steps, and what no
elementary step can break holds after every operation. There are three kinds of them.

* `Session.Fetch` asks for something about the item that is shown;
* `Session.Work` is whatever happens while one item is shown: its frames are left, its
  annotations change and are handed in. The item stays (`SameItem`). Which stored
  annotations the tool may be told of is a parameter (`Session.Tells`);
* `Session.Turn` chooses another item. No annotations are handed in by it.

The operations of the user are chains of work or chains of turns
(`Session.perform_cases`). What remains are the three places where items are replaced:
a result that is applied (`Session.Effect`), the rounds (`Session.runDeferred_cases`)
and the installation of an annotation set (`Session.install_steps`).
-/

namespace Labeling

namespace Session

variable {s s' : Session} {stored stored' : Session → Json → Prop} {honest : Prop}

/-! ## Requests about the item that is shown -/

/-- A request for what was computed is about the item that is shown. -/
def Covers (s : Session) (p : ToolPurpose) (r : Request) : Prop :=
  p.isComputed = true → ∃ a, s.assignment = some a ∧ r.itemKey? = some a.key

/-- The request for the image of the frame that is shown. -/
def frameRequest? (s : Session) : Option Request :=
  match s.annotationSet.bind AnnotationSet.source?, s.assignment, s.frame with
  | some source, some a, some k =>
    some (.frameImage source.id a.key (if source.dataType = .video then some k else none))
  | _, _, _ => none

theorem frameRequest?_eq_some {r : Request} (h : s.frameRequest? = some r) :
    ∃ source a k, s.annotationSet.bind AnnotationSet.source? = some source ∧
      s.assignment = some a ∧ s.frame = some k ∧
      r = .frameImage source.id a.key (if source.dataType = .video then some k else none) := by
  unfold frameRequest? at h
  split at h
  · rename_i source a k hsource ha hk
    exact ⟨source, a, k, hsource, ha, hk, (Option.some.inj h).symm⟩
  · cases h

/-- The image that is loaded is the one of the frame that is shown. -/
theorem loadFrameImage_eq (s : Session) :
    s.loadFrameImage = match s.frameRequest? with
      | some r => s.issue (.frameImage s.frameSeq) r
      | none => s := by
  unfold loadFrameImage frameRequest?
  rcases s.annotationSet with _ | set
  · rfl
  · rcases s.assignment with _ | a
    · simp
    · rcases s.frame with _ | k
      · simp
      · rcases h : set.source? with _ | source <;> simp [h]

/-- One request about the item that is shown. Whether the requests that the host makes up in
the tool's name are about that item is up to the host (`honest`). -/
inductive Fetch (honest : Prop) (s : Session) : Session → Prop where
  | tool {p : ToolPurpose} {r : Request} (ht : s.tool.isSome = true)
      (h : honest → s.Covers p r) :
      Fetch honest s (s.issue (.tool p) r)
  | image {r : Request} (h : s.frameRequest? = some r) :
      Fetch honest s (s.issue (.frameImage s.frameSeq) r)
  | stored {set : AnnotationSet} {a : Assignment} (hset : s.annotationSet = some set)
      (ha : s.assignment = some a) :
      Fetch honest s (s.issue .existingData (.item set.dataset.id a.key .json true))

/-- Some requests about the item that is shown. -/
abbrev Fetches (honest : Prop) : Session → Session → Prop :=
  Relation.ReflTransGen (Fetch honest)

/-! ## Work on an item -/

/-- What the tool may be told of while an item is shown: that one comes on show is no part of
this, and of stored annotations it is told of some. -/
def Tells (stored : Session → Json → Prop) (s : Session) : ToolEvent → Prop
  | .itemShown => False
  | .stored data => stored s data
  | _ => True

theorem Tells.mono (hst : ∀ x data, stored x data → stored' x data) {e : ToolEvent}
    (h : s.Tells stored e) : s.Tells stored' e := by
  cases e with
  | stored data => exact hst s data h
  | _ => exact h

/-- What may happen while an item is shown. -/
inductive Work (stored : Session → Json → Prop) (honest : Prop) (s : Session) : Session → Prop where
  | fetch {s' : Session} (h : Fetch honest s s') : Work stored honest s s'
  | report (message : String) : Work stored honest s (s.reportMessage message)
  | takeErrors : Work stored honest s { s with errors := [] }
  | react {set : AnnotationSet} {t t' : Tool} (hset : s.annotationSet = some set)
      (ht : s.tool = some t) (hr : t.Reacts (s.Tells stored) (s.view set) t') :
      Work stored honest s { s with tool := some t' }
  | submit {set : AnnotationSet} {a : Assignment} {t : Tool} (hset : s.annotationSet = some set)
      (ha : s.assignment = some a) (ht : s.tool = some t) :
      Work stored honest s (s.issue .submit (.submit set.annotatePath
        (.json a.key (t.annotations (s.view set)).1 (t.annotations (s.view set)).2)))
  | saveParams (params : String) (ht : s.tool.isSome = true) :
      Work stored honest s ({ s with
        annotationSet := s.annotationSet.map fun set : AnnotationSet =>
          ({ set with params := some params } : AnnotationSet) }.issue
          .saveParams (.saveParams s.annotationSetId params))
  | leaveFrame (index : Int) (ha : s.assignment.isSome = true) (hc : s.frameCount ≠ 0) :
      Work stored honest s
        { s.resetFrame with deferred := s.deferred ++ [.showFrame index (s.frameSeq + 1)] }
  | image (dims : Dims) (h : s.frame.isSome = true) :
      Work stored honest s { s with dims := some dims }

/-- Some work while an item is shown. -/
abbrev Works (stored : Session → Json → Prop) (honest : Prop) : Session → Session → Prop :=
  Relation.ReflTransGen (Work stored honest)

/-- The same item is shown, or none as before, and it was reached in the same way. -/
structure SameItem (s s' : Session) : Prop where
  config : s'.config = s.config
  source : s'.annotationSet.bind AnnotationSet.source? = s.annotationSet.bind AnnotationSet.source?
  loaded : s'.annotationSet.isSome = s.annotationSet.isSome
  toolKind : s'.tool.map Tool.kind = s.tool.map Tool.kind
  mode : s'.mode = s.mode
  keyList : s'.keyList = s.keyList
  itemIndex : s'.itemIndex = s.itemIndex
  assignment : s'.assignment = s.assignment
  itemMeta : s'.itemMeta = s.itemMeta
  frameCount : s'.frameCount = s.frameCount
  message : s'.message = s.message
  navSeq : s'.navSeq = s.navSeq
  generation : s'.generation = s.generation

theorem SameItem.refl (s : Session) : SameItem s s := by
  constructor <;> rfl

theorem SameItem.trans {s'' : Session} (h : SameItem s s') (h' : SameItem s' s'') :
    SameItem s s'' where
  config := h'.config.trans h.config
  source := h'.source.trans h.source
  loaded := h'.loaded.trans h.loaded
  toolKind := h'.toolKind.trans h.toolKind
  mode := h'.mode.trans h.mode
  keyList := h'.keyList.trans h.keyList
  itemIndex := h'.itemIndex.trans h.itemIndex
  assignment := h'.assignment.trans h.assignment
  itemMeta := h'.itemMeta.trans h.itemMeta
  frameCount := h'.frameCount.trans h.frameCount
  message := h'.message.trans h.message
  navSeq := h'.navSeq.trans h.navSeq
  generation := h'.generation.trans h.generation

/-- Work stays with its item. -/
theorem Work.sameItem (h : Work stored honest s s') : SameItem s s' := by
  cases h with
  | fetch h => cases h <;> constructor <;> rfl
  | saveParams params ht =>
    constructor <;> try rfl
    · show (s.annotationSet.map _).bind _ = _
      cases s.annotationSet <;> rfl
    · show (s.annotationSet.map _).isSome = _
      cases s.annotationSet <;> rfl
  | react hset ht hr =>
    constructor <;> try rfl
    rw [ht]
    exact congrArg some hr.kind_eq
  | leaveFrame index ha hc =>
    constructor <;> try rfl
    show (s.tool.map Tool.resetFrame).map Tool.kind = s.tool.map Tool.kind
    rcases s.tool with _ | t
    · rfl
    · exact congrArg some t.kind_resetFrame
  | _ => constructor <;> rfl

theorem Works.sameItem (h : Works stored honest s s') : SameItem s s' := by
  induction h with
  | refl => exact .refl s
  | tail _ hw ih => exact ih.trans hw.sameItem

theorem Fetch.work (h : Fetch honest s s') : Work (fun _ _ => True) honest s s' := .fetch h

theorem Fetches.works (h : Fetches honest s s') : Works (fun _ _ => True) honest s s' :=
  Relation.ReflTransGen.mono (fun _ _ => Work.fetch) _ _ h

theorem Fetches.sameItem (h : Fetches honest s s') : SameItem s s' := h.works.sameItem

/-- Less is known of the requests of a host that may be less honest, and of a tool that may be
told of more. -/
theorem Work.weaken {honest' : Prop} (hst : ∀ x data, stored x data → stored' x data)
    (hh : honest' → honest) (h : Work stored honest s s') : Work stored' honest' s s' := by
  cases h with
  | fetch h =>
    cases h with
    | tool ht h => exact .fetch (.tool ht fun hh' => h (hh hh'))
    | image h => exact .fetch (.image h)
    | stored hset ha => exact .fetch (.stored hset ha)
  | report message => exact .report message
  | takeErrors => exact .takeErrors
  | react hset ht hr => exact .react hset ht (hr.mono fun _ => Tells.mono hst)
  | submit hset ha ht => exact .submit hset ha ht
  | saveParams params ht => exact .saveParams params ht
  | leaveFrame index ha hc => exact .leaveFrame index ha hc
  | image dims h => exact .image dims h

theorem Works.weaken {honest' : Prop} (hst : ∀ x data, stored x data → stored' x data)
    (hh : honest' → honest) (h : Works stored honest s s') : Works stored' honest' s s' :=
  Relation.ReflTransGen.mono (fun _ _ => Work.weaken hst hh) _ _ h

/-- A tool does not come or go while an item is shown. -/
theorem SameItem.tool_isSome (h : SameItem s s') : s'.tool.isSome = s.tool.isSome := by
  have hk := congrArg Option.isSome h.toolKind
  rwa [Option.isSome_map, Option.isSome_map] at hk

/-- Where a tool needs an annotation set, it still has one. -/
theorem SameItem.loaded_of_tool (h : SameItem s s')
    (hl : s.tool.isSome = true → s.annotationSet.isSome = true) :
    s'.tool.isSome = true → s'.annotationSet.isSome = true := by
  rw [h.loaded, h.tool_isSome]
  exact hl

/-- A request covers the same items after some work. -/
theorem SameItem.covers_iff (h : SameItem s s') {p : ToolPurpose} {r : Request} :
    s'.Covers p r ↔ s.Covers p r := by
  unfold Covers
  rw [h.assignment]

/-! ### The operations that are work -/

theorem getFrame_works (s : Session) (index : Int) : Works stored honest s (s.getFrame index) := by
  unfold getFrame
  split
  · exact .refl
  · rename_i h
    simp only [Bool.or_eq_true, decide_eq_true_eq, not_or] at h
    refine .single (.leaveFrame index ?_ h.2)
    cases ha : s.assignment with
    | none => exact absurd (by rw [ha]; rfl) h.1
    | some a => rfl

theorem jumpToRelative_works (s : Session) (fraction : Float) :
    Works stored honest s (s.jumpToRelative fraction) := by
  unfold jumpToRelative
  split
  · exact .refl
  · exact s.getFrame_works _

theorem annotateItem_works (s : Session) : Works stored honest s s.annotateItem := by
  unfold annotateItem
  split
  · rename_i set a t hset ha ht
    exact .single (.submit hset ha ht)
  · exact .refl

theorem finishFrame_works (s : Session) : Works stored honest s s.finishFrame := by
  unfold finishFrame
  split
  · exact .refl
  · split
    · exact s.annotateItem_works
    · exact s.getFrame_works _

/-- Carrying out a command is work, if what it fetches is about the item that is shown. -/
theorem carryOut_works {c : Command} (ht : s.tool.isSome = true)
    (h : ∀ p r, c = .fetch p r → honest → s.Covers p r) : Works stored honest s (s.carryOut c) := by
  cases c with
  | fetch p r => exact .single (.fetch (.tool ht (h p r rfl)))
  | goToFrame frame => exact s.getFrame_works _
  | finishFrame => exact s.finishFrame_works
  | annotateItem => exact s.annotateItem_works
  | reportError message => exact .single (.report message)

theorem foldl_carryOut_works {commands : List Command} :
    ∀ {s : Session}, s.tool.isSome = true →
      (∀ p r, Command.fetch p r ∈ commands → honest → s.Covers p r) →
      Works stored honest s (commands.foldl carryOut s) := by
  induction commands with
  | nil => exact fun _ _ => .refl
  | cons c rest ih =>
    intro s ht h
    have hc : Works stored honest s (s.carryOut c) :=
      carryOut_works ht fun p r hpr => h p r (by rw [hpr]; exact List.mem_cons_self ..)
    -- the item stays the same, so the rest of the commands is still about it
    exact hc.trans (ih (by rw [hc.sameItem.tool_isSome, ht]) fun p r hpr ho =>
      hc.sameItem.covers_iff.2 (h p r (List.mem_cons_of_mem _ hpr) ho))

/-- Calling the tool is work, if the call is a reaction and what it asks for is about the
item that is shown. -/
theorem withTool_works {call : Tool → View → Outcome Tool}
    (h : ∀ set t, s.annotationSet = some set → s.tool = some t →
      t.Reacts (s.Tells stored) (s.view set) (call t (s.view set)).tool ∧
        (honest → (s.view set).CoversAll (call t (s.view set)).commands)) :
    Works stored honest s (s.withTool call).2 := by
  unfold withTool
  split
  · rename_i set t hset ht
    obtain ⟨hr, hc⟩ := h set t hset ht
    exact .head (.react hset ht hr) (foldl_carryOut_works rfl fun p r hpr ho => hc ho p r hpr)
  · exact .refl

/-- A tool that is there hears of the event. -/
theorem notify_eq {set : AnnotationSet} {t : Tool} (hset : s.annotationSet = some set)
    (ht : s.tool = some t) (e : ToolEvent) :
    s.notify e = (t.handle (s.view set) e).commands.foldl carryOut
      { s with tool := some (t.handle (s.view set) e).tool } := by
  unfold notify withTool
  split
  · rename_i set' t' hset' ht'
    rw [hset] at hset'
    rw [ht] at ht'
    cases hset'
    cases ht'
    rfl
  · rename_i hnone
    exact absurd ht (hnone set t hset)

theorem notify_of_no_tool (ht : s.tool = none) (e : ToolEvent) : s.notify e = s := by
  unfold notify withTool
  split
  · rename_i set' t' _ ht'
    rw [ht] at ht'
    cases ht'
  · rfl

theorem notify_works (s : Session) {e : ToolEvent} (he : s.Tells stored e) :
    Works stored honest s (s.notify e) :=
  withTool_works fun _ t _ _ => ⟨t.reacts_handle _ he, fun _ => t.handle_asks _ e⟩

/-- To ask the tool is to tell it. -/
theorem ask_eq (s : Session) (e : ToolEvent) : (s.ask e).2 = s.notify e := by
  unfold ask
  split <;> rename_i h <;> exact (congrArg Prod.snd h).symm

theorem ask_works (s : Session) {e : ToolEvent} (he : s.Tells stored e) :
    Works stored honest s (s.ask e).2 := by
  rw [ask_eq]
  exact s.notify_works he

theorem imageLoaded_works (s : Session) (dims : Dims) :
    Works stored honest s (s.imageLoaded dims) := by
  unfold imageLoaded
  split
  · exact .refl
  · rename_i h
    exact .head (.image dims (by simpa [Option.isSome_iff_ne_none] using h))
      (notify_works _ trivial)

theorem saveParams_works (s : Session) : Works stored honest s s.saveParams := by
  unfold saveParams
  split
  · exact .refl
  · rename_i json h
    refine .single (.saveParams json.text ?_)
    obtain ⟨t, ht, -⟩ := Option.bind_eq_some_iff.1 h
    rw [ht]
    rfl

theorem handleKeys_works (s : Session) (events : List KeyEvent) :
    Works stored honest s (s.handleKeys events) := by
  unfold handleKeys
  induction events generalizing s with
  | nil => exact .refl
  | cons e rest ih => exact (s.notify_works (e := .key e) trivial).trans (ih _)

theorem endTrack_works (s : Session) : Works stored honest s s.endTrack := by
  refine withTool_works fun set t _ _ => ?_
  cases h : t.perform (s.view set) .endTrack with
  | none => exact ⟨t.reacts_refl _, fun _ => View.coversAll_nil _⟩
  | some o =>
    exact ⟨t.reacts_perform h, fun _ => Tool.perform_asks h fun p r hop => by cases hop⟩

/-- An operation of the tool's controls is work; what the host itself asks for in the
tool's name has to be about the item that is shown. -/
theorem performTool_works (s : Session) {op : ToolOp}
    (hop : honest → ∀ p r, op = .command (.fetch p r) → s.Covers p r) :
    Works stored honest s (s.performTool op).2 := by
  unfold performTool
  split
  · rename_i set t hset ht
    split
    · rename_i o ho
      refine withTool_works fun set' t' hset' ht' => ?_
      rw [hset] at hset'
      rw [ht] at ht'
      cases hset'
      cases ht'
      exact ⟨Tool.reacts_perform ho, fun hh => Tool.perform_asks ho (hop hh)⟩
    · exact .refl
  · exact .refl

theorem loadFrameImage_fetches (s : Session) : Fetches True s s.loadFrameImage := by
  rw [loadFrameImage_eq]
  split
  · rename_i r h
    exact .single (.image h)
  · exact .refl

theorem loadExisting_fetches {a : Assignment} (ha : s.assignment = some a) :
    Fetches True s (s.loadExisting a) := by
  unfold loadExisting
  split
  · exact .refl
  · rename_i set hset
    split
    · exact .single (.stored hset ha)
    · exact .refl

/-! ## Choosing another item -/

/-- What is asked for when an item is chosen: any item in the mode of new items, and in
the other mode the one at the current place of the listing. -/
def Wants (s : Session) (key : Option String) : Prop :=
  match s.mode with
  | .new => key = none
  | .existing => ∃ keys, s.keyList = some keys ∧ keys ≠ [] ∧ key = keys[s.itemIndex]?

/-- What may happen while another item is chosen. -/
inductive Turn (s : Session) : Session → Prop where
  | report (message : String) : Turn s (s.reportMessage message)
  | toNew : Turn s { s with mode := .new, message := none, keyList := none, itemIndex := 0 }
  | toExisting : Turn s { s with mode := .existing, message := none }
  | place {keys : List String} (index : Int) (hm : s.mode = .existing)
      (hk : s.keyList = some keys) (hne : keys ≠ []) :
      Turn s { s with itemIndex := (index % (keys.length : Int)).toNat }
  | choose {set : AnnotationSet} {key : Option String} (hset : s.annotationSet = some set)
      (hkey : s.Wants key) : Turn s (s.askFor set key)
  | list {set : AnnotationSet} (index : Int) (hset : s.annotationSet = some set)
      (hm : s.mode = .existing) (hk : s.keyList = none) :
      Turn s ({ s with navSeq := s.navSeq + 1 }.issue (.keyList index) (.listing set.dataset.id))
  | leaveItem (message : String) : Turn s { s.resetItem with message := some message }

/-- Some steps towards another item. -/
abbrev Turns : Session → Session → Prop := Relation.ReflTransGen Turn

theorem Turn.config_eq (h : Turn s s') : s'.config = s.config := by
  cases h <;> rfl

theorem Turn.annotationSet_eq (h : Turn s s') : s'.annotationSet = s.annotationSet := by
  cases h <;> rfl

theorem isSome_map_resetFrame (s : Session) :
    (s.tool.map Tool.resetFrame).isSome = s.tool.isSome := Option.isSome_map

/-- A tool does not come or go while another item is chosen. -/
theorem Turn.tool_isSome (h : Turn s s') : s'.tool.isSome = s.tool.isSome := by
  cases h with
  | leaveItem message => exact s.isSome_map_resetFrame
  | _ => rfl

theorem Turns.config_eq (h : Turns s s') : s'.config = s.config := by
  induction h with
  | refl => rfl
  | tail _ ht ih => rw [ht.config_eq, ih]

theorem update_turns (s : Session) : Turns s s.update := by
  unfold update
  split
  · exact .refl
  · rename_i set hset
    split
    · rename_i hm
      exact .single (.choose hset (by unfold Wants; rw [hm]))
    · rename_i hm
      split
      · exact .refl
      · exact .refl
      · rename_i keys hne hk
        refine .single (.choose hset ?_)
        unfold Wants
        rw [hm]
        exact ⟨keys, hk, fun h => hne h, rfl⟩

theorem getNewItem_turns (s : Session) : Turns s s.getNewItem :=
  .head .toNew (update_turns _)

theorem getOldItem_turns (s : Session) (index : Int) : Turns s (s.getOldItem index) := by
  unfold getOldItem
  refine .head .toExisting ?_
  dsimp only
  split
  · rename_i hk
    split
    · exact .refl
    · rename_i set hset
      exact .single (.list index hset rfl hk)
  · exact .single (.leaveItem noLabelsMessage)
  · rename_i keys hne hk
    exact .head (.place index rfl hk fun h => hne h) (update_turns _)

/-! ## Replacing the item -/

/-- The item is left, and another one is to be shown in the next round. -/
def follow (s : Session) (a : Assignment) (itemMeta : ItemMeta) : Session :=
  { s.resetItem with
    frameCount := s.framesOf itemMeta, itemMeta := some itemMeta
    deferred := s.deferred ++ [.begin a (s.generation + 1)] }

theorem onItemMeta_of_ok {a : Assignment} {result : Response} {known : Option ItemMeta}
    (h : result.parse (Json.nullable ItemMeta.read?) = .ok known) :
    s.onItemMeta a result = s.follow a (known.getD .empty) := by
  unfold onItemMeta
  rw [h]
  rfl

/-- The stored annotations of which the tool is told by a result. -/
def Holds (s : Session) (p : Purpose) (result : Response) (x : Session) (data : Json) : Prop :=
  x = s ∧ p = .existingData ∧ result.json = .ok data

/-- What a result can do to a session, by the purpose of its request. -/
inductive Effect (s : Session) (p : Purpose) (result : Response) : Session → Prop where
  | works {s' : Session} (hp : p.isNavigation = false) (h : Works (s.Holds p result) True s s') :
      Effect s p result s'
  | turns {s' : Session} (h : Turns s s') : Effect s p result s'
  | installed {set : AnnotationSet} (hp : p = .annotationSet) : Effect s p result (s.install set)
  | asked {a : Assignment} {source : Dataset} (hp : p = .assignment)
      (hs : s.annotationSet.bind AnnotationSet.source? = some source) :
      Effect s p result (s.issue (.itemMeta a) (.item source.id a.key .metadata false))
  | followed {a : Assignment} {known : Option ItemMeta} (hp : p = .itemMeta a)
      (hr : result.parse (Json.nullable ItemMeta.read?) = .ok known) :
      Effect s p result (s.follow a (known.getD .empty))
  | listed {s' : Session} {index : Int} {keys : List String} (hp : p = .keyList index)
      (h : Turns { s with keyList := some keys } s') : Effect s p result s'

theorem onAssignment_effect (s : Session) (result : Response) :
    Effect s .assignment result (s.onAssignment result) := by
  unfold onAssignment
  split
  · split
    · exact .turns (.single (.report _))
    · rename_i source hs
      exact .asked rfl hs
  · split
    · exact .turns (.single (.leaveItem everythingLabeledMessage))
    · exact .turns (.single (.report _))

theorem onItemMeta_effect (s : Session) (a : Assignment) (result : Response) :
    Effect s (.itemMeta a) result (s.onItemMeta a result) := by
  cases h : result.parse (Json.nullable ItemMeta.read?) with
  | error f =>
    refine .turns ?_
    unfold onItemMeta
    rw [h]
    exact .single (.report _)
  | ok known =>
    rw [onItemMeta_of_ok h]
    exact .followed rfl h

theorem onKeyList_effect (s : Session) (index : Int) (result : Response) :
    Effect s (.keyList index) result (s.onKeyList index result) := by
  unfold onKeyList
  split
  · exact .turns (.single (.report _))
  · exact .listed rfl (getOldItem_turns _ index)

theorem onSubmitted_turns (s : Session) (result : Response) :
    Turns s (s.onSubmitted result) := by
  unfold onSubmitted
  split
  · exact .single (.report _)
  · split
    · exact s.getNewItem_turns
    · exact s.getOldItem_turns _

/-- Every result has one of these effects. -/
theorem apply_effect (s : Session) (p : Purpose) (result : Response) :
    Effect s p result (s.apply p result) := by
  cases p with
  | annotationSet =>
    unfold apply
    dsimp only
    split
    · exact .installed rfl
    · exact .turns (.single (.report _))
  | assignment => exact s.onAssignment_effect result
  | itemMeta a => exact s.onItemMeta_effect a result
  | existingData =>
    refine .works rfl ?_
    unfold apply
    dsimp only
    split
    · rename_i data hdata
      exact s.notify_works ⟨rfl, rfl, hdata⟩
    · exact .single (.report _)
  | keyList index => exact s.onKeyList_effect index result
  | submit => exact .turns (s.onSubmitted_turns result)
  | saveParams =>
    refine .works rfl ?_
    unfold apply
    dsimp only
    split
    · exact .refl
    · exact .single (.report _)
  | frameImage n =>
    refine .works rfl ?_
    unfold apply
    dsimp only
    split
    · exact s.imageLoaded_works _
    · exact .single (.report _)
  | tool p => exact .works rfl (s.notify_works trivial)

/-- An annotation set is installed by taking it over with its tool. Then the tool hears of
it, and the first item is chosen. -/
theorem install_steps (s : Session) (set : AnnotationSet) :
    ∃ s', Works (fun _ _ => False) True
        { s with tool := Tool.ofSet? set s.config.bindings, annotationSet := some set } s' ∧
      Turns s' (s.install set) := by
  unfold install
  cases h : Tool.ofSet? set s.config.bindings with
  | none => exact ⟨_, .refl, .single (.report _)⟩
  | some t =>
    refine ⟨_, notify_works _ (e := .ready) trivial, ?_⟩
    dsimp only
    split
    · exact getNewItem_turns _
    · exact .refl

/-! ## Rounds -/

/-- An item comes on show, and the tool hears of it. -/
def enter (s : Session) (a : Assignment) : Session :=
  { s with
    assignment := some a, frame := some 0
    tool := match s.annotationSet, s.tool with
      | some set, some t =>
        some (t.handle ({ s with assignment := some a, frame := some 0 }.view set) .itemShown).tool
      | _, tool => tool }

/-- A tool does not come or go while an item comes on show. -/
@[simp] theorem isSome_enter_tool (s : Session) (a : Assignment) :
    (s.enter a).tool.isSome = s.tool.isSome := by
  unfold enter
  cases s.annotationSet <;> cases s.tool <;> rfl

/-- Without a tool an item comes on show without one. -/
theorem enter_tool_eq_none (ht : s.tool = none) (a : Assignment) : (s.enter a).tool = none := by
  rw [← Option.not_isSome_iff_eq_none, isSome_enter_tool, ht]
  exact Bool.false_ne_true

/-- The tool of an item that comes on show was told of it, unless there is no annotation set. -/
theorem enter_tool_cases {a : Assignment} {t : Tool} (h : (s.enter a).tool = some t) :
    ∃ t₀, s.tool = some t₀ ∧
      ((s.annotationSet = none ∧ t = t₀) ∨ ∃ set, s.annotationSet = some set ∧
        t = (t₀.handle ({ s with assignment := some a, frame := some 0 }.view set)
          .itemShown).tool) := by
  obtain ⟨t₀, ht₀⟩ := Option.isSome_iff_exists.1
    (show s.tool.isSome = true by rw [← s.isSome_enter_tool a, h]; rfl)
  refine ⟨t₀, ht₀, ?_⟩
  unfold enter at h
  cases hset : s.annotationSet with
  | none =>
    simp only [hset, ht₀, Option.some.injEq] at h
    exact .inl ⟨rfl, h.symm⟩
  | some set =>
    simp only [hset, ht₀, Option.some.injEq] at h
    exact .inr ⟨set, rfl, h.symm⟩

/-- Where a tool needs an annotation set, the tool of an item that comes on show was told of it. -/
theorem enter_tool_eq {a : Assignment} {t : Tool}
    (hl : s.tool.isSome = true → s.annotationSet.isSome = true) (h : (s.enter a).tool = some t) :
    ∃ t₀ set, s.tool = some t₀ ∧
      t = (t₀.handle ({ s with assignment := some a, frame := some 0 }.view set)
        .itemShown).tool := by
  obtain ⟨t₀, ht₀, ⟨hset, -⟩ | ⟨set, -, ht⟩⟩ := enter_tool_cases h
  · have hloaded := hl (by rw [ht₀]; rfl)
    rw [hset] at hloaded
    cases hloaded
  · exact ⟨t₀, set, ht₀, ht⟩

/-- What the tool asks for when an item comes on show. -/
def shownCommands (s : Session) (a : Assignment) : List Command :=
  match s.annotationSet, s.tool with
  | some set, some t =>
    (t.handle ({ s with assignment := some a, frame := some 0 }.view set) .itemShown).commands
  | _, _ => []

theorem notify_itemShown_eq (s : Session) (a : Assignment) :
    { s with assignment := some a, frame := some 0 }.notify .itemShown =
      (s.shownCommands a).foldl carryOut (s.enter a) := by
  unfold notify withTool shownCommands enter
  cases hset : s.annotationSet with
  | none => rfl
  | some set =>
    cases ht : s.tool with
    | none => rfl
    | some t => rfl

/-- The track tool asks for what was computed for the item, and no other tool for anything. -/
theorem shownCommands_cases (s : Session) (a : Assignment) :
    s.shownCommands a = [] ∨
    s.annotationSet.isSome = true ∧ (s.enter a).tool.map Tool.kind = some .detectionToTrack ∧
      ∃ r r', s.shownCommands a = [.fetch .freshDetections r, .fetch .freshMetadata r'] := by
  unfold shownCommands enter
  cases hset : s.annotationSet with
  | none => exact Or.inl rfl
  | some set =>
    cases ht : s.tool with
    | none => exact Or.inl rfl
    | some t =>
      rcases t.itemShown_fetches ({ s with assignment := some a, frame := some 0 }.view set) with
        hc | ⟨hk, hc⟩
      · exact Or.inl hc
      · exact Or.inr ⟨rfl, congrArg some ((t.kind_handle _ _).trans hk), hc⟩

/-- What the tool asks for is about the item that comes on show. -/
theorem shownCommands_covers (s : Session) (a : Assignment) :
    ∀ p r, Command.fetch p r ∈ s.shownCommands a → (s.enter a).Covers p r := by
  intro p r h
  unfold shownCommands at h
  split at h
  · rename_i set t _ _
    exact t.handle_asks _ .itemShown p r h
  · cases h

theorem notify_itemShown_fetches (s : Session) (a : Assignment) :
    Fetches True (s.enter a)
      ({ s with assignment := some a, frame := some 0 }.notify .itemShown) := by
  rw [notify_itemShown_eq]
  have hcovers := s.shownCommands_covers a
  rcases s.shownCommands_cases a with hc | ⟨-, hk, r, r', hc⟩
  · rw [hc]
    exact .refl
  · have ht : (s.enter a).tool.isSome = true := by
      obtain ⟨t, ht, -⟩ := Option.map_eq_some_iff.1 hk
      rw [ht]
      rfl
    rw [hc] at hcovers ⊢
    have hfirst : Fetch True (s.enter a) _ := .tool ht fun _ => hcovers .freshDetections r (by simp)
    have hsecond : Fetch True _ _ :=
      .tool (s := (s.enter a).issue (.tool .freshDetections) r) ht
        fun _ => hcovers .freshMetadata r' (by simp)
    exact .head hfirst (.single hsecond)

/-- After an item came on show, all that is left to do is to ask for what belongs to it. -/
theorem beginItem_fetches (s : Session) (a : Assignment) :
    Fetches True (s.enter a) (s.beginItem a) := by
  have himage : Fetches True (s.enter a) (_ : Session) :=
    (s.notify_itemShown_fetches a).trans (loadFrameImage_fetches _)
  have hsame : SameItem (s.enter a) _ := himage.sameItem
  exact himage.trans (loadExisting_fetches hsame.assignment)

/-- A piece of work that waited is dropped, or shows the item or the frame that it is
about. -/
theorem runDeferred_cases (s : Session) (task : Deferred) :
    s.runDeferred task = s ∨
    (∃ a g, task = .begin a g ∧ (g = s.generation ∨ s.config.stale = .apply) ∧
      s.runDeferred task = s.beginItem a) ∨
    (∃ index, task = .showFrame index s.frameSeq ∧ s.frameCount ≠ 0 ∧
      s.runDeferred task =
        { s with frame := some (index % signed s.frameCount).toNat }.loadFrameImage) := by
  cases task with
  | begin a g =>
    by_cases hs : g ≠ s.generation ∧ s.config.stale = .discard
    · exact Or.inl (if_pos hs)
    · refine Or.inr (Or.inl ⟨a, g, rfl, ?_, if_neg hs⟩)
      by_cases hg : g = s.generation
      · exact Or.inl hg
      · refine Or.inr ?_
        cases hp : s.config.stale with
        | apply => rfl
        | discard => exact absurd ⟨hg, hp⟩ hs
  | showFrame index n =>
    by_cases hs : n ≠ s.frameSeq ∨ s.frameCount = 0
    · exact Or.inl (if_pos hs)
    · have hn : n = s.frameSeq := by
        by_cases hn : n = s.frameSeq
        · exact hn
        · exact absurd (Or.inl hn) hs
      subst hn
      exact Or.inr (Or.inr ⟨index, rfl, fun hc => hs (Or.inr hc), if_neg hs⟩)

/-- Neither the settings, the counters of choices and items nor the work that waits change. -/
structure Steady (s s' : Session) : Prop where
  config : s'.config = s.config
  navSeq : s'.navSeq = s.navSeq
  generation : s'.generation = s.generation
  deferred : s'.deferred = s.deferred

theorem Steady.trans {s'' : Session} (h : Steady s s') (h' : Steady s' s'') : Steady s s'' where
  config := h'.config.trans h.config
  navSeq := h'.navSeq.trans h.navSeq
  generation := h'.generation.trans h.generation
  deferred := h'.deferred.trans h.deferred

theorem Fetches.steady (h : Fetches honest s s') : Steady s s' := by
  induction h with
  | refl => exact ⟨rfl, rfl, rfl, rfl⟩
  | tail _ hf ih =>
    refine ih.trans ?_
    cases hf <;> exact ⟨rfl, rfl, rfl, rfl⟩

theorem runDeferred_steady (s : Session) (task : Deferred) : Steady s (s.runDeferred task) := by
  rcases s.runDeferred_cases task with h | ⟨a, g, -, -, h⟩ | ⟨index, -, -, h⟩ <;> rw [h]
  · exact ⟨rfl, rfl, rfl, rfl⟩
  · have henter : Steady s (s.enter a) := ⟨rfl, rfl, rfl, rfl⟩
    exact henter.trans (s.beginItem_fetches a).steady
  · have hframe : Steady s { s with frame := some (index % signed s.frameCount).toNat } :=
      ⟨rfl, rfl, rfl, rfl⟩
    exact hframe.trans (loadFrameImage_fetches _).steady

theorem foldl_runDeferred_steady (tasks : List Deferred) :
    ∀ s : Session, Steady s (tasks.foldl runDeferred s) := by
  induction tasks with
  | nil => exact fun _ => ⟨rfl, rfl, rfl, rfl⟩
  | cons task rest ih => exact fun s => (s.runDeferred_steady task).trans (ih _)

/-! ## The operations of the user -/

/-- What the host asks for in the tool's name is about the item that is shown. -/
def Honest (s : Session) : SessionOp → Prop
  | .tool (.command (.fetch p r)) => s.Covers p r
  | _ => True

/-- An operation of the user is work on the item, in which nothing stored arrives, or it chooses
another one. -/
theorem perform_cases (d : Desk) {op : SessionOp} (hop : honest → d.session.Honest op) :
    Works (fun _ _ => False) honest d.session (d.perform op).session ∨
      Turns d.session (d.perform op).session ∨ op = .start ∨ op = .tick ∨ op = .takeRequests ∨
      ∃ t result, op = .complete t result := by
  cases op with
  | start => exact Or.inr (Or.inr (Or.inl rfl))
  | tick => exact Or.inr (Or.inr (Or.inr (Or.inl rfl)))
  | takeRequests => exact Or.inr (Or.inr (Or.inr (Or.inr (Or.inl rfl))))
  | complete t result => exact Or.inr (Or.inr (Or.inr (Or.inr (Or.inr ⟨t, result, rfl⟩))))
  | update => exact Or.inr (Or.inl (update_turns _))
  | getNewItem => exact Or.inr (Or.inl (getNewItem_turns _))
  | getOldItem index => exact Or.inr (Or.inl (getOldItem_turns _ index))
  | getFrame index => exact Or.inl (getFrame_works _ index)
  | jumpToRelative fraction => exact Or.inl (jumpToRelative_works _ fraction)
  | finishFrame => exact Or.inl (finishFrame_works _)
  | annotateItem => exact Or.inl (annotateItem_works _)
  | saveParams => exact Or.inl (saveParams_works _)
  | imageLoaded dims => exact Or.inl (imageLoaded_works _ dims)
  | dispatch e => exact Or.inl .refl
  | pumpKeys => exact Or.inl (handleKeys_works _ _)
  | dragStart pos => exact Or.inl (ask_works _ trivial)
  | endTrack => exact Or.inl (endTrack_works _)
  | takeErrors => exact Or.inl (.single .takeErrors)
  | tool op =>
    refine Or.inl (performTool_works _ ?_)
    rintro hh p r rfl
    exact hop hh
  | _ => exact Or.inl (notify_works _ trivial)

end Session

/-- Perform some operations, one after the other, as the host pleases. -/
def Desk.performAll (d : Desk) (ops : List SessionOp) : Desk := ops.foldl Desk.perform d

/-- Some operations, one after the other, each keep a promise. -/
def Desk.KeepsAll (promise : Session → SessionOp → Prop) (d : Desk) : List SessionOp → Prop
  | [] => True
  | op :: rest => promise d.session op ∧ (d.perform op).KeepsAll promise rest

end Labeling
