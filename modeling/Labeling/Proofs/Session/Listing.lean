import Labeling.Proofs.Session.Submission

/-!
# Going through the listing

In the mode of stored annotations the session is at a place of the listing, and in the mode of new
items there is neither a listing nor a place. Which item is asked for follows from that
(`Desk.listing_run`): the one at the place, which is the index that was asked for last, wrapped
around the listing, and in the mode of new items none in particular.

Nothing is assumed of the host here: it may start the session again, and hand in any results with
any tickets, in any order and more than once. Only what the host itself asks for in the tool's
name is its own affair.
-/

namespace Labeling

/-- The answer to a request decides which item is shown. -/
def Request.choosesItem : Request → Bool
  | .nextItem _ _ => true
  | _ => false

/-- A wish of the host, in the tool's name, to choose an item. -/
def SessionOp.ChoosesItem (op : SessionOp) (path : String) (key : Option String) : Prop :=
  ∃ p, op = .tool (.command (.fetch p (.nextItem path key)))

namespace Session

variable {s s' s'' : Session} {asked : Int}

/-! ## Operations that leave the place as it is -/

/-- Requests were made, none of which chooses an item. -/
def AsksOnly (s s' : Session) : Prop :=
  ∃ made, s'.outbox = s.outbox ++ made ∧ ∀ m ∈ made, m.2.choosesItem = false

/-- The session is at the same place as before, and no item was chosen. -/
structure Stays (s s' : Session) : Prop where
  mode : s'.mode = s.mode
  keyList : s'.keyList = s.keyList
  itemIndex : s'.itemIndex = s.itemIndex
  asks : AsksOnly s s'

theorem AsksOnly.of_eq (h : s'.outbox = s.outbox) : AsksOnly s s' :=
  ⟨[], by rw [h, List.append_nil], fun m hm => by cases hm⟩

theorem AsksOnly.trans (h : AsksOnly s s') (h' : AsksOnly s' s'') : AsksOnly s s'' := by
  obtain ⟨made, ho, hmade⟩ := h
  obtain ⟨made', ho', hmade'⟩ := h'
  refine ⟨made ++ made', by rw [ho', ho, List.append_assoc], fun m hm => ?_⟩
  exact (List.mem_append.1 hm).elim (hmade m) (hmade' m)

theorem Stays.refl (s : Session) : Stays s s := ⟨rfl, rfl, rfl, .of_eq rfl⟩

theorem Stays.trans (h : Stays s s') (h' : Stays s' s'') : Stays s s'' :=
  ⟨h'.mode.trans h.mode, h'.keyList.trans h.keyList, h'.itemIndex.trans h.itemIndex,
    h.asks.trans h'.asks⟩

theorem stays_issue (s : Session) (p : Purpose) {r : Request} (hr : r.choosesItem = false) :
    Stays s (s.issue p r) := by
  refine ⟨rfl, rfl, rfl, _, rfl, fun m hm => ?_⟩
  rw [List.mem_singleton.1 hm]
  exact hr

theorem stays_reportMessage (s : Session) (message : String) : Stays s (s.reportMessage message) :=
  ⟨rfl, rfl, rfl, .of_eq rfl⟩

theorem stays_report (s : Session) (f : Failure) : Stays s (s.report f) :=
  s.stays_reportMessage f.userMessage

theorem stays_resetItem (s : Session) : Stays s s.resetItem := ⟨rfl, rfl, rfl, .of_eq rfl⟩

theorem stays_getFrame (s : Session) (index : Int) : Stays s (s.getFrame index) := by
  unfold getFrame
  split
  · exact .refl s
  · exact ⟨rfl, rfl, rfl, .of_eq rfl⟩

theorem stays_jumpToRelative (s : Session) (fraction : Float) :
    Stays s (s.jumpToRelative fraction) := by
  unfold jumpToRelative
  split
  · exact .refl s
  · exact s.stays_getFrame _

theorem stays_annotateItem (s : Session) : Stays s s.annotateItem := by
  unfold annotateItem
  split
  · exact s.stays_issue _ rfl
  · exact .refl s

theorem stays_finishFrame (s : Session) : Stays s s.finishFrame := by
  unfold finishFrame
  split
  · exact .refl s
  · split
    · exact s.stays_annotateItem
    · exact s.stays_getFrame _

theorem stays_loadFrameImage (s : Session) : Stays s s.loadFrameImage := by
  unfold loadFrameImage
  split
  · split
    · exact .refl s
    · exact s.stays_issue _ rfl
  · exact .refl s

theorem stays_loadExisting (s : Session) (a : Assignment) : Stays s (s.loadExisting a) := by
  unfold loadExisting
  split
  · exact .refl s
  · split
    · exact s.stays_issue _ rfl
    · exact .refl s

theorem stays_saveParams (s : Session) : Stays s s.saveParams := by
  unfold saveParams
  split
  · exact .refl s
  · exact ⟨rfl, rfl, rfl, (stays_issue _ .saveParams rfl).asks⟩

theorem stays_carryOut (s : Session) {c : Command}
    (hc : ∀ p path key, c ≠ .fetch p (.nextItem path key)) : Stays s (s.carryOut c) := by
  cases c with
  | fetch p r =>
    refine s.stays_issue _ ?_
    cases r with
    | nextItem path key => exact absurd rfl (hc p path key)
    | _ => rfl
  | goToFrame frame => exact s.stays_getFrame _
  | finishFrame => exact s.stays_finishFrame
  | annotateItem => exact s.stays_annotateItem
  | reportError message => exact s.stays_reportMessage message

theorem stays_foldl_carryOut {commands : List Command}
    (h : ∀ p path key, Command.fetch p (.nextItem path key) ∉ commands) :
    ∀ s : Session, Stays s (commands.foldl carryOut s) := by
  induction commands with
  | nil => exact .refl
  | cons c rest ih =>
    intro s
    refine (s.stays_carryOut fun p path key hc => ?_).trans
      (ih (fun p path key hmem => h p path key (List.mem_cons_of_mem _ hmem)) _)
    exact h p path key (by rw [hc]; exact List.mem_cons_self ..)

theorem stays_withTool (s : Session) {call : Tool → View → Outcome Tool}
    (h : ∀ set t, s.annotationSet = some set → s.tool = some t →
      ∀ p path key, Command.fetch p (.nextItem path key) ∉ (call t (s.view set)).commands) :
    Stays s (s.withTool call).2 := by
  unfold withTool
  split
  · rename_i set t hset ht
    have hcall : Stays s { s with tool := some (call t (s.view set)).tool } :=
      ⟨rfl, rfl, rfl, .of_eq rfl⟩
    exact hcall.trans (stays_foldl_carryOut (h set t hset ht) _)
  · exact .refl s

theorem stays_notify (s : Session) (e : ToolEvent) : Stays s (s.notify e) :=
  s.stays_withTool fun _ t _ _ => t.handle_not_nextItem _ e

theorem stays_ask (s : Session) (e : ToolEvent) : Stays s (s.ask e).2 := by
  unfold ask
  split <;> rename_i h <;> rw [show _ = (s.withTool _).2 from (congrArg Prod.snd h).symm] <;>
    exact s.stays_notify e

theorem stays_handleKeys (s : Session) (events : List KeyEvent) : Stays s (s.handleKeys events) := by
  unfold handleKeys
  induction events generalizing s with
  | nil => exact .refl s
  | cons e rest ih => exact (s.stays_notify (.key e)).trans (ih _)

theorem stays_imageLoaded (s : Session) (dims : Dims) : Stays s (s.imageLoaded dims) := by
  unfold imageLoaded
  split
  · exact .refl s
  · have hdims : Stays s { s with dims := some dims } := ⟨rfl, rfl, rfl, .of_eq rfl⟩
    exact hdims.trans (stays_notify _ .imageLoaded)

theorem stays_endTrack (s : Session) : Stays s s.endTrack := by
  refine s.stays_withTool fun set t _ _ p path key hc => ?_
  cases h : t.perform (s.view set) .endTrack with
  | none =>
    rw [h] at hc
    cases hc
  | some o =>
    rw [h] at hc
    cases Tool.perform_not_nextItem h hc

theorem stays_performTool (s : Session) {op : ToolOp}
    (hop : ∀ p path key, op ≠ .command (.fetch p (.nextItem path key))) :
    Stays s (s.performTool op).2 := by
  unfold performTool
  split
  · split
    · rename_i o ho
      exact s.stays_withTool fun _ _ _ _ p path key hc =>
        hop p path key (Tool.perform_not_nextItem ho hc)
    · exact .refl s
  · exact .refl s

theorem stays_beginItem (s : Session) (a : Assignment) : Stays s (s.beginItem a) := by
  unfold beginItem
  have henter : Stays s { s with assignment := some a, frame := some 0 } :=
    ⟨rfl, rfl, rfl, .of_eq rfl⟩
  exact ((henter.trans (stays_notify _ .itemShown)).trans (stays_loadFrameImage _)).trans
    (stays_loadExisting _ a)

theorem stays_runDeferred (s : Session) (task : Deferred) : Stays s (s.runDeferred task) := by
  rcases s.runDeferred_cases task with h | ⟨a, g, -, -, h⟩ | ⟨index, -, -, h⟩ <;> rw [h]
  · exact .refl s
  · exact s.stays_beginItem a
  · have hframe : Stays s { s with frame := some (index % signed s.frameCount).toNat } :=
      ⟨rfl, rfl, rfl, .of_eq rfl⟩
    exact hframe.trans (stays_loadFrameImage _)

theorem stays_tick (s : Session) : Stays s s.tick := by
  have htasks : ∀ (tasks : List Deferred) (x : Session), Stays x (tasks.foldl runDeferred x) := by
    intro tasks
    induction tasks with
    | nil => exact .refl
    | cons task rest ih => exact fun x => (x.stays_runDeferred task).trans (ih _)
  have hround : Stays s { s with deferred := [] } := ⟨rfl, rfl, rfl, .of_eq rfl⟩
  exact hround.trans (htasks s.deferred _)

/-! ## Places -/

/-- In the mode of new items there is no place; otherwise the place is the index that was asked
for last, wrapped around the listing. -/
structure AtIndex (asked : Int) (s : Session) : Prop where
  new : s.mode = .new → s.keyList = none ∧ s.itemIndex = 0
  place : ∀ keys, s.keyList = some keys → keys ≠ [] →
    s.itemIndex = (asked % (keys.length : Int)).toNat

theorem AtIndex.stays (h : s.AtIndex asked) (hs : Stays s s') : s'.AtIndex asked where
  new hm := by
    rw [hs.keyList, hs.itemIndex]
    exact h.new (hs.mode ▸ hm)
  place keys hk hne := by
    rw [hs.itemIndex]
    exact h.place keys (hs.keyList ▸ hk) hne

theorem AtIndex.placed (h : s.AtIndex asked) : s.Placed := by
  intro keys hk hne
  rw [h.place keys hk hne]
  exact toNat_emod_lt asked hne

theorem AtIndex.askFor (h : s.AtIndex asked) (set : AnnotationSet) (key : Option String) :
    (s.askFor set key).AtIndex asked := ⟨h.new, h.place⟩

/-- What is asked for follows from the place. -/
theorem AtIndex.wants (h : s.AtIndex asked) {key : Option String} (hkey : s.Wants key) :
    (key = none ↔ s.mode = .new) ∧
      (s.mode = .existing → ∃ keys, s.keyList = some keys ∧ s.itemIndex < keys.length ∧
        s.itemIndex = (asked % (keys.length : Int)).toNat ∧ key = keys[s.itemIndex]?) := by
  unfold Wants at hkey
  cases hm : s.mode with
  | new =>
    rw [hm] at hkey
    exact ⟨iff_of_true hkey rfl, fun hc => by cases hc⟩
  | existing =>
    rw [hm] at hkey
    obtain ⟨keys, hk, hne, rfl⟩ := hkey
    have hlt := h.placed keys hk hne
    refine ⟨iff_of_false ?_ (fun hc => by cases hc), fun _ => ?_⟩
    · rw [List.getElem?_eq_getElem hlt]
      exact Option.some_ne_none _
    · exact ⟨keys, hk, hlt, h.place keys hk hne, rfl⟩

/-! ## Operations that choose -/

/-- The session goes to a place, and possibly asks for the item there. -/
def Leads (asked : Int) (s s' : Session) : Prop :=
  ∃ x, AsksOnly s x ∧ x.AtIndex asked ∧
    (s' = x ∨ ∃ set key, x.Wants key ∧ s' = x.askFor set key)

theorem Leads.atIndex (h : Leads asked s s') : s'.AtIndex asked := by
  obtain ⟨x, -, hx, rfl | ⟨set, key, -, rfl⟩⟩ := h
  · exact hx
  · exact hx.askFor set key

theorem Leads.here (h : AsksOnly s s') (hplace : s'.AtIndex asked) : Leads asked s s' :=
  ⟨s', h, hplace, Or.inl rfl⟩

theorem Stays.leads (h : Stays s s') (hs : s.AtIndex asked) : Leads asked s s' :=
  .here h.asks (hs.stays h)

theorem Leads.head (h : Leads asked s' s'') (hs : AsksOnly s s') : Leads asked s s'' := by
  obtain ⟨x, hx, hplace, hend⟩ := h
  exact ⟨x, hs.trans hx, hplace, hend⟩

theorem update_leads (h : s.AtIndex asked) : Leads asked s s.update := by
  unfold update
  split
  · exact (Stays.refl s).leads h
  · rename_i set _
    split
    · rename_i hm
      exact ⟨s, .of_eq rfl, h, Or.inr ⟨set, none, by unfold Wants; rw [hm], rfl⟩⟩
    · rename_i hm
      split
      · exact (Stays.refl s).leads h
      · exact (Stays.refl s).leads h
      · rename_i keys hne hk
        refine ⟨s, .of_eq rfl, h, Or.inr ⟨set, keys[s.itemIndex]?, ?_, rfl⟩⟩
        unfold Wants
        rw [hm]
        exact ⟨keys, hk, fun hc => hne hc, rfl⟩

theorem getNewItem_leads (s : Session) (asked : Int) : Leads asked s s.getNewItem := by
  refine (update_leads ⟨fun _ => ⟨rfl, rfl⟩, fun keys hk => ?_⟩).head (.of_eq rfl)
  cases hk

theorem getOldItem_leads (s : Session) (index : Int) : Leads index s (s.getOldItem index) := by
  unfold getOldItem
  dsimp only
  split
  · rename_i hk
    have hplace : AtIndex index { s with mode := .existing, message := none } := by
      refine ⟨fun hm => (by cases hm), fun keys hkeys => ?_⟩
      cases hk.symm.trans hkeys
    split
    · exact .here (.of_eq rfl) hplace
    · exact .here (stays_issue { s with mode := .existing, message := none, navSeq := s.navSeq + 1 }
        (.keyList index) rfl).asks ⟨hplace.new, hplace.place⟩
  · rename_i hk
    refine .here (.of_eq rfl) ⟨fun hm => (by cases hm), fun keys hkeys hne => ?_⟩
    exact absurd (Option.some.inj (hkeys.symm.trans hk)) hne
  · rename_i keys hne hk
    refine (update_leads ⟨fun hm => (by cases hm), fun keys' hkeys _ => ?_⟩).head (.of_eq rfl)
    obtain rfl := Option.some.inj (hk.symm.trans hkeys)
    rfl

theorem install_leads (h : s.AtIndex asked) (set : AnnotationSet) :
    Leads asked s (s.install set) := by
  unfold install
  cases Tool.ofSet? set s.config.bindings with
  | none =>
    have hset : Stays s { s with tool := none, annotationSet := some set } :=
      ⟨rfl, rfl, rfl, .of_eq rfl⟩
    exact (hset.trans (stays_reportMessage _ _)).leads h
  | some t =>
    have hset : Stays s { s with tool := some t, annotationSet := some set } :=
      ⟨rfl, rfl, rfl, .of_eq rfl⟩
    have hready := hset.trans (stays_notify _ .ready)
    dsimp only
    split
    · exact (getNewItem_leads _ asked).head hready.asks
    · exact hready.leads h

theorem start_leads (h : s.AtIndex asked) : Leads asked s s.start := by
  unfold start
  split
  · rename_i set _
    have hunset : Stays s { s with annotationSet := none } := ⟨rfl, rfl, rfl, .of_eq rfl⟩
    exact (install_leads (h.stays hunset) set).head hunset.asks
  · exact (s.stays_issue _ rfl).leads h

/-- The index that a result asks for: the one for which the listing was fetched, or after an
accepted submission the next one. -/
def resultIndex? (s : Session) (p : Purpose) (result : Response) : Option Int :=
  match p with
  | .keyList index =>
    match result.parse listing? with
    | .ok _ => some index
    | .error _ => none
  | .submit =>
    match result, s.mode with
    | .ok _, .existing => some (signed s.itemIndex + 1)
    | _, _ => none
  | _ => none

theorem onAssignment_leads (h : s.AtIndex asked) (result : Response) :
    Leads asked s (s.onAssignment result) := by
  unfold onAssignment
  split
  · split
    · exact (s.stays_reportMessage _).leads h
    · exact (s.stays_issue _ rfl).leads h
  · split
    · have hleft : Stays s { s.resetItem with message := some everythingLabeledMessage } :=
        s.stays_resetItem.trans ⟨rfl, rfl, rfl, .of_eq rfl⟩
      exact hleft.leads h
    · exact (s.stays_report _).leads h

theorem onItemMeta_leads (h : s.AtIndex asked) (a : Assignment) (result : Response) :
    Leads asked s (s.onItemMeta a result) := by
  cases hr : result.parse (Json.nullable ItemMeta.read?) with
  | error f =>
    unfold onItemMeta
    rw [hr]
    exact (s.stays_report f).leads h
  | ok known =>
    rw [onItemMeta_of_ok hr]
    exact Stays.leads ⟨rfl, rfl, rfl, .of_eq rfl⟩ h

theorem apply_leads (h : s.AtIndex asked) (p : Purpose) (result : Response) :
    Leads ((s.resultIndex? p result).getD asked) s (s.apply p result) := by
  cases p with
  | annotationSet =>
    show Leads asked s _
    unfold apply
    dsimp only
    split
    · exact install_leads h _
    · exact (s.stays_report _).leads h
  | assignment => exact onAssignment_leads h result
  | itemMeta a => exact onItemMeta_leads h a result
  | existingData =>
    show Leads asked s _
    unfold apply
    dsimp only
    split
    · exact (s.stays_notify _).leads h
    · exact (s.stays_report _).leads h
  | keyList index =>
    show Leads _ s (s.onKeyList index result)
    unfold onKeyList resultIndex?
    cases hr : result.parse listing? with
    | error f => exact (s.stays_report f).leads h
    | ok keys => exact (getOldItem_leads _ index).head (.of_eq rfl)
  | submit =>
    show Leads _ s (s.onSubmitted result)
    unfold onSubmitted resultIndex?
    cases result with
    | error f => exact (s.stays_report f).leads h
    | ok payload =>
      cases hm : s.mode with
      | new => exact s.getNewItem_leads asked
      | existing =>
        dsimp only
        rw [Option.getD_some]
        exact s.getOldItem_leads _
  | saveParams =>
    show Leads asked s _
    unfold apply
    dsimp only
    split
    · exact (Stays.refl s).leads h
    · exact (s.stays_report _).leads h
  | frameImage n =>
    show Leads asked s _
    unfold apply
    dsimp only
    split
    · exact (s.stays_imageLoaded _).leads h
    · exact (s.stays_report _).leads h
  | tool p => exact (s.stays_notify _).leads h

/-- The index that an operation asks for. -/
def operationIndex? (s : Session) : SessionOp → Option Int
  | .getOldItem index => some index
  | .complete t result => if s.isStale t then none else s.resultIndex? t.purpose result
  | _ => none

theorem complete_leads (h : s.AtIndex asked) (t : Ticket) (result : Response) :
    Leads ((s.operationIndex? (.complete t result)).getD asked) s (s.complete t result) := by
  unfold complete operationIndex?
  dsimp only
  split
  · exact (Stays.refl s).leads h
  · exact apply_leads h t.purpose result

/-- Every operation leads to the index that it asks for, or else to the one that was asked for
before. -/
theorem perform_leads {d : Desk} (h : d.session.AtIndex asked) {op : SessionOp}
    (hop : ∀ path key, ¬ op.ChoosesItem path key) (htake : op ≠ .takeRequests) :
    Leads ((d.session.operationIndex? op).getD asked) d.session (d.perform op).session := by
  cases op with
  | start => exact start_leads h
  | tick => exact d.session.stays_tick.leads h
  | update => exact update_leads h
  | getNewItem => exact d.session.getNewItem_leads asked
  | getOldItem index => exact d.session.getOldItem_leads index
  | getFrame index => exact (d.session.stays_getFrame index).leads h
  | jumpToRelative fraction => exact (d.session.stays_jumpToRelative fraction).leads h
  | finishFrame => exact d.session.stays_finishFrame.leads h
  | annotateItem => exact d.session.stays_annotateItem.leads h
  | saveParams => exact d.session.stays_saveParams.leads h
  | imageLoaded dims => exact (d.session.stays_imageLoaded dims).leads h
  | dispatch e => exact (Stays.refl _).leads h
  | pumpKeys => exact (d.session.stays_handleKeys _).leads h
  | dragStart pos => exact (d.session.stays_ask _).leads h
  | endTrack => exact d.session.stays_endTrack.leads h
  | tool op =>
    refine (d.session.stays_performTool fun p path key hc => ?_).leads h
    exact hop path key ⟨p, by rw [hc]⟩
  | takeRequests => exact absurd rfl htake
  | takeErrors => exact Stays.leads ⟨rfl, rfl, rfl, .of_eq rfl⟩ h
  | complete t result => exact complete_leads h t result
  | _ => exact (d.session.stays_notify _).leads h

/-- What the host asks for in the tool's name is all that comes of its wish. -/
theorem performTool_fetch (s : Session) (p : ToolPurpose) (r : Request) :
    (s.performTool (.command (.fetch p r))).2 = s ∨
      (s.performTool (.command (.fetch p r))).2 = s.issue (.tool p) r := by
  cases hset : s.annotationSet with
  | none => exact Or.inl (by unfold performTool; rw [hset])
  | some set =>
    cases ht : s.tool with
    | none => exact Or.inl (by unfold performTool; rw [hset, ht])
    | some t =>
      right
      cases s
      cases hset
      cases ht
      rfl

end Session

namespace Desk

variable {d : Desk} {asked : Int} {op : SessionOp}

/-- A wish of the host to choose an item is handed on, and the session stays where it is. -/
theorem perform_wish (d : Desk) {path : String} {key : Option String}
    (hop : op.ChoosesItem path key) :
    (d.perform op).session = d.session ∨
      ∃ p, (d.perform op).session = d.session.issue (.tool p) (.nextItem path key) := by
  obtain ⟨p, rfl⟩ := hop
  exact (d.session.performTool_fetch p (.nextItem path key)).imp_right fun h => ⟨p, h⟩

/-- An operation takes the requests, or is a wish of the host to choose an item, or leads to a
place. -/
theorem perform_place (h : d.session.AtIndex asked) (op : SessionOp) :
    op = .takeRequests ∨ (∃ path key, op.ChoosesItem path key) ∨
      Session.Leads ((d.session.operationIndex? op).getD asked) d.session
        (d.perform op).session := by
  by_cases htake : op = .takeRequests
  · exact Or.inl htake
  · by_cases hwish : ∃ path key, op.ChoosesItem path key
    · exact Or.inr (Or.inl hwish)
    · exact Or.inr (Or.inr
        (Session.perform_leads h (fun path key hc => hwish ⟨path, key, hc⟩) htake))

theorem atIndex_perform (h : d.session.AtIndex asked) (op : SessionOp) :
    (d.perform op).session.AtIndex ((d.session.operationIndex? op).getD asked) := by
  rcases perform_place h op with rfl | ⟨path, key, hop⟩ | hleads
  · exact ⟨h.new, h.place⟩
  · have hnone : d.session.operationIndex? op = none := by
      obtain ⟨p, rfl⟩ := hop
      rfl
    rw [hnone, Option.getD_none]
    rcases d.perform_wish hop with hs | ⟨p, hs⟩ <;> rw [hs]
    · exact h
    · exact ⟨h.new, h.place⟩
  · exact hleads.atIndex

/-- Requests are only added, unless they are taken. -/
theorem outbox_perform (h : d.session.AtIndex asked) (htake : op ≠ .takeRequests) :
    ∃ made, (d.perform op).session.outbox = d.session.outbox ++ made := by
  rcases perform_place h op with hop | ⟨path, key, hop⟩ |
    ⟨x, ⟨made, ho, -⟩, -, hs | ⟨set, key, -, hs⟩⟩
  · exact absurd hop htake
  · rcases d.perform_wish hop with hs | ⟨p, hs⟩ <;> rw [hs]
    · exact ⟨[], (List.append_nil _).symm⟩
    · exact ⟨_, rfl⟩
  · exact ⟨made, hs ▸ ho⟩
  · rw [hs]
    show ∃ made', x.outbox ++ _ = _
    rw [ho, List.append_assoc]
    exact ⟨_, rfl⟩

/-- A request that chooses an item is one for which the host wished, or is made last of all in an
operation, for the item at the place where the session then is. -/
theorem nextItem_perform (h : d.session.AtIndex asked) {made : List (Ticket × Request)}
    (ho : (d.perform op).session.outbox = d.session.outbox ++ made) {t : Ticket} {path : String}
    {key : Option String} (hmem : (t, .nextItem path key) ∈ made) :
    op.ChoosesItem path key ∨ ∃ (x : Session) (set : AnnotationSet),
      (d.perform op).session = x.askFor set key ∧ x.Wants key ∧
        x.AtIndex ((d.session.operationIndex? op).getD asked) := by
  rcases perform_place h op with rfl | ⟨path', key', hop⟩ |
    ⟨x, ⟨made', ho', hmade⟩, hx, hs | ⟨set, key', hkey, hs⟩⟩
  · rw [(List.append_eq_nil_iff.1 ho.symm).2] at hmem
    cases hmem
  · rcases d.perform_wish hop with hs | ⟨p, hs⟩ <;> rw [hs] at ho
    · rw [List.self_eq_append_right.1 ho] at hmem
      cases hmem
    · rw [← List.append_cancel_left ho] at hmem
      cases List.mem_singleton.1 hmem
      exact Or.inl hop
  · rw [hs, ho'] at ho
    rw [← List.append_cancel_left ho] at hmem
    cases hmade _ hmem
  · rw [hs] at ho ⊢
    change x.outbox ++ _ = _ at ho
    rw [ho', List.append_assoc] at ho
    rw [← List.append_cancel_left ho] at hmem
    rcases List.mem_append.1 hmem with hmem | hmem
    · cases hmade _ hmem
    · cases List.mem_singleton.1 hmem
      exact Or.inr ⟨x, set, rfl, hkey, hx⟩

/-! ## Runs -/

/-- The index that was asked for last, if it was none of some operations that did. -/
def lastIndex (d : Desk) (asked : Int) : List SessionOp → Int
  | [] => asked
  | op :: rest => (d.perform op).lastIndex ((d.session.operationIndex? op).getD asked) rest

theorem lastIndex_concat {ops : List SessionOp} (op : SessionOp) :
    ∀ (d : Desk) (asked : Int), d.lastIndex asked (ops ++ [op]) =
      ((d.performAll ops).session.operationIndex? op).getD (d.lastIndex asked ops) := by
  induction ops with
  | nil => exact fun _ _ => rfl
  | cons first rest ih => exact fun d asked => ih (d.perform first) _

theorem atIndex_performAll {ops : List SessionOp} :
    ∀ {d : Desk} {asked : Int}, d.session.AtIndex asked →
      (d.performAll ops).session.AtIndex (d.lastIndex asked ops) := by
  induction ops with
  | nil => exact fun h => h
  | cons op rest ih => exact fun h => ih (atIndex_perform h op)

/-- In the mode of new items there is neither a listing nor a place in it, and otherwise the place
is one of the listing. Every request by which the session chooses an item names no key in the mode
of new items. In the mode of stored annotations it names the key at the place, which is the index
that was asked for last, wrapped around the listing. -/
theorem listing_run {hub : KeyHub} {s : Session} (hs : s.IsFresh) (ops : List SessionOp)
    (op : SessionOp) :
    let start : Desk := ⟨hub, s⟩
    let d := start.performAll ops
    (d.session.mode = .new → d.session.keyList = none ∧ d.session.itemIndex = 0) ∧
    (∀ keys, d.session.keyList = some keys → keys ≠ [] → d.session.itemIndex < keys.length) ∧
    (op ≠ .takeRequests → ∃ made, (d.perform op).session.outbox = d.session.outbox ++ made) ∧
    ∀ made, (d.perform op).session.outbox = d.session.outbox ++ made →
      ∀ t path key, (t, .nextItem path key) ∈ made →
        op.ChoosesItem path key ∨
        ∃ (x : Session) (set : AnnotationSet), (d.perform op).session = x.askFor set key ∧
          (key = none ↔ x.mode = .new) ∧
          (x.mode = .existing → ∃ keys, x.keyList = some keys ∧ x.itemIndex < keys.length ∧
            x.itemIndex = (start.lastIndex 0 (ops ++ [op]) % (keys.length : Int)).toNat ∧
            key = keys[x.itemIndex]?) := by
  intro start d
  have hstart : start.session.AtIndex 0 := by
    rcases hs with ⟨id, config, keys, rfl⟩ | ⟨set, config, keys, rfl⟩ <;>
      exact ⟨fun _ => ⟨rfl, rfl⟩, fun keys hk => by cases hk⟩
  have hd : d.session.AtIndex (start.lastIndex 0 ops) := atIndex_performAll hstart
  refine ⟨hd.new, hd.placed, outbox_perform hd, fun made ho t path key hmem => ?_⟩
  rw [lastIndex_concat]
  refine (nextItem_perform hd ho hmem).imp_right ?_
  rintro ⟨x, set, hx, hkey, hplace⟩
  exact ⟨x, set, hx, hplace.wants hkey⟩

/-- The last of four stored items is asked for, counted from the end. -/
theorem listing_run_last :
    let s := Session.ofSet (History.exampleSet .int .int) .default 0
    let ops : List SessionOp := [.start, .getOldItem (-1)]
    let op : SessionOp := .complete ⟨1, .keyList (-1), 2⟩ (.ok (.json (.arr
      (["a", "b", "c", "d"].map fun key => .obj [("Key", .str key)]))))
    let d := (⟨.empty, s⟩ : Desk).performAll ops
    s.IsFresh ∧
      (d.perform op).session.outbox = d.session.outbox ++
        [(⟨2, .assignment, 3⟩, .nextItem "/annotate-datasets/1/annotate" (some "d"))] ∧
      ∃ (x : Session) (set : AnnotationSet),
        (d.perform op).session = x.askFor set (some "d") ∧ x.mode ≠ .new := by
  intro s ops op d
  have hs : s.IsFresh := Or.inr ⟨_, _, _, rfl⟩
  have ho : (d.perform op).session.outbox = d.session.outbox ++
      [(⟨2, .assignment, 3⟩, .nextItem "/annotate-datasets/1/annotate" (some "d"))] := by
    decide +kernel
  refine ⟨hs, ho, ?_⟩
  rcases (listing_run hs ops op).2.2.2 _ ho _ _ _ (List.mem_singleton_self _) with
    ⟨p, hp⟩ | ⟨x, set, hx, hmode, -⟩
  · change SessionOp.complete _ _ = _ at hp
    cases hp
  · exact ⟨x, set, hx, fun hc => Option.some_ne_none _ (hmode.2 hc)⟩

end Desk
end Labeling
