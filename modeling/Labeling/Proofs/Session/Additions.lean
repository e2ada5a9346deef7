import Labeling.Proofs.Session.History
import Labeling.Proofs.Session.Weights

/-!
# Requests that are added

Which tickets an operation adds to the outbox of a session whose tool goes through items.

* What the user does about an item asks for nothing that belongs to it (`Session.Apart`).
* Choosing an item asks for one item at most, with the number of this choice (`Session.Chooses`).
* The answer to a request that leads on (`Purpose.leads`) chooses an item, or puts off the showing
  of one (`Session.apply_leads_cases`). Any other answer asks for nothing (`Session.quiet_apply`).
* A round asks for what belongs to an item only if one comes on show (`Session.tick_adds`).
-/

namespace Labeling

/-! ## Requests that tools make -/

/-- The answer to the request can lead to another item. -/
def Purpose.leads : Purpose → Bool
  | .annotationSet => true
  | .assignment => true
  | .itemMeta _ => true
  | .keyList _ => true
  | .submit => true
  | _ => false

theorem Purpose.leads_of_isNavigation {p : Purpose} (h : p.isNavigation = true) :
    p.leads = true := by
  cases p <;> first | rfl | cases h

theorem Purpose.isItemScoped_of_leads {p : Purpose} (h : p.leads = true) :
    p.isItemScoped = false := by
  cases p <;> first | rfl | cases h

namespace Tool

theorem drivesItems_iff (t : Tool) : t.drivesItems = true ↔ t.kind ≠ .geoJson := by
  cases t <;> simp [drivesItems, kind]

/-- A tool that goes through items makes requests only when an item comes on show. -/
theorem handle_not_fetch {t : Tool} (ht : t.drivesItems = true) (v : View) {e : ToolEvent}
    (he : e ≠ .itemShown) (p : ToolPurpose) (r : Request) :
    Command.fetch p r ∉ (t.handle v e).commands := by
  cases t with
  | shape t => simp [handle, Outcome.map]
  | int t => rcases t.handle_commands v e with h | h <;> simp [handle, Outcome.map, h]
  | track t =>
    show Command.fetch p r ∉ (t.handle v e).commands
    cases e with
    | itemShown => exact absurd rfl he
    | fetched _ result =>
      simp only [TrackTool.handle, TrackTool.fetched]
      split <;> simp [Outcome.quiet]
    | key e =>
      simp only [TrackTool.handle, TrackTool.handleKey]
      split <;> simp [TrackTool.endTrack]
    | click pos =>
      simp only [TrackTool.handle, TrackTool.click]
      split
      · simp [Outcome.quiet]
      · split
        · split <;> simp [Outcome.quiet]
        · simp [Outcome.quiet]
    | _ => simp [TrackTool.handle, Outcome.quiet]
  | geoJson t => cases ht

/-- In an operation of its controls, only what the host wishes it to ask for. -/
theorem perform_not_fetch {t : Tool} (ht : t.drivesItems = true) {v : View} {op : ToolOp}
    {o : Outcome Tool} (h : t.perform v op = some o) {p : ToolPurpose} {r : Request}
    (hc : Command.fetch p r ∈ o.commands) : op = .command (.fetch p r) := by
  rcases perform_eq_some h with ⟨c, rfl, rfl⟩ | rfl | ⟨s, q, rfl, hq, rfl⟩ | ⟨s, q, rfl, hq, rfl⟩ |
    ⟨s, q, rfl, hq, rfl⟩ | ⟨s, q, rfl, hq, rfl⟩
  · rw [List.mem_singleton.1 hc]
  · exact absurd hc (handle_not_fetch ht v (by simp) p r)
  · change _ ∈ q.commands at hc
    rw [performShape_commands hq] at hc
    cases hc
  · change _ ∈ q.commands at hc
    cases op <;> simp only [performLabel, Option.some.injEq, reduceCtorEq] at hq <;> subst hq
    · cases hc
    · rcases s.pressButton_commands v _ with h | h <;> rw [h] at hc <;> simp at hc
    · cases hc
    · unfold LabelTool.submitInput at hc
      split at hc <;> simp at hc
  · change _ ∈ q.commands at hc
    cases op <;> simp only [performTrack, Option.some.injEq, reduceCtorEq] at hq
    subst hq
    simp [TrackTool.endTrack] at hc
  · cases ht

end Tool

namespace Session

variable {s s' : Session} {stored : Session → Json → Prop} {honest : Prop}

/-- If there is a tool, it goes through items. -/
def Drives (s : Session) : Prop := s.tool.all Tool.drivesItems = true

instance : Decidable s.Drives := inferInstanceAs (Decidable (_ = true))

theorem Drives.tool (h : s.Drives) {t : Tool} (ht : s.tool = some t) : t.drivesItems = true := by
  unfold Drives at h
  rw [ht] at h
  exact h

/-- A tool of the same kind goes through items as well. -/
theorem Drives.of_kind (h : s.Drives) (hk : s'.tool.map Tool.kind = s.tool.map Tool.kind) :
    s'.Drives := by
  unfold Drives
  cases ht' : s'.tool with
  | none => rfl
  | some t' =>
    rw [ht', Option.map_some] at hk
    obtain ⟨t, ht, hkind⟩ := Option.map_eq_some_iff.1 hk.symm
    show t'.drivesItems = true
    rw [t'.drivesItems_iff, ← hkind, ← t.drivesItems_iff]
    exact h.tool ht

/-! ## Requests that are added -/

/-- All requests that are added carry tickets of a certain sort. -/
def Adds (P : Ticket → Prop) (s s' : Session) : Prop :=
  ∀ t r, (t, r) ∈ s'.outbox → (t, r) ∈ s.outbox ∨ P t

section Adds

variable {P : Ticket → Prop}

theorem Adds.of_eq (h : s'.outbox = s.outbox) : Adds P s s' := fun _ _ hm => Or.inl (h ▸ hm)

theorem Adds.trans {s'' : Session} (h : Adds P s s') (h' : Adds P s' s'') : Adds P s s'' :=
  fun t r hm => (h' t r hm).elim (h t r) Or.inr

theorem adds_issue {p : Purpose} {r : Request}
    (hp : P ⟨s.nextTicket, p, if p.isNavigation then s.navSeq else s.generation⟩) :
    Adds P s (s.issue p r) := by
  intro t r' hm
  rcases List.mem_append.1 hm with hm | hm
  · exact Or.inl hm
  · obtain ⟨rfl, -⟩ := Prod.mk.inj (List.mem_singleton.1 hm)
    exact Or.inr hp

end Adds

/-- While an item is shown, tickets carry its number. -/
theorem Work.adds_current (hw : Work stored honest s s') :
    Adds (fun t => t.generation = s.generation) s s' := by
  cases hw with
  | fetch hf => cases hf <;> exact adds_issue rfl
  | submit hset ha ht => exact adds_issue rfl
  | saveParams params ht => exact Adds.trans (.of_eq rfl) (adds_issue rfl)
  | _ => exact .of_eq rfl

theorem Works.adds_current (hw : Works stored honest s s') :
    Adds (fun t => t.generation = s.generation) s s' := by
  induction hw with
  | refl => exact .of_eq rfl
  | tail hfirst hw ih =>
    refine ih.trans fun t r hm => ?_
    rw [← (Works.sameItem hfirst).generation]
    exact hw.adds_current t r hm

/-- It is not about the item that is shown. -/
def Apart (t : Ticket) : Prop := t.purpose.isItemScoped = false

/-! ### The user asks for nothing about the item -/

theorem getFrame_adds (s : Session) (index : Int) : Adds Apart s (s.getFrame index) := by
  unfold getFrame
  split
  · exact .of_eq rfl
  · exact .of_eq rfl

theorem jumpToRelative_adds (s : Session) (fraction : Float) :
    Adds Apart s (s.jumpToRelative fraction) := by
  unfold jumpToRelative
  split
  · exact .of_eq rfl
  · exact s.getFrame_adds _

theorem annotateItem_adds (s : Session) : Adds Apart s s.annotateItem := by
  unfold annotateItem
  split
  · exact adds_issue rfl
  · exact .of_eq rfl

theorem finishFrame_adds (s : Session) : Adds Apart s s.finishFrame := by
  unfold finishFrame
  split
  · exact .of_eq rfl
  · split
    · exact s.annotateItem_adds
    · exact s.getFrame_adds _

theorem carryOut_adds {c : Command} (hc : ∀ p r, c ≠ .fetch p r) : Adds Apart s (s.carryOut c) := by
  cases c with
  | fetch p r => exact absurd rfl (hc p r)
  | goToFrame frame => exact s.getFrame_adds _
  | finishFrame => exact s.finishFrame_adds
  | annotateItem => exact s.annotateItem_adds
  | reportError message => exact .of_eq rfl

theorem foldl_carryOut_adds {commands : List Command} (h : ∀ p r, Command.fetch p r ∉ commands) :
    ∀ s : Session, Adds Apart s (commands.foldl carryOut s) := by
  induction commands with
  | nil => exact fun _ => .of_eq rfl
  | cons c rest ih =>
    refine fun s => Adds.trans (carryOut_adds fun p r hc => ?_)
      (ih (fun p r hm => h p r (List.mem_cons_of_mem _ hm)) _)
    exact h p r (hc ▸ List.mem_cons_self ..)

theorem withTool_adds {call : Tool → View → Outcome Tool}
    (h : ∀ set t, s.annotationSet = some set → s.tool = some t →
      ∀ p r, Command.fetch p r ∉ (call t (s.view set)).commands) :
    Adds Apart s (s.withTool call).2 := by
  unfold withTool
  split
  · rename_i set t hset ht
    exact Adds.trans (.of_eq rfl) (foldl_carryOut_adds (h set t hset ht) _)
  · exact .of_eq rfl

theorem notify_adds (hd : s.Drives) {e : ToolEvent} (he : e ≠ .itemShown) :
    Adds Apart s (s.notify e) :=
  withTool_adds fun _ _ _ ht => Tool.handle_not_fetch (hd.tool ht) _ he

theorem ask_adds (hd : s.Drives) {e : ToolEvent} (he : e ≠ .itemShown) :
    Adds Apart s (s.ask e).2 := by
  rw [ask_eq]
  exact notify_adds hd he

theorem handleKeys_adds (events : List KeyEvent) :
    ∀ {s : Session}, s.Drives → Adds Apart s (s.handleKeys events) := by
  unfold handleKeys
  induction events with
  | nil => exact fun _ => .of_eq rfl
  | cons e rest ih =>
    intro s hd
    have hnotify : Works (fun _ _ => False) False s (s.notify (.key e)) := s.notify_works trivial
    exact (notify_adds hd (by simp)).trans (ih (hd.of_kind hnotify.sameItem.toolKind))

theorem saveParams_adds (s : Session) : Adds Apart s s.saveParams := by
  unfold saveParams
  split
  · exact .of_eq rfl
  · exact Adds.trans (.of_eq rfl) (adds_issue rfl)

theorem imageLoaded_adds (hd : s.Drives) (dims : Dims) : Adds Apart s (s.imageLoaded dims) := by
  unfold imageLoaded
  split
  · exact .of_eq rfl
  · have himage : Drives { s with dims := some dims } := hd
    exact Adds.trans (.of_eq rfl) (notify_adds himage (by simp))

theorem endTrack_adds (hd : s.Drives) : Adds Apart s s.endTrack := by
  refine withTool_adds fun set t _ ht p r hc => ?_
  cases h : t.perform (s.view set) .endTrack with
  | none =>
    rw [h] at hc
    cases hc
  | some o =>
    rw [h] at hc
    cases Tool.perform_not_fetch (hd.tool ht) h hc

theorem performTool_adds (hd : s.Drives) {op : ToolOp} (hop : ∀ p r, op ≠ .command (.fetch p r)) :
    Adds Apart s (s.performTool op).2 := by
  unfold performTool
  split
  · rename_i set t hset ht
    split
    · rename_i o ho
      exact withTool_adds fun _ _ _ _ p r hc =>
        hop p r (Tool.perform_not_fetch (hd.tool ht) ho hc)
    · exact .of_eq rfl
  · exact .of_eq rfl

/-! ### Choosing -/

/-- At most one item is asked for, with the number of this choice. No work is put off. -/
structure Chooses (s s' : Session) : Prop where
  deferred : s'.deferred = s.deferred
  adds : Adds (fun t => t.purpose.isNavigation = true ∧ t.id = s.nextTicket ∧
    t.generation = s'.navSeq) s s'

theorem Chooses.of_eq (ho : s'.outbox = s.outbox) (hd : s'.deferred = s.deferred) :
    Chooses s s' :=
  ⟨hd, .of_eq ho⟩

/-- What goes before makes no request and puts nothing off. -/
theorem Chooses.head {s'' : Session} (h : Chooses s' s'') (ho : s'.outbox = s.outbox)
    (hd : s'.deferred = s.deferred) (hn : s'.nextTicket = s.nextTicket) : Chooses s s'' := by
  refine ⟨h.deferred.trans hd, fun t r hm => ?_⟩
  rw [← ho, ← hn]
  exact h.adds t r hm

theorem chooses_issue (s : Session) {p : Purpose} (hp : p.isNavigation = true) (r : Request) :
    Chooses s (s.issue p r) := by
  refine ⟨rfl, adds_issue ⟨hp, rfl, ?_⟩⟩
  rw [if_pos hp]
  rfl

theorem chooses_askFor (s : Session) (set : AnnotationSet) (key : Option String) :
    Chooses s (s.askFor set key) :=
  (chooses_issue { s with navSeq := s.navSeq + 1 } rfl _).head rfl rfl rfl

theorem chooses_update (s : Session) : Chooses s s.update := by
  unfold update
  split
  · exact .of_eq rfl rfl
  · split
    · exact s.chooses_askFor _ _
    · split
      · exact .of_eq rfl rfl
      · exact .of_eq rfl rfl
      · exact s.chooses_askFor _ _

theorem chooses_getNewItem (s : Session) : Chooses s s.getNewItem :=
  (chooses_update { s with mode := .new, message := none, keyList := none, itemIndex := 0 }).head
    rfl rfl rfl

theorem chooses_getOldItem (s : Session) (index : Int) : Chooses s (s.getOldItem index) := by
  unfold getOldItem
  dsimp only
  split
  · split
    · exact .of_eq rfl rfl
    · exact (chooses_issue { s with mode := .existing, message := none, navSeq := s.navSeq + 1 }
        (p := .keyList index) rfl _).head rfl rfl rfl
  · exact .of_eq rfl rfl
  · exact (chooses_update _).head rfl rfl rfl

/-- A tool that goes through items hears of its annotation set and asks for nothing. -/
theorem notify_ready_eq {set : AnnotationSet} {t : Tool} (hset : s.annotationSet = some set)
    (ht : s.tool = some t) (hd : t.drivesItems = true) :
    s.notify .ready = { s with tool := some (t.handle (s.view set) .ready).tool } := by
  rw [notify_eq hset ht]
  have hc : (t.handle (s.view set) .ready).commands = [] := by
    cases t with
    | geoJson t => cases hd
    | _ => rfl
  rw [hc]
  rfl

theorem chooses_install {set : AnnotationSet} (hd : (s.install set).Drives) :
    Chooses s (s.install set) := by
  unfold install at hd ⊢
  dsimp only at hd ⊢
  cases ht : Tool.ofSet? set s.config.bindings with
  | none => exact .of_eq rfl rfl
  | some t =>
    rw [ht] at hd
    dsimp only at hd ⊢
    have hready : Works (fun _ _ => False) False
        { s with tool := some t, annotationSet := some set }
        ({ s with tool := some t, annotationSet := some set }.notify .ready) :=
      notify_works _ trivial
    by_cases hdrives : t.drivesItems = true
    · rw [if_pos hdrives, notify_ready_eq rfl rfl hdrives]
      exact (chooses_getNewItem _).head rfl rfl rfl
    · -- this tool would not go through items
      rw [if_neg hdrives] at hd
      exact absurd ((hd.of_kind hready.sameItem.toolKind.symm).tool rfl) hdrives

/-! ### Answers -/

/-- An answer that leads to another item either shows it in the next round, or chooses one. -/
theorem apply_leads_cases {p : Purpose} (hp : p.leads = true) {result : Response}
    (hd : (s.apply p result).Drives) :
    Chooses s (s.apply p result) ∨ ∃ a itemMeta, s.apply p result = s.follow a itemMeta := by
  cases p with
  | annotationSet =>
    left
    cases h : result.parse AnnotationSet.read? with
    | error f =>
      unfold apply
      dsimp only
      rw [h]
      exact .of_eq rfl rfl
    | ok set =>
      have happly : s.apply .annotationSet result = s.install set := by
        unfold apply
        dsimp only
        rw [h]
      rw [happly] at hd ⊢
      exact chooses_install hd
  | assignment =>
    left
    show Chooses s (s.onAssignment result)
    unfold onAssignment
    split
    · split
      · exact .of_eq rfl rfl
      · exact s.chooses_issue rfl _
    · split <;> exact .of_eq rfl rfl
  | itemMeta a =>
    show Chooses s (s.onItemMeta a result) ∨ ∃ a' itemMeta, s.onItemMeta a result = _
    cases h : result.parse (Json.nullable ItemMeta.read?) with
    | error f =>
      left
      unfold onItemMeta
      rw [h]
      exact .of_eq rfl rfl
    | ok known => exact Or.inr ⟨a, _, onItemMeta_of_ok h⟩
  | keyList index =>
    left
    show Chooses s (s.onKeyList index result)
    unfold onKeyList
    split
    · exact .of_eq rfl rfl
    · exact (chooses_getOldItem _ index).head rfl rfl rfl
  | submit =>
    left
    show Chooses s (s.onSubmitted result)
    unfold onSubmitted
    split
    · exact .of_eq rfl rfl
    · split
      · exact s.chooses_getNewItem
      · exact s.chooses_getOldItem _
  | _ => cases hp

/-- Nothing is asked for, and neither the numbers nor the work that waits change. -/
structure Quiet (s s' : Session) : Prop extends Steady s s' where
  outbox : s'.outbox = s.outbox

theorem Quiet.refl (s : Session) : Quiet s s := ⟨⟨rfl, rfl, rfl, rfl⟩, rfl⟩

theorem Quiet.trans {s'' : Session} (h : Quiet s s') (h' : Quiet s' s'') : Quiet s s'' :=
  ⟨h.toSteady.trans h'.toSteady, h'.outbox.trans h.outbox⟩

/-- Commands that stay and make no request only report errors. -/
theorem quiet_foldl_carryOut {commands : List Command} (h : StayWithin commands 0) :
    ∀ s : Session, Quiet s (commands.foldl carryOut s) := by
  induction commands with
  | nil => exact Quiet.refl
  | cons c rest ih =>
    intro s
    obtain ⟨hstay, hsum⟩ := h
    rw [List.map_cons, List.sum_cons] at hsum
    have hrest := ih ⟨fun c hc => hstay c (List.mem_cons_of_mem _ hc), by omega⟩ (s.carryOut c)
    have hc := hstay c (List.mem_cons_self ..)
    cases c with
    | reportError message =>
      have hreport : Quiet s (s.reportMessage message) := ⟨⟨rfl, rfl, rfl, rfl⟩, rfl⟩
      exact hreport.trans hrest
    | fetch p r =>
      rw [show (Command.fetch p r).requests = 1 from rfl] at hsum
      omega
    | _ => exact hc.elim

theorem quiet_notify (s : Session) {e : ToolEvent} (he : e.requests? = some 0) :
    Quiet s (s.notify e) := by
  unfold notify withTool
  split
  · rename_i set t _ _
    have htool : Quiet s { s with tool := some (t.handle (s.view set) e).tool } :=
      ⟨⟨rfl, rfl, rfl, rfl⟩, rfl⟩
    exact htool.trans (quiet_foldl_carryOut (t.handle_reaction (s.view set) he) _)
  · exact ⟨⟨rfl, rfl, rfl, rfl⟩, rfl⟩

/-- Any other answer asks for nothing and moves no number on. -/
theorem quiet_apply {p : Purpose} (hp : p.leads = false) (s : Session) (result : Response) :
    Quiet s (s.apply p result) := by
  unfold apply
  cases p with
  | existingData =>
    dsimp only
    split
    · exact s.quiet_notify rfl
    · exact ⟨⟨rfl, rfl, rfl, rfl⟩, rfl⟩
  | saveParams =>
    dsimp only
    split <;> exact ⟨⟨rfl, rfl, rfl, rfl⟩, rfl⟩
  | frameImage n =>
    dsimp only
    split
    · rename_i dims _
      unfold imageLoaded
      split
      · exact ⟨⟨rfl, rfl, rfl, rfl⟩, rfl⟩
      · have hdims : Quiet s { s with dims := some dims } := ⟨⟨rfl, rfl, rfl, rfl⟩, rfl⟩
        exact hdims.trans (quiet_notify _ rfl)
    · exact ⟨⟨rfl, rfl, rfl, rfl⟩, rfl⟩
  | tool p => exact s.quiet_notify rfl
  | _ => cases hp

/-- The tools for shapes and for integers do not listen to answers. -/
theorem notify_fetched_eq (hlisten : ∀ t, s.tool = some t → t.kind = .shape ∨ t.kind = .int)
    (p : ToolPurpose) (result : Response) : s.notify (.fetched p result) = s := by
  cases ht : s.tool with
  | none => exact s.notify_of_no_tool ht _
  | some t =>
    cases hset : s.annotationSet with
    | none =>
      unfold notify withTool
      rw [hset]
    | some set =>
      have hquiet : t.handle (s.view set) (.fetched p result) = .quiet t := by
        cases t with
        | shape t => rfl
        | int t => rfl
        | _ => rcases hlisten _ ht with h | h <;> cases h
      rw [notify_eq hset ht, hquiet]
      show { s with tool := some t } = s
      rw [← ht]

/-! ### Rounds -/

/-- The request is made in a round. What is about an item carries the item's number, and an item
came on show. -/
def MadeInRound (s : Session) (tasks : List Deferred) (t : Ticket) : Prop :=
  t.purpose.leads = false ∧ (t.purpose.isItemScoped = true →
    t.generation = s.generation ∧ ∃ a g, .begin a g ∈ tasks)

/-- Of the requests about the item that is shown, only that which hands in its annotations leads to
another one. -/
theorem submit_of_forItem {p : Purpose} (h : ForItem p) (hl : p.leads = true) : p = .submit := by
  obtain ⟨hnav, hset⟩ := h
  cases p with
  | submit => rfl
  | annotationSet => exact absurd rfl hset
  | assignment => cases hnav
  | itemMeta => cases hnav
  | keyList => cases hnav
  | _ => cases hl

theorem leads_of_forFetch {p : Purpose} (h : ForFetch p) : p.leads = false := by
  by_contra hl
  exact h.2 (submit_of_forItem h.1 (by simpa using hl))

theorem runDeferred_adds (s : Session) (task : Deferred) :
    Adds (s.MadeInRound [task]) s (s.runDeferred task) := by
  intro t r hm
  refine ((s.runDeferred_grows task).mem_outbox hm).elim Or.inl fun hp => ?_
  rcases s.runDeferred_cases task with h | ⟨a, g, rfl, -, h⟩ | ⟨index, rfl, -, h⟩ <;> rw [h] at hm
  · exact Or.inl hm
  · refine ((s.beginItem_fetches a).works.adds_current t r hm).imp_right fun hg => ?_
    exact ⟨leads_of_forFetch hp, fun _ => ⟨hg, a, g, List.mem_singleton_self _⟩⟩
  · -- only an image is loaded
    rw [loadFrameImage_eq] at hm
    split at hm
    · refine (adds_issue (P := MadeInRound s _) ⟨rfl, fun hi => ?_⟩ t r hm)
      cases hi
    · exact Or.inl hm

theorem foldl_runDeferred_adds (tasks : List Deferred) :
    ∀ s : Session, Adds (s.MadeInRound tasks) s (tasks.foldl runDeferred s) := by
  induction tasks with
  | nil => exact fun _ => .of_eq rfl
  | cons task rest ih =>
    intro s t r hm
    rcases ih (s.runDeferred task) t r hm with hm | ⟨hl, hi⟩
    · refine (s.runDeferred_adds task t r hm).imp_right fun ⟨hl, hi⟩ => ⟨hl, fun hp => ?_⟩
      obtain ⟨hg, a, g, hmem⟩ := hi hp
      exact ⟨hg, a, g, List.mem_cons.2 (Or.inl (List.mem_singleton.1 hmem))⟩
    · refine Or.inr ⟨hl, fun hp => ?_⟩
      obtain ⟨hg, a, g, hmem⟩ := hi hp
      exact ⟨hg.trans (s.runDeferred_steady task).generation, a, g, List.mem_cons_of_mem _ hmem⟩

theorem tick_adds (s : Session) : Adds (s.MadeInRound s.deferred) s s.tick :=
  foldl_runDeferred_adds s.deferred { s with deferred := [] }

end Session

end Labeling
