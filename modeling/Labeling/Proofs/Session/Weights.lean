import Mathlib.Algebra.GroupWithZero.Nat
import Labeling.Backend.Pump
import Labeling.Proofs.Tool.Arrival
import Labeling.Proofs.Session.Step

/-!
# What answers lead to

An answer can make a session ask for more: for the next item, then for what is known about it, then
for its image and its annotations. Left alone by the user, a session comes to the end of this. Each
request weighs as many answers as it can lead to at most, itself counted, and so does each piece of
work that waits (`Session.weight`).

* `Session.weight_complete_lt`: an answer takes away more than it adds, whatever it is and whatever
  state the session is in;
* `Session.weight_tick_le`: a round adds nothing, and leaves no work behind
  (`Session.deferred_tick`).

What the session tells its tool by itself makes the tool ask for little (`Tool.handle_reaction`).
-/

namespace Labeling

/-! ## What a tool asks for without the user -/

namespace Command

/-- The number of requests that a command makes. -/
def requests : Command → Nat
  | .fetch _ _ => 1
  | _ => 0

/-- It makes a request or reports an error, and the session goes nowhere. -/
def Stays : Command → Prop
  | .fetch _ _ => True
  | .reportError _ => True
  | _ => False

end Command

/-- The number of requests that a tool makes at most when it is told of an event, for the events of
which the session tells it without the user. -/
def ToolEvent.requests? : ToolEvent → Option Nat
  | .ready => some 1
  | .itemShown => some 2
  | .stored _ => some 0
  | .imageLoaded => some 0
  | .fetched _ _ => some 0
  | _ => none

/-- Some commands stay, and make a number of requests at most. -/
def StayWithin (commands : List Command) (n : Nat) : Prop :=
  (∀ c ∈ commands, c.Stays) ∧ (commands.map Command.requests).sum ≤ n

theorem stayWithin_nil (n : Nat) : StayWithin [] n := ⟨by simp, by simp⟩

theorem stayWithin_report (message : String) (n : Nat) : StayWithin [.reportError message] n :=
  ⟨by simp [Command.Stays], by simp [Command.requests]⟩

/-- Without the user a tool only asks for what it needs. -/
theorem Tool.handle_reaction (t : Tool) (v : View) {e : ToolEvent} {n : Nat}
    (he : e.requests? = some n) : StayWithin (t.handle v e).commands n := by
  cases e with
  | ready =>
    cases he
    cases t with
    | geoJson t => exact ⟨by simp [handle, Outcome.map, FeatureTool.handle, FeatureTool.ready,
        Command.Stays], by simp [handle, Outcome.map, FeatureTool.handle, FeatureTool.ready,
        Command.requests]⟩
    | _ => exact stayWithin_nil _
  | itemShown =>
    cases he
    rcases t.itemShown_fetches v with h | ⟨-, r, r', h⟩ <;> rw [h]
    · exact stayWithin_nil _
    · exact ⟨by simp [Command.Stays], by simp [Command.requests]⟩
  | stored data =>
    rw [t.stored_commands]
    exact stayWithin_nil _
  | imageLoaded =>
    rw [t.imageLoaded_commands]
    exact stayWithin_nil _
  | fetched p result =>
    cases t with
    | track t =>
      rw [fetched_commands rfl]
      split
      · exact stayWithin_nil _
      · exact stayWithin_report _ _
    | geoJson t =>
      show StayWithin (t.fetched p result).commands n
      unfold FeatureTool.fetched
      split
      · exact stayWithin_nil _
      · split
        · exact stayWithin_nil _
        · exact stayWithin_report _ _
      · exact stayWithin_nil _
      · exact stayWithin_report _ _
    | _ => exact stayWithin_nil _
  | _ => cases he

/-! ## The weight of a session -/

/-- Every answer counts. -/
theorem Purpose.weight_pos (p : Purpose) : 0 < p.weight := by
  cases p <;> simp [weight]

namespace Session

variable {s : Session}

/-- The greatest number of answers that a session can still get without the user. -/
def weight (s : Session) : Nat :=
  (s.outbox.map fun m => m.1.purpose.weight).sum + (s.deferred.map Deferred.weight).sum

@[simp] theorem weight_issue (s : Session) (p : Purpose) (r : Request) :
    (s.issue p r).weight = s.weight + p.weight := by
  unfold weight issue
  simp only [List.map_append, List.map_cons, List.map_nil, List.sum_append, List.sum_cons,
    List.sum_nil]
  omega

/-! ### Calls of the tool -/

theorem weight_carryOut {c : Command} (hc : c.Stays) :
    (s.carryOut c).weight = s.weight + c.requests := by
  cases c with
  | fetch p r => exact s.weight_issue _ _
  | reportError message => rfl
  | goToFrame frame => exact hc.elim
  | finishFrame => exact hc.elim
  | annotateItem => exact hc.elim

theorem weight_foldl_carryOut {commands : List Command} (h : ∀ c ∈ commands, c.Stays) :
    ∀ s : Session, (commands.foldl carryOut s).weight =
      s.weight + (commands.map Command.requests).sum := by
  induction commands with
  | nil => exact fun _ => rfl
  | cons c rest ih =>
    intro s
    rw [List.foldl_cons, ih (fun c hc => h c (List.mem_cons_of_mem _ hc)),
      weight_carryOut (h c (List.mem_cons_self ..)), List.map_cons, List.sum_cons, Nat.add_assoc]

theorem weight_notify_le (s : Session) {e : ToolEvent} {n : Nat} (he : e.requests? = some n) :
    (s.notify e).weight ≤ s.weight + n := by
  unfold notify withTool
  split
  · rename_i set t _ _
    obtain ⟨hstay, hsum⟩ := t.handle_reaction (s.view set) he
    show ((t.handle (s.view set) e).commands.foldl carryOut _).weight ≤ _
    rw [weight_foldl_carryOut hstay]
    exact Nat.add_le_add_left hsum _
  · exact Nat.le_add_right _ _

/-! ### Choosing an item -/

theorem weight_update_le (s : Session) : s.update.weight ≤ s.weight + 6 := by
  have hask : ∀ set key, (s.askFor set key).weight = s.weight + 6 := fun _ _ => weight_issue _ _ _
  unfold update
  split
  · omega
  · split
    · exact Nat.le_of_eq (hask _ _)
    · split
      · omega
      · omega
      · exact Nat.le_of_eq (hask _ _)

theorem weight_getNewItem_le (s : Session) : s.getNewItem.weight ≤ s.weight + 6 :=
  weight_update_le _

/-- The listing has to be fetched first, if it is not known. -/
theorem weight_getOldItem_le (s : Session) (index : Int) :
    (s.getOldItem index).weight ≤ s.weight + if s.keyList.isSome then 6 else 7 := by
  unfold getOldItem
  dsimp only
  split
  · rename_i hk
    rw [hk]
    split
    · exact Nat.le_add_right _ _
    · exact Nat.le_of_eq (weight_issue _ _ _)
  · exact Nat.le_add_right _ _
  · rename_i keys _ hk
    rw [hk]
    exact weight_update_le _

theorem weight_install_le (s : Session) (set : AnnotationSet) :
    (s.install set).weight ≤ s.weight + 7 := by
  unfold install
  dsimp only
  split
  · exact Nat.le_add_right _ _
  · have hready := weight_notify_le
      { s with tool := Tool.ofSet? set s.config.bindings, annotationSet := some set }
      (e := .ready) rfl
    split
    · exact Nat.le_trans (weight_getNewItem_le _) (Nat.add_le_add_right hready 6)
    · exact Nat.le_trans hready (Nat.add_le_add_left (by decide) _)

/-! ### Answers -/

theorem weight_onSubmitted_le (s : Session) (result : Response) :
    (s.onSubmitted result).weight ≤ s.weight + 7 := by
  unfold onSubmitted
  split
  · exact Nat.le_add_right _ _
  · split
    · exact Nat.le_trans s.weight_getNewItem_le (by omega)
    · exact Nat.le_trans (s.weight_getOldItem_le _) (by split <;> omega)

theorem weight_onKeyList_le (s : Session) (index : Int) (result : Response) :
    (s.onKeyList index result).weight ≤ s.weight + 6 := by
  unfold onKeyList
  split
  · exact Nat.le_add_right _ _
  · exact weight_getOldItem_le _ _

theorem weight_onAssignment_le (s : Session) (result : Response) :
    (s.onAssignment result).weight ≤ s.weight + 5 := by
  unfold onAssignment
  split
  · split
    · exact Nat.le_add_right _ _
    · exact Nat.le_of_eq (weight_issue _ _ _)
  · split <;> exact Nat.le_add_right _ _

theorem weight_onItemMeta_le (s : Session) (a : Assignment) (result : Response) :
    (s.onItemMeta a result).weight ≤ s.weight + 4 := by
  cases h : result.parse (Json.nullable ItemMeta.read?) with
  | error f =>
    unfold onItemMeta
    rw [h]
    exact Nat.le_add_right _ _
  | ok known =>
    rw [onItemMeta_of_ok h]
    show _ + ((s.deferred ++ [_]).map Deferred.weight).sum ≤ _
    rw [List.map_append, List.sum_append]
    exact Nat.le_of_eq (Nat.add_assoc _ _ _).symm

/-- Whatever the answer is, it leads to less than its request could lead to. -/
theorem weight_apply_lt (s : Session) (p : Purpose) (result : Response) :
    (s.apply p result).weight < s.weight + p.weight := by
  unfold apply
  cases p with
  | annotationSet =>
    dsimp only
    split
    · exact Nat.lt_succ_of_le (weight_install_le _ _)
    · exact Nat.lt_add_of_pos_right (by decide)
  | assignment => exact Nat.lt_succ_of_le (s.weight_onAssignment_le result)
  | itemMeta a => exact Nat.lt_succ_of_le (s.weight_onItemMeta_le a result)
  | existingData =>
    dsimp only
    split
    · exact Nat.lt_succ_of_le (weight_notify_le (n := 0) _ rfl)
    · exact Nat.lt_succ_self _
  | keyList index => exact Nat.lt_succ_of_le (s.weight_onKeyList_le index result)
  | submit => exact Nat.lt_succ_of_le (s.weight_onSubmitted_le result)
  | saveParams =>
    dsimp only
    split <;> exact Nat.lt_succ_self _
  | frameImage n =>
    dsimp only
    split
    · unfold imageLoaded
      split
      · exact Nat.lt_succ_self _
      · exact Nat.lt_succ_of_le (weight_notify_le (n := 0) _ rfl)
    · exact Nat.lt_succ_self _
  | tool p => exact Nat.lt_succ_of_le (weight_notify_le (n := 0) _ rfl)

/-- An answer takes away more than it adds, also if it comes too late. -/
theorem weight_complete_lt (s : Session) (t : Ticket) (result : Response) :
    (s.complete t result).weight < s.weight + t.purpose.weight := by
  unfold complete
  split
  · exact Nat.lt_add_of_pos_right t.purpose.weight_pos
  · exact s.weight_apply_lt _ result

/-! ### Rounds -/

theorem weight_loadFrameImage_le (s : Session) : s.loadFrameImage.weight ≤ s.weight + 1 := by
  rw [loadFrameImage_eq]
  split
  · exact Nat.le_of_eq (weight_issue _ _ _)
  · exact Nat.le_add_right _ _

theorem weight_loadExisting_le (s : Session) (a : Assignment) :
    (s.loadExisting a).weight ≤ s.weight + 1 := by
  unfold loadExisting
  split
  · exact Nat.le_add_right _ _
  · split
    · exact Nat.le_of_eq (weight_issue _ _ _)
    · exact Nat.le_add_right _ _

theorem weight_beginItem_le (s : Session) (a : Assignment) :
    (s.beginItem a).weight ≤ s.weight + 4 := by
  have hshown := weight_notify_le { s with assignment := some a, frame := some 0 }
    (e := .itemShown) rfl
  have himage := weight_loadFrameImage_le
    ({ s with assignment := some a, frame := some 0 }.notify .itemShown)
  exact Nat.le_trans (weight_loadExisting_le _ a)
    (Nat.add_le_add_right (Nat.le_trans himage (Nat.add_le_add_right hshown 1)) 1)

theorem weight_runDeferred_le (s : Session) (task : Deferred) :
    (s.runDeferred task).weight ≤ s.weight + task.weight := by
  rcases s.runDeferred_cases task with h | ⟨a, g, rfl, -, h⟩ | ⟨index, rfl, -, h⟩ <;> rw [h]
  · exact Nat.le_add_right _ _
  · exact s.weight_beginItem_le a
  · exact weight_loadFrameImage_le _

theorem weight_foldl_runDeferred_le (tasks : List Deferred) :
    ∀ s : Session, (tasks.foldl runDeferred s).weight ≤
      s.weight + (tasks.map Deferred.weight).sum := by
  induction tasks with
  | nil => exact fun _ => Nat.le_refl _
  | cons task rest ih =>
    intro s
    rw [List.foldl_cons, List.map_cons, List.sum_cons, ← Nat.add_assoc]
    exact Nat.le_trans (ih _) (Nat.add_le_add_right (s.weight_runDeferred_le task) _)

/-- A round only turns the work that waited into requests. -/
theorem weight_tick_le (s : Session) : s.tick.weight ≤ s.weight :=
  weight_foldl_runDeferred_le s.deferred _

/-- A round leaves no work behind. -/
theorem deferred_tick (s : Session) : s.tick.deferred = [] :=
  (foldl_runDeferred_steady s.deferred _).deferred

end Session

end Labeling
