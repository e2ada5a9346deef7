import Labeling.Proofs.Session.History

/-!
# The work that waits for the next round

Work that was put off carries a number, of the item that it shows or of the frame that was
left for it. It is superseded as soon as this number is not the current one.

Under the policy that discards late answers, what is not superseded is for something that
is not on show yet, and there is at most one piece of it for an item and one for a frame
(`Session.Agenda`). So when an item comes on show, no other item can do so until it is left
again, and the same goes for frames.
-/

namespace Labeling

/-- The number that decides whether a piece of work is superseded, apart for items and for
frames. -/
def Deferred.stamp : Deferred → Bool × Nat
  | .begin _ generation => (true, generation)
  | .showFrame _ frameSeq => (false, frameSeq)

namespace Session

variable {s s' : Session} {stored : Session → Json → Prop} {honest : Prop}

/-- What is known of the work that waits: no two pieces are for the same item or the same
frame. An item that is to be begun is not superseded only as long as no item is shown, and
a frame only as long as no frame of its item is. -/
structure Agenda (s : Session) (tasks : List Deferred) : Prop where
  nodup : (tasks.map Deferred.stamp).Nodup
  begins : ∀ a g, .begin a g ∈ tasks →
    g ≤ s.generation ∧ (g = s.generation → s.assignment = none)
  shows : ∀ index n, .showFrame index n ∈ tasks →
    n ≤ s.frameSeq ∧ (n = s.frameSeq → s.assignment.isSome = true ∧ s.frame = none)

theorem agenda_nil (s : Session) : s.Agenda [] :=
  ⟨List.nodup_nil, fun _ _ h => absurd h List.not_mem_nil, fun _ _ h => absurd h List.not_mem_nil⟩

theorem Agenda.tail {task : Deferred} {tasks : List Deferred} (h : s.Agenda (task :: tasks)) :
    s.Agenda tasks where
  nodup := (List.nodup_cons.1 h.nodup).2
  begins a g hm := h.begins a g (List.mem_cons_of_mem _ hm)
  shows index n hm := h.shows index n (List.mem_cons_of_mem _ hm)

/-- An item that is to be begun is superseded once its number is not the current one. -/
theorem Agenda.leaveItem {tasks : List Deferred} (h : s.Agenda tasks) :
    s.resetItem.Agenda tasks where
  nodup := h.nodup
  begins a g hm := by
    have hg := (h.begins a g hm).1
    exact ⟨Nat.le_succ_of_le hg, fun _ => rfl⟩
  shows index n hm := by
    have hn := (h.shows index n hm).1
    exact ⟨Nat.le_succ_of_le hn, fun he => absurd he (Nat.ne_of_lt (Nat.lt_succ_of_le hn))⟩

theorem Agenda.leaveFrame {tasks : List Deferred} (h : s.Agenda tasks) :
    s.resetFrame.Agenda tasks where
  nodup := h.nodup
  begins := h.begins
  shows index n hm := by
    have hn := (h.shows index n hm).1
    exact ⟨Nat.le_succ_of_le hn, fun he => absurd he (Nat.ne_of_lt (Nat.lt_succ_of_le hn))⟩

/-- A new piece of work is the only one for its item or frame. -/
theorem Agenda.concat {tasks : List Deferred} {task : Deferred} (h : s.Agenda tasks)
    (ht : s.Agenda [task]) (hnew : task.stamp ∉ tasks.map Deferred.stamp) :
    s.Agenda (tasks ++ [task]) where
  nodup := by
    rw [List.map_append, List.map_singleton]
    exact List.Nodup.append h.nodup (List.nodup_singleton _)
      (List.disjoint_singleton.2 hnew)
  begins a g hm := by
    rcases List.mem_append.1 hm with hm | hm
    · exact h.begins a g hm
    · exact ht.begins a g hm
  shows index n hm := by
    rcases List.mem_append.1 hm with hm | hm
    · exact h.shows index n hm
    · exact ht.shows index n hm

theorem Agenda.fresh_frame {tasks : List Deferred} (h : s.Agenda tasks) :
    (false, s.frameSeq + 1) ∉ tasks.map Deferred.stamp := by
  intro hm
  obtain ⟨task, hmem, hstamp⟩ := List.mem_map.1 hm
  cases task with
  | begin a g => cases hstamp
  | showFrame index n =>
    have hn := (h.shows index n hmem).1
    cases hstamp
    omega

theorem Agenda.fresh_item {tasks : List Deferred} (h : s.Agenda tasks) :
    (true, s.generation + 1) ∉ tasks.map Deferred.stamp := by
  intro hm
  obtain ⟨task, hmem, hstamp⟩ := List.mem_map.1 hm
  cases task with
  | begin a g =>
    have hg := (h.begins a g hmem).1
    cases hstamp
    omega
  | showFrame index n => cases hstamp

/-- Once the item is on show, nothing else waits for its number. -/
theorem Agenda.enter {a : Assignment} {tasks : List Deferred}
    (h : s.Agenda (.begin a s.generation :: tasks)) : (s.enter a).Agenda tasks where
  nodup := h.tail.nodup
  begins a' g hm := by
    refine ⟨(h.tail.begins a' g hm).1, fun hg => ?_⟩
    -- it would be a second piece of work with the number of this one
    have hsame : (Deferred.begin a' g).stamp = (true, s.generation) := congrArg (Prod.mk true) hg
    exact absurd (List.mem_map.2 ⟨_, hm, hsame⟩) (List.nodup_cons.1 h.nodup).1
  shows index n hm := by
    obtain ⟨hn, hlive⟩ := h.tail.shows index n hm
    refine ⟨hn, fun he => ?_⟩
    have hnone := (h.begins a s.generation (List.mem_cons_self ..)).2 rfl
    have hsome := (hlive he).1
    rw [hnone] at hsome
    cases hsome

/-- Once the frame is on show, nothing else waits for its number. -/
theorem Agenda.showFrame {index : Int} {tasks : List Deferred} {frame : Option Nat}
    (h : s.Agenda (.showFrame index s.frameSeq :: tasks)) :
    Agenda { s with frame := frame } tasks where
  nodup := h.tail.nodup
  begins := h.tail.begins
  shows index' n hm := by
    refine ⟨(h.tail.shows index' n hm).1, fun hn => ?_⟩
    have hsame : (Deferred.showFrame index' n).stamp = (false, s.frameSeq) :=
      congrArg (Prod.mk false) hn
    exact absurd (List.mem_map.2 ⟨_, hm, hsame⟩) (List.nodup_cons.1 h.nodup).1

theorem Agenda.work {due : List Deferred} (h : s.Agenda (due ++ s.deferred))
    (hw : Work stored honest s s') : s'.Agenda (due ++ s'.deferred) := by
  cases hw with
  | fetch hf => cases hf <;> exact ⟨h.nodup, h.begins, h.shows⟩
  | leaveFrame index ha hc =>
    show Agenda _ (due ++ (s.deferred ++ [.showFrame index (s.frameSeq + 1)]))
    rw [← List.append_assoc]
    have hlast : s.resetFrame.Agenda [.showFrame index (s.frameSeq + 1)] := by
      refine ⟨List.nodup_singleton _, fun a g hm => ?_, fun index' n hm => ?_⟩
      · cases List.mem_singleton.1 hm
      · cases List.mem_singleton.1 hm
        exact ⟨Nat.le_refl _, fun _ => ⟨ha, rfl⟩⟩
    have hall := h.leaveFrame.concat hlast h.fresh_frame
    exact ⟨hall.nodup, hall.begins, hall.shows⟩
  | _ => exact ⟨h.nodup, h.begins, h.shows⟩

theorem Agenda.turn {due : List Deferred} (h : s.Agenda (due ++ s.deferred)) (ht : Turn s s') :
    s'.Agenda (due ++ s'.deferred) := by
  cases ht with
  | leaveItem message => exact ⟨h.nodup, h.leaveItem.begins, h.leaveItem.shows⟩
  | _ => exact ⟨h.nodup, h.begins, h.shows⟩

theorem Agenda.follow {due : List Deferred} (h : s.Agenda (due ++ s.deferred)) (a : Assignment)
    (itemMeta : ItemMeta) :
    (s.follow a itemMeta).Agenda (due ++ (s.follow a itemMeta).deferred) := by
  show Agenda _ (due ++ (s.deferred ++ [.begin a (s.generation + 1)]))
  rw [← List.append_assoc]
  have hlast : s.resetItem.Agenda [.begin a (s.generation + 1)] := by
    refine ⟨List.nodup_singleton _, fun a' g hm => ?_, fun index n hm => ?_⟩
    · cases List.mem_singleton.1 hm
      exact ⟨Nat.le_refl _, fun _ => rfl⟩
    · cases List.mem_singleton.1 hm
  have hall := h.leaveItem.concat hlast h.fresh_item
  exact ⟨hall.nodup, hall.begins, hall.shows⟩

/-- The work that waits is planned under the policy that discards late answers. -/
def Planned (s : Session) (due : List Deferred) : Prop :=
  s.config.stale = .discard → s.Agenda (due ++ s.deferred)

theorem Planned.work {due : List Deferred} (h : s.Planned due) (hw : Work stored honest s s') :
    s'.Planned due :=
  fun hd => (h (hw.sameItem.config ▸ hd)).work hw

/-- Under this policy the answers that are applied carry current numbers. -/
theorem generation_of_current {t : Ticket} (hd : s.config.stale = .discard)
    (hs : s.isStale t = false) :
    (t.purpose.isNavigation = true → t.generation = s.navSeq) ∧
      (t.purpose.isItemScoped = true → t.generation = s.generation) := by
  unfold isStale at hs
  rw [hd] at hs
  cases hp : t.purpose <;> simp_all [Purpose.isNavigation, Purpose.isItemScoped]

/-- Under this policy only the current item is begun. -/
theorem eq_of_current {g : Nat} (hg : g = s.generation ∨ s.config.stale = .apply)
    (hd : s.config.stale = .discard) : g = s.generation := by
  rcases hg with hg | hp
  · exact hg
  · rw [hd] at hp
    cases hp

end Session

namespace History

variable {H : History}

theorem agenda_invariant :
    Invariant False (fun _ _ => True) Always (fun _ due s => s.Planned due) where
  promised h := h.elim
  blank taken s h _ := by
    rw [h.deferred]
    exact s.agenda_nil
  installed taken s set h _ := by
    rw [show [] ++ _ = s.deferred from rfl, h.deferred]
    exact Session.agenda_nil _
  work taken s s' _ h hw := h.work hw
  fetch taken due s s' _ h hf := h.work hf.work
  turn taken s s' _ h ht hd := (h (ht.config_eq ▸ hd)).turn ht
  listed taken s keys _ h hd := ⟨(h hd).nodup, (h hd).begins, (h hd).shows⟩
  asked taken s a source _ h _ hd := ⟨(h hd).nodup, (h hd).begins, (h hd).shows⟩
  followed taken s t a result known _ h _ _ _ hd := (h hd).follow a _
  taken taken s _ h hd := ⟨(h hd).nodup, (h hd).begins, (h hd).shows⟩
  round taken s _ h hd := by
    rw [List.append_nil]
    exact ⟨(h hd).nodup, (h hd).begins, (h hd).shows⟩
  dropped taken task due s _ h hd := (h hd).tail
  entered taken a g due s _ h hg hd := by
    obtain rfl := Session.eq_of_current hg hd
    exact (h hd).enter
  shown taken index due s _ h _ hd := (h hd).showFrame

end History

end Labeling
