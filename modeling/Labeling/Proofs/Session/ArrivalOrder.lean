import Labeling.Proofs.Session.History
import Labeling.Proofs.Tool.Arrival

/-!
# The order in which an item's answers arrive

Once an item is begun, its image, its stored annotations and what was computed for it are
on their way. Answers to these requests change the tool and the image (`Showing`), and
whatever fails is reported. In any two orders they lead to the same session, with the same
reports (`History.arrival_order`); and stored tracks win over computed detections in all
of them.

The shape tool would give this up if something were selected on its canvas when the item
begins. But from the moment an item is left until another one is begun no frame is shown,
and without a frame nothing can be selected (`History.idle_invariant`).
-/

namespace Labeling

/-! ## What answers change -/

/-- What the answers about an item change: the tool, and the image. -/
structure Showing where
  tool : Option Tool
  dims : Option Dims

namespace Showing

/-- The tool hears of an event. -/
def tell (x : Showing) (v : View) (e : ToolEvent) : Showing :=
  { x with tool := x.tool.map fun t => t.after (v.withDims x.dims) e }

/-- Take an answer about the item. -/
def take (v : View) (x : Showing) (p : Purpose) (result : Response) : Showing :=
  match p with
  | .frameImage _ =>
    match result.imageDims with
    | .ok dims => { x with dims := some dims }.tell v .imageLoaded
    | .error _ => x
  | .existingData =>
    match result.json with
    | .ok data => x.tell v (.stored data)
    | .error _ => x
  | .tool p => x.tell v (.fetched p result)
  | _ => x

/-- Take the answers to some requests, in some order. -/
def takeAll (v : View) (answers : Ticket → Response) (x : Showing) (tickets : List Ticket) :
    Showing :=
  tickets.foldl (fun x t => x.take v t.purpose (answers t)) x

/-- Nothing is selected on the canvas of the tool. -/
def Idle (x : Showing) : Prop := ∀ t, x.tool = some t → t.Idle

@[simp] theorem kind_tell (x : Showing) (v : View) (e : ToolEvent) :
    (x.tell v e).tool.map Tool.kind = x.tool.map Tool.kind := by
  unfold tell Tool.after
  cases x.tool with
  | none => rfl
  | some t => exact congrArg some (t.kind_handle _ e)

@[simp] theorem kind_take (x : Showing) (v : View) (p : Purpose) (result : Response) :
    (x.take v p result).tool.map Tool.kind = x.tool.map Tool.kind := by
  unfold take
  split
  · split
    · exact kind_tell _ v _
    · rfl
  · split
    · exact x.kind_tell v _
    · rfl
  · exact x.kind_tell v _
  · rfl

theorem kind_takeAll (v : View) (answers : Ticket → Response) (tickets : List Ticket) :
    ∀ x : Showing, (x.takeAll v answers tickets).tool.map Tool.kind = x.tool.map Tool.kind := by
  induction tickets with
  | nil => exact fun _ => rfl
  | cons t rest ih => exact fun x => (ih _).trans (x.kind_take v _ _)

theorem Idle.take {x : Showing} (h : x.Idle) (v : View) (p : Purpose) (result : Response) :
    (x.take v p result).Idle := by
  intro t ht
  unfold Showing.take at ht
  split at ht
  · split at ht
    · obtain ⟨t', ht', rfl⟩ := Option.map_eq_some_iff.1 ht
      exact (h t' ht').imageLoaded _
    · exact h t ht
  · split at ht
    · obtain ⟨t', ht', rfl⟩ := Option.map_eq_some_iff.1 ht
      exact (h t' ht').stored _ _
    · exact h t ht
  · obtain ⟨t', ht', rfl⟩ := Option.map_eq_some_iff.1 ht
    exact (h t' ht').fetched _ _ _
  · exact h t ht

/-! ### Two answers -/

section Pairs

variable {x : Showing} {v : View} {r r' : Response}

theorem take_stored_image (h : x.Idle) (n : Nat) :
    (x.take v .existingData r).take v (.frameImage n) r' =
      (x.take v (.frameImage n) r').take v .existingData r := by
  unfold take
  dsimp only
  cases r.json with
  | error f => rfl
  | ok data =>
    cases r'.imageDims with
    | error f => rfl
    | ok dims =>
      rcases x with ⟨_ | t, before⟩
      · rfl
      · exact congrArg (fun t => Showing.mk (some t) (some dims))
          (Tool.stored_imageLoaded (h t rfl) v before dims data)

theorem take_fetched_image (p : ToolPurpose) (n : Nat) :
    (x.take v (.tool p) r).take v (.frameImage n) r' =
      (x.take v (.frameImage n) r').take v (.tool p) r := by
  unfold take
  dsimp only
  cases r'.imageDims with
  | error f => rfl
  | ok dims =>
    rcases x with ⟨_ | t, before⟩
    · rfl
    · exact congrArg (fun t => Showing.mk (some t) (some dims))
        (t.fetched_imageLoaded v before dims p r)

theorem take_fetched_stored (p : ToolPurpose) :
    (x.take v (.tool p) r).take v .existingData r' =
      (x.take v .existingData r').take v (.tool p) r := by
  unfold take
  dsimp only
  cases r'.json with
  | error f => rfl
  | ok data =>
    rcases x with ⟨_ | t, dims⟩
    · rfl
    · exact congrArg (fun t => Showing.mk (some t) dims)
        (t.fetched_stored (v.withDims dims) p r data)

theorem take_fetched_comm :
    (x.take v (.tool .freshDetections) r).take v (.tool .freshMetadata) r' =
      (x.take v (.tool .freshMetadata) r').take v (.tool .freshDetections) r := by
  rcases x with ⟨_ | t, dims⟩
  · rfl
  · exact congrArg (fun t => Showing.mk (some t) dims) (t.fetched_comm (v.withDims dims) r r')

end Pairs

end Showing

/-- The report of an answer that cannot be taken. -/
def Purpose.complaints (p : Purpose) (result : Response) : List String :=
  match p with
  | .frameImage _ =>
    match result.imageDims with
    | .ok _ => []
    | .error f => [f.userMessage]
  | _ =>
    match result.json with
    | .ok _ => []
    | .error f => [f.userMessage]

/-- What is asked for when an item begins, on a frame with a number. -/
def Purpose.IsLoad (p : Purpose) (frameSeq : Nat) : Prop :=
  p = .frameImage frameSeq ∨ p = .existingData ∨ p = .tool .freshDetections ∨
    p = .tool .freshMetadata

/-- Answers to two different requests are taken in any order. -/
theorem Showing.take_comm {x : Showing} (h : x.Idle) {p q : Purpose} {n : Nat} (hp : p.IsLoad n)
    (hq : q.IsLoad n) (hne : p ≠ q) (v : View) (r r' : Response) :
    (x.take v p r).take v q r' = (x.take v q r').take v p r := by
  rcases hp with rfl | rfl | rfl | rfl <;> rcases hq with rfl | rfl | rfl | rfl
  · exact absurd rfl hne
  · exact (take_stored_image h n).symm
  · exact (take_fetched_image _ n).symm
  · exact (take_fetched_image _ n).symm
  · exact take_stored_image h n
  · exact absurd rfl hne
  · exact (take_fetched_stored _).symm
  · exact (take_fetched_stored _).symm
  · exact take_fetched_image _ n
  · exact take_fetched_stored _
  · exact absurd rfl hne
  · exact take_fetched_comm
  · exact take_fetched_image _ n
  · exact take_fetched_stored _
  · exact take_fetched_comm.symm
  · exact absurd rfl hne

/-- A state that is changed piece by piece is the same in the end for any order of the
pieces, if any two of them can be exchanged. -/
theorem foldl_perm {β γ : Type} {f : β → γ → β} {P : β → Prop} (hP : ∀ x c, P x → P (f x c))
    {l l' : List γ} (h : l.Perm l')
    (hc : ∀ c ∈ l, ∀ d ∈ l, ∀ x, P x → f (f x c) d = f (f x d) c) :
    ∀ x, P x → l.foldl f x = l'.foldl f x := by
  induction h with
  | nil => exact fun _ _ => rfl
  | cons c _ ih =>
    intro x hx
    exact ih (fun c hcm d hdm => hc c (List.mem_cons_of_mem _ hcm) d (List.mem_cons_of_mem _ hdm))
      (f x c) (hP x c hx)
  | swap c d l =>
    intro x hx
    simp only [List.foldl_cons]
    rw [hc d (by simp) c (by simp) x hx]
  | trans h₁ _ ih₁ ih₂ =>
    intro x hx
    rw [ih₁ hc x hx]
    exact ih₂ (fun c hcm d hdm => hc c (h₁.mem_iff.2 hcm) d (h₁.mem_iff.2 hdm)) x hx

namespace Showing

variable {x : Showing} {n : Nat} {l l' : List Ticket} {v : View} {answers : Ticket → Response}

/-- Requests for different purposes are answered in any order. -/
theorem takeAll_perm (hx : x.Idle) (hload : ∀ t ∈ l, t.purpose.IsLoad n)
    (hnodup : (l.map Ticket.purpose).Nodup) (h : l.Perm l') :
    x.takeAll v answers l = x.takeAll v answers l' := by
  have hcomm : ∀ c ∈ l, ∀ d ∈ l, ∀ x : Showing, x.Idle →
      (x.take v c.purpose (answers c)).take v d.purpose (answers d) =
        (x.take v d.purpose (answers d)).take v c.purpose (answers c) := by
    intro c hc d hd x hx
    by_cases he : c.purpose = d.purpose
    · rw [List.inj_on_of_nodup_map hnodup hc hd he]
    · exact take_comm hx (hload c hc) (hload d hd) he v _ _
  exact foldl_perm (P := Idle) (fun x t hx => hx.take v _ _) h hcomm x hx

/-- Stored tracks are what the track tool has in the end, whenever they arrive. -/
theorem takeAll_stored (hx : x.Idle) (hload : ∀ t ∈ l, t.purpose.IsLoad n)
    (hnodup : (l.map Ticket.purpose).Nodup) (hk : x.tool.map Tool.kind = some .detectionToTrack)
    {t : Ticket} {data : Json} {frames : List (List Detection)} (ht : t ∈ l)
    (hp : t.purpose = .existingData) (ha : answers t = .ok (.json data))
    (hd : detectionFrames? data = some frames) (hne : frames ≠ []) :
    ∃ track, (x.takeAll v answers l).tool = some (.track track) ∧
      track.engine = .ofStored frames (v.itemMeta.map fun m => m.toJson.sorted) := by
  -- let the stored tracks come last
  have hlast : l.Perm (l.erase t ++ [t]) :=
    (List.perm_cons_erase ht).trans (List.perm_append_singleton t _).symm
  have hend : x.takeAll v answers l =
      (x.takeAll v answers (l.erase t)).take v .existingData (.ok (.json data)) := by
    rw [takeAll_perm hx hload hnodup hlast]
    unfold takeAll
    rw [List.foldl_append, List.foldl_cons, List.foldl_nil, hp, ha]
  have hkind := (kind_takeAll v answers (l.erase t) x).trans hk
  rw [hend]
  generalize x.takeAll v answers (l.erase t) = y at hkind
  obtain ⟨tool, htool, htk⟩ := Option.map_eq_some_iff.1 hkind
  cases tool with
  | track track =>
    refine ⟨track.load (v.withDims y.dims) data, ?_, ?_⟩
    · show y.tool.map _ = _
      rw [htool]
      rfl
    · rw [TrackTool.load_of_frames hd hne]
      rfl
  | _ => cases htk

end Showing

namespace Session

variable {s s' : Session} {stored : Session → Json → Prop}

/-! ## What is asked for when an item begins -/

/-- Requests for some purposes are made, about the item, and nothing else happens. -/
def Posts (ps : List Purpose) (s s' : Session) : Prop :=
  ∃ made : List (Ticket × Request),
    s' = { s with outbox := s.outbox ++ made, nextTicket := s.nextTicket + made.length } ∧
    made.map (fun m => m.1.purpose) = ps ∧ ∀ m ∈ made, m.1.generation = s.generation

theorem Posts.refl (s : Session) : Posts [] s s :=
  ⟨[], by simp, rfl, by simp⟩

theorem posts_issue {p : Purpose} (hp : p.isNavigation = false) (s : Session) (r : Request) :
    Posts [p] s (s.issue p r) := by
  refine ⟨[(⟨s.nextTicket, p, s.generation⟩, r)], ?_, rfl, by simp⟩
  unfold issue
  rw [hp]
  rfl

theorem Posts.trans {ps qs : List Purpose} {s'' : Session} (h : Posts ps s s')
    (h' : Posts qs s' s'') : Posts (ps ++ qs) s s'' := by
  obtain ⟨made, rfl, hm, hg⟩ := h
  obtain ⟨made', rfl, hm', hg'⟩ := h'
  refine ⟨made ++ made', ?_, by rw [List.map_append, hm, hm'], fun m hmem => ?_⟩
  · simp only [List.append_assoc, List.length_append, Nat.add_assoc]
  · rcases List.mem_append.1 hmem with hmem | hmem
    · exact hg m hmem
    · exact hg' m hmem

theorem notify_itemShown_posts (s : Session) (a : Assignment) :
    ∃ ps, Posts ps (s.enter a)
        ({ s with assignment := some a, frame := some 0 }.notify .itemShown) ∧
      (ps = [] ∨ s.annotationSet.isSome = true ∧
        (s.enter a).tool.map Tool.kind = some .detectionToTrack ∧
        ps = [.tool .freshDetections, .tool .freshMetadata]) := by
  rw [notify_itemShown_eq]
  rcases s.shownCommands_cases a with hc | ⟨hset, hk, r, r', hc⟩ <;> rw [hc]
  · exact ⟨[], Posts.refl _, Or.inl rfl⟩
  · exact ⟨_, (posts_issue rfl _ r).trans (posts_issue rfl _ r'), Or.inr ⟨hset, hk, rfl⟩⟩

theorem loadFrameImage_posts (s : Session) :
    ∃ ps, Posts ps s s.loadFrameImage ∧ (ps = [] ∨
      s.annotationSet.isSome = true ∧ ps = [.frameImage s.frameSeq]) := by
  rw [loadFrameImage_eq]
  split
  · rename_i r h
    refine ⟨_, posts_issue rfl s r, Or.inr ⟨?_, rfl⟩⟩
    obtain ⟨source, -, -, hs, -, -, -⟩ := frameRequest?_eq_some h
    obtain ⟨set, hset, -⟩ := Option.bind_eq_some_iff.1 hs
    rw [hset]
    rfl
  · exact ⟨[], Posts.refl s, Or.inl rfl⟩

theorem loadExisting_posts (s : Session) (a : Assignment) :
    ∃ ps, Posts ps s (s.loadExisting a) ∧ (ps = [] ∨
      s.annotationSet.isSome = true ∧ ps = [.existingData]) := by
  unfold loadExisting
  split
  · exact ⟨[], Posts.refl s, Or.inl rfl⟩
  · rename_i set hset
    split
    · refine ⟨_, posts_issue rfl s _, Or.inr ⟨?_, rfl⟩⟩
      rw [hset]
      rfl
    · exact ⟨[], Posts.refl s, Or.inl rfl⟩

/-- A request for the item that has just been begun. What was computed is asked for by the
track tool only. -/
def Loads (s : Session) (p : Purpose) : Prop :=
  p.IsLoad s.frameSeq ∧ s.annotationSet.isSome = true ∧
    ((∃ q, p = .tool q) → s.tool.map Tool.kind = some .detectionToTrack)

/-- Each of the requests for an item is made once. -/
theorem beginItem_posts (s : Session) (a : Assignment) :
    ∃ ps, Posts ps (s.enter a) (s.beginItem a) ∧ ps.Nodup ∧
      ∀ p ∈ ps, (s.beginItem a).Loads p := by
  obtain ⟨ts, ht, hts⟩ := s.notify_itemShown_posts a
  obtain ⟨is, hi, his⟩ := loadFrameImage_posts
    ({ s with assignment := some a, frame := some 0 }.notify .itemShown)
  obtain ⟨es, he, hes⟩ := loadExisting_posts
    ({ s with assignment := some a, frame := some 0 }.notify .itemShown).loadFrameImage a
  have hall : Posts (ts ++ is ++ es) (s.enter a) (s.beginItem a) := (ht.trans hi).trans he
  refine ⟨ts ++ is ++ es, hall, ?_, ?_⟩
  · rcases hts with rfl | ⟨-, -, rfl⟩ <;> rcases his with rfl | ⟨-, rfl⟩ <;>
      rcases hes with rfl | ⟨-, rfl⟩ <;> simp
  · -- the requests do not change what they are about
    obtain ⟨_, hb, -, -⟩ := hall
    obtain ⟨_, hn, -, -⟩ := ht
    obtain ⟨_, hl, -, -⟩ := hi
    rw [hl] at hes
    rw [hn] at his hes
    rw [hb]
    intro p hp
    simp only [List.mem_append, or_assoc] at hp
    rcases hp with hp | hp | hp
    · rcases hts with rfl | ⟨hset, hk, rfl⟩
      · cases hp
      · simp only [List.mem_cons, List.not_mem_nil, or_false] at hp
        refine ⟨?_, hset, fun _ => hk⟩
        unfold Purpose.IsLoad
        rcases hp with rfl | rfl <;> simp
    · rcases his with rfl | ⟨hset, rfl⟩
      · cases hp
      · cases List.mem_singleton.1 hp
        exact ⟨Or.inl rfl, hset, by simp⟩
    · rcases hes with rfl | ⟨hset, rfl⟩
      · cases hp
      · cases List.mem_singleton.1 hp
        exact ⟨Or.inr (Or.inl rfl), hset, by simp⟩

/-- The item is shown with its first frame, by the tool that heard of it. -/
theorem beginItem_shows (s : Session) (a : Assignment) :
    (s.beginItem a).frame = some 0 ∧ (s.beginItem a).tool = (s.enter a).tool := by
  obtain ⟨_, ⟨made, hb, -, -⟩, -, -⟩ := s.beginItem_posts a
  rw [hb]
  exact ⟨rfl, rfl⟩

/-- Without an annotation set nothing is asked for. -/
theorem eq_nil_of_loads (hset : s.annotationSet = none) {tickets : List Ticket}
    (h : ∀ t ∈ tickets, s.Loads t.purpose) : tickets = [] := by
  cases tickets with
  | nil => rfl
  | cons t rest =>
    have hsome := (h t (List.mem_cons_self ..)).2.1
    rw [hset] at hsome
    cases hsome

/-- The requests for an item that is begun. -/
def loads (s : Session) (a : Assignment) : List Ticket :=
  ((s.beginItem a).outbox.drop s.outbox.length).map Prod.fst

/-- No two requests for an item serve the same purpose, and no answer to them is late. -/
theorem loads_live (s : Session) (a : Assignment) :
    ((s.loads a).map Ticket.purpose).Nodup ∧
    ∀ t ∈ s.loads a, (s.beginItem a).Loads t.purpose ∧ (s.beginItem a).isStale t = false := by
  obtain ⟨ps, ⟨made, hb, hm, hg⟩, hnodup, hloads⟩ := s.beginItem_posts a
  have hmade : s.loads a = made.map Prod.fst := by
    unfold loads
    rw [hb]
    exact congrArg _ List.drop_left
  have hps : (s.loads a).map Ticket.purpose = ps := by
    rw [hmade, List.map_map]
    exact hm
  refine ⟨hps ▸ hnodup, fun t ht => ?_⟩
  have hp : (s.beginItem a).Loads t.purpose := hloads _ (hps ▸ List.mem_map_of_mem ht)
  refine ⟨hp, ?_⟩
  rw [hmade] at ht
  obtain ⟨m, hmem, rfl⟩ := List.mem_map.1 ht
  have hgen : m.1.generation = (s.beginItem a).generation := by
    rw [hb]
    exact hg m hmem
  unfold isStale
  rcases hp.1 with hp | hp | hp | hp <;> rw [hp]
  · simp
  all_goals
    cases (s.beginItem a).config.stale <;>
      simp [Purpose.isNavigation, Purpose.isItemScoped, hgen]

/-! ## Taking the answers -/

/-- The session with another tool, image and errors. -/
def showing (s : Session) (x : Showing) (errors : List String) : Session :=
  { s with tool := x.tool, dims := x.dims, errors }

/-- Take the answers to some requests, in some order. -/
def receive (s : Session) (answers : Ticket → Response) (tickets : List Ticket) : Session :=
  tickets.foldl (fun s t => s.complete t (answers t)) s

variable {x : Showing} {errors : List String} {set : AnnotationSet}

/-- Telling the tool changes nothing but the tool. What it complains of is reported. -/
theorem notify_showing (hset : s.annotationSet = some set) {e : ToolEvent} {complaint : List String}
    (hc : ∀ t, x.tool = some t → (t.handle ((s.view set).withDims x.dims) e).commands =
      complaint.map Command.reportError) (hnone : x.tool = none → complaint = []) :
    (s.showing x errors).notify e =
      s.showing (x.tell (s.view set) e) (errors ++ complaint) := by
  have hreport : ∀ (complaint : List String) (s : Session),
      (complaint.map Command.reportError).foldl carryOut s =
        { s with errors := s.errors ++ complaint } := by
    intro complaint
    induction complaint with
    | nil =>
      intro s
      rw [List.append_nil]
      rfl
    | cons message rest ih =>
      intro s
      rw [List.map_cons, List.foldl_cons, ih]
      simp [carryOut, reportMessage]
  rcases x with ⟨_ | t, dims⟩
  · rw [notify_of_no_tool rfl, hnone rfl, List.append_nil]
    rfl
  · have hcommands : (t.handle ((s.showing ⟨some t, dims⟩ errors).view set) e).commands = _ :=
      hc t rfl
    have hnotify := notify_eq (s := s.showing ⟨some t, dims⟩ errors) hset rfl e
    rw [hnotify, hcommands, hreport]
    rfl

/-- An answer about the item changes what is shown, and its complaints are reported. -/
theorem apply_showing {p : Purpose} (hp : s.Loads p) (hset : s.annotationSet = some set)
    (hf : s.frame.isSome = true) (hk : x.tool.map Tool.kind = s.tool.map Tool.kind)
    (result : Response) :
    (s.showing x errors).apply p result =
      s.showing (x.take (s.view set) p result) (errors ++ p.complaints result) := by
  obtain ⟨hload, -, htrack⟩ := hp
  have htool : ∀ q, p = .tool q → (s.showing x errors).apply (.tool q) result =
      s.showing (x.take (s.view set) (.tool q) result)
        (errors ++ (Purpose.tool q).complaints result) := by
    intro q hq
    have hkind := hk.trans (htrack ⟨q, hq⟩)
    refine notify_showing hset (fun t ht => ?_) fun hnone => ?_
    · rw [ht] at hkind
      rw [Tool.fetched_commands (Option.some.inj hkind)]
      show _ = (match result.json with
        | .ok _ => []
        | .error f => [f.userMessage] : List String).map Command.reportError
      cases result.json <;> rfl
    · rw [hnone] at hkind
      cases hkind
  rcases hload with rfl | rfl | rfl | rfl
  · unfold apply Showing.take Purpose.complaints
    dsimp only
    cases result.imageDims with
    | error f => rfl
    | ok dims =>
      show (s.showing x errors).imageLoaded dims = _
      unfold imageLoaded
      rw [if_neg (by simpa [showing, Option.isSome_iff_ne_none] using hf)]
      exact notify_showing (x := { x with dims := some dims }) hset
        (fun t _ => t.imageLoaded_commands _) fun _ => rfl
  · unfold apply Showing.take Purpose.complaints
    dsimp only
    cases result.json with
    | error f => rfl
    | ok data =>
      exact notify_showing hset (fun t _ => t.stored_commands _ data) fun _ => rfl
  · exact htool _ rfl
  · exact htool _ rfl

/-- The answers to some of the requests for an item, in some order. -/
theorem receive_showing {tickets : List Ticket} (hset : s.annotationSet = some set)
    (hf : s.frame.isSome = true) (answers : Ticket → Response)
    (ht : ∀ t ∈ tickets, s.Loads t.purpose ∧ s.isStale t = false) :
    ∀ (x : Showing) (errors : List String), x.tool.map Tool.kind = s.tool.map Tool.kind →
      (s.showing x errors).receive answers tickets =
        s.showing (x.takeAll (s.view set) answers tickets)
          (errors ++ tickets.flatMap fun t => t.purpose.complaints (answers t)) := by
  induction tickets with
  | nil =>
    intro x errors _
    rw [List.flatMap_nil, List.append_nil]
    rfl
  | cons t rest ih =>
    intro x errors hk
    obtain ⟨hload, hlive⟩ := ht t (List.mem_cons_self ..)
    have hlive' : (s.showing x errors).isStale t = false := hlive
    have hfirst : (s.showing x errors).complete t (answers t) =
        s.showing (x.take (s.view set) t.purpose (answers t))
          (errors ++ t.purpose.complaints (answers t)) := by
      unfold complete
      rw [hlive']
      exact apply_showing hload hset hf hk (answers t)
    show receive ((s.showing x errors).complete t (answers t)) answers rest = _
    rw [hfirst, ih (fun t' ht' => ht t' (List.mem_cons_of_mem _ ht')) _ _
      ((Showing.kind_take ..).trans hk), List.flatMap_cons, List.append_assoc]
    rfl

/-! ## Nothing is selected when an item begins -/

/-- Nothing is selected on the canvas of the tool. -/
def Idle (s : Session) : Prop := ∀ t, s.tool = some t → t.Idle

/-- While an item waits to be begun no other one is shown and nothing is selected, and during
the round nothing new is put off. -/
structure Resting (s : Session) (due : List Deferred) : Prop where
  waiting : (∃ a g, .begin a g ∈ s.deferred) → s.frame = none ∧ s.assignment = none ∧ s.Idle
  begins : (∃ a g, .begin a g ∈ due) → s.Idle
  round : due ≠ [] → s.deferred = []

/-- An item that is left takes the selection with it. -/
theorem idle_resetFrame (s : Session) : s.resetFrame.Idle := by
  intro t ht
  obtain ⟨t', -, rfl⟩ := Option.map_eq_some_iff.1 ht
  exact t'.idle_resetFrame

theorem Idle.enter (h : s.Idle) (a : Assignment) : (s.enter a).Idle := by
  intro t ht
  obtain ⟨t₀, ht₀, ⟨-, rfl⟩ | ⟨set, -, rfl⟩⟩ := enter_tool_cases ht
  · exact h t ht₀
  · exact (h t₀ ht₀).itemShown _

theorem resting_of_deferred_eq (h : s.deferred = []) : s.Resting [] where
  waiting hb := by
    obtain ⟨a, g, hb⟩ := hb
    rw [h] at hb
    cases hb
  begins hb := by
    obtain ⟨a, g, hb⟩ := hb
    cases hb
  round hne := absurd rfl hne

theorem Resting.work (h : s.Resting []) (hw : Work stored False s s') : s'.Resting [] := by
  cases hw with
  | fetch hf => cases hf <;> exact ⟨h.waiting, h.begins, h.round⟩
  | react hset ht hr =>
    refine ⟨fun hb => ?_, fun hb => ?_, h.round⟩
    · obtain ⟨hf, ha, hidle⟩ := h.waiting hb
      refine ⟨hf, ha, fun t' ht' => ?_⟩
      cases ht'
      exact hr.idle hf (hidle _ ht)
    · obtain ⟨a, g, hb⟩ := hb
      cases hb
  | leaveFrame index ha hc =>
    refine ⟨fun hb => ?_, fun hb => ?_, fun hne => absurd rfl hne⟩
    · obtain ⟨a, g, hb⟩ := hb
      rcases List.mem_append.1 hb with hb | hb
      · -- no frame of an item is left while another one is waited for
        obtain ⟨-, hnone, -⟩ := h.waiting ⟨a, g, hb⟩
        rw [hnone] at ha
        cases ha
      · cases List.mem_singleton.1 hb
    · obtain ⟨a, g, hb⟩ := hb
      cases hb
  | _ => exact ⟨h.waiting, h.begins, h.round⟩

theorem Resting.turn (h : s.Resting []) (ht : Turn s s') : s'.Resting [] := by
  cases ht with
  | leaveItem message =>
    refine ⟨fun _ => ⟨rfl, rfl, idle_resetFrame _⟩, fun hb => ?_, fun hne => absurd rfl hne⟩
    obtain ⟨a, g, hb⟩ := hb
    cases hb
  | _ => exact ⟨h.waiting, h.begins, h.round⟩

end Session

namespace History

variable {H : History}

theorem idle_invariant :
    Invariant False (fun _ _ => True) Always (fun _ due s => s.Resting due) where
  promised h := h.elim
  blank taken s h := Session.resting_of_deferred_eq h.deferred
  installed taken s set h := Session.resting_of_deferred_eq h.deferred
  work taken s s' _ h hw := h.work hw
  fetch taken due s s' _ h hf := by
    cases hf <;> exact ⟨h.waiting, h.begins, h.round⟩
  turn taken s s' _ h ht := h.turn ht
  listed taken s keys _ h := ⟨h.waiting, h.begins, h.round⟩
  asked taken s a source _ h _ := ⟨h.waiting, h.begins, h.round⟩
  followed taken s t a result known _ h _ _ _ := by
    refine ⟨fun _ => ⟨rfl, rfl, Session.idle_resetFrame _⟩, fun hb => ?_, fun hne => absurd rfl hne⟩
    obtain ⟨a, g, hb⟩ := hb
    cases hb
  taken taken s _ h := ⟨h.waiting, h.begins, h.round⟩
  round taken s _ h := by
    refine ⟨fun hb => ?_, fun hb => (h.waiting hb).2.2, fun _ => rfl⟩
    obtain ⟨a, g, hb⟩ := hb
    cases hb
  dropped taken task due s _ h := by
    refine ⟨h.waiting, fun hb => h.begins ?_, fun _ => h.round (List.cons_ne_nil _ _)⟩
    obtain ⟨a, g, hb⟩ := hb
    exact ⟨a, g, List.mem_cons_of_mem _ hb⟩
  entered taken a g due s _ h _ := by
    have hd : s.deferred = [] := h.round (List.cons_ne_nil _ _)
    refine ⟨fun hb => ?_, fun _ => ?_, fun _ => hd⟩
    · obtain ⟨a', g', hb⟩ := hb
      rw [show (s.enter a).deferred = [] from hd] at hb
      cases hb
    · exact (h.begins ⟨a, g, List.mem_cons_self ..⟩).enter a
  shown taken index due s _ h _ := by
    have hd : s.deferred = [] := h.round (List.cons_ne_nil _ _)
    refine ⟨fun hb => ?_, fun hb => h.begins ?_, fun _ => hd⟩
    · obtain ⟨a, g, hb⟩ := hb
      rw [show s.deferred = [] from hd] at hb
      cases hb
    · obtain ⟨a, g, hb⟩ := hb
      exact ⟨a, g, List.mem_cons_of_mem _ hb⟩

/-- In a round of the history, an item is the next thing to be begun in a session. -/
def Begins (H : History) (s : Session) (a : Assignment) : Prop :=
  ∃ before g due, H.session.deferred = before ++ .begin a g :: due ∧
    s = before.foldl Session.runDeferred { H.session with deferred := [] }

theorem idle_of_begins (h : Reachable H) {s : Session} {a : Assignment} (hb : H.Begins s a) :
    s.Idle := by
  obtain ⟨before, g, due, hd, rfl⟩ := hb
  have hround := idle_invariant.round H.taken _ trivial (idle_invariant.reachable h)
  rw [hd] at hround
  exact (idle_invariant.foldl_runDeferred H.taken hround).begins ⟨a, g, List.mem_cons_self ..⟩

/-- Right after an item was begun, the answers to the requests that were made for it lead to
the same session in any two orders, with the same errors apart from their order. If they
include stored tracks, these are what the track tool has in the end. -/
theorem arrival_order (h : Reachable H) {s₀ : Session} {a : Assignment} (hb : H.Begins s₀ a)
    (answers : Ticket → Response) {l₁ l₂ : List Ticket} (h₁ : l₁.Perm (s₀.loads a))
    (h₂ : l₂.Perm (s₀.loads a)) :
    let s := s₀.beginItem a
    let s₁ := s.receive answers l₁
    let s₂ := s.receive answers l₂
    s₂ = { s₁ with errors := s₂.errors } ∧ s₁.errors.Perm s₂.errors ∧
      ∀ track t data frames, s.tool = some (.track track) → t ∈ l₁ → t.purpose = .existingData →
        answers t = .ok (.json data) → detectionFrames? data = some frames → frames ≠ [] →
        ∃ track', s₁.tool = some (.track track') ∧
          track'.engine = ⟨frames, s.itemMeta.map fun m => m.toJson.sorted,
            TrackEngine.nextAfter (TrackEngine.tracks frames), true⟩ := by
  intro s s₁ s₂
  obtain ⟨hnodup, hlive⟩ := s₀.loads_live a
  have hlive₁ : ∀ t ∈ l₁, s.Loads t.purpose ∧ s.isStale t = false :=
    fun t ht => hlive t (h₁.mem_iff.1 ht)
  have hlive₂ : ∀ t ∈ l₂, s.Loads t.purpose ∧ s.isStale t = false :=
    fun t ht => hlive t (h₂.mem_iff.1 ht)
  cases hset : s.annotationSet with
  | none =>
    obtain rfl := Session.eq_nil_of_loads hset fun t ht => (hlive₁ t ht).1
    obtain rfl := Session.eq_nil_of_loads hset fun t ht => (hlive₂ t ht).1
    exact ⟨rfl, .refl _, fun _ t _ _ _ ht => absurd ht List.not_mem_nil⟩
  | some set =>
    obtain ⟨hframe, htool⟩ := s₀.beginItem_shows a
    have hf : s.frame.isSome = true := congrArg Option.isSome hframe
    have hidle : Showing.Idle ⟨s.tool, s.dims⟩ := fun t ht =>
      (idle_of_begins h hb).enter a t (htool ▸ ht)
    have hs₁ : s₁ = s.showing _ _ := Session.receive_showing hset hf answers hlive₁
      ⟨s.tool, s.dims⟩ s.errors rfl
    have hs₂ : s₂ = s.showing _ _ := Session.receive_showing hset hf answers hlive₂
      ⟨s.tool, s.dims⟩ s.errors rfl
    have hnodup₁ : (l₁.map Ticket.purpose).Nodup := (h₁.map _).nodup_iff.2 hnodup
    have hload₁ : ∀ t ∈ l₁, t.purpose.IsLoad s.frameSeq := fun t ht => (hlive₁ t ht).1.1
    have hperm := h₁.trans h₂.symm
    refine ⟨?_, ?_, ?_⟩
    · rw [hs₁, hs₂, Showing.takeAll_perm hidle hload₁ hnodup₁ hperm]
      rfl
    · rw [hs₁, hs₂]
      exact (List.Perm.flatMap_right _ hperm).append_left s.errors
    · intro track t data frames htrack ht hp ha hd hne
      have hk : s.tool.map Tool.kind = some .detectionToTrack := by
        rw [htrack]
        rfl
      rw [hs₁]
      exact Showing.takeAll_stored hidle hload₁ hnodup₁ hk ht hp ha hd hne

/-- Stored detections on the third track arrive before computed ones, and after an image
that could not be loaded. -/
theorem arrival_order_track :
    let H := (ofSet (exampleSet .detectionToTrack .detection)).performAll
      [.complete ⟨0, .assignment, 1⟩ (.ok (.json (.arr [.str "a", .bool true]))),
        .complete ⟨1, .itemMeta ⟨"a", true, none⟩, 1⟩ (.ok (.json .null))]
    let s := { H.session with deferred := [] }.beginItem ⟨"a", true, none⟩
    let answers : Ticket → Response := fun t =>
      match t.purpose with
      | .existingData => .ok (.json (.arr [.arr [.obj [("Left", .int 0), ("Top", .int 0),
          ("Right", .int 9), ("Bottom", .int 9), ("TrackID", .int 3)]]]))
      | _ => .ok (.json (.arr []))
    ∃ track, (s.receive answers [⟨4, .frameImage 1, 1⟩, ⟨5, .existingData, 1⟩,
        ⟨3, .tool .freshMetadata, 1⟩, ⟨2, .tool .freshDetections, 1⟩]).tool = some (.track track) ∧
      track.engine.next = 4 := by
  intro H s answers
  have hreach : Reachable H :=
    (reachable_ofSet _).performAll (allowsAllb_sound (by decide +kernel))
  have hbegins : H.Begins { H.session with deferred := [] } ⟨"a", true, none⟩ :=
    ⟨[], 1, [], by decide +kernel, rfl⟩
  obtain ⟨tool, htool, hk⟩ := Option.map_eq_some_iff.1
    (show s.tool.map Tool.kind = some .detectionToTrack by decide +kernel)
  have hperm : [⟨4, .frameImage 1, 1⟩, ⟨5, .existingData, 1⟩, ⟨3, .tool .freshMetadata, 1⟩,
      ⟨2, .tool .freshDetections, 1⟩].Perm
      (Session.loads { H.session with deferred := [] } ⟨"a", true, none⟩) := by decide +kernel
  obtain ⟨-, -, hstored⟩ := arrival_order hreach hbegins answers hperm hperm
  cases tool with
  | track track =>
    obtain ⟨track', htrack, hengine⟩ := hstored track ⟨5, .existingData, 1⟩ _
      [[⟨0, 0, 9, 9, some 3, none, []⟩]] htool (by simp) rfl rfl rfl (by simp)
    refine ⟨track', htrack, ?_⟩
    rw [hengine]
    decide
  | _ => cases hk

end History

end Labeling
