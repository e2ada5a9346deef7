import Labeling.Proofs.Session.Additions
import Labeling.Proofs.Session.LastChoice
import Labeling.Proofs.Session.Listing
import Labeling.Proofs.Session.Policy

/-!
# Orderly use

The policy for late answers matters only to a user who is ahead of the backend. A run is orderly
(`History.OrderlyAll`) if items are chosen and annotations handed in only while no request is
outstanding and nothing waits. Whatever else the user does, and in whatever order and with whatever
results the requests are answered, such a run goes the same way under either policy
(`History.orderly_policy`).

At most one request that leads on to another item is outstanding at any time, and while it is,
nothing that belongs to an item is (`History.InOrder`). So when its answer moves a number on, no
ticket with the old number is left that could still be answered, and no item that waits could be
superseded. Hence all numbers that are ever compared are current. Only what the host asks for in
the tool's name may still carry an old number, if the tool does not listen to the answer
(`History.Heard`).
-/

namespace Labeling

/-! ## Orderly runs -/

/-- The operation chooses an item. -/
def SessionOp.chooses : SessionOp → Bool
  | .update => true
  | .getNewItem => true
  | .getOldItem _ => true
  | _ => false

/-- The host makes a request in the tool's name. -/
def SessionOp.fetches : SessionOp → Bool
  | .tool (.command (.fetch _ _)) => true
  | _ => false

namespace Session

variable {s : Session} {kind : ToolKind}

/-- If there is a tool, it is of this kind. -/
def Wields (kind : ToolKind) (s : Session) : Prop := s.tool.all (fun t => t.kind = kind) = true

instance : Decidable (s.Wields kind) := inferInstanceAs (Decidable (_ = true))

theorem Wields.kind_eq (h : s.Wields kind) {t : Tool} (ht : s.tool = some t) : t.kind = kind := by
  unfold Wields at h
  rw [ht] at h
  exact of_decide_eq_true h

theorem Wields.drives (h : s.Wields kind) (hkind : kind ≠ .geoJson) : s.Drives := by
  unfold Drives
  cases ht : s.tool with
  | none => rfl
  | some t =>
    show t.drivesItems = true
    rw [t.drivesItems_iff, h.kind_eq ht]
    exact hkind

/-- Unless the tool is the one for tracks, an answer to what the host asked for in its name does
nothing. -/
theorem Wields.complete_eq (h : s.Wields kind) (hkind : kind ≠ .geoJson)
    (htrack : kind ≠ .detectionToTrack) {t : Ticket} {q : ToolPurpose} (hp : t.purpose = .tool q)
    (result : Response) : s.complete t result = s := by
  unfold complete
  split
  · rfl
  · rw [hp]
    refine notify_fetched_eq (fun tool ht => ?_) q result
    have hk := h.kind_eq ht
    cases tool with
    | shape _ => exact Or.inl rfl
    | int _ => exact Or.inr rfl
    | track _ => exact absurd hk.symm htrack
    | geoJson _ => exact absurd hk.symm hkind

end Session

namespace History

variable {H : History} {op : SessionOp} {t : Ticket} {kind : ToolKind}

/-- No request is outstanding, and nothing waits. -/
def AtRest (H : History) : Prop :=
  (∀ m ∈ H.issued, m.1.id ∈ H.answered) ∧ H.session.deferred = []

instance : Decidable H.AtRest := inferInstanceAs (Decidable (_ ∧ _))

/-- No outstanding request can lead to another item. -/
def Settled (H : History) : Prop :=
  ∀ m ∈ H.issued, m.1.id ∉ H.answered → m.1.purpose.leads = false

instance : Decidable H.Settled := inferInstanceAs (Decidable (∀ m ∈ _, _))

/-- The requests by which an operation hands in annotations. -/
def handedIn (H : History) (op : SessionOp) : List (Ticket × Request) :=
  ((H.perform op).session.outbox.drop H.session.outbox.length).filter
    fun m => m.1.purpose = .submit

/-- What an orderly operation may do. Items are chosen and annotations handed in only at rest; and
as they are handed in by a request, this happens once. If the host makes requests in the name of
the tool for tracks, they are about an item that stays: otherwise the answer could meet the next
one, and then the policy decides whether the tool is told. -/
structure Orderly (kind : ToolKind) (H : History) (op : SessionOp) : Prop where
  choice : op.chooses = true → H.AtRest
  submission : ∀ m ∈ H.handedIn op, H.AtRest ∧ H.handedIn op = [m]
  wish : op.fetches = true → kind = .detectionToTrack → H.Settled

theorem orderly_iff : H.Orderly kind op ↔ (op.chooses = true → H.AtRest) ∧
    (∀ m ∈ H.handedIn op, H.AtRest ∧ H.handedIn op = [m]) ∧
      (op.fetches = true → kind = .detectionToTrack → H.Settled) :=
  ⟨fun h => ⟨h.choice, h.submission, h.wish⟩, fun ⟨hc, hs, hw⟩ => ⟨hc, hs, hw⟩⟩

instance : Decidable (H.Orderly kind op) := decidable_of_iff _ orderly_iff.symm

/-- A run in which every operation is orderly, with a tool of a certain kind. -/
def OrderlyAll (kind : ToolKind) (H : History) : List SessionOp → Prop
  | [] => H.session.Wields kind
  | op :: rest =>
    H.session.Wields kind ∧ H.Allows op ∧ H.Orderly kind op ∧ (H.perform op).OrderlyAll kind rest

theorem OrderlyAll.wields {ops : List SessionOp} (h : H.OrderlyAll kind ops) :
    H.session.Wields kind := by
  cases ops with
  | nil => exact h
  | cons op rest => exact h.1

/-- The beginning of an orderly run is orderly. -/
theorem OrderlyAll.take {ops : List SessionOp} :
    ∀ {H : History}, H.OrderlyAll kind ops → ∀ n, H.OrderlyAll kind (ops.take n) := by
  induction ops with
  | nil =>
    intro H h n
    rw [List.take_nil]
    exact h
  | cons op rest ih =>
    intro H h n
    cases n with
    | zero => exact h.1
    | succ n => exact ⟨h.1, h.2.1, h.2.2.1, ih h.2.2.2 n⟩

/-- Decide whether a run is orderly. -/
def orderlyAllb (kind : ToolKind) (H : History) : List SessionOp → Bool
  | [] => decide (H.session.Wields kind)
  | op :: rest => decide (H.session.Wields kind) && H.allowsb op && decide (H.Orderly kind op) &&
      (H.perform op).orderlyAllb kind rest

theorem orderlyAllb_sound {ops : List SessionOp} :
    ∀ {H : History}, H.orderlyAllb kind ops = true → H.OrderlyAll kind ops := by
  induction ops with
  | nil => exact of_decide_eq_true
  | cons op rest ih =>
    intro H h
    simp only [orderlyAllb, Bool.and_eq_true, decide_eq_true_eq] at h
    obtain ⟨⟨⟨hd, ha⟩, ho⟩, hrest⟩ := h
    exact ⟨hd, allowsb_sound ha, ho, ih hrest⟩

/-! ### Outstanding requests -/

/-- The request with this ticket was made and is not answered. -/
def Open (H : History) (t : Ticket) : Prop := (∃ r, (t, r) ∈ H.issued) ∧ t.id ∉ H.answered

theorem AtRest.not_open (h : H.AtRest) (t : Ticket) : ¬ H.Open t :=
  fun ⟨⟨_, hm⟩, hn⟩ => hn (h.1 _ hm)

/-- What is outstanding after an operation was so before, or was added by it. -/
theorem Open.perform {P : Ticket → Prop} (h : (H.perform op).Open t) (hop : op ≠ .takeRequests)
    (hadds : Session.Adds P H.session (H.perform op).session) : H.Open t ∨ P t := by
  obtain ⟨⟨r, hm⟩, hn⟩ := h
  unfold issued at hm
  rw [taken_perform hop] at hm
  have hopen : t.id ∉ H.answered := fun ha => hn (answered_perform ha)
  rcases List.mem_append.1 hm with hm | hm
  · exact Or.inl ⟨⟨r, List.mem_append_left _ hm⟩, hopen⟩
  · exact (hadds t r hm).imp_left fun hm => ⟨⟨r, List.mem_append_right _ hm⟩, hopen⟩

/-- The request is outstanding, and its answer will be heard. What the host asks for in the name of
a tool that does not listen is left out. -/
def Heard (kind : ToolKind) (H : History) (t : Ticket) : Prop :=
  H.Open t ∧ ∀ q, t.purpose = .tool q → kind = .detectionToTrack

theorem heard_or_unheard (kind : ToolKind) (ht : H.Open t) :
    H.Heard kind t ∨ ∃ q, t.purpose = .tool q ∧ kind ≠ .detectionToTrack := by
  by_cases hheard : ∀ q, t.purpose = .tool q → kind = .detectionToTrack
  · exact Or.inl ⟨ht, hheard⟩
  · exact Or.inr (by simpa using hheard)

theorem Heard.perform {P : Ticket → Prop} (h : (H.perform op).Heard kind t)
    (hop : op ≠ .takeRequests) (hadds : Session.Adds P H.session (H.perform op).session) :
    H.Heard kind t ∨ P t :=
  (h.1.perform hop hadds).imp_left fun ho => ⟨ho, h.2⟩

/-- What is known of the outstanding requests in an orderly run. One at most can lead to another
item, and then nothing belongs to an item. All carry current numbers, and so does the work that
waits. -/
structure InOrder (isOpen : Ticket → Prop) (s : Session) : Prop where
  lead : ∀ t t', isOpen t → isOpen t' → t.purpose.leads = true → t'.purpose.leads = true →
    t.id = t'.id
  choice : ∀ t, isOpen t → t.purpose.isNavigation = true → t.generation = s.navSeq
  item : ∀ t, isOpen t → t.purpose.isItemScoped = true →
    t.generation = s.generation ∧ ∀ t', isOpen t' → t'.purpose.leads = false
  begins : ∀ a g, .begin a g ∈ s.deferred →
    g = s.generation ∧ ∀ t, isOpen t → t.purpose.leads = false

section InOrder

variable {isOpen isOpen' : Ticket → Prop} {s s' : Session}

theorem InOrder.fresh (h : InOrder isOpen s) (ht : isOpen t) : s.Fresh t :=
  ⟨h.choice t ht, fun hi => (h.item t ht hi).1⟩

/-- Requests that lead to no other item may be added. If they are about the item, no other one may
lead to another item. -/
theorem InOrder.add (h : InOrder isOpen s) (hn : s'.navSeq = s.navSeq)
    (hg : s'.generation = s.generation)
    (hb : ∀ a g, .begin a g ∈ s'.deferred → .begin a g ∈ s.deferred)
    (ho : ∀ t, isOpen' t → isOpen t ∨ t.purpose.leads = false ∧ (t.purpose.isItemScoped = true →
      t.generation = s.generation ∧ ∀ t', isOpen t' → t'.purpose.leads = false)) :
    InOrder isOpen' s' := by
  -- what can lead to another item was outstanding before
  have hold : ∀ t, isOpen' t → t.purpose.leads = true → isOpen t := by
    intro t ht hl
    rcases ho t ht with ht | ⟨hl', -⟩
    · exact ht
    · rw [hl] at hl'
      cases hl'
  have hfree : (∀ t, isOpen t → t.purpose.leads = false) →
      ∀ t, isOpen' t → t.purpose.leads = false := by
    intro hfree t ht
    by_contra hl
    have hlead : t.purpose.leads = true := by simpa using hl
    exact hl (hfree t (hold t ht hlead))
  refine ⟨fun t t' ht ht' hl hl' => h.lead t t' (hold t ht hl) (hold t' ht' hl') hl hl',
    fun t ht hp => ?_, fun t ht hp => ?_, fun a g hm => ?_⟩
  · rw [hn]
    exact h.choice t (hold t ht (Purpose.leads_of_isNavigation hp)) hp
  · rw [hg]
    rcases ho t ht with ht | ⟨-, hi⟩
    · exact (h.item t ht hp).imp_right hfree
    · exact (hi hp).imp_right hfree
  · rw [hg]
    exact (h.begins a g (hb a g hm)).imp_right hfree

/-- Nothing that is outstanding belongs to an item, no item waits, and one request at most can lead
to another item. -/
theorem inOrder_of_lead {n : Nat} (hd : ∀ a g, .begin a g ∉ s.deferred)
    (ho : ∀ t, isOpen t → t.purpose.isItemScoped = false ∧ (t.purpose.leads = true →
      t.id = n ∧ (t.purpose.isNavigation = true → t.generation = s.navSeq))) :
    InOrder isOpen s where
  lead t t' ht ht' hl hl' := by rw [((ho t ht).2 hl).1, ((ho t' ht').2 hl').1]
  choice t ht hp := ((ho t ht).2 (Purpose.leads_of_isNavigation hp)).2 hp
  item t ht hp := by
    rw [(ho t ht).1] at hp
    cases hp
  begins a g hm := absurd hm (hd a g)

/-- Nothing that is outstanding leads to another item or belongs to one, and the items that wait are
current. -/
theorem inOrder_of_free
    (ho : ∀ t, isOpen t → t.purpose.isItemScoped = false ∧ t.purpose.leads = false)
    (hb : ∀ a g, .begin a g ∈ s.deferred → g = s.generation) : InOrder isOpen s where
  lead t t' ht ht' hl hl' := by
    rw [(ho t ht).2] at hl
    cases hl
  choice t ht hp := by
    have hl := Purpose.leads_of_isNavigation hp
    rw [(ho t ht).2] at hl
    cases hl
  item t ht hp := by
    rw [(ho t ht).1] at hp
    cases hp
  begins a g hm := ⟨hb a g hm, fun t ht => (ho t ht).2⟩

end InOrder

/-! ### The operations of an orderly run -/

/-- An item is chosen when nothing else can lead to one. -/
theorem inOrder_of_chooses (hop : op ≠ .takeRequests)
    (hc : Session.Chooses H.session (H.perform op).session)
    (hd : ∀ a g, .begin a g ∉ H.session.deferred)
    (hold : ∀ t, (H.perform op).Heard kind t → H.Heard kind t →
      t.purpose.isItemScoped = false ∧ t.purpose.leads = false) :
    InOrder ((H.perform op).Heard kind) (H.perform op).session := by
  refine inOrder_of_lead (n := H.session.nextTicket) (fun a g => ?_) fun t ht => ?_
  · rw [hc.deferred]
    exact hd a g
  · rcases ht.perform hop hc.adds with ht' | ⟨hnav, hid, hg⟩
    · obtain ⟨hi, hl⟩ := hold t ht ht'
      exact ⟨hi, fun hl' => by rw [hl] at hl'; cases hl'⟩
    · exact ⟨Purpose.isItemScoped_of_leads (Purpose.leads_of_isNavigation hnav),
        fun _ => ⟨hid, fun _ => hg⟩⟩

/-- What the user asks for while an item is shown is not about the item. It leads to another item
only if annotations are handed in. -/
theorem works_adds (hw : Session.Works (fun _ _ => False) False H.session (H.perform op).session)
    (hadds : Session.Adds Session.Apart H.session (H.perform op).session) :
    Session.Adds (fun t => t.purpose.isItemScoped = false ∧ (t.purpose.leads = true →
      t.purpose = .submit ∧ ∃ r, (t, r) ∈ H.handedIn op)) H.session (H.perform op).session := by
  obtain ⟨made, hout, -, -, hmade⟩ := hw.grows
  have hhanded : H.handedIn op = made.filter fun m => m.1.purpose = .submit := by
    unfold handedIn
    rw [hout, List.drop_left]
  intro t r hm
  rcases hadds t r hm with hold | hi
  · exact Or.inl hold
  · rw [hout] at hm
    refine (List.mem_append.1 hm).imp_right fun hm => ⟨hi, fun hl => ?_⟩
    have hp : t.purpose = .submit := Session.submit_of_forItem (hmade _ hm) hl
    rw [hhanded]
    exact ⟨hp, r, List.mem_filter.2 ⟨hm, decide_eq_true hp⟩⟩

/-- While an item is shown, annotations are handed in at rest and once, and whatever else is asked
for does not matter. -/
theorem InOrder.works (h : InOrder (H.Heard kind) H.session) (ho : H.Orderly kind op)
    (hop : op ≠ .takeRequests)
    (hw : Session.Works (fun _ _ => False) False H.session (H.perform op).session)
    (hadds : Session.Adds Session.Apart H.session (H.perform op).session) :
    InOrder ((H.perform op).Heard kind) (H.perform op).session := by
  have hopen := fun t (ht : (H.perform op).Heard kind t) => ht.perform hop (works_adds hw hadds)
  cases hhanded : H.handedIn op with
  | nil =>
    refine h.add hw.sameItem.navSeq hw.sameItem.generation (fun a g => hw.begin_mem) fun t ht => ?_
    refine (hopen t ht).imp_right fun ⟨hi, hl⟩ => ⟨?_, fun hi' => by rw [hi] at hi'; cases hi'⟩
    by_contra hlead
    obtain ⟨-, r, hm⟩ := hl (by simpa using hlead)
    rw [hhanded] at hm
    cases hm
  | cons m rest =>
    obtain ⟨hrest, hsingle⟩ := ho.submission m (hhanded ▸ List.mem_cons_self ..)
    refine inOrder_of_lead (n := m.1.id) (fun a g hm => ?_) fun t ht => ?_
    · have hwaits := hw.begin_mem hm
      rw [hrest.2] at hwaits
      cases hwaits
    · rcases hopen t ht with ht' | ⟨hi, hl⟩
      · exact absurd ht'.1 (hrest.not_open t)
      · refine ⟨hi, fun hlead => ?_⟩
        obtain ⟨hp, r, hm⟩ := hl hlead
        rw [hsingle] at hm
        refine ⟨by rw [← List.mem_singleton.1 hm], fun hnav => ?_⟩
        rw [hp] at hnav
        cases hnav

/-- The host may ask for something about an item that stays, or in the name of a tool that does not
listen. -/
theorem InOrder.wish (h : InOrder (H.Heard kind) H.session) {purpose : ToolPurpose} {r : Request}
    (hop : op = .tool (.command (.fetch purpose r)))
    (hs : kind = .detectionToTrack → H.Settled) :
    InOrder ((H.perform op).Heard kind) (H.perform op).session := by
  have hsession : (H.perform op).session = H.session ∨
      (H.perform op).session = H.session.issue (.tool purpose) r := by
    rw [hop]
    exact H.session.performTool_fetch purpose r
  have htake : op ≠ .takeRequests := by
    rw [hop]
    simp
  rcases hsession with he | he
  · refine h.add (by rw [he]) (by rw [he]) (fun _ _ hm => he ▸ hm) fun t ht => ?_
    exact (ht.perform (P := fun _ => False) htake (.of_eq (by rw [he]))).imp_right False.elim
  · refine h.add (by rw [he]; rfl) (by rw [he]; rfl) (fun _ _ hm => by rwa [he] at hm)
      fun t ht => ?_
    have hadds : Session.Adds
        (fun t => t.purpose = .tool purpose ∧ t.generation = H.session.generation)
        H.session (H.perform op).session := by
      rw [he]
      exact Session.adds_issue ⟨rfl, rfl⟩
    refine (ht.perform htake hadds).imp_right fun ⟨hp, hg⟩ => ?_
    have hsettled : H.Settled := hs (ht.2 purpose hp)
    rw [hp]
    exact ⟨rfl, fun _ => ⟨hg, fun t' ⟨⟨⟨r', hm⟩, hn⟩, _⟩ => hsettled (t', r') hm hn⟩⟩

/-- Once requests are taken out of the outbox, the same ones are outstanding. -/
theorem InOrder.takeRequests (h : InOrder (H.Heard kind) H.session) :
    InOrder ((H.perform .takeRequests).Heard kind) (H.perform .takeRequests).session :=
  h.add rfl rfl (fun _ _ hm => hm) fun _ ⟨⟨⟨r, hm⟩, hn⟩, hheard⟩ =>
    Or.inl ⟨⟨⟨r, issued_takeRequests (H := H) ▸ hm⟩, hn⟩, hheard⟩

/-- In a round, requests about an item are made for an item that waited. -/
theorem InOrder.tick (h : InOrder (H.Heard kind) H.session) :
    InOrder ((H.perform .tick).Heard kind) (H.perform .tick).session := by
  have hsteady : Session.Steady { H.session with deferred := [] } (H.perform .tick).session :=
    Session.foldl_runDeferred_steady H.session.deferred _
  refine h.add hsteady.navSeq hsteady.generation (fun a g hm => ?_) fun t ht => ?_
  · rw [hsteady.deferred] at hm
    cases hm
  · refine (ht.perform (by simp) H.session.tick_adds).imp_right fun ⟨hl, hi⟩ => ⟨hl, fun hp => ?_⟩
    obtain ⟨hg, a, g, hm⟩ := hi hp
    exact ⟨hg, (h.begins a g hm).2⟩

/-- An answer that does not lead on changes neither the numbers nor what waits. -/
theorem InOrder.quiet (h : InOrder (H.Heard kind) H.session) (hop : op ≠ .takeRequests)
    (hq : Session.Quiet H.session (H.perform op).session) :
    InOrder ((H.perform op).Heard kind) (H.perform op).session := by
  refine h.add hq.navSeq hq.generation (fun a g hm => hq.deferred ▸ hm) fun t ht => ?_
  exact (ht.perform (P := fun _ => False) hop (.of_eq hq.outbox)).imp_right False.elim

/-- While a request that can lead to another item is outstanding, nothing belongs to an item, and no
item waits. So once it is answered, all numbers may move on. -/
theorem InOrder.lead_answered (h : InOrder (H.Heard kind) H.session) {result : Response}
    (ht : H.Heard kind t) (hl : t.purpose.leads = true)
    (hd : (H.session.apply t.purpose result).Drives)
    (hs : (H.perform (.complete t result)).session = H.session.apply t.purpose result) :
    InOrder ((H.perform (.complete t result)).Heard kind)
      (H.perform (.complete t result)).session := by
  have hnone : ¬ ∀ t', H.Heard kind t' → t'.purpose.leads = false := by
    intro hnone
    have hl' := hnone t ht
    rw [hl] at hl'
    cases hl'
  have hbegins : ∀ a g, .begin a g ∉ H.session.deferred := fun a g hm => hnone (h.begins a g hm).2
  have hold : ∀ t', (H.perform (.complete t result)).Heard kind t' → H.Heard kind t' →
      t'.purpose.isItemScoped = false ∧ t'.purpose.leads = false := by
    intro t' ht' hopen
    constructor
    · by_contra hi
      exact hnone (h.item t' hopen (by simpa using hi)).2
    · by_contra hl'
      have hid : t'.id = t.id := h.lead t' t hopen ht (by simpa using hl') hl
      exact ht'.1.2 (List.mem_append_right _ (hid ▸ List.mem_singleton_self _))
  rcases Session.apply_leads_cases hl hd with hc | ⟨a, itemMeta, hfollow⟩
  · exact inOrder_of_chooses (by simp) (hs ▸ hc) hbegins hold
  · rw [hfollow] at hs
    have hopen : ∀ t', (H.perform (.complete t result)).Heard kind t' → H.Heard kind t' :=
      fun t' ht' =>
        (ht'.perform (P := fun _ => False) (by simp) (.of_eq (by rw [hs]; rfl))).elim id False.elim
    refine inOrder_of_free (fun t' ht' => hold t' ht' (hopen t' ht')) fun a' g hm => ?_
    rw [hs] at hm ⊢
    rcases List.mem_append.1 hm with hm | hm
    · exact absurd hm (hbegins a' g)
    · cases List.mem_singleton.1 hm
      rfl

theorem InOrder.complete (h : InOrder (H.Heard kind) H.session) {result : Response}
    (ht : H.Open t) (hkind : kind ≠ .geoJson) (hw : H.session.Wields kind)
    (hd : (H.perform (.complete t result)).session.Drives) :
    InOrder ((H.perform (.complete t result)).Heard kind)
      (H.perform (.complete t result)).session := by
  have hunchanged : (H.perform (.complete t result)).session = H.session →
      InOrder ((H.perform (.complete t result)).Heard kind)
        (H.perform (.complete t result)).session :=
    fun hsession => h.quiet (by simp) (hsession ▸ Session.Quiet.refl _)
  rcases heard_or_unheard kind ht with hheard | ⟨q, hp, htrack⟩
  · by_cases hs : H.session.isStale t = true
    · exact hunchanged (if_pos hs)
    · have hsession : (H.perform (.complete t result)).session =
          H.session.apply t.purpose result := if_neg hs
      by_cases hl : t.purpose.leads = true
      · exact h.lead_answered hheard hl (hsession ▸ hd) hsession
      · exact h.quiet (by simp) (hsession ▸ Session.quiet_apply (by simpa using hl) _ result)
  · exact hunchanged (hw.complete_eq hkind htrack hp result)

/-- At rest, an item may be chosen. -/
theorem InOrder.choose (ho : H.AtRest) (hop : op ≠ .takeRequests)
    (hc : Session.Chooses H.session (H.perform op).session) :
    InOrder ((H.perform op).Heard kind) (H.perform op).session := by
  refine inOrder_of_chooses hop hc (fun a g hm => ?_) fun t _ ht => absurd ht.1 (ho.not_open t)
  rw [ho.2] at hm
  cases hm

/-- Every orderly operation keeps the outstanding requests in order. -/
theorem InOrder.perform (h : InOrder (H.Heard kind) H.session) (hkind : kind ≠ .geoJson)
    (hw : H.session.Wields kind) (hw' : (H.perform op).session.Wields kind) (ha : H.Allows op)
    (ho : H.Orderly kind op) : InOrder ((H.perform op).Heard kind) (H.perform op).session := by
  have hd : H.session.Drives := hw.drives hkind
  cases op with
  | start => exact absurd ha id
  | tick => exact h.tick
  | takeRequests => exact h.takeRequests
  | complete t result => exact h.complete ha hkind hw (hw'.drives hkind)
  | update => exact .choose (ho.choice rfl) (by simp) H.session.chooses_update
  | getNewItem => exact .choose (ho.choice rfl) (by simp) H.session.chooses_getNewItem
  | getOldItem index => exact .choose (ho.choice rfl) (by simp) (H.session.chooses_getOldItem index)
  | tool wish =>
    by_cases hfetch : ∃ p r, wish = .command (.fetch p r)
    · obtain ⟨p, r, rfl⟩ := hfetch
      exact h.wish rfl (ho.wish rfl)
    · exact h.works ho (by simp) (H.session.performTool_works (fun hh => hh.elim))
        (Session.performTool_adds hd fun p r he => hfetch ⟨p, r, he⟩)
  | getFrame index =>
    exact h.works ho (by simp) (H.session.getFrame_works index) (H.session.getFrame_adds index)
  | jumpToRelative fraction =>
    exact h.works ho (by simp) (H.session.jumpToRelative_works fraction)
      (H.session.jumpToRelative_adds fraction)
  | finishFrame =>
    exact h.works ho (by simp) H.session.finishFrame_works H.session.finishFrame_adds
  | annotateItem =>
    exact h.works ho (by simp) H.session.annotateItem_works H.session.annotateItem_adds
  | saveParams => exact h.works ho (by simp) H.session.saveParams_works H.session.saveParams_adds
  | imageLoaded dims =>
    exact h.works ho (by simp) (H.session.imageLoaded_works dims)
      (Session.imageLoaded_adds hd dims)
  | dispatch e => exact h.works ho (by simp) .refl (.of_eq rfl)
  | pumpKeys =>
    exact h.works ho (by simp) (H.session.handleKeys_works _) (Session.handleKeys_adds _ hd)
  | dragStart pos =>
    exact h.works ho (by simp) (H.session.ask_works trivial) (Session.ask_adds hd (by simp))
  | endTrack => exact h.works ho (by simp) H.session.endTrack_works (Session.endTrack_adds hd)
  | takeErrors => exact h.works ho (by simp) (.single .takeErrors) (.of_eq rfl)
  | _ =>
    exact h.works ho (by simp) (H.session.notify_works trivial)
      (Session.notify_adds hd (by simp))

/-- In the beginning there is one request at most. -/
theorem inOrder_start {hub : KeyHub} {s : Session} (hs : s.IsFresh) (hd : s.start.Drives) :
    InOrder (Heard kind ⟨⟨hub, s.start⟩, [], []⟩) s.start := by
  rcases hs with ⟨id, config, keys, rfl⟩ | ⟨set, config, keys, rfl⟩
  · refine inOrder_of_lead (n := 0) (fun a g hm => by cases hm) fun t ⟨⟨⟨r, hm⟩, _⟩, _⟩ => ?_
    cases List.mem_singleton.1 hm
    exact ⟨rfl, fun _ => ⟨rfl, fun hnav => by cases hnav⟩⟩
  · have hc : Session.Chooses (Session.new set.id config keys)
        (Session.ofSet set config keys).start := Session.chooses_install hd
    refine inOrder_of_lead (n := 0) (fun a g hm => ?_) fun t ⟨⟨⟨r, hm⟩, _⟩, _⟩ => ?_
    · rw [hc.deferred] at hm
      cases hm
    · rcases hc.adds t r hm with hm | ⟨hnav, hid, hg⟩
      · cases hm
      · exact ⟨Purpose.isItemScoped_of_leads (Purpose.leads_of_isNavigation hnav),
          fun _ => ⟨hid, fun _ => hg⟩⟩

/-! ## Either policy -/

/-- The same history with another policy for late answers. -/
def withPolicy (p : StalePolicy) (H : History) : History := { H with desk := H.desk.withPolicy p }

/-- While the outstanding requests are in order, an operation does the same under either policy. -/
theorem InOrder.perform_withPolicy (h : InOrder (H.Heard kind) H.session) (p : StalePolicy)
    (hkind : kind ≠ .geoJson) (hw : H.session.Wields kind) (ha : H.Allows op) :
    (H.withPolicy p).perform op = (H.perform op).withPolicy p := by
  have hanswer : ∀ t result, H.Open t → (H.session.withPolicy p).complete t result =
      (H.session.complete t result).withPolicy p := by
    intro t result ht
    rcases heard_or_unheard kind ht with hheard | ⟨q, hp, htrack⟩
    · exact Session.complete_withPolicy p (h.fresh hheard) result
    · have hw' : (H.session.withPolicy p).Wields kind := hw
      rw [hw.complete_eq hkind htrack hp, hw'.complete_eq hkind htrack hp]
  have hdesk : (H.desk.withPolicy p).perform op = (H.desk.perform op).withPolicy p :=
    H.desk.perform_withPolicy p
      (fun t result he => hanswer t result (he ▸ ha : H.Allows (.complete t result)))
      fun _ => Session.tick_withPolicy p fun a g hm => (h.begins a g hm).1
  show History.mk ((H.desk.withPolicy p).perform op) _ _ = _
  rw [hdesk]
  cases op <;> rfl

theorem performAll_withPolicy (p : StalePolicy) (hkind : kind ≠ .geoJson) {ops : List SessionOp} :
    ∀ {H : History}, InOrder (H.Heard kind) H.session → H.OrderlyAll kind ops →
      (H.withPolicy p).performAll ops = (H.performAll ops).withPolicy p := by
  induction ops with
  | nil => exact fun _ _ => rfl
  | cons op rest ih =>
    intro H h ⟨hw, ha, ho, hrest⟩
    show ((H.withPolicy p).perform op).performAll rest =
      ((H.perform op).performAll rest).withPolicy p
    rw [h.perform_withPolicy p hkind hw ha]
    exact ih (h.perform hkind hw hrest.wields ha ho) hrest

/-- An orderly run with a tool that goes through items is the same under either policy for late
answers: at each point the two sessions differ in nothing but the policy, and they made the same
requests. -/
theorem orderly_policy {hub : KeyHub} {s : Session} (hs : s.IsFresh) (p : StalePolicy)
    (hkind : kind ≠ .geoJson) {ops : List SessionOp}
    (h : OrderlyAll kind ⟨⟨hub, s.start⟩, [], []⟩ ops) (n : Nat) :
    performAll ⟨⟨hub, (s.withPolicy p).start⟩, [], []⟩ (ops.take n) =
      (performAll ⟨⟨hub, s.start⟩, [], []⟩ (ops.take n)).withPolicy p := by
  have hd : s.start.Drives := h.wields.drives hkind
  rw [s.start_withPolicy p]
  exact performAll_withPolicy p hkind (inOrder_start hs hd) (h.take n)

/-- An item is labelled, handed in and followed by the next one. Its image comes later than its
stored label, although it was asked for first. -/
theorem orderly_policy_submitted :
    let s := Session.ofSet (exampleSet .int .int) .default 0
    let ops : List SessionOp :=
      [.complete ⟨0, .assignment, 1⟩ (.ok (.json (.arr [.str "a", .bool true]))),
        .complete ⟨1, .itemMeta ⟨"a", true, none⟩, 1⟩ (.ok (.json .null)), .tick,
        .complete ⟨3, .existingData, 1⟩ (.ok (.json (.arr [.int 2]))),
        .complete ⟨2, .frameImage 1, 1⟩ (.ok (.image ⟨4, 3⟩)), .annotateItem,
        .complete ⟨4, .submit, 1⟩ (.ok (.json .null))]
    let H : History := ⟨⟨.empty, s.start⟩, [], []⟩
    let H' : History := ⟨⟨.empty, (s.withPolicy .apply).start⟩, [], []⟩
    s.IsFresh ∧ s.config.stale = .discard ∧ H.OrderlyAll .int ops ∧
      H'.performAll ops = (H.performAll ops).withPolicy .apply ∧
      (H.performAll ops).issued.getLast? =
        some (⟨5, .assignment, 2⟩, .nextItem "/annotate-datasets/1/annotate" none) := by
  intro s ops H H'
  have hs : s.IsFresh := Or.inr ⟨_, _, _, rfl⟩
  have h : H.OrderlyAll .int ops := orderlyAllb_sound (by decide +kernel)
  exact ⟨hs, rfl, h, orderly_policy hs .apply (by decide) h ops.length, by decide +kernel⟩

end History

end Labeling
