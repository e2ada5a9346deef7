import Labeling.Proofs.Session.History

/-!
# Failed answers

An answer fails when the call failed, when it is an image where JSON is wanted or the other
way round, or when its JSON does not hold what the session asked for (`Purpose.Fails`). The
main statement, `Session.complete_failure`, gives the whole session after such an answer, for
every session and every ticket. A failure that comes too late changes nothing. Any other adds
its message to the errors and changes nothing else, but for three cases:

* there is nothing left to label, and the item is left with a message (`Failure.NothingLeft`);
* the feature tool learns that no collection is stored yet (`Session.LacksCollection`);
* the answer is to a request of a tool, and the tool that the session has now takes no
  answers (`Session.Unheard`). This occurs when the tool was exchanged while the request was
  under way, or when the host asked in the name of a tool that does not ask itself.
-/

namespace Labeling

/-! ## What it is to fail -/

namespace Purpose

/-- The payload that an answer has to have. That annotations or parameters were stored is
all there is to know of it, so the answer to these may be anything. -/
def expected : Purpose → Option Expected
  | .submit => none
  | .saveParams => none
  | .frameImage _ => some .image
  | _ => some .json

/-- The JSON holds what the session reads from it. Stored annotations and what a tool asked
for are not read by the session. -/
def Reads (v : Json) : Purpose → Prop
  | .annotationSet => (AnnotationSet.read? v).isSome = true
  | .assignment => (Assignment.read? v).isSome = true
  | .itemMeta _ => (Json.nullable ItemMeta.read? v).isSome = true
  | .keyList _ => (listing? v).isSome = true
  | _ => True

/-- An answer is a failure for its purpose. -/
inductive Fails (p : Purpose) : Response → Failure → Prop where
  | call (f : Failure) : Fails p (.error f) f
  | imageForJson (dims : Dims) (hp : p.expected = some .json) :
      Fails p (.ok (.image dims)) (.unexpectedPayload .json)
  | jsonForImage (v : Json) (hp : p.expected = some .image) :
      Fails p (.ok (.json v)) (.unexpectedPayload .image)
  | unreadable {v : Json} (hp : p.expected = some .json) (hv : ¬ p.Reads v) :
      Fails p (.ok (.json v)) (.json Json.unreadable)

variable {p : Purpose} {result : Response} {f : Failure}

theorem Fails.parse_eq {α : Type} {read : Json → Option α} (h : p.Fails result f)
    (hp : p.expected = some .json) (hread : ∀ v, (read v).isSome = true → p.Reads v) :
    result.parse read = .error f := by
  cases h with
  | call f => rfl
  | imageForJson dims _ => rfl
  | jsonForImage v hp' =>
    rw [hp] at hp'
    cases hp'
  | @unreadable v _ hv =>
    have hnone : read v = none := by
      rw [← Option.not_isSome_iff_eq_none]
      exact fun hs => hv (hread v hs)
    simp only [Response.parse, Response.json, Payload.toJson, bind, Except.bind, hnone]

theorem Fails.json_eq (h : p.Fails result f) (hp : p.expected = some .json)
    (hreads : ∀ v, p.Reads v) : result.json = .error f := by
  cases h with
  | call f => rfl
  | imageForJson dims _ => rfl
  | jsonForImage v hp' =>
    rw [hp] at hp'
    cases hp'
  | unreadable _ hv => exact absurd (hreads _) hv

theorem Fails.imageDims_eq (h : p.Fails result f) (hp : p.expected = some .image) :
    result.imageDims = .error f := by
  cases h with
  | call f => rfl
  | jsonForImage v _ => rfl
  | imageForJson dims hp' =>
    rw [hp] at hp'
    cases hp'
  | unreadable hp' _ =>
    rw [hp] at hp'
    cases hp'

theorem Fails.eq_error (h : p.Fails result f) (hp : p.expected = none) : result = .error f := by
  cases h with
  | call f => rfl
  | imageForJson dims hp' => rw [hp] at hp'; cases hp'
  | jsonForImage v hp' => rw [hp] at hp'; cases hp'
  | unreadable hp' _ => rw [hp] at hp'; cases hp'

end Purpose

/-- The server has nothing left to label. -/
def Failure.NothingLeft (f : Failure) (p : Purpose) : Prop :=
  p = .assignment ∧ f.isEverythingLabeled = true

/-! ## Tools -/

namespace Tool

/-- The tool takes the answers to requests that were made in its name. -/
def TakesAnswers (t : Tool) : Prop := t.kind = .detectionToTrack ∨ t.kind = .geoJson

variable {t : Tool} {v : View} {p : ToolPurpose} {result : Response} {f : Failure}

theorem handle_fetched_of_not_takesAnswers (h : ¬ t.TakesAnswers) :
    t.handle v (.fetched p result) = ⟨t, [], .nothing⟩ := by
  cases t with
  | shape t => rfl
  | int t => rfl
  | track t => exact absurd (Or.inl rfl) h
  | geoJson t => exact absurd (Or.inr rfl) h

/-- That no collection is stored yet is no error. -/
theorem handle_fetched_missing {g : FeatureTool} (hr : result.json = .error f)
    (hf : f.isNoSuchItem = true) :
    (Tool.geoJson g).handle v (.fetched .featureCollection result) =
      ⟨.geoJson { g with loaded := true }, [], .nothing⟩ := by
  have hfetched : g.fetched .featureCollection result = .quiet { g with loaded := true } := by
    unfold FeatureTool.fetched
    rw [hr]
    exact if_pos hf
  exact congrArg (Outcome.map Tool.geoJson) hfetched

/-- Any other failure is reported by a tool that takes answers, and does nothing else to it. -/
theorem handle_fetched_error (h : t.TakesAnswers) (hr : result.json = .error f)
    (hf : t.kind = .geoJson → p = .featureCollection → f.isNoSuchItem = false) :
    t.handle v (.fetched p result) = ⟨t, [.reportError f.userMessage], .nothing⟩ := by
  cases t with
  | shape t => rcases h with h | h <;> cases h
  | int t => rcases h with h | h <;> cases h
  | track t =>
    have hfetched : t.fetched v p result = ⟨t, [.reportError f.userMessage], .nothing⟩ := by
      unfold TrackTool.fetched
      rw [hr]
    exact congrArg (Outcome.map Tool.track) hfetched
  | geoJson t =>
    have hfetched : t.fetched p result = ⟨t, [.reportError f.userMessage], .nothing⟩ := by
      unfold FeatureTool.fetched
      rw [hr]
      cases p with
      | featureCollection => exact if_neg (by simp [hf rfl rfl])
      | _ => rfl
    exact congrArg (Outcome.map Tool.geoJson) hfetched

end Tool

/-! ## Sessions -/

namespace Session

variable {s : Session} {p : ToolPurpose} {result : Response} {f : Failure}

/-- A tool of the session takes the answers to requests that were made in its name. -/
def TakesAnswers (s : Session) : Prop :=
  s.annotationSet.isSome = true ∧ ∃ t, s.tool = some t ∧ t.TakesAnswers

/-- The feature tool learns that there is no stored collection. -/
def LacksCollection (s : Session) (g : FeatureTool) (p : Purpose) (f : Failure) : Prop :=
  s.annotationSet.isSome = true ∧ s.tool = some (.geoJson g) ∧ p = .tool .featureCollection ∧
    f.isNoSuchItem = true

/-- The answer to a request of a tool finds no tool that takes answers. -/
def Unheard (s : Session) (p : Purpose) : Prop := (∃ q, p = .tool q) ∧ ¬ s.TakesAnswers

theorem setTool_eq {t : Tool} (ht : s.tool = some t) : { s with tool := some t } = s := by
  rw [← ht]

/-- A tool that takes no answers is not changed by one, and neither is anything else. -/
theorem notify_fetched_of_not_takesAnswers (h : ¬ s.TakesAnswers) :
    s.notify (.fetched p result) = s := by
  cases hset : s.annotationSet with
  | none =>
    unfold notify withTool
    rw [hset]
  | some set =>
    cases ht : s.tool with
    | none => exact notify_of_no_tool ht _
    | some t =>
      have hdeaf : ¬ t.TakesAnswers := fun hta => h ⟨by rw [hset]; rfl, t, ht, hta⟩
      rw [notify_eq hset ht, Tool.handle_fetched_of_not_takesAnswers hdeaf]
      exact setTool_eq ht

theorem notify_fetched_missing {set : AnnotationSet} {g : FeatureTool}
    (hset : s.annotationSet = some set) (ht : s.tool = some (.geoJson g))
    (hr : result.json = .error f) (hf : f.isNoSuchItem = true) :
    s.notify (.fetched .featureCollection result) =
      { s with tool := some (.geoJson { g with loaded := true }) } := by
  rw [notify_eq hset ht, Tool.handle_fetched_missing hr hf]
  rfl

theorem notify_fetched_error (h : s.TakesAnswers) (hr : result.json = .error f)
    (hf : ∀ g, s.tool = some (.geoJson g) → p = .featureCollection → f.isNoSuchItem = false) :
    s.notify (.fetched p result) = s.report f := by
  obtain ⟨hset, t, ht, hta⟩ := h
  obtain ⟨set, hset⟩ := Option.isSome_iff_exists.1 hset
  have hmissing : t.kind = .geoJson → p = .featureCollection → f.isNoSuchItem = false := by
    intro hk
    cases t with
    | geoJson g => exact hf g ht
    | _ => cases hk
  rw [notify_eq hset ht, Tool.handle_fetched_error hta hr hmissing, setTool_eq ht]
  rfl

/-- A failure that the session itself takes is reported, unless nothing is left to label. -/
theorem apply_failure {p : Purpose} (hf : p.Fails result f) (hp : ∀ q, p ≠ .tool q)
    (hleft : ¬ f.NothingLeft p) : s.apply p result = s.report f := by
  unfold apply
  cases p with
  | annotationSet =>
    dsimp only
    rw [hf.parse_eq rfl fun v hv => hv]
  | assignment =>
    dsimp only
    unfold onAssignment
    rw [hf.parse_eq rfl fun v hv => hv]
    exact if_neg fun h => hleft ⟨rfl, h⟩
  | itemMeta a =>
    dsimp only
    unfold onItemMeta
    rw [hf.parse_eq rfl fun v hv => hv]
  | existingData =>
    dsimp only
    rw [hf.json_eq rfl fun _ => trivial]
  | keyList index =>
    dsimp only
    unfold onKeyList
    rw [hf.parse_eq rfl fun v hv => hv]
  | submit =>
    obtain rfl := hf.eq_error rfl
    rfl
  | saveParams =>
    obtain rfl := hf.eq_error rfl
    rfl
  | frameImage n =>
    dsimp only
    rw [hf.imageDims_eq rfl]
  | tool q => exact absurd rfl (hp q)

theorem onAssignment_of_nothingLeft (hr : result.parse Assignment.read? = .error f)
    (hf : f.isEverythingLabeled = true) :
    s.onAssignment result = { s.resetItem with message := some everythingLabeledMessage } := by
  unfold onAssignment
  rw [hr]
  exact if_pos hf

/-- A failed answer changes nothing but the errors, in every session and for every ticket,
but for the cases in which a failure has a meaning of its own or finds no tool to take it. -/
theorem complete_failure (s : Session) (t : Ticket) {result : Response} {f : Failure}
    (hf : t.purpose.Fails result f) :
    (s.isStale t = true → s.complete t result = s) ∧
    (s.isStale t = false →
      (f.NothingLeft t.purpose →
        s.complete t result = { s.resetItem with message := some everythingLabeledMessage } ∧
          (s.complete t result).errors = s.errors) ∧
      (∀ g, s.LacksCollection g t.purpose f →
        s.complete t result = { s with tool := some (.geoJson { g with loaded := true }) }) ∧
      (s.Unheard t.purpose → s.complete t result = s) ∧
      (¬ f.NothingLeft t.purpose → (∀ g, ¬ s.LacksCollection g t.purpose f) →
        ¬ s.Unheard t.purpose →
          s.complete t result = { s with errors := s.errors ++ [f.userMessage] })) := by
  refine ⟨fun hs => if_pos hs, fun hs => ?_⟩
  have happly : s.complete t result = s.apply t.purpose result := if_neg (by simp [hs])
  rw [happly]
  refine ⟨fun hleft => ?_, fun g hg => ?_, fun hun => ?_, fun hleft hlacks hheard => ?_⟩
  · obtain ⟨hp, hl⟩ := hleft
    rw [hp] at hf ⊢
    have heq : s.apply .assignment result = _ :=
      onAssignment_of_nothingLeft (hf.parse_eq rfl fun v hv => hv) hl
    refine ⟨heq, ?_⟩
    rw [heq]
    rfl
  · obtain ⟨hset, ht, hp, hm⟩ := hg
    obtain ⟨set, hset⟩ := Option.isSome_iff_exists.1 hset
    rw [hp] at hf ⊢
    exact notify_fetched_missing hset ht (hf.json_eq rfl fun _ => trivial) hm
  · obtain ⟨⟨q, hp⟩, hta⟩ := hun
    rw [hp]
    exact notify_fetched_of_not_takesAnswers hta
  · cases hp : t.purpose with
    | tool q =>
      rw [hp] at hf hlacks hheard
      have hta : s.TakesAnswers := by
        by_contra hta
        exact hheard ⟨⟨q, rfl⟩, hta⟩
      refine notify_fetched_error hta (hf.json_eq rfl fun _ => trivial) fun g ht hq => ?_
      rw [← Bool.not_eq_true]
      exact fun hm => hlacks g ⟨hta.1, ht, by rw [hq], hm⟩
    | _ =>
      rw [hp] at hf hleft
      exact apply_failure hf (fun q hq => by cases hq) hleft

/-- The server cannot say which item is next. -/
theorem complete_failure_locked :
    let s := (History.ofSet (History.exampleSet .int .int)).session
    let t : Ticket := ⟨0, .assignment, 1⟩
    let f : Failure := .transport 500 "database locked"
    t.purpose.Fails (.error f) f ∧ s.isStale t = false ∧
      s.complete t (.error f) = { s with errors := s.errors ++ ["database locked"] } := by
  intro s t f
  have hs : s.isStale t = false := by decide +kernel
  refine ⟨.call f, hs, ((complete_failure s t (.call f)).2 hs).2.2.2 ?_ ?_ ?_⟩
  · rintro ⟨-, h⟩
    exact absurd h (by decide +kernel)
  · rintro g ⟨-, -, h, -⟩
    cases h
  · rintro ⟨⟨q, h⟩, -⟩
    cases h

/-- The session forgets that an answer to one of its requests failed. -/
def Forgets (H : History) (t : Ticket) (f : Failure) : Prop :=
  (∃ r, (t, r) ∈ H.issued) ∧ t.purpose.Fails (.error f) f ∧ H.session.isStale t = false ∧
    ¬ f.NothingLeft t.purpose ∧ f.isNoSuchItem = false ∧
    H.session.complete t (.error f) ≠
      { H.session with errors := H.session.errors ++ [f.userMessage] }

/-- The annotation set is answered a second time, with another tool; or the host asks for a
collection while shapes are drawn. That this request failed is then neither an item that does
not exist nor told to the user. -/
theorem complete_failure_unheard :
    let exchanged := (History.mk ⟨.empty, (Session.new 1 .default 0).start⟩ [] []).performAll
      [.complete ⟨0, .annotationSet, 0⟩
          (.ok (.json (History.exampleSet .geoJson .geoJson).toJson)),
        .complete ⟨0, .annotationSet, 0⟩ (.ok (.json (History.exampleSet .shape .shape).toJson))]
    let asked := (History.ofSet (History.exampleSet .shape .shape)).perform
      (.tool (.command (.fetch .featureCollection (.item 2 FeatureTool.itemKey .json true))))
    let f : Failure := .transport 500 "database locked"
    Forgets exchanged ⟨1, .tool .featureCollection, 0⟩ f ∧ History.Reachable asked ∧
      Forgets asked ⟨1, .tool .featureCollection, 0⟩ f := by
  intro exchanged asked f
  refine ⟨⟨⟨.item 2 FeatureTool.itemKey .json true, by decide +kernel⟩, .call f,
      by decide +kernel, fun h => ?_, by decide +kernel, fun heq => ?_⟩,
    .step (History.reachable_ofSet _) trivial trivial,
    ⟨.item 2 FeatureTool.itemKey .json true, by decide +kernel⟩, .call f,
      by decide +kernel, fun h => ?_, by decide +kernel, fun heq => ?_⟩
  · cases h.1
  · exact absurd (congrArg Session.errors heq) (by decide +kernel)
  · cases h.1
  · exact absurd (congrArg Session.errors heq) (by decide +kernel)

end Session

end Labeling
