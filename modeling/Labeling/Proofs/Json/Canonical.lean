import Labeling.Proofs.Json.Fields
import Labeling.Proofs.Json.Printed

/-!
# Reading, printing and reading again

What is read is canonical (`Json.ofText?_canonical`): its integers fit 64 bits and its objects are
sorted by name. Such a value comes back from its text as it was, if each of its floating-point
numbers does (`Json.Canonical.value?_document`). They are the only part of a value that may change
when it is stored and read again, and they may: `Json.Returns` fails for some that were read.

Nor does a value nest deeper than the text it was read from, so the limit of the reader that it
passed once is no obstacle the second time (`Document.Proper.depth_le`).
-/

namespace Labeling

namespace Json

/-! ## Canonical values -/

/-- The integers of a value fit 64 bits, signed or unsigned, and its objects are sorted. -/
inductive Canonical : Json → Prop where
  | null : Canonical .null
  | bool (b : Bool) : Canonical (.bool b)
  | int {n : Int} (h : isInt64 n = true ∨ isUInt64 n = true) : Canonical (.int n)
  | float (x : Float) : Canonical (.float x)
  | str (s : String) : Canonical (.str s)
  | arr {items : List Json} (h : ∀ v ∈ items, v.Canonical) : Canonical (.arr items)
  | obj {fields : Fields Json} (hs : Fields.Sorted fields) (h : ∀ f ∈ fields, f.2.Canonical) :
      Canonical (.obj fields)

mutual

/-- The floating-point numbers in a value. -/
def floats : Json → List Float
  | .float x => [x]
  | .arr items => floatsOfItems items
  | .obj fields => floatsOfFields fields
  | .null => []
  | .bool _ => []
  | .int _ => []
  | .str _ => []

/-- The floating-point numbers in some items. -/
def floatsOfItems : List Json → List Float
  | [] => []
  | v :: rest => floats v ++ floatsOfItems rest

/-- The floating-point numbers in some fields. -/
def floatsOfFields : List (String × Json) → List Float
  | [] => []
  | (_, v) :: rest => floats v ++ floatsOfFields rest

end

/-- The text of a number can be read. -/
def Readable (x : Float) : Prop := (ofText? (floatText x)).isSome = true

/-- A number comes back from its text as it was. -/
def Returns (x : Float) : Prop := ofText? (floatText x) = some (.float x)

theorem mem_floatsOfItems {items : List Json} {v : Json} (hv : v ∈ items) {x : Float}
    (hx : x ∈ v.floats) : x ∈ floatsOfItems items := by
  induction items with
  | nil => cases hv
  | cons w rest ih =>
    rcases List.mem_cons.1 hv with rfl | hv
    · exact List.mem_append_left _ hx
    · exact List.mem_append_right _ (ih hv)

theorem mem_floatsOfFields {fields : List (String × Json)} {f : String × Json} (hf : f ∈ fields)
    {x : Float} (hx : x ∈ f.2.floats) : x ∈ floatsOfFields fields := by
  induction fields with
  | nil => cases hf
  | cons g rest ih =>
    rcases List.mem_cons.1 hf with rfl | hf
    · exact List.mem_append_left _ hx
    · exact List.mem_append_right _ (ih hf)

theorem mem_namedDocuments {fields : List (String × Json)} {f : String × Json} (hf : f ∈ fields) :
    (some f.1, f.2.document) ∈ namedDocuments fields := by
  induction fields with
  | nil => cases hf
  | cons g rest ih =>
    rcases List.mem_cons.1 hf with rfl | hf
    · exact List.mem_cons_self ..
    · exact List.mem_cons_of_mem _ (ih hf)

theorem values?_documents {f : Json → Json} {items : List Json}
    (h : ∀ v ∈ items, v.document.value? = some (f v)) :
    Document.values? (documents items) = some (items.map f) := by
  induction items with
  | nil => rfl
  | cons v rest ih =>
    obtain ⟨hv, hrest⟩ := List.forall_mem_cons.1 h
    rw [documents, Document.values?, hv, ih hrest]
    rfl

theorem namedValues?_namedDocuments {f : Json → Json} {fields : List (String × Json)}
    (h : ∀ p ∈ fields, p.2.document.value? = some (f p.2)) :
    Document.namedValues? (namedDocuments fields) = some (fields.map fun p => (p.1, f p.2)) := by
  induction fields with
  | nil => rfl
  | cons p rest ih =>
    obtain ⟨hp, hrest⟩ := List.forall_mem_cons.1 h
    rw [namedDocuments, Document.namedValues?, hp, ih hrest]
    rfl

/-- An object that is sorted keeps its order. -/
theorem value?_document_obj {f : Json → Json} {fields : Fields Json} (hs : Fields.Sorted fields)
    (h : ∀ p ∈ fields, p.2.document.value? = some (f p.2)) :
    (Json.obj fields).document.value? = some (.obj (fields.map fun p => (p.1, f p.2))) := by
  rw [document, Document.value?, namedValues?_namedDocuments h, Option.map_some, object,
    Fields.ofList_of_sorted (hs.map f)]

/-- A canonical value comes back as it was, if its floating-point numbers do. -/
theorem Canonical.value?_document {v : Json} (h : v.Canonical) (hx : ∀ x ∈ v.floats, Returns x) :
    v.document.value? = some v := by
  induction h with
  | null => rfl
  | bool b => rfl
  | int h => exact Spelling.value?_ofInt h
  | float x => exact hx x (List.mem_singleton_self x)
  | str s => rfl
  | @arr items _ ih =>
    rw [document, Document.value?, values?_documents (f := id) fun v hv =>
      ih v hv fun x hxv => hx x (mem_floatsOfItems hv hxv), List.map_id]
    rfl
  | @obj fields hs _ ih =>
    rw [value?_document_obj (f := id) hs fun p hp =>
      ih p hp fun x hxp => hx x (mem_floatsOfFields hp hxp)]
    exact congrArg (fun fs => some (Json.obj fs)) (List.map_id fields)

/-- A number that was read need not come back: every time it is read it becomes the next one. -/
example : ((Json.ofText? "0.10557194360123446").bind fun v => Json.ofText? v.text).map Json.text =
    some "0.10557194360123448" := by decide +kernel

/-- What becomes of a value that is printed and read. -/
def reread (v : Json) : Json := v.document.value?.getD .null

theorem Canonical.reread_eq {v : Json} (h : v.Canonical) (hx : ∀ x ∈ v.floats, Returns x) :
    v.reread = v := by
  rw [reread, h.value?_document hx]
  rfl

theorem value?_document_of_isSome {v : Json} (h : v.document.value?.isSome = true) :
    v.document.value? = some v.reread := by
  obtain ⟨w, hw⟩ := Option.isSome_iff_exists.1 h
  rw [reread, hw]
  rfl

/-- A canonical value becomes some value, if its floating-point numbers can be read at all. -/
theorem Canonical.value?_document_reread {v : Json} (h : v.Canonical)
    (hx : ∀ x ∈ v.floats, Readable x) : v.document.value? = some v.reread := by
  refine value?_document_of_isSome ?_
  induction h with
  | null => rfl
  | bool b => rfl
  | int h => exact Option.isSome_iff_exists.2 ⟨_, Spelling.value?_ofInt h⟩
  | float x => exact hx x (List.mem_singleton_self x)
  | str s => rfl
  | @arr items _ ih =>
    rw [document, Document.value?, values?_documents fun v hv =>
      value?_document_of_isSome (ih v hv fun x hxv => hx x (mem_floatsOfItems hv hxv))]
    rfl
  | @obj fields hs _ ih =>
    rw [value?_document_obj hs fun p hp =>
      value?_document_of_isSome (ih p hp fun x hxp => hx x (mem_floatsOfFields hp hxp))]
    rfl

end Json

/-! ## What is read -/

namespace Document

/-- The leaves of a document are scalars. -/
inductive Proper : Document → Prop where
  | leaf {value : Option Json}
      (h : ∀ v, value = some v → v.Canonical ∧ v.document.depth = 0) : Proper (.leaf value)
  | arr {items : List Document} (h : ∀ d ∈ items, d.Proper) : Proper (.arr items)
  | obj {fields : List (Option String × Document)} (h : ∀ f ∈ fields, f.2.Proper) :
      Proper (.obj fields)

theorem depth_le_depthOfItems {items : List Document} {d : Document} (h : d ∈ items) :
    d.depth ≤ depthOfItems items := by
  induction items with
  | nil => cases h
  | cons e rest ih =>
    rcases List.mem_cons.1 h with rfl | h
    · exact Nat.le_max_left ..
    · exact Nat.le_trans (ih h) (Nat.le_max_right ..)

theorem depth_le_depthOfFields {fields : List (Option String × Document)}
    {f : Option String × Document} (h : f ∈ fields) : f.2.depth ≤ depthOfFields fields := by
  induction fields with
  | nil => cases h
  | cons g rest ih =>
    rcases List.mem_cons.1 h with rfl | h
    · exact Nat.le_max_left ..
    · exact Nat.le_trans (ih h) (Nat.le_max_right ..)

theorem depthOfItems_documents_le {items : List Json} {n : Nat}
    (h : ∀ v ∈ items, v.document.depth ≤ n) : depthOfItems (Json.documents items) ≤ n := by
  induction items with
  | nil => exact Nat.zero_le n
  | cons v rest ih =>
    obtain ⟨hv, hrest⟩ := List.forall_mem_cons.1 h
    exact Nat.max_le.2 ⟨hv, ih hrest⟩

theorem depthOfFields_namedDocuments_le {fields : List (String × Json)} {n : Nat}
    (h : ∀ f ∈ fields, f.2.document.depth ≤ n) :
    depthOfFields (Json.namedDocuments fields) ≤ n := by
  induction fields with
  | nil => exact Nat.zero_le n
  | cons f rest ih =>
    obtain ⟨hf, hrest⟩ := List.forall_mem_cons.1 h
    exact Nat.max_le.2 ⟨hf, ih hrest⟩

theorem mem_of_values? {items : List Document} : ∀ {vs : List Json}, values? items = some vs →
    ∀ v ∈ vs, ∃ d ∈ items, d.value? = some v := by
  induction items with
  | nil =>
    intro vs h v hv
    cases h
    cases hv
  | cons d rest ih =>
    intro vs h v hv
    simp only [values?, Option.bind_eq_bind, Option.bind_eq_some_iff] at h
    obtain ⟨w, hw, ws, hws, heq⟩ := h
    cases heq
    rcases List.mem_cons.1 hv with rfl | hv
    · exact ⟨d, List.mem_cons_self .., hw⟩
    · obtain ⟨e, he, hv⟩ := ih hws v hv
      exact ⟨e, List.mem_cons_of_mem _ he, hv⟩

theorem mem_of_namedValues? {fields : List (Option String × Document)} :
    ∀ {pairs : List (String × Json)}, namedValues? fields = some pairs →
      ∀ p ∈ pairs, ∃ f ∈ fields, f.2.value? = some p.2 := by
  induction fields with
  | nil =>
    intro pairs h p hp
    cases h
    cases hp
  | cons f rest ih =>
    obtain ⟨name, d⟩ := f
    intro pairs h p hp
    simp only [namedValues?, Option.bind_eq_bind, Option.bind_eq_some_iff] at h
    obtain ⟨n, hn, w, hw, ws, hws, heq⟩ := h
    cases heq
    rcases List.mem_cons.1 hp with rfl | hp
    · exact ⟨(name, d), List.mem_cons_self .., hw⟩
    · obtain ⟨g, hg, hp⟩ := ih hws p hp
      exact ⟨g, List.mem_cons_of_mem _ hg, hp⟩

/-- The value of a document is canonical, and its own document is no deeper. -/
theorem Proper.depth_le {d : Document} (h : d.Proper) :
    ∀ {v : Json}, d.value? = some v → v.Canonical ∧ v.document.depth ≤ d.depth := by
  induction h with
  | leaf h => exact fun hv => (h _ hv).imp_right Nat.le_of_eq
  | @arr items _ ih =>
    intro v hv
    obtain ⟨vs, hvs, rfl⟩ := Option.map_eq_some_iff.1 hv
    have hparts : ∀ w ∈ vs, w.Canonical ∧ w.document.depth ≤ depthOfItems items := by
      intro w hw
      obtain ⟨d, hd, hdw⟩ := mem_of_values? hvs w hw
      exact (ih d hd hdw).imp_right fun hle => Nat.le_trans hle (depth_le_depthOfItems hd)
    exact ⟨.arr fun w hw => (hparts w hw).1,
      Nat.succ_le_succ (depthOfItems_documents_le fun w hw => (hparts w hw).2)⟩
  | @obj fields _ ih =>
    intro v hv
    obtain ⟨pairs, hpairs, rfl⟩ := Option.map_eq_some_iff.1 hv
    have hparts : ∀ p ∈ Fields.ofList pairs,
        p.2.Canonical ∧ p.2.document.depth ≤ depthOfFields fields := by
      intro p hp
      obtain ⟨f, hf, hfp⟩ := mem_of_namedValues? hpairs p (Fields.mem_of_mem_ofList hp)
      exact (ih f hf hfp).imp_right fun hle => Nat.le_trans hle (depth_le_depthOfFields hf)
    exact ⟨.obj (Fields.sorted_ofList pairs) fun p hp => (hparts p hp).1,
      Nat.succ_le_succ (depthOfFields_namedDocuments_le fun p hp => (hparts p hp).2)⟩

end Document

namespace Numeral

theorem absorb_lt {digits : List Nat} : ∀ {n : Nat}, n < Nat.pow 2 64 →
    (absorb n digits).1 < Nat.pow 2 64 := by
  induction digits with
  | nil => exact fun h => h
  | cons d rest ih =>
    intro n h
    rw [absorb]
    split
    · rename_i hlt
      exact ih hlt
    · exact h

/-- A number is an integer that fits 64 bits, or a floating-point number. -/
theorem value?_canonical {n : Numeral} {v : Json} (h : n.value? = some v) :
    v.Canonical ∧ v.document.depth = 0 := by
  have hwhole : (absorb 0 n.whole).1 < Nat.pow 2 64 := absorb_lt (by decide)
  rw [show Nat.pow 2 64 = 18446744073709551616 from rfl] at hwhole
  have hfloat (x : Float) : (Json.float x).Canonical ∧ (Json.float x).document.depth = 0 :=
    ⟨.float x, rfl⟩
  unfold value? at h
  dsimp only at h
  split at h
  · split at h
    · cases h
      exact ⟨.int (Or.inr (isUInt64_iff.2 (by omega))), rfl⟩
    · split at h
      · cases h
        exact hfloat _
      · rename_i hfits
        cases h
        refine ⟨.int (Or.inl ?_), rfl⟩
        rw [Bool.or_eq_true, decide_eq_true_eq, decide_eq_true_eq,
          show Nat.pow 2 63 = 9223372036854775808 from rfl] at hfits
        rw [isInt64_iff]
        omega
  · obtain ⟨x, -, rfl⟩ := Option.map_eq_some_iff.1 h
    exact hfloat _

end Numeral

namespace Reader

theorem proper_scalar {v : Json} (h : v.Canonical) (hd : v.document.depth = 0) :
    (Document.leaf (some v)).Proper :=
  .leaf fun w hw => by
    cases hw
    exact ⟨h, hd⟩

/-- What the reader returns is proper, whatever fuel it has. -/
theorem proper_of_read (fuel : Nat) :
    (∀ {cs d rest}, value fuel cs = some (d, rest) → d.Proper) ∧
    (∀ {cs ds rest}, items fuel cs = some (ds, rest) → ∀ d ∈ ds, d.Proper) ∧
    (∀ {cs fs rest}, members fuel cs = some (fs, rest) → ∀ f ∈ fs, f.2.Proper) := by
  induction fuel with
  | zero => exact ⟨fun h => (by cases h), fun h => (by cases h), fun h => (by cases h)⟩
  | succ fuel ih =>
    obtain ⟨hvalue, hitems, hmembers⟩ := ih
    refine ⟨fun {cs d rest} h => ?_, fun {cs ds rest} h => ?_, fun {cs fs rest} h => ?_⟩
    · rw [value] at h
      split at h
      · cases h
        exact proper_scalar .null rfl
      · cases h
        exact proper_scalar (.bool true) rfl
      · cases h
        exact proper_scalar (.bool false) rfl
      · obtain ⟨r, -, heq⟩ := Option.bind_eq_some_iff.1 h
        cases heq
        refine .leaf fun v hv => ?_
        obtain ⟨s, -, rfl⟩ := Option.map_eq_some_iff.1 hv
        exact ⟨.str s, rfl⟩
      · split at h
        · cases h
          exact .arr fun d hd => by cases hd
        · obtain ⟨r, hr, heq⟩ := Option.bind_eq_some_iff.1 h
          cases heq
          exact .arr (hitems hr)
      · split at h
        · cases h
          exact .obj fun f hf => by cases hf
        · obtain ⟨r, hr, heq⟩ := Option.bind_eq_some_iff.1 h
          cases heq
          exact .obj (hmembers hr)
      · obtain ⟨r, -, heq⟩ := Option.bind_eq_some_iff.1 h
        cases heq
        exact .leaf fun v hv => Numeral.value?_canonical hv
    · rw [items] at h
      obtain ⟨r, hr, h⟩ := Option.bind_eq_some_iff.1 h
      dsimp only at h
      split at h
      · obtain ⟨q, hq, heq⟩ := Option.bind_eq_some_iff.1 h
        cases heq
        exact List.forall_mem_cons.2 ⟨hvalue hr, hitems hq⟩
      · cases h
        exact List.forall_mem_singleton.2 (hvalue hr)
      · cases h
    · rw [members] at h
      split at h
      · obtain ⟨name, -, h⟩ := Option.bind_eq_some_iff.1 h
        dsimp only at h
        split at h
        · obtain ⟨r, hr, h⟩ := Option.bind_eq_some_iff.1 h
          split at h
          · obtain ⟨q, hq, heq⟩ := Option.bind_eq_some_iff.1 h
            cases heq
            exact List.forall_mem_cons.2 ⟨hvalue hr, hmembers hq⟩
          · cases h
            exact List.forall_mem_singleton.2 (hvalue hr)
          · cases h
        · cases h
      · cases h

end Reader

theorem Document.proper_of_text {text : String} {d : Document}
    (h : Document.ofText? text = some d) : d.Proper := by
  obtain ⟨r, hr, h⟩ := Option.bind_eq_some_iff.1 h
  dsimp only at h
  split at h
  · cases h
    exact (Reader.proper_of_read _).1 hr
  · cases h

namespace Json

/-- What is read is canonical, and can be read again as far as its depth is concerned. -/
theorem ofText?_canonical {text : String} {v : Json} (h : ofText? text = some v) :
    v.Canonical ∧ v.document.depth ≤ depthLimit := by
  obtain ⟨d, hd, h⟩ := Option.bind_eq_some_iff.1 h
  split at h
  · rename_i hdepth
    exact ((Document.proper_of_text hd).depth_le h).imp_right fun hle => Nat.le_trans hle hdepth
  · cases h

/-- What is printed is read as the value of its document, if it does not nest too deep. -/
theorem ofText?_text_of_depth {v : Json} (h : v.document.depth ≤ depthLimit) :
    ofText? v.text = v.document.value? :=
  ofText?_eq_value? (Document.ofText?_text v) h

end Json

end Labeling
