import Labeling.Proofs.Frames
import Labeling.Proofs.Text.LeadingInt
import Labeling.Tool.LabelTool

/-!
# Labels that are loaded and handed in again

Stored labels may be any value. They are kept as texts, and for each text the integer at its start
is handed in, so what is handed in need not be what was stored. It changes only once: what was
handed in is loaded and handed in again as it is (`LabelTool.reloaded_stable`).

* `LabelTool.labelValue` is the integer that comes of a single stored value. It lies strictly
  between the bounds of 64 bits (`labelValue_bounds`), and integers there stay as they are
  (`labelValue_int`);
* `LabelTool.reloaded_eq`: what is handed in are these integers, for as many frames as the item has,
  where minus one stands for a missing label.
-/

namespace Labeling

namespace LabelTool

/-- What is handed in for an item if its stored labels are loaded and left alone. -/
def reloaded (t : LabelTool) (v : View) (data : Json) : Json :=
  ((t.handle v .itemShown).tool.handle v (.stored data)).tool.annotations

/-! ## A single label -/

/-- What is handed in for a stored value. -/
def labelValue (w : Json) : Int := valueOf (labelOf w)

/-- An integer that can be the label of a frame after it was handed in. -/
def InBounds (n : Int) : Prop := -2 ^ 63 < n ∧ n < 2 ^ 63

theorem labelOf_int (n : Int) : labelOf (.int n) = toString n := by
  show String.ofList ((toString n).toList ++ []) = toString n
  rw [List.append_nil, String.ofList_toList]

theorem labelValue_bounds (w : Json) : InBounds (labelValue w) := by
  unfold labelValue valueOf
  cases h : leadingInt? (labelOf w) with
  | none => exact ⟨by decide, by decide⟩
  | some n => exact leadingInt?_bounds h

/-- An integer within the bounds is handed in as it is. -/
theorem labelValue_int {n : Int} (h : InBounds n) : labelValue (.int n) = n := by
  rw [labelValue, labelOf_int, valueOf, leadingInt?_toString h.1 h.2, Option.getD_some]

/-- A frame without a label counts as minus one. -/
theorem valueOf_empty : valueOf "" = -1 := by decide

/-! ## The labels of an item -/

theorem load_labels (t : LabelTool) (v : View) (data : Json) :
    ((t.handle v .itemShown).tool.load v data).labels =
      resized v.frameCount "" ((data.arr?.getD []).map labelOf) := by
  have hempty : List.replicate v.frameCount "" =
      resized v.frameCount "" (([] : List Json).map labelOf) := by
    simp [resized]
  cases data with
  | arr items =>
    cases items with
    | nil => exact hempty
    | cons first rest => rfl
  | _ => exact hempty

/-- The integers of the stored values are handed in, for as many frames as the item has. -/
theorem reloaded_eq (t : LabelTool) (v : View) (data : Json) :
    t.reloaded v data =
      .arr ((resized v.frameCount (-1) ((data.arr?.getD []).map labelValue)).map .int) := by
  have hvalues : ((t.handle v .itemShown).tool.load v data).labels.map valueOf =
      resized v.frameCount (-1) ((data.arr?.getD []).map labelValue) := by
    rw [load_labels, map_resized, valueOf_empty, List.map_map]
    rfl
  rw [← hvalues, List.map_map]
  rfl

/-- There is one integer for each frame, and all of them are within the bounds. -/
theorem exists_reloaded (t : LabelTool) (v : View) (data : Json) :
    ∃ ns : List Int, t.reloaded v data = .arr (ns.map .int) ∧ ns.length = v.frameCount ∧
      ∀ n ∈ ns, InBounds n := by
  refine ⟨_, t.reloaded_eq v data, length_resized _ _ _, fun n hn => ?_⟩
  rcases mem_resized hn with hn | rfl
  · obtain ⟨w, -, rfl⟩ := List.mem_map.1 hn
    exact labelValue_bounds w
  · exact ⟨by decide, by decide⟩

/-- Integers within the bounds, one for each frame, are handed in as they are. -/
theorem reloaded_ints (t : LabelTool) (v : View) {ns : List Int} (hlen : ns.length = v.frameCount)
    (hb : ∀ n ∈ ns, InBounds n) : t.reloaded v (.arr (ns.map .int)) = .arr (ns.map .int) := by
  have hvalues : (ns.map Json.int).map labelValue = ns := by
    rw [List.map_map]
    exact (List.map_congr_left fun n hn => labelValue_int (hb n hn)).trans (List.map_id ns)
  rw [reloaded_eq, Json.arr?, Option.getD_some, hvalues, resized_of_length hlen]

/-- Labels are stable once they were loaded and handed in: one integer for each frame is handed in,
and when it is loaded for an item with as many frames, by whatever tool, the same is handed in
again. What is handed in as it was stored are just the lists of integers within the bounds, one for
each frame. If nothing is stored that is a list with items, minus one is handed in for each
frame. -/
theorem reloaded_stable (t : LabelTool) (v : View) (data : Json) :
    (∃ ns : List Int, t.reloaded v data = .arr (ns.map .int) ∧ ns.length = v.frameCount) ∧
    (∀ (t' : LabelTool) (v' : View), v'.frameCount = v.frameCount →
      t'.reloaded v' (t.reloaded v data) = t.reloaded v data) ∧
    (t.reloaded v data = data ↔
      ∃ ns : List Int, data = .arr (ns.map .int) ∧ ns.length = v.frameCount ∧
        ∀ n ∈ ns, -2 ^ 63 < n ∧ n < 2 ^ 63) ∧
    ((∀ items, data = .arr items → items = []) →
      t.reloaded v data = .arr (List.replicate v.frameCount (.int (-1)))) := by
  obtain ⟨ns, hns, hlen, hb⟩ := t.exists_reloaded v data
  refine ⟨⟨ns, hns, hlen⟩, fun t' v' hv => ?again, ⟨fun hself => ?image, ?fixed⟩,
    fun hnone => ?none⟩
  case again =>
    rw [hns]
    exact t'.reloaded_ints v' (hlen.trans hv.symm) hb
  case image => exact ⟨ns, hself.symm.trans hns, hlen, hb⟩
  case fixed =>
    rintro ⟨ms, rfl, hlen, hb⟩
    exact t.reloaded_ints v hlen hb
  case none =>
    have hitems : data.arr?.getD [] = [] := by
      cases data with
      | arr items => exact hnone items rfl
      | _ => rfl
    rw [reloaded_eq, hitems]
    simp [resized]

/-- Stored labels of all sorts: a text with blanks, a sign and more behind the digits, an integer, a
list, nothing, and a number that does not fit. -/
def assorted : Json :=
  .arr [.str " +12abc", .int (-5), .arr [.int 7], .null, .int 9223372036854775808]

/-- Of an item with six frames the assorted labels, and a single text in place of labels. -/
theorem reloaded_stable_assorted :
    let set : AnnotationSet := ⟨1, ⟨2, "", .int⟩, [], .int, none⟩
    let t := LabelTool.new set
    let v : View := { View.ofSet set with frameCount := 6 }
    let handedIn : Json := .arr ([12, -5, -1, -1, -1, -1].map .int)
    t.reloaded v assorted = handedIn ∧ t.reloaded v handedIn = handedIn ∧
      { t with range := 0 }.reloaded { v with frame := some 3 } handedIn = handedIn ∧
      t.reloaded v (.str "12") = .arr (List.replicate 6 (.int (-1))) := by
  intro set t v handedIn
  have hread : t.reloaded v assorted = handedIn := by
    have hvalues : (assorted.arr?.getD []).map labelValue = [12, -5, -1, -1, -1] := by
      decide +kernel
    rw [reloaded_eq, hvalues]
    rfl
  have hbounds : ∀ n ∈ [12, -5, -1, -1, -1, -1], -2 ^ 63 < n ∧ n < (2 ^ 63 : Int) := by decide
  obtain ⟨-, hagain, -, -⟩ := t.reloaded_stable v assorted
  rw [hread] at hagain
  exact ⟨hread, (t.reloaded_stable v handedIn).2.2.1.2 ⟨_, rfl, rfl, hbounds⟩, hagain _ _ rfl,
    (t.reloaded_stable v (.str "12")).2.2.2 fun items h => by cases h⟩

end LabelTool

end Labeling
