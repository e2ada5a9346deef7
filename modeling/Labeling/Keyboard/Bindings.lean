import Labeling.Keyboard.Key
import Labeling.Json.Record

/-!
# Key bindings

The keys that the user may choose. The digit keys of the integer tool are fixed, and
count as taken.
-/

namespace Labeling

/-- The keys of the tools' actions. -/
structure KeyBindings where
  /-- Gives up the shape being drawn. -/
  cancelDraw : Key
  /-- Removes the selected shape. -/
  deleteSelection : Key
  /-- Ends the current track. -/
  endTrack : Key
  deriving DecidableEq, Repr

/-- Read a key by its name. -/
def Key.read? (v : Json) : Option Key := do ofName? (← v.str?)

namespace KeyBindings

/-- The bindings of a user who has chosen none. -/
def default : KeyBindings := ⟨.escape, .delete, .char 'e'⟩

/-- Read bindings; a key that is not given keeps its default. -/
def read? {ν : Type} [Source ν] (v : ν) : Option KeyBindings := do
  let r ← Source.recordOf v 3
  return {
    cancelDraw := ← r.given 0 ["cancel_draw"] (Source.leaf Key.read?) default.cancelDraw
    deleteSelection :=
      ← r.given 1 ["delete_selection"] (Source.leaf Key.read?) default.deleteSelection
    endTrack := ← r.given 2 ["end_track"] (Source.leaf Key.read?) default.endTrack }

/-- Bindings as a record. -/
def toJson (b : KeyBindings) : Json :=
  .obj [("cancel_draw", .str b.cancelDraw.name),
    ("delete_selection", .str b.deleteSelection.name), ("end_track", .str b.endTrack.name)]

/-- What a key is already used for, if anything. -/
def conflict? (b : KeyBindings) (key : Key) : Option String :=
  if key = b.cancelDraw then some "Cancel drawing"
  else if key = b.deleteSelection then some "Delete selection"
  else if key = b.endTrack then some "End track"
  else if key.digit?.isSome then some "Integer label"
  else none

end KeyBindings

end Labeling
