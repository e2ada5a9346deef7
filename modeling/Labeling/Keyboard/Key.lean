import Labeling.Text.Quoted

/-!
# Keys

A key is a character or one of ten named keys. Some named keys have a second name;
`Key.name` is the one they are written with, and `Key.ofName` reads every name. A text
of one character is that character's key, except that a single space is the space
key.
-/

namespace Labeling

/-- A key of the keyboard. -/
inductive Key where
  | char (c : Char)
  | enter
  | escape
  | backspace
  | delete
  | tab
  | space
  | up
  | down
  | left
  | right
  deriving DecidableEq, Repr

namespace Key

/-- The name of a key. -/
def name : Key → String
  | .char c => String.singleton c
  | .enter => "Enter"
  | .escape => "Escape"
  | .backspace => "Backspace"
  | .delete => "Delete"
  | .tab => "Tab"
  | .space => "Space"
  | .up => "ArrowUp"
  | .down => "ArrowDown"
  | .left => "ArrowLeft"
  | .right => "ArrowRight"

/-- The named keys under all their names. -/
def table : List (String × Key) :=
  [("Enter", .enter), ("Escape", .escape), ("Esc", .escape), ("Backspace", .backspace),
    ("Delete", .delete), ("Del", .delete), ("Tab", .tab), ("Space", .space), (" ", .space),
    ("ArrowUp", .up), ("Up", .up), ("ArrowDown", .down), ("Down", .down),
    ("ArrowLeft", .left), ("Left", .left), ("ArrowRight", .right), ("Right", .right)]

/-- The key of a name: one of the table, or the key of a single character. -/
def ofName? (text : String) : Option Key :=
  match table.lookup text with
  | some key => some key
  | none =>
    match text.toList with
    | [c] => some (.char c)
    | _ => none

/-- What is reported about a text that names no key. -/
def unknownMessage (text : String) : String := "unknown key name: " ++ quoted text

/-- The key of a name, or a report that there is none. -/
def ofName (text : String) : Except String Key :=
  match ofName? text with
  | some key => .ok key
  | none => .error (unknownMessage text)

/-- The value of a digit key. -/
def digit? : Key → Option Nat
  | .char c => if c.isDigit then some (c.toNat - 48) else none
  | _ => none

end Key

/-- A key going down or up. -/
structure KeyEvent where
  key : Key
  /-- The key went down; otherwise it went up. -/
  isPress : Bool
  /-- A text field had the focus. -/
  inField : Bool
  deriving DecidableEq, Repr

namespace KeyEvent

/-- A key going down outside text fields. -/
def press (key : Key) : KeyEvent := ⟨key, true, false⟩

/-- A key going up outside text fields. -/
def release (key : Key) : KeyEvent := ⟨key, false, false⟩

end KeyEvent

end Labeling
