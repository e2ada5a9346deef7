import Labeling.Fields

/-!
# JSON values

`Json` is the value a JSON document denotes. A number is either an integer, which
fits 64 bits (signed or unsigned), or a floating-point number. The two are kept
apart: `1` and `1.0` are different values, and a reader that wants an integer
refuses the second.

An object is a list of named values. Free-form objects are sorted by name
(`Json.object`, `Json.sorted`); an object written for a record lists its fields in
the order in which the record declares them.

The functions that end in a question mark read one kind of value and answer `none`
for every other kind.
-/

namespace Labeling

/-- A JSON value. -/
inductive Json where
  | null
  | bool (b : Bool)
  | int (n : Int)
  | float (x : Float)
  | str (s : String)
  | arr (items : List Json)
  | obj (fields : List (String × Json))
  deriving Inhabited

/-! ## Integer widths -/

/-- Fits a signed 64-bit integer. -/
def isInt64 (n : Int) : Bool := -9223372036854775808 ≤ n && n ≤ 9223372036854775807

/-- Fits an unsigned 64-bit integer. -/
def isUInt64 (n : Int) : Bool := 0 ≤ n && n ≤ 18446744073709551615

/-- Fits an unsigned 32-bit integer. -/
def isUInt32 (n : Int) : Bool := 0 ≤ n && n ≤ 4294967295

/-- The signed 64-bit integer to which a result wraps around. -/
def wrapInt64 (n : Int) : Int := n.bmod 18446744073709551616

/-- The unsigned 64-bit integer to which a result wraps around. -/
def wrapUInt64 (n : Nat) : Nat := n % 18446744073709551616

theorem isInt64_iff {n : Int} :
    isInt64 n = true ↔ -9223372036854775808 ≤ n ∧ n ≤ 9223372036854775807 := by
  simp only [isInt64, Bool.and_eq_true, decide_eq_true_eq]

/-- Fits an unsigned 64-bit integer, as a natural number. -/
theorem isUInt64_iff {n : Nat} : isUInt64 n = true ↔ n ≤ 18446744073709551615 := by
  simp only [isUInt64, Bool.and_eq_true, decide_eq_true_eq]
  omega

/-- What fits does not wrap around. -/
theorem wrapInt64_of_isInt64 {n : Int} (h : isInt64 n = true) : wrapInt64 n = n := by
  rw [isInt64_iff] at h
  unfold wrapInt64
  rw [Int.bmod_def]
  omega

theorem wrapUInt64_of_isUInt64 {n : Nat} (h : isUInt64 n = true) : wrapUInt64 n = n :=
  Nat.mod_eq_of_lt (Nat.lt_succ_of_le (isUInt64_iff.1 h))

namespace Json

/-- A free-form object: sorted by name, the last value of a name wins. -/
def object (pairs : List (String × Json)) : Json := .obj (Fields.ofList pairs)

/-- A natural number as a value. -/
def nat (n : Nat) : Json := .int n

/-- An optional value, where `null` stands for none. -/
def option {α : Type} (write : α → Json) : Option α → Json
  | none => .null
  | some a => write a

/-! ## Order of names -/

mutual

/-- The same value with the names of every object in it sorted. -/
def sorted : Json → Json
  | .arr items => .arr (sortedItems items)
  | .obj fields => .obj (Fields.ofList (sortedFields fields))
  | .null => .null
  | .bool b => .bool b
  | .int n => .int n
  | .float x => .float x
  | .str s => .str s

/-- `sorted` on every item. -/
def sortedItems : List Json → List Json
  | [] => []
  | v :: rest => sorted v :: sortedItems rest

/-- `sorted` on every named value. -/
def sortedFields : List (String × Json) → List (String × Json)
  | [] => []
  | (n, v) :: rest => (n, sorted v) :: sortedFields rest

end

/-! ## Reading one kind of value -/

/-- What a reader says of JSON that it cannot read. Its words are left open, and a star
stands for them. -/
def unreadable : String := "*"

/-- A signed 64-bit integer. -/
def int? : Json → Option Int
  | .int n => if isInt64 n then some n else none
  | _ => none

/-- An unsigned 64-bit integer. -/
def uint64? : Json → Option Nat
  | .int n => if isUInt64 n then some n.toNat else none
  | _ => none

/-- An unsigned 32-bit integer. -/
def uint32? : Json → Option Nat
  | .int n => if isUInt32 n then some n.toNat else none
  | _ => none

/-- A floating-point number; an integer is read as the nearest one. -/
def float? : Json → Option Float
  | .int n => some (Float.ofInt n)
  | .float x => some x
  | _ => none

/-- A truth value. -/
def bool? : Json → Option Bool
  | .bool b => some b
  | _ => none

/-- A text. -/
def str? : Json → Option String
  | .str s => some s
  | _ => none

/-- The items of an array. -/
def arr? : Json → Option (List Json)
  | .arr items => some items
  | _ => none

/-- The named values of an object. -/
def obj? : Json → Option (List (String × Json))
  | .obj fields => some fields
  | _ => none

/-- An optional value: `null` is none, and anything else must be readable. -/
def nullable {α : Type} (read : Json → Option α) : Json → Option (Option α)
  | .null => some none
  | v => (read v).map some

/-- An array whose items are all readable. -/
def listOf {α : Type} (read : Json → Option α) (v : Json) : Option (List α) := do
  (← v.arr?).mapM read

/-- An array of exactly two readable items. -/
def pairOf {α : Type} (read : Json → Option α) : Json → Option (α × α)
  | .arr [a, b] => do return (← read a, ← read b)
  | _ => none

end Json

end Labeling
