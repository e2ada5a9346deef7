import Labeling.Json.Document

/-!
# Reading records

A record is read from an object by the names of its fields, or from an array by
their positions. In an object, names that the record does not have are ignored, and
a field given twice is an error. An array may leave out fields at its end, but must
not have more items than the record has fields. A field that is not given takes its
default, if it has one.

Records are read from values and from documents alike: `Source` says what the two
have in common.
-/

namespace Labeling

/-- The two ways in which a record is given. -/
inductive Record (ν : Type) where
  | positional (items : List ν)
  | named (fields : List (String × ν))

/-- What a record can be read from. -/
class Source (ν : Type) where
  /-- The free-form value. -/
  value? : ν → Option Json
  /-- The items of an array. -/
  items? : ν → Option (List ν)
  /-- The record given by an array or an object. -/
  record? : ν → Option (Record ν)

instance : Source Json where
  value? v := some v
  items? v := v.arr?
  record?
    | .arr items => some (.positional items)
    | .obj fields => some (.named fields)
    | _ => none

/-- The fields of an object whose names are all readable. -/
def Document.named? : List (Option String × Document) → Option (List (String × Document))
  | [] => some []
  | (name, d) :: rest => do return (← name, d) :: (← named? rest)

instance : Source Document where
  value? := Document.value?
  items?
    | .arr items => some items
    | _ => none
  record?
    | .arr items => some (.positional items)
    | .obj fields => (Document.named? fields).map .named
    | .leaf _ => none

namespace Record

variable {ν α : Type}

/-- The field at a position, under any of its names: none if it is not given, and no
answer if it is given twice. -/
def field? (r : Record ν) (position : Nat) (names : List String) : Option (Option ν) :=
  match r with
  | .positional items => some items[position]?
  | .named fields =>
    match fields.filter (fun f => names.contains f.1) with
    | [] => some none
    | [(_, v)] => some (some v)
    | _ => none

/-- A field that must be given. -/
def required (r : Record ν) (position : Nat) (name : String) (read : ν → Option α) : Option α := do
  match ← r.field? position [name] with
  | some v => read v
  | none => none

/-- A field with a default, under any of its names. -/
def given (r : Record ν) (position : Nat) (names : List String) (read : ν → Option α)
    (default : α) : Option α := do
  match ← r.field? position names with
  | some v => read v
  | none => some default

/-- An optional field: `null` is none, as is a field that is not given. -/
def optional [Source ν] (r : Record ν) (position : Nat) (name : String)
    (read : Json → Option α) : Option (Option α) :=
  r.given position [name] (fun v => do Json.nullable read (← Source.value? v)) none

/-- Not more positions than the record has fields. -/
def fits (r : Record ν) (size : Nat) : Bool :=
  match r with
  | .positional items => items.length ≤ size
  | .named _ => true

end Record

namespace Source

variable {ν α : Type} [Source ν]

/-- The record given by an array or an object, for a record of `size` fields. -/
def recordOf (v : ν) (size : Nat) : Option (Record ν) := do
  let r ← record? v
  if r.fits size then some r else none

/-- A part that is read from its value. -/
def leaf (read : Json → Option α) (v : ν) : Option α := do
  read (← value? v)

/-- The name of a plain choice: a text, or an object whose only field has that name
and is `null`. -/
def choice? (v : ν) : Option String :=
  match value? v with
  | some (.str s) => some s
  | _ =>
    match record? v with
    | some (.named [(name, w)]) =>
      match value? w with
      | some .null => some name
      | _ => none
    | _ => none

end Source

end Labeling
