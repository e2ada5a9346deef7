import Labeling.Json.Value

/-!
# JSON documents

A `Document` is a JSON text as it is written, before anything is made of it: objects
keep the order and the repetitions of their names, and a token that is well formed
but denotes nothing (a number beyond the largest double, a string with half of a
surrogate pair) is a leaf without a value. A reader that ignores a part of a
document does not look at the leaves in it, so such a token is an error only where
a value is wanted.

* `Document.value?` is the free-form value of a document;
* `Document.depth` counts how deep its arrays and objects nest.
-/

namespace Labeling

/-- A JSON text as it is written. -/
inductive Document where
  /-- `null`, a truth value, a number or a string. -/
  | leaf (value : Option Json)
  | arr (items : List Document)
  | obj (fields : List (Option String × Document))
  deriving Inhabited

namespace Document

mutual

/-- The value of a document: the last value of a repeated name wins. -/
def value? : Document → Option Json
  | .leaf value => value
  | .arr items => (values? items).map .arr
  | .obj fields => (namedValues? fields).map Json.object

/-- The values of all items. -/
def values? : List Document → Option (List Json)
  | [] => some []
  | d :: rest => do return (← value? d) :: (← values? rest)

/-- The values of all fields, in the order of the text. -/
def namedValues? : List (Option String × Document) → Option (List (String × Json))
  | [] => some []
  | (name, d) :: rest => do return (← name, ← value? d) :: (← namedValues? rest)

end

mutual

/-- How deep arrays and objects nest: none around a leaf. -/
def depth : Document → Nat
  | .leaf _ => 0
  | .arr items => depthOfItems items + 1
  | .obj fields => depthOfFields fields + 1

/-- The greatest depth among items. -/
def depthOfItems : List Document → Nat
  | [] => 0
  | d :: rest => max (depth d) (depthOfItems rest)

/-- The greatest depth among fields. -/
def depthOfFields : List (Option String × Document) → Nat
  | [] => 0
  | (_, d) :: rest => max (depth d) (depthOfFields rest)

end

end Document

end Labeling
