/-!
# Named values in the order of their names

Objects of free-form data and the attributes of a shape are kept as a list of
name/value pairs sorted by name, each name at most once. Names are compared
character by character, by code point.

* `Fields.insert` puts a value under a name, replacing an older one;
* `Fields.ofList` sorts any list of pairs, where the last pair of a name wins;
* `Fields.Sorted` is the invariant that `insert` keeps.
-/

namespace Labeling

/-- Named values, in the order of their names. -/
abbrev Fields (β : Type) : Type := List (String × β)

namespace Fields

variable {β : Type}

/-- The value under a name. -/
def get? : Fields β → String → Option β
  | [], _ => none
  | (n, v) :: rest, name => if n = name then some v else get? rest name

/-- Put a value under a name: in its place in the order, or instead of the value
that stood under that name. -/
def insert (name : String) (value : β) : Fields β → Fields β
  | [] => [(name, value)]
  | (n, v) :: rest =>
    if name < n then (name, value) :: (n, v) :: rest
    else if name = n then (name, value) :: rest
    else (n, v) :: insert name value rest

/-- Sort a list of pairs by name. Of several values under one name the last stays. -/
def ofList (pairs : List (String × β)) : Fields β :=
  pairs.foldl (fun fields pair => insert pair.1 pair.2 fields) []

/-- The names increase strictly. -/
def Sorted (fields : Fields β) : Prop :=
  (fields.map Prod.fst).Pairwise (· < ·)

end Fields

end Labeling
