/-!
# YAML nodes

The tree that a text spells before scalars get a meaning. Aliases have been replaced by what they
stand for.
-/

namespace Colonnade.Yaml

/-- A node of a document with its tag, if one is written. -/
inductive Node where
  /-- A text. A `plain` one was written without quotes and not as a block. -/
  | scalar (tag : Option String) (plain : Bool) (text : String)
  | list (tag : Option String) (items : List Node)
  | map (tag : Option String) (entries : List (Node × Node))
deriving Inhabited

namespace Node

/-- What stands where nothing is written. -/
def blank : Node := .scalar none true ""

/-- The tag of a node. -/
def tag? : Node → Option String
  | .scalar tag _ _ | .list tag _ | .map tag _ => tag

/-- The node under another tag. -/
def withTag (tag : Option String) : Node → Node
  | .scalar _ plain text => .scalar tag plain text
  | .list _ items => .list tag items
  | .map _ entries => .map tag entries

mutual
/-- How many lists and maps stand inside each other. -/
def depth : Node → Nat
  | .scalar .. => 0
  | .list _ items => depthOfItems items + 1
  | .map _ entries => depthOfEntries entries + 1

/-- The greatest depth of items. -/
def depthOfItems : List Node → Nat
  | [] => 0
  | n :: ns => max (depth n) (depthOfItems ns)

/-- The greatest depth of keys and values. -/
def depthOfEntries : List (Node × Node) → Nat
  | [] => 0
  | (k, v) :: es => max (max (depth k) (depth v)) (depthOfEntries es)
end

end Node

end Colonnade.Yaml
