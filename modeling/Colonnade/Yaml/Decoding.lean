import Colonnade.Yaml.Node
import Colonnade.Yaml.Scalar

/-!
# What a node means

A scalar in quotes is a text and a plain one is what it spells, unless a tag says otherwise. The
keys of a map differ.
-/

namespace Colonnade.Yaml

mutual
/-- Whether two values are the same. -/
def Value.same : Value → Value → Bool
  | .null, .null => true
  | .bool a, .bool b => a == b
  | .int a, .int b => a == b
  | .float a, .float b => a == b || (a.isNaN && b.isNaN)
  | .string a, .string b => a == b
  | .list a, .list b => sameAll a b
  | .map a, .map b => sameEntries a b
  | .tagged s a, .tagged t b => s == t && a.same b
  | _, _ => false

/-- Whether two lists have the same items. -/
def sameAll : List Value → List Value → Bool
  | [], [] => true
  | a :: as, b :: bs => a.same b && sameAll as bs
  | _, _ => false

/-- Whether two maps have the same entries in the same order. -/
def sameEntries : List (Value × Value) → List (Value × Value) → Bool
  | [], [] => true
  | (a, v) :: as, (b, w) :: bs => a.same b && v.same w && sameEntries as bs
  | _, _ => false
end

/-- The tags of the standard. -/
def standardTag (name : String) : String := "tag:yaml.org,2002:" ++ name

/-- Whether a tag is one of the document's own. -/
def isLocalTag (tag : String) : Bool := tag.toList.head? = some '!'

/-- The value of a scalar without a tag. -/
def scalarValue? (plain : Bool) (text : String) : Option Value :=
  if plain then plainValue? text else some (.string text)

/-- The value of a scalar under a standard tag. -/
def taggedScalar? (tag text : String) : Option Value :=
  if tag = standardTag "bool" then (boolWord? text).map .bool
  else if tag = standardTag "int" then ((integer? text.toList).filter isSmall).map .int
  else if tag = standardTag "float" then (float? text).map .float
  else if tag = standardTag "null" then (if isNullWord text then some .null else none)
  else some (.string text)

/-- A value under a tag of the document's own. -/
def underTag (tag : Option String) (v : Value) : Value :=
  match tag with
  | some t => if isLocalTag t then .tagged t v else v
  | none => v

/-- Whether no key of a map stands twice. -/
def keysDiffer : List (Value × Value) → Bool
  | [] => true
  | (k, _) :: es => es.all (fun e => !e.1.same k) && keysDiffer es

namespace Node

mutual
/-- The value of a node. -/
def value? : Node → Option Value
  | .scalar none plain text => scalarValue? plain text
  | .scalar (some tag) plain text =>
    if isLocalTag tag then (scalarValue? plain text).map (.tagged tag) else taggedScalar? tag text
  | .list tag items => do return underTag tag (.list (← values? items))
  | .map tag entries => do
    let entries ← entryValues? entries
    if keysDiffer entries then return underTag tag (.map entries) else none

/-- The values of items. -/
def values? : List Node → Option (List Value)
  | [] => some []
  | n :: ns => do return (← value? n) :: (← values? ns)

/-- The values of keys and what they stand for. -/
def entryValues? : List (Node × Node) → Option (List (Value × Value))
  | [] => some []
  | (k, v) :: es => do return (← value? k, ← value? v) :: (← entryValues? es)
end

/-- The text of a scalar, as it is written. -/
def text? : Node → Option String
  | .scalar _ _ text => some text
  | _ => none

/-- Whether nothing is written. -/
def isBlank : Node → Bool
  | .scalar _ true "" => true
  | _ => false

/-- Whether a node is null where a value may be missing. -/
def isNull? : Node → Option Bool
  | .scalar none true text => some (text = "" || isNullWord text)
  | .scalar (some tag) true text =>
    if tag = standardTag "null" then (if isNullWord text then some true else none) else some false
  | _ => some false

end Node

end Colonnade.Yaml
