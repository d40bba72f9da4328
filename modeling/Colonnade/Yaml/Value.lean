/-!
# YAML values
-/

namespace Colonnade.Yaml

/-- A value of a document. -/
inductive Value where
  | null
  | bool (b : Bool)
  | int (n : Int)
  | float (x : Float)
  | string (s : String)
  | list (items : List Value)
  /-- Entries in the order of the document. -/
  | map (entries : List (Value × Value))
  /-- A value marked by a tag of its own, which starts with `!`. -/
  | tagged (tag : String) (v : Value)
deriving Inhabited

end Colonnade.Yaml
