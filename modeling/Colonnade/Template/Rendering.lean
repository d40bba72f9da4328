import Colonnade.Template.Evaluation
import Colonnade.Template.Node
import Colonnade.Yaml.Value

/-!
# Rendering templates

A template is read whole before anything is evaluated, so a template that does not read fails
whatever its expressions would do. Names ending in `.html`, `.htm` or `.xml` have printed values
escaped.
-/

namespace Colonnade.Template

/-! ## Assigning -/

mutual
/-- Assigns a value to a target. -/
def bindTarget (s : Scope) (v : Value) : Target → Except Cause Scope
  | .name id => .ok (s.assign id v)
  | .many targets =>
    match v with
    | .list items => bindTargets s items targets
    | _ => .error (.operation "cannot unpack: not a sequence")

/-- Assigns items to as many targets. -/
def bindTargets (s : Scope) : List Value → List Target → Except Cause Scope
  | [], [] => .ok s
  | v :: vs, t :: ts => do bindTargets (← bindTarget s v t) vs ts
  | _, _ => .error (.operation "sequence of wrong length")
end

/-! ## Printing -/

/-- The text of a printed value. -/
def printed (s : Scope) (v : Value) : Except Cause String :=
  match v with
  | .undefined false => .error .undefined
  | v => .ok (if s.escapes then htmlOf v else v.display)

/-- The state of a loop at each item. -/
def loopStates (length depth : Nat) (index : Nat) (previous : Value) : List Value → List Value
  | [] => []
  | v :: vs =>
    .loop index length depth previous (vs.head?.getD (.undefined false))
      :: loopStates length depth (index + 1) v vs

/-- How many loops are around. -/
def loopDepth (s : Scope) : Nat := s.frames.length - 1

/-- The items that pass the condition of a loop. -/
def passing (s : Scope) (line : Nat) (target : Target) (condition : Option Expr) :
    List Value → Except Failure (List Value)
  | [] => .ok []
  | v :: vs =>
    match condition with
    | none => .ok (v :: vs)
    | some e => do
      let inner ← atLine line (bindTarget { s with frames := .empty :: s.frames } v target)
      let keep ← atLine line (truth (← eval inner e))
      let rest ← passing s line target condition vs
      return if keep then v :: rest else rest

mutual
/-- The text of a node, and the names assigned after it. -/
def render (s : Scope) : Node → Except Failure (String × Scope)
  | .text t => .ok (t, s)
  | .print line e => do
    let v ← eval s e
    return (← atLine line (printed s v), s)
  | .branch line test yes no => do
    if ← atLine line (truth (← eval s test)) then renderAll s yes else renderAll s no
  | .each line target items condition body otherwise => do
    let v ← eval s items
    if v.isUndefined then throw ⟨line, .undefined⟩
    match v.items? with
    | none => throw ⟨line, .operation "value is not iterable"⟩
    | some found =>
      let items ← passing s line target condition found
      if items.isEmpty then renderAll s otherwise
      else
        let states := loopStates items.length (loopDepth s) 0 (.undefined false) items
        let inner : Scope := { s with frames := .empty :: s.frames }
        let (text, _) ← (items.zip states).foldlM (fun (text, inner) (v, state) => do
          let inner ← atLine line (bindTarget (inner.assign "loop" state) v target)
          let (t, inner) ← renderAll inner body
          return (text ++ t, inner)) ("", inner)
        return (text, s)
  | .assign line target e => do
    let v ← eval s e
    return ("", ← atLine line (bindTarget s v target))
  | .capture _ id body => do
    let (text, inner) ← renderAll { s with frames := .empty :: s.frames } body
    let s := { s with frames := inner.frames.drop 1 }
    return ("", s.assign id (.string text s.escapes))

/-- The text of nodes. -/
def renderAll (s : Scope) : List Node → Except Failure (String × Scope)
  | [] => .ok ("", s)
  | n :: ns => do
    let (text, s) ← render s n
    let (rest, s) ← renderAll s ns
    return (text ++ rest, s)
end

/-! ## Templates -/

/-- Endings that stand after the ending that tells the format. -/
def outerEndings : List String := [".j2", ".jinja2", ".jinja"]

/-- Whether the printed values of a template of a name are escaped for HTML. -/
def escapesFor (name : String) : Bool :=
  let inner := (outerEndings.findSome? fun e => Text.dropEnd? e name).getD name
  ["html", "htm", "xml"].contains (String.ofList (Text.afterLast '.' inner.toList))

mutual
/-- A project variable as templates see it. A tag is the key of what it marks. -/
def ofYaml : Yaml.Value → Value
  | .null => .none
  | .bool b => .bool b
  | .int n => .int n
  | .float x => .float x
  | .string s => Value.text s
  | .list items => .list (ofYamlAll items)
  | .map entries => Value.mapOf (ofYamlEntries entries)
  | .tagged tag v => .map [(Value.text tag, ofYaml v)]

/-- Project variables as templates see them. -/
def ofYamlAll : List Yaml.Value → List Value
  | [] => []
  | v :: vs => ofYaml v :: ofYamlAll vs

/-- Entries as templates see them. -/
def ofYamlEntries : List (Yaml.Value × Yaml.Value) → List (Value × Value)
  | [] => []
  | (k, v) :: es => (ofYaml k, ofYaml v) :: ofYamlEntries es
end

/-- Renders a template of a name with project variables and an environment. -/
def renderText (vars : NameMap Yaml.Value) (environment : NameMap String)
    (name template : String) : Except RenderError String :=
  let scope : Scope :=
    ⟨vars.map ofYaml, environment, escapesFor name, [.empty]⟩
  match readTemplate template >>= renderAll scope with
  | .ok (text, _) => .ok text
  | .error failure => .error ⟨name, failure⟩

end Colonnade.Template
