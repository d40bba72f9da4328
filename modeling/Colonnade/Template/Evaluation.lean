import Colonnade.NameMap
import Colonnade.Template.Filter

/-!
# Evaluating expressions

An expression sees the names assigned around it, the project variables through `var` and the
environment through `env`. Nothing changes while it is evaluated.
-/

namespace Colonnade.Template

/-- What an expression can see. -/
structure Scope where
  vars : NameMap Value
  environment : NameMap String
  /-- Whether printed values are escaped for HTML. -/
  escapes : Bool
  /-- The assigned names, those of the innermost loop first. -/
  frames : List (NameMap Value)

/-- The functions that every template has. -/
def functionNames : List String := ["env", "var", "range", "dict"]

namespace Scope

/-- The value of a name. -/
def lookup (s : Scope) (name : String) : Value :=
  match s.frames.findSome? fun frame => frame.get? name with
  | some v => v
  | none => if functionNames.contains name then .function name else .undefined false

/-- Assigns a name in the innermost frame. -/
def assign (s : Scope) (name : String) (v : Value) : Scope :=
  match s.frames with
  | [] => { s with frames := [NameMap.empty.insert name v] }
  | frame :: frames => { s with frames := frame.insert name v :: frames }

/-- The value of an environment variable, or the text of the default. -/
def env (s : Scope) (name : String) (default : Option Value) : Except Cause Value :=
  match s.environment.get? name, default with
  | some text, _ => .ok (Value.text text)
  | none, some v => .ok (Value.text v.display)
  | none, none => .error (.environment name)

/-- The value of a project variable, or the default. -/
def var (s : Scope) (name : String) (default : Option Value) : Except Cause Value :=
  match s.vars.get? name, default with
  | some v, _ => .ok v
  | none, some v => .ok v
  | none, none => .error (.variable name)

/-- Calls a function. -/
def call (s : Scope) (name : String) (args : List Value) : Except Cause Value :=
  match name, args with
  | "env", .string key _ :: rest =>
    if rest.length ≤ 1 then s.env key (givenDefault? rest) else misfit
  | "var", .string key _ :: rest =>
    if rest.length ≤ 1 then s.var key (givenDefault? rest) else misfit
  | "range", [stop] => range (.int 0) stop (.int 1)
  | "range", [start, stop] => range start stop (.int 1)
  | "range", [start, stop, step] => range start stop step
  | "dict", [] => .ok (.map [])
  | "dict", [.map entries] => .ok (.map entries)
  | "env", _ | "var", _ | "range", _ | "dict", _ => misfit
  | name, _ => .error (.unknown "function" name)

/-- Calls what a value has under a name. A loop goes round the arguments of `cycle`. -/
def callPart (v : Value) (name : String) (args : List Value) : Except Cause Value :=
  match v, name, args with
  | .undefined _, _, _ => .error .undefined
  | .loop index _ _ _ _, "cycle", args =>
    match args[index % args.length]? with
    | some a => .ok a
    | none => misfit
  | _, name, _ => .error (.unknown "method" name)

end Scope

/-- The value of a part, which is undefined if there is none. What is undefined has no parts. -/
def partOf (v : Value) (part? : Option Value) : Except Cause Value :=
  if v.isUndefined then .error .undefined else .ok (part?.getD (.undefined false))

/-- A cause at a line. -/
def atLine {α : Type} (line : Nat) : Except Cause α → Except Failure α
  | .ok a => .ok a
  | .error cause => .error ⟨line, cause⟩

/-- The values of arguments; those with names are gathered in a map at the end. -/
def argumentValues (args : List (Option String × Value)) : List Value :=
  let plain := args.filterMap fun (name, v) => if name.isNone then some v else none
  let named := args.filterMap fun (name, v) => name.map fun name => (Value.text name, v)
  if named.isEmpty then plain else plain ++ [Value.mapOf named]

mutual
/-- The value of an expression. -/
def eval (s : Scope) : Expr → Except Failure Value
  | .const _ v => .ok v
  | .name _ id => .ok (s.lookup id)
  | .list _ items => do return .list (← evalAll s items)
  | .map _ entries => do return Value.mapOf (← evalEntries s entries)
  | .sign line .not e => do return .bool !(← atLine line (truth (← eval s e)))
  | .sign line .minus e => do atLine line (negate (← eval s e))
  | .binary line .or a b => do
    let v ← eval s a
    if ← atLine line (truth v) then return v else eval s b
  | .binary line .and a b => do
    let v ← eval s a
    if ← atLine line (truth v) then eval s b else return v
  | .binary line op a b => do
    let v ← eval s a
    let w ← eval s b
    atLine line (op.apply v w)
  | .choice line test yes no => do
    if ← atLine line (truth (← eval s test)) then eval s yes else eval s no
  | .part line e name => do
    let v ← eval s e
    atLine line (partOf v (v.attribute? name))
  | .item line e key => do
    let v ← eval s e
    let k ← eval s key
    atLine line (partOf v (v.item? k))
  | .slice line e start stop step => do
    let v ← eval s e
    let a ← eval s start
    let b ← eval s stop
    let c ← eval s step
    atLine line (slice v a b c)
  | .call line (.name _ id) args => do
    let values ← evalArgs s args
    atLine (Expr.lastLineOfArgs line args) (s.call id (argumentValues values))
  | .call line (.part _ e name) args => do
    let v ← eval s e
    let values ← evalArgs s args
    atLine line (Scope.callPart v name (argumentValues values))
  | .call line callee args => do
    let _ ← eval s callee
    let _ ← evalArgs s args
    throw ⟨line, .operation "value is not callable"⟩
  | .filter line name e args => do
    let v ← eval s e
    let values ← evalArgs s args
    atLine line (applyFilter name v (argumentValues values))
  | .test line name e args => do
    let v ← eval s e
    let values ← evalArgs s args
    return .bool (← atLine line (applyTest name v (argumentValues values)))

/-- The values of expressions. -/
def evalAll (s : Scope) : List Expr → Except Failure (List Value)
  | [] => .ok []
  | e :: es => do
    let v ← eval s e
    return v :: (← evalAll s es)

/-- The keys and values of entries. -/
def evalEntries (s : Scope) : List (Expr × Expr) → Except Failure (List (Value × Value))
  | [] => .ok []
  | (key, e) :: es => do
    let k ← eval s key
    let v ← eval s e
    return (k, v) :: (← evalEntries s es)

/-- The values of arguments with their names. -/
def evalArgs (s : Scope) : List (Option String × Expr) →
    Except Failure (List (Option String × Value))
  | [] => .ok []
  | (name, e) :: es => do
    let v ← eval s e
    return (name, v) :: (← evalArgs s es)
end

end Colonnade.Template
