import Colonnade.Migration.Error
import Colonnade.NameMap

/-!
# Parameters of a migration

A migration declares what it reads from the environment. A value that is set counts, even the empty
one if there is a default; what is not set falls back to its default.
-/

namespace Colonnade.Migration

/-- A parameter that a migration declares. -/
structure Parameter where
  name : String
  default : Option String := none
deriving DecidableEq, Repr

/-- The values of the parameters of a migration. -/
structure Parameters where
  values : NameMap String

namespace Parameter

/-- The value of a parameter, given what it is set to. -/
def value (p : Parameter) (set : Option String) : Except ParameterFault String :=
  match set, p.default with
  | some v, none => if v.isEmpty then .error (.empty p.name) else .ok v
  | some v, some _ => .ok v
  | none, some v => .ok v
  | none, none => .error (.undefined p.name)

end Parameter

namespace Parameters

/-- The values of declared parameters. The first parameter without a value is reported. -/
def resolve (declared : List Parameter) (environment : NameMap String) :
    Except ParameterFault Parameters := do
  let values ← declared.foldlM (fun values p => do
    return values.insert p.name (← p.value (environment.get? p.name))) NameMap.empty
  return ⟨values⟩

/-- The value of a parameter. -/
def get? (p : Parameters) (name : String) : Option String := p.values.get? name

/-- The value of a parameter that must be declared. -/
def require (p : Parameters) (name : String) : Except ParameterFault String :=
  match p.get? name with
  | some v => .ok v
  | none => .error (.undeclared name)

end Parameters

end Colonnade.Migration
