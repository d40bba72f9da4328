import Colonnade.Migration.Ledger

/-!
# Migrating

Migrations are applied in ascending order of their versions and rolled back in descending order. A
version enters the ledger after its way up is done and leaves it after its way down is done. The
first migration that is not done ends the run; what was done before it stays in the ledger.
-/

namespace Colonnade.Migration

variable {m : Type → Type} [Monad m]

/-- A failure named by the version that it happened in. -/
def naming (version : String) (step : ExceptT MigrationError m Unit) :
    ExceptT MigrationError m Unit :=
  ExceptT.mk do
    match ← step.run with
    | .ok () => return .ok ()
    | .error e => return .error (e.within version)

/-! ## Up -/

/-- Applies a migration unless the ledger has it. -/
def applyOne (ledger : Ledger m) (say : String → m Unit) (version : String) (body : Body m) :
    ExceptT MigrationError m Unit := do
  if ← ledger.isApplied version then
    say ("Migration " ++ version ++ " is already applied")
  else if ← body.up then
    ledger.record version
    say ("Migrated up to version: " ++ version)
  else
    say ("Migration " ++ version ++ " did not complete; not recorded")
    throw (.execution version "up() reported failure")

/-- Applies migrations in their order. -/
def applyAll (ledger : Ledger m) (say : String → m Unit) :
    List (String × Body m) → ExceptT MigrationError m Unit
  | [] => pure ()
  | (version, body) :: rest => do
    naming version (applyOne ledger say version body)
    applyAll ledger say rest

/-- Applies every migration that is not in the ledger. -/
def runUp (ledger : Ledger m) (say : String → m Unit) (migrations : NameMap (Body m)) :
    ExceptT MigrationError m Unit := do
  ledger.ensureReady
  applyAll ledger say migrations.entries

/-! ## Down -/

/-- Rolls a migration back if the ledger has it. -/
def revertOne (ledger : Ledger m) (say : String → m Unit) (version : String) (body : Body m) :
    ExceptT MigrationError m Unit := do
  if ← ledger.isApplied version then
    if ← body.down then
      ledger.remove version
      say ("Migration " ++ version ++ " is rolled back")
    else
      say ("Migration " ++ version ++ " was not rolled back; ledger unchanged")
      throw (.execution version "down() reported failure")

/-- Rolls migrations back in their order. -/
def revertAll (ledger : Ledger m) (say : String → m Unit) :
    List (String × Body m) → ExceptT MigrationError m Unit
  | [] => pure ()
  | (version, body) :: rest => do
    naming version (revertOne ledger say version body)
    revertAll ledger say rest

/-- The migrations from a version on, the last one first. -/
def fromVersion (target : String) (migrations : NameMap (Body m)) : List (String × Body m) :=
  migrations.entries.reverse.filter fun e => decide (target ≤ e.1)

/-- Whether a version can be rolled back to: it has a name, is registered, and is applied. -/
def isTarget (ledger : Ledger m) (migrations : NameMap (Body m)) (version : String) :
    ExceptT MigrationError m Bool :=
  if version.isEmpty || !migrations.contains version then pure false
  else ledger.isApplied version

/-- Rolls back every applied migration from a version on. Without a version that is the one applied
last. -/
def runDown (ledger : Ledger m) (say : String → m Unit) (migrations : NameMap (Body m))
    (version : Option String) : ExceptT MigrationError m Unit := do
  ledger.ensureReady
  let target ← match version with
    | some version => pure version
    | none => pure ((← ledger.lastVersion).getD "")
  if ← isTarget ledger migrations target then
    revertAll ledger say (fromVersion target migrations)
    say ("Rolled back to version: " ++ target)
  else throw (.rollbackTarget target)

end Colonnade.Migration
