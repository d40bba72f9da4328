import Colonnade.Migration.Basic

/-!
# Migrations as lists of steps
-/

namespace Colonnade.Migration

/-- A step of a migration. -/
inductive Step where
  | sql (text : String)
  /-- Runs a statement, or fails if it could not be built. -/
  | statement (s : Except StatementError Statement)
  | say (line : String)
  /-- Shows the value of a parameter. -/
  | sayParameter (name : String)
  /-- Goes on only if an object is there, or only if it is not. -/
  | expect (table : String) (present : Bool)
  /-- Writes to the store behind the context. -/
  | write (sql : String)
  | fail (e : MigrationError)
  /-- Ends the migration. -/
  | finish (done : Bool)

variable {m : Type → Type} [Monad m]

/-- Runs steps; at the end of them the migration is done. -/
def runSteps (c : Context m) (declared : List Parameter) : List Step → ExceptT MigrationError m Bool
  | [] => return true
  | .sql text :: rest => do
    c.runSql text
    runSteps c declared rest
  | .statement (.ok s) :: rest => do
    let _ ← c.execute s
    runSteps c declared rest
  | .statement (.error e) :: _ => throw (.statement e)
  | .say line :: rest => do
    c.say line
    runSteps c declared rest
  | .sayParameter name :: rest => do
    match (← c.parameters declared).require name with
    | .ok v =>
      c.say v
      runSteps c declared rest
    | .error fault => throw (.parameters fault)
  | .expect table present :: rest => do
    if (← c.tableExists table) = present then runSteps c declared rest else return false
  | .write sql :: rest => do
    MigrationError.ofStore (c.client.write sql)
    runSteps c declared rest
  | .fail e :: _ => throw e
  | .finish done :: _ => return done

/-- The body of a migration from the steps of its two ways. -/
def Body.ofSteps (c : Context m) (declared : List Parameter) (up down : List Step) : Body m where
  up := runSteps c declared up
  down := runSteps c declared down

end Colonnade.Migration
