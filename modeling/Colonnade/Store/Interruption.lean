import Colonnade.Store.Client

/-!
# Clients that are interrupted

A client whose calls can be made to fail, or to answer that there is nothing, before they reach the
store. Interruptions are queued; each strikes once, after some calls have passed.
-/

namespace Colonnade.Store

/-- The calls that can be interrupted. -/
inductive Operation where
  | write
  | select
  | insert
  | showCreate
  | showTables
deriving DecidableEq, Repr

/-- What an interrupted call comes to. -/
inductive Outcome where
  | failure (e : StoreError)
  /-- The answer without anything in it. Calls without an answer pass. -/
  | nothing
deriving DecidableEq, Repr

/-- An interruption that waits for a call. -/
structure Interruption where
  operation : Operation
  /-- How many calls pass before it strikes. -/
  skip : Nat := 0
  outcome : Outcome
deriving DecidableEq, Repr

/-- What strikes a call, and the interruptions that are left. Only the first one that waits for such
a call is looked at. -/
def strike (operation : Operation) : List Interruption → Option Outcome × List Interruption
  | [] => (none, [])
  | i :: rest =>
    if i.operation = operation then
      match i.skip with
      | 0 => (some i.outcome, rest)
      | n + 1 => (none, { i with skip := n } :: rest)
    else
      let (outcome, rest) := strike operation rest
      (outcome, i :: rest)

variable {m : Type → Type} [Monad m]

/-- A call that may be interrupted. `nothing` is what it comes to without an answer. -/
def interrupted {α : Type} (struck : m (Option Outcome)) (nothing call : ExceptT StoreError m α) :
    ExceptT StoreError m α := do
  match ← (struck : m (Option Outcome)) with
  | none => call
  | some .nothing => nothing
  | some (.failure e) => throw e

/-- A client whose calls are interrupted as `struck` tells. -/
def interruptedClient (client : Client m) (struck : Operation → m (Option Outcome)) :
    Client m where
  write sql := interrupted (struck .write) (client.write sql) (client.write sql)
  select sql params := interrupted (struck .select) (pure .empty) (client.select sql params)
  insert table rows columns :=
    interrupted (struck .insert) (client.insert table rows columns)
      (client.insert table rows columns)
  showCreate name := interrupted (struck .showCreate) (pure "") (client.showCreate name)
  showTables := interrupted (struck .showTables) (pure []) client.showTables
  kind := client.kind

end Colonnade.Store
