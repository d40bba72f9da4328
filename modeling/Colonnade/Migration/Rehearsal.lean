import Colonnade.Files.Tree
import Colonnade.Migration.Ledger
import Colonnade.Store.Interruption
import Colonnade.Store.Memory

/-!
# Rehearsing migrations

A world in which migrations can be tried out: a store and files in memory, a clock that stands still
until it is set, and interruptions of the store.
-/

namespace Colonnade.Migration

/-- A world in memory. -/
structure Rehearsal where
  memory : Store.Memory := .empty
  interruptions : List Store.Interruption := []
  environment : NameMap String := .empty
  /-- The time in seconds. -/
  now : Int64 := 1000
  /-- The identifier that rows of the ledger get. -/
  identifier : String := "<uuid>"
  tree : Files.Tree := {}
  /-- The lines that have been shown. -/
  lines : List String := []

namespace Rehearsal

/-- What happens in the world. -/
abbrev Play := StateM Rehearsal

/-- The client of the store, with its interruptions. -/
def client : Client Play :=
  Store.interruptedClient (Store.Memory.clientOf memory fun m w => { w with memory := m })
    fun operation => modifyGet fun w =>
      let (outcome, rest) := Store.strike operation w.interruptions
      (outcome, { w with interruptions := rest })

/-- The files. -/
def files : Files.Access Play := Files.Tree.access (return (← get).tree)

/-- What migrations work with. -/
def context : Context Play where
  client := client
  say line := modify fun w => { w with lines := w.lines ++ [line] }
  environment := return (← get).environment

/-- The ledger of the store. -/
def ledger : Ledger Play := .ofClient client ⟨return (← get).identifier, return (← get).now⟩

end Rehearsal

end Colonnade.Migration
