import Colonnade.Proofs.Watching

/-!
# The ledger in a store

A run of migrations trusts the store with its ledger. `KeepsLedger` is what it relies on: the store
answers the lookup of a version by the rows of the ledger, appends the row that is inserted, removes
the rows that are deleted, and a call that fails changes nothing. `entries` reads the rows of the
ledger out of the world of the store; it may know no answer, and then nothing is said.

`KeepsLedger.sound` carries this over to the calls of `Ledger.ofClient`, which is all that a run
makes of a store. Calls may fail at any time and in any pattern.
-/

namespace Colonnade.Migration

variable {W ε α β : Type}

/-! ## Rows -/

/-- A row of the ledger. -/
structure Entry where
  identifier : String
  time : Int64
  version : String
deriving DecidableEq, Repr

/-- The versions that rows are about, in the order of the rows. -/
def versionsOf (es : List Entry) : List String := es.map (·.version)

/-- The rows about other versions. -/
def without (version : String) (es : List Entry) : List Entry :=
  es.filter fun e => e.version ≠ version

theorem versionsOf_without (version : String) (es : List Entry) :
    versionsOf (without version es) = (versionsOf es).filter (· ≠ version) := by
  rw [versionsOf, versionsOf, List.filter_map]
  rfl

theorem mem_versionsOf_without {version v : String} {es : List Entry} :
    v ∈ versionsOf (without version es) ↔ v ∈ versionsOf es ∧ v ≠ version := by
  simp [versionsOf_without]

/-! ## Actions that leave the ledger alone -/

/-- The action changes no row of the ledger. -/
def Keeps (entries : W → Option (List Entry)) (x : StateM W α) : Prop :=
  ∀ w es, entries w = some es → entries (x.run w).2 = some es

theorem keeps_pure {entries : W → Option (List Entry)} (a : α) :
    Keeps entries (pure a : ExceptT ε (StateM W) α).run :=
  fun _ _ h => h

theorem keeps_throw {entries : W → Option (List Entry)} (e : ε) :
    Keeps entries (throw e : ExceptT ε (StateM W) α).run :=
  fun _ _ h => h

theorem Keeps.bind {entries : W → Option (List Entry)} {x : ExceptT ε (StateM W) α}
    {f : α → ExceptT ε (StateM W) β} (hx : Keeps entries x.run)
    (hf : ∀ a, Keeps entries (f a).run) : Keeps entries (x >>= f).run := by
  intro w es h
  change entries (perform (x >>= f) w).2 = some es
  rw [perform_bind]
  cases (perform x w).1 with
  | ok a => exact hf a _ es (hx w es h)
  | error e => exact hx w es h

/-- An action that leaves the world as another one does keeps what that one keeps. -/
theorem Keeps.of_perform {entries : W → Option (List Entry)} {x : ExceptT ε (StateM W) α}
    {δ : Type} {y : ExceptT δ (StateM W) β} (hx : Keeps entries x.run)
    (h : ∀ w, (perform y w).2 = (perform x w).2) : Keeps entries y.run := by
  intro w es hw
  change entries (perform y w).2 = some es
  rw [h]
  exact hx w es hw

/-- The action never fails with a failure that names a version. -/
def Unnamed (x : ExceptT MigrationError (StateM W) α) : Prop :=
  ∀ w version reason, (perform x w).1 ≠ .error (.execution version reason)

/-- One thing after a success, another one after a failure. -/
def ifDone (outcome : Except ε α) (done failed : β) : β :=
  match outcome with
  | .ok _ => done
  | .error _ => failed

/-! ## The statements of the ledger as texts -/

/-- The text that creates the ledger. -/
def creationText : String :=
  "CREATE TABLE IF NOT EXISTS migrations (uuid UUID, timestamp Int64, version String) " ++
    "ENGINE = MergeTree() ORDER BY timestamp"

/-- The text that finds a version, which is bound to it. -/
def lookupText : String := "SELECT * FROM migrations WHERE version=:version LIMIT 1"

/-- What the version of a lookup is bound to. -/
def lookupParams (version : String) : Params := .ofList [("version", .string version)]

/-- The text that removes a version. -/
def removalText (version : String) : String :=
  "ALTER TABLE migrations DELETE WHERE version=" ++ Sql.Quoted.quote version

/-- The columns of the ledger. -/
def ledgerColumns : List String := ["uuid", "timestamp", "version"]

/-- The cells of a row. -/
def Entry.cells (e : Entry) : List Value := [.string e.identifier, .int e.time, .string e.version]

/-- What a run of migrations relies on of a store. -/
structure KeepsLedger (client : Client (StateM W)) (entries : W → Option (List Entry)) : Prop where
  select : ∀ sql params, Keeps entries (client.select sql params).run
  showTables : Keeps entries client.showTables.run
  showCreate : ∀ name, Keeps entries (client.showCreate name).run
  create : Keeps entries (client.write creationText).run
  /-- A lookup that is answered has a row exactly when the ledger has one. -/
  lookup : ∀ {w es} (version : String) {r : SelectResult}, entries w = some es →
    (perform (client.select lookupText (lookupParams version)) w).1 = .ok r →
    r.isEmpty = decide (version ∉ versionsOf es)
  /-- An insert appends its row, or fails and appends none. -/
  insert : ∀ {w es} (e : Entry), entries w = some es →
    entries (perform (client.insert ledgerTable [e.cells] ledgerColumns) w).2
      = some (ifDone (perform (client.insert ledgerTable [e.cells] ledgerColumns) w).1
          (es ++ [e]) es)
  /-- A deletion removes the rows of its version, or fails and removes none. -/
  delete : ∀ {w es} (version : String), entries w = some es →
    entries (perform (client.write (removalText version)) w).2
      = some (ifDone (perform (client.write (removalText version)) w).1 (without version es) es)

/-- What a row takes from outside leaves the ledger alone. -/
structure Stamp.Keeps (stamp : Stamp (StateM W)) (entries : W → Option (List Entry)) : Prop where
  identifier : Migration.Keeps entries stamp.identifier
  now : Migration.Keeps entries stamp.now

/-- What a run of migrations relies on of its ledger. -/
structure Ledger.Sound (ledger : Ledger (StateM W)) (entries : W → Option (List Entry)) : Prop where
  ensureReady : Keeps entries ledger.ensureReady.run
  lastVersion : Keeps entries ledger.lastVersion.run
  isApplied : ∀ version, Keeps entries (ledger.isApplied version).run
  isApplied_eq : ∀ {w es} {version : String} {found : Bool}, entries w = some es →
    (perform (ledger.isApplied version) w).1 = .ok found →
    found = decide (version ∈ versionsOf es)
  record : ∀ {w es} (version : String), entries w = some es → ∃ e : Entry, e.version = version ∧
    entries (perform (ledger.record version) w).2
      = some (ifDone (perform (ledger.record version) w).1 (es ++ [e]) es)
  remove : ∀ {w es} (version : String), entries w = some es →
    entries (perform (ledger.remove version) w).2
      = some (ifDone (perform (ledger.remove version) w).1 (without version es) es)
  isApplied_unnamed : ∀ version, Unnamed (ledger.isApplied version)
  record_unnamed : ∀ version, Unnamed (ledger.record version)
  remove_unnamed : ∀ version, Unnamed (ledger.remove version)

/-! ## The statements of the ledger reach the client -/

section Calls

variable (client : Client (StateM W)) (stamp : Stamp (StateM W))

theorem execute_creation : creation.execute client = (do
    StatementError.ofStore (client.write creationText)
    return .written) := by rfl

theorem execute_lookup (version : String) : (lookup version).execute client = (do
    return .selected
      (← StatementError.ofStore (client.select lookupText (lookupParams version)))) := rfl

theorem execute_recording (e : Entry) :
    (recording e.identifier e.time e.version).execute client = (do
      StatementError.ofStore (client.insert ledgerTable [e.cells] ledgerColumns)
      return .inserted) := rfl

theorem execute_removal (version : String) : (removal version).execute client = (do
    StatementError.ofStore (client.write (removalText version))
    return .written) := by rfl

/-- A failure of the store as a failure of a statement of the ledger. -/
def storeFailure (e : StoreError) : MigrationError := .statement (.store e)

theorem perform_statement_ofStore (x : ExceptT StoreError (StateM W) α) (w : W) :
    perform (StatementError.ofStore x) w
      = ((perform x w).1.mapError .store, (perform x w).2) := by
  unfold perform StatementError.ofStore
  rw [ExceptT.run_mk, StateT.run_bind]
  rcases x.run.run w with ⟨_ | _, _⟩ <;> rfl

theorem perform_ofStatement (x : ExceptT StatementError (StateM W) α) (w : W) :
    perform (MigrationError.ofStatement x) w
      = ((perform x w).1.mapError .statement, (perform x w).2) := by
  unfold perform MigrationError.ofStatement
  rw [ExceptT.run_mk, StateT.run_bind]
  rcases x.run.run w with ⟨_ | _, _⟩ <;> rfl

theorem perform_readying (fault : ε → LedgerFault) (x : ExceptT ε (StateM W) α) (w : W) :
    perform (Ledger.readying fault x) w
      = ((perform x w).1.mapError fun e => .ledger (fault e), (perform x w).2) := by
  unfold perform Ledger.readying
  rw [ExceptT.run_mk, StateT.run_bind]
  rcases x.run.run w with ⟨_ | _, _⟩ <;> rfl

theorem mapError_ok {δ : Type} (a : α) (f : ε → δ) :
    (Except.ok a : Except ε α).mapError f = .ok a := rfl

/-- A ledger among the tables is ready. -/
theorem makeReady_of_contains {client : Client (StateM W)} {w : W} {tables : List String}
    (htables : (perform client.showTables w).1 = .ok tables)
    (hknown : tables.contains ledgerTable = true) :
    perform (Ledger.makeReady client) w = (.ok (), (perform client.showTables w).2) := by
  rw [Ledger.makeReady, perform_bind, perform_readying, htables]
  simp only [mapError_ok, if_pos hknown, perform_pure]

/-- A ledger that is created and then known is ready. -/
theorem makeReady_of_created {client : Client (StateM W)} {w w₁ w₂ : W} {tables : List String}
    {sql : String} (htables : perform client.showTables w = (.ok tables, w₁))
    (hnone : tables.contains ledgerTable = false)
    (hcreated : perform (client.write creationText) w₁ = (.ok (), w₂))
    (hknown : (perform (client.showCreate ledgerTable) w₂).1 = .ok sql)
    (hsql : sql.isEmpty = false) : perform (Ledger.makeReady client) w
      = (.ok (), (perform (client.showCreate ledgerTable) w₂).2) := by
  rw [Ledger.makeReady, perform_bind, perform_readying, htables]
  simp only [mapError_ok, hnone, Bool.false_eq_true, if_false, perform_bind, perform_readying,
    execute_creation, perform_statement_ofStore, hcreated, perform_pure, hknown, hsql]

/-- A version is applied if its lookup has a row. -/
theorem perform_isApplied (version : String) (w : W) :
    perform ((Ledger.ofClient client stamp).isApplied version) w
      = (((perform (client.select lookupText (lookupParams version)) w).1.map
          (!·.isEmpty)).mapError storeFailure,
        (perform (client.select lookupText (lookupParams version)) w).2) := by
  simp only [Ledger.ofClient, Ledger.rows, execute_lookup, perform_bind, perform_ofStatement,
    perform_statement_ofStore]
  rcases (perform (client.select lookupText (lookupParams version)) w).1 <;> rfl

/-- The row that records a version. -/
def rowFor (version : String) (w : W) : Entry :=
  ⟨(stamp.identifier.run w).1, (stamp.now.run (stamp.identifier.run w).2).1, version⟩

/-- Recording a version inserts its row. -/
theorem perform_record (version : String) (w : W) :
    let row := rowFor stamp version w
    let stamped := (stamp.now.run (stamp.identifier.run w).2).2
    perform ((Ledger.ofClient client stamp).record version) w
      = ((perform (client.insert ledgerTable [row.cells] ledgerColumns) stamped).1.mapError
          storeFailure,
        (perform (client.insert ledgerTable [row.cells] ledgerColumns) stamped).2) := by
  intro row stamped
  have hrow : (recording (stamp.identifier.run w).1 (stamp.now.run (stamp.identifier.run w).2).1
      version).execute client = _ := execute_recording client row
  simp only [Ledger.ofClient, perform_bind, perform_liftM, hrow, perform_ofStatement,
    perform_statement_ofStore]
  rcases (perform (client.insert ledgerTable [row.cells] ledgerColumns) stamped).1 <;> rfl

/-- Removing a version writes its deletion. -/
theorem perform_remove (version : String) (w : W) :
    perform ((Ledger.ofClient client stamp).remove version) w
      = ((perform (client.write (removalText version)) w).1.mapError storeFailure,
        (perform (client.write (removalText version)) w).2) := by
  simp only [Ledger.ofClient, execute_removal, perform_bind, perform_ofStatement,
    perform_statement_ofStore]
  rcases (perform (client.write (removalText version)) w).1 <;> rfl

end Calls

/-! ## A store that keeps the ledger gives a sound one -/

section Sound

variable {client : Client (StateM W)} {stamp : Stamp (StateM W)}
  {entries : W → Option (List Entry)}

/-- A failure of the store names no version. -/
theorem unnamed_of_storeFailure {x : ExceptT MigrationError (StateM W) α}
    {f : W → Except StoreError α} (h : ∀ w, (perform x w).1 = (f w).mapError storeFailure) :
    Unnamed x := by
  intro w version reason hw
  rw [h] at hw
  cases hf : f w with
  | ok a => rw [hf] at hw; cases hw
  | error e => rw [hf] at hw; cases hw

theorem ifDone_mapError {δ : Type} (outcome : Except ε α) (f : ε → δ) (done failed : β) :
    ifDone (outcome.mapError f) done failed = ifDone outcome done failed := by
  cases outcome <;> rfl

theorem KeepsLedger.keeps_rows (h : KeepsLedger client entries) {s : Statement} {sql : String}
    {params : Params} (hs : s.execute client = (do
      return .selected (← StatementError.ofStore (client.select sql params)))) :
    Keeps entries (Ledger.rows client s).run := by
  unfold Ledger.rows
  rw [hs]
  refine Keeps.bind ?_ fun _ => keeps_pure _
  refine Keeps.of_perform (x := client.select sql params) (h.select sql params) fun w => ?_
  rw [perform_ofStatement, perform_bind, perform_statement_ofStore]
  cases (perform (client.select sql params) w).1 <;> rfl

/-- Making the ledger ready changes no row. -/
theorem KeepsLedger.keeps_makeReady (h : KeepsLedger client entries) :
    Keeps entries (Ledger.makeReady client).run := by
  unfold Ledger.makeReady
  refine Keeps.bind (h.showTables.of_perform fun w => ?_) fun tables => ?_
  · rw [perform_readying]
  split
  · exact keeps_pure _
  refine Keeps.bind (h.create.of_perform fun w => ?_) fun _ => ?_
  · rw [perform_readying, execute_creation, perform_bind, perform_statement_ofStore]
    cases (perform (client.write creationText) w).1 <;> rfl
  refine Keeps.bind ((h.showCreate ledgerTable).of_perform fun w => ?_) fun known => ?_
  · rw [perform_readying]
  split
  · exact keeps_throw _
  · exact keeps_pure _

/-- A version is found applied if it has a row. -/
theorem KeepsLedger.isApplied_eq (h : KeepsLedger client entries) {w : W} {es : List Entry}
    {version : String} {found : Bool} (hw : entries w = some es)
    (hfound : (perform ((Ledger.ofClient client stamp).isApplied version) w).1 = .ok found) :
    found = decide (version ∈ versionsOf es) := by
  rw [perform_isApplied] at hfound
  cases hr : (perform (client.select lookupText (lookupParams version)) w).1 with
  | error e => rw [hr] at hfound; cases hfound
  | ok r =>
    rw [hr] at hfound
    cases hfound
    simp [h.lookup version hw hr]

/-- A store that keeps the ledger is all that a run relies on. -/
theorem KeepsLedger.sound (h : KeepsLedger client entries) (hstamp : stamp.Keeps entries) :
    (Ledger.ofClient client stamp).Sound entries where
  ensureReady := h.keeps_makeReady
  lastVersion := (h.keeps_rows (s := latest) rfl).bind fun _ => keeps_pure _
  isApplied version := (h.keeps_rows (execute_lookup client version)).bind fun _ => keeps_pure _
  isApplied_eq := h.isApplied_eq
  record := by
    intro w es version hw
    refine ⟨rowFor stamp version w, rfl, ?_⟩
    have hstamped := hstamp.now _ es (hstamp.identifier w es hw)
    rw [perform_record]
    simp only [ifDone_mapError]
    exact h.insert (rowFor stamp version w) hstamped
  remove := by
    intro w es version hw
    rw [perform_remove, ifDone_mapError]
    exact h.delete version hw
  isApplied_unnamed version := unnamed_of_storeFailure fun w =>
    congrArg Prod.fst (perform_isApplied client stamp version w)
  record_unnamed version := unnamed_of_storeFailure fun w =>
    congrArg Prod.fst (perform_record client stamp version w)
  remove_unnamed version := unnamed_of_storeFailure fun w =>
    congrArg Prod.fst (perform_remove client stamp version w)

end Sound

end Colonnade.Migration
