import Colonnade.Proofs.MemoryLedger

/-!
# Removing versions from a ledger

A version is quoted, put into a deletion, found there again as the operand of an equality, and
compared with the cells of the rows. On the way nothing is lost (`write_removal`), whatever the
version is. So the removal of a version takes the rows of that version off, and no others
(`remove_of_filled`), from any ledger whose rows were all recorded.
-/

namespace Colonnade.Store

open Migration

/-- The row of an entry. -/
def ledgerRow (e : Entry) : Row := .ofList (ledgerColumns.zip e.cells)

theorem get?_version_ledgerRow (e : Entry) :
    (ledgerRow e).get? "version" = some (.string e.version) := by
  simp [ledgerRow, ledgerColumns, Entry.cells, NameMap.ofList]

/-- The rows about other versions are those with another cell. -/
theorem map_ledgerRow_without (version : String) (es : List Entry) :
    (without version es).map ledgerRow
      = (es.map ledgerRow).filter fun row => row.get? "version" ≠ some (.string version) := by
  simp [without, List.filter_map, Function.comp_def, get?_version_ledgerRow]

namespace Memory

/-- The ledger has the rows of the entries. -/
def Lists (m : Memory) (es : List Entry) : Prop :=
  ∃ o, m.objects.get? "migrations" = some o ∧ o.rows = es.map ledgerRow

variable {m : Memory} {es : List Entry}

theorem Lists.rowsOf (h : m.Lists es) : m.rowsOf ledgerTable = .ok (es.map ledgerRow) := by
  obtain ⟨o, ho, hrows⟩ := h
  have hname : bareName ledgerTable.toList = "migrations" := bareName_ledger
  rw [Memory.rowsOf, hname, ho, ← hrows]

theorem Lists.setRows (h : m.Lists es) (es' : List Entry) :
    (m.setRows "migrations" (es'.map ledgerRow)).Lists es' := by
  obtain ⟨o, ho, -⟩ := h
  refine ⟨{ o with rows := es'.map ledgerRow }, ?_, rfl⟩
  rw [Memory.setRows, NameMap.get?_modify, ho]
  rfl

/-- A row that is recorded stands behind the others. -/
theorem Lists.insert (h : m.Lists es) (e : Entry) :
    (m.insert ledgerTable [e.cells] ledgerColumns).2.Lists (es ++ [e]) := by
  obtain ⟨o, ho, hrows⟩ := h
  have hname : bareName ledgerTable.toList = "migrations" := bareName_ledger
  have happend : appendRows "migrations" ledgerColumns o.rows [e.cells]
      = (.ok (), (es ++ [e]).map ledgerRow) := by
    rw [List.map_append, ← hrows]
    rfl
  simp only [Memory.insert, hname, log, ho, happend]
  exact Lists.setRows ⟨o, ho, hrows⟩ (es ++ [e])

/-- A deletion leaves the rows about other versions. -/
theorem Lists.write_removal (h : m.Lists es) (version : String) :
    m.write (removalText version) = (.ok (), (m.log (removalText version)).setRows "migrations"
      ((without version es).map ledgerRow)) := by
  obtain ⟨o, ho, hrows⟩ := h
  have hkept : o.rows.filter (fun row => !matchesCell "version" (.string version) row)
      = (without version es).map ledgerRow := by
    rw [hrows, without, List.filter_map]
    congr 2
    funext e
    simp [ledgerRow, matchesCell_eq (entryOf?_cells e) version]
  rw [Store.write_removal, ho]
  simp only [hkept]

/-- The stores whose ledger was filled by recording, and the entries of its rows in their order.
Recorded rows may have been removed again, and whatever else is done to such a store leaves the
ledger alone. -/
inductive Filled : Memory → List Entry → Prop where
  | fresh {m : Memory} {o : StoredObject} (ledger : m.objects.get? "migrations" = some o)
      (rows : o.rows = []) : Filled m []
  | record {m : Memory} {es : List Entry} (earlier : Filled m es) (e : Entry) :
    Filled (perform ((Ledger.ofClient client ⟨pure e.identifier, pure e.time⟩).record e.version)
      m).2 (es ++ [e])
  | remove {m : Memory} {es : List Entry} (earlier : Filled m es)
      (stamp : Stamp (StateM Memory)) (version : String) :
    Filled (perform ((Ledger.ofClient client stamp).remove version) m).2 (without version es)
  | aside {m m' : Memory} {es : List Entry} (earlier : Filled m es)
      (ledger : m'.objects.get? "migrations" = m.objects.get? "migrations") : Filled m' es

/-- A store in which rows are recorded, in the order of the list. -/
def recordAll (m : Memory) (es : List Entry) : Memory :=
  es.foldl (fun m e => (perform ((Ledger.ofClient client
    ⟨pure e.identifier, pure e.time⟩).record e.version) m).2) m

theorem Filled.recordAll (h : Filled m es) (more : List Entry) :
    Filled (m.recordAll more) (es ++ more) := by
  induction more generalizing m es with
  | nil => rwa [List.append_nil]
  | cons e more ih =>
    have hstep := ih (h.record e)
    rwa [List.append_assoc, List.singleton_append] at hstep

/-- A ledger that was just created was filled with nothing. -/
theorem filled_makeReady (h : m.objects.get? "migrations" = none) :
    Filled (perform (Ledger.makeReady client) m).2 [] := by
  have hready : perform (Ledger.makeReady client) m = _ := perform_makeReady (fun _ _ => rfl) m
  have hcontains : m.objects.contains "migrations" = false := by
    rw [NameMap.contains, h]
    rfl
  rw [hready]
  simp only [id, hcontains]
  refine .fresh (o := ⟨.table, creationText, []⟩) ?_ rfl
  simp [write_creationText, hcontains]

/-- Removing a version from a ledger writes a deletion, which succeeds. -/
theorem Lists.perform_remove (h : m.Lists es) (stamp : Stamp (StateM Memory)) (version : String) :
    perform ((Ledger.ofClient client stamp).remove version) m
      = (.ok (), (m.log (removalText version)).setRows "migrations"
          ((without version es).map ledgerRow)) := by
  have hwrite : perform (client.write (removalText version)) m = _ :=
    perform_write (removalText version) m
  rw [Migration.perform_remove, hwrite]
  dsimp only [id]
  rw [h.write_removal version]
  rfl

/-- A ledger that was filled has the rows of its entries. -/
theorem Filled.lists (h : Filled m es) : m.Lists es := by
  induction h with
  | @fresh m o ledger rows => exact ⟨o, ledger, rows⟩
  | @record m es _ e ih =>
    rw [perform_record]
    exact ih.insert e
  | @remove m es _ stamp version ih =>
    rw [ih.perform_remove stamp version]
    exact Lists.setRows ih (without version es)
  | aside _ ledger ih =>
    obtain ⟨o, ho, hrows⟩ := ih
    exact ⟨o, ledger.trans ho, hrows⟩

/-- What the removal of a version has done to a store with rows in its ledger. -/
structure RemovedExactly (m : Memory) (rows : List Row) (version : String)
    (done : Except MigrationError Unit × Memory) : Prop where
  before : m.rowsOf ledgerTable = .ok rows
  succeeded : done.1 = .ok ()
  /-- The rows with another version are left, as they were and in their order. -/
  after : done.2.rowsOf ledgerTable
    = .ok (rows.filter fun row => row.get? "version" ≠ some (.string version))
  /-- The ledger is otherwise what it was, and so is every other object. -/
  objects : done.2.objects = m.objects.modify "migrations" fun o =>
    { o with rows := rows.filter fun row => row.get? "version" ≠ some (.string version) }
  queued : done.2.queued = m.queued

/-- **The removal of a version is exact.** From a ledger that was filled by recording, the rows of
the version are removed and no others, whatever characters the version has. -/
theorem remove_of_filled (h : Filled m es) (stamp : Stamp (StateM Memory)) (version : String) :
    RemovedExactly m (es.map ledgerRow) version
      (perform ((Ledger.ofClient client stamp).remove version) m) := by
  have hlists := h.lists
  have hremove := hlists.perform_remove stamp version
  have hlog : (m.log (removalText version)).Lists es := hlists
  have hafter := (hlog.setRows (without version es)).rowsOf
  rw [map_ledgerRow_without] at hremove hafter
  exact {
    before := hlists.rowsOf
    succeeded := by rw [hremove]
    after := by rw [hremove, hafter]
    objects := by rw [hremove]; rfl
    queued := by rw [hremove]; rfl }

/-- Versions with a quote, a backslash, a semicolon and white space at their end, and one that is
recorded twice. -/
theorem remove_of_filled_quoted :
    let es : List Entry := [⟨"1", 1000, "it's \\"⟩, ⟨"2", 1000, "a' OR version='b; "⟩,
      ⟨"3", -5, "it's \\"⟩, ⟨"4", 1001, "it's"⟩]
    let m : Memory := recordAll (perform (Ledger.makeReady client) empty).2 es
    Filled m es ∧ RemovedExactly m (es.map ledgerRow) "it's \\"
      (perform ((Ledger.ofClient client ⟨pure "5", pure 2000⟩).remove "it's \\") m) := by
  intro es m
  have h : Filled m es := (filled_makeReady rfl).recordAll es
  exact ⟨h, remove_of_filled h _ "it's \\"⟩

end Memory

end Colonnade.Store
