import Colonnade.Proofs.ChangeShapes
import Colonnade.Proofs.MemoryLedger
import Mathlib.Logic.Function.Basic

/-!
# A store in memory is a catalog

Of the objects of a store a catalog tells the kinds and the rows. A statement asks for one change of
one object (`Statement.change?`), and a catalog takes the change or refuses it (`Change.apply`);
there is no text in it. A store in memory, which is given the text of the statement, does what the
catalog does (`Memory.does_execute`), and so through any number of statements.
-/

namespace Colonnade.Store

open Migration (perform)

/-! ## Catalogs -/

/-- What a catalog tells of an object. -/
structure Holding where
  kind : ObjectKind
  rows : List Row
deriving DecidableEq

/-- A catalog tells of every name which object has it, if one does. -/
abbrev Catalog := String → Option Holding

/-- A change of one object. -/
inductive Change where
  /-- Creates the object, without rows. -/
  | create (kind : ObjectKind) (ifNotExists : Bool)
  /-- Removes the object. -/
  | drop (ifExists : Bool)
  /-- Takes all rows off the object. -/
  | clear
  /-- Adds a row to the object. -/
  | append (row : Row)

/-- What is held after a change, unless the change is refused. -/
def Change.apply : Change → Option Holding → Option (Option Holding)
  | .create kind _, none => some (some ⟨kind, []⟩)
  | .create _ ifNotExists, some held => if ifNotExists then some (some held) else none
  | .drop ifExists, none => if ifExists then some none else none
  | .drop _, some _ => some none
  | .clear, held => held.map fun h => some { h with rows := [] }
  | .append row, held => held.map fun h => some { h with rows := h.rows ++ [row] }

/-- The catalog after a change of one object, unless the change is refused. -/
def Catalog.change (c : Catalog) (name : String) (change : Change) : Option Catalog :=
  (change.apply (c name)).map (Function.update c name)

end Colonnade.Store

namespace Colonnade

open Store (Change Catalog)

/-- The change that a statement asks for; a select asks for none. -/
def Statement.change? (s : Statement) : Option Change :=
  match s.kind with
  | .createTable => some (.create .table s.flags.ifNotExists)
  | .createMaterializedView => some (.create .view s.flags.ifNotExists)
  | .createDictionary => some (.create .dictionary false)
  | .dropTable | .dropView => some (.drop s.flags.ifExists)
  | .dropDictionary => some (.drop false)
  | .delete => some .clear
  | .insert => some (.append (.ofList s.row))
  | .select => none

/-- The catalog after a statement, unless it does not render or its change is refused. -/
def Store.Catalog.step (c : Catalog) (s : Statement) : Option Catalog :=
  match s.render with
  | .error _ => none
  | .ok _ => s.change?.bind (c.change s.target)

/-- What comes of statements one after the other: whether each was carried out, and the catalog
after it. -/
def Store.Catalog.run (c : Catalog) : List Statement → List (Bool × Catalog)
  | [] => []
  | s :: rest =>
    match c.step s with
    | some c' => (true, c') :: run c' rest
    | none => (false, c) :: run c rest

end Colonnade

namespace Colonnade.Store

open Migration (perform)

/-! ## Stores as catalogs -/

namespace Memory

/-- The catalog of a store. -/
def catalog (m : Memory) : Catalog := fun name =>
  (m.objects.get? name).map fun o => ⟨o.kind, o.rows⟩

/-- What comes of statements that a store is given one after the other. -/
def runAll (m : Memory) : List Statement → List (Bool × Catalog)
  | [] => []
  | s :: rest =>
    let (outcome, m') := perform (s.execute client) m
    (outcome.isOk, m'.catalog) :: runAll m' rest

theorem catalog_eq_none_iff {m : Memory} {name : String} :
    m.catalog name = none ↔ m.objects.get? name = none := Option.map_eq_none_iff

theorem catalog_of_get? {m : Memory} {name : String} {o : StoredObject}
    (h : m.objects.get? name = some o) : m.catalog name = some ⟨o.kind, o.rows⟩ := by
  rw [catalog, h]
  rfl

/-- A catalog depends on the objects only. -/
theorem catalog_of_objects {m m' : Memory} (h : m'.objects = m.objects) :
    m'.catalog = m.catalog := by
  unfold catalog
  rw [h]

theorem catalog_insert (m : Memory) (name : String) (o : StoredObject) :
    { m with objects := m.objects.insert name o }.catalog
      = Function.update m.catalog name (some ⟨o.kind, o.rows⟩) := by
  funext n
  by_cases hn : n = name <;> simp [catalog, hn]

theorem catalog_erase (m : Memory) (name : String) :
    { m with objects := m.objects.erase name }.catalog = Function.update m.catalog name none := by
  funext n
  by_cases hn : n = name <;> simp [catalog, hn]

theorem catalog_setRows {m : Memory} {name : String} {o : StoredObject}
    (h : m.objects.get? name = some o) (rows : List Row) :
    (m.setRows name rows).catalog = Function.update m.catalog name (some ⟨o.kind, rows⟩) := by
  funext n
  by_cases hn : n = name
  · subst hn
    simp [catalog, setRows, h]
  · simp [catalog, setRows, hn]

/-- What is done with a store is what a change does with its catalog; if the change is refused, it
is a failure that leaves all objects. -/
def Does {ε α : Type} (m : Memory) (change : Option Catalog) (r : Except ε α × Memory) : Prop :=
  match change with
  | some c => r.1.isOk = true ∧ r.2.catalog = c
  | none => r.1.isOk = false ∧ r.2.objects = m.objects

section Calls

variable (m : Memory) {name : List Char} (h : PlainName name)

include h

theorem does_create (sql : String) (kind : ObjectKind) (ifNotExists : Bool) :
    m.Does (m.catalog.change (.ofList name) (.create kind ifNotExists))
      (m.create sql ⟨kind, ifNotExists, name⟩) := by
  rw [create, h.bareName_eq]
  cases hget : m.objects.get? (.ofList name) with
  | none =>
    have hcontains : m.objects.contains (.ofList name) = false := by simp [NameMap.contains, hget]
    simp only [hcontains]
    rw [Catalog.change, catalog_eq_none_iff.2 hget]
    exact ⟨rfl, catalog_insert m _ _⟩
  | some o =>
    have hcontains : m.objects.contains (.ofList name) = true := by simp [NameMap.contains, hget]
    simp only [hcontains]
    rw [Catalog.change, catalog_of_get? hget]
    cases ifNotExists with
    | false => exact ⟨rfl, rfl⟩
    | true => exact ⟨rfl, (Function.update_eq_self_iff.2 (catalog_of_get? hget).symm).symm⟩

theorem does_drop (ifExists : Bool) :
    m.Does (m.catalog.change (.ofList name) (.drop ifExists)) (m.drop ⟨ifExists, name⟩) := by
  rw [drop, h.bareName_eq]
  cases hget : m.objects.get? (.ofList name) with
  | none =>
    have hcontains : m.objects.contains (.ofList name) = false := by simp [NameMap.contains, hget]
    simp only [hcontains, Bool.false_or]
    rw [Catalog.change, catalog_eq_none_iff.2 hget]
    cases ifExists with
    | false => exact ⟨rfl, rfl⟩
    | true => exact ⟨rfl, catalog_erase m _⟩
  | some o =>
    have hcontains : m.objects.contains (.ofList name) = true := by simp [NameMap.contains, hget]
    simp only [hcontains, Bool.true_or]
    rw [Catalog.change, catalog_of_get? hget]
    exact ⟨rfl, catalog_erase m _⟩

theorem does_delete (sql : String) :
    m.Does (m.catalog.change (.ofList name) .clear) (m.delete sql ⟨name, none⟩) := by
  simp only [delete, h.bareName_eq, filterOf]
  cases hget : m.objects.get? (.ofList name) with
  | none =>
    rw [Catalog.change, catalog_eq_none_iff.2 hget]
    exact ⟨rfl, rfl⟩
  | some o =>
    rw [Catalog.change, catalog_of_get? hget]
    exact ⟨rfl, catalog_setRows hget []⟩

end Calls

theorem does_insert (m : Memory) {table : String} (h : PlainName table.toList)
    (row : List (String × Value)) :
    m.Does (m.catalog.change table (.append (.ofList row)))
      (m.insert table [row.map (·.2)] (row.map (·.1))) := by
  have hname : bareName table.toList = table := by rw [h.bareName_eq, String.ofList_toList]
  have hzip : (row.map (·.1)).zip (row.map (·.2)) = row := by
    rw [List.zip_map']
    exact List.map_id row
  simp only [insert, hname]
  cases hget : m.objects.get? table with
  | none =>
    rw [Catalog.change, catalog_eq_none_iff.2 hget]
    simp only [log, hget]
    exact ⟨rfl, rfl⟩
  | some o =>
    rw [Catalog.change, catalog_of_get? hget]
    simp only [log, hget, appendRows, List.length_map, if_true, hzip]
    exact ⟨rfl, catalog_setRows (m := { m with executed := _ }) hget _⟩

/-! ## Statements -/

/-- Only whether it is a failure counts of an outcome. -/
theorem Does.of_isOk {ε δ α β : Type} {m : Memory} {change : Option Catalog}
    {r : Except ε α × Memory} {outcome : Except δ β} (h : m.Does change r)
    (hok : outcome.isOk = r.1.isOk) : m.Does change (outcome, r.2) := by
  cases change <;> exact ⟨hok.trans h.1, h.2⟩

end Memory

end Colonnade.Store

namespace Colonnade

/-- A change of an object with a plain name; a deletion has no predicate. -/
structure Statement.IsChange (s : Statement) : Prop where
  changes : s.kind ≠ .select
  chars : ∀ c ∈ s.target.toList, Sql.isNameChar c = true
  everyRow : s.kind = .delete → s.predicate = ""

instance (s : Statement) : Decidable s.IsChange :=
  decidable_of_iff (s.kind ≠ .select ∧ (∀ c ∈ s.target.toList, Sql.isNameChar c = true) ∧
    (s.kind = .delete → s.predicate = ""))
    ⟨fun h => ⟨h.1, h.2.1, h.2.2⟩, fun h => ⟨h.changes, h.chars, h.everyRow⟩⟩

end Colonnade

namespace Colonnade.Store.Memory

open Migration (perform)

/-- The text of a change does what the change does. -/
theorem does_write (m : Memory) {s : Statement} (h : s.IsChange) (hinsert : s.kind ≠ .insert)
    {sql : String} (hrender : s.render = .ok sql) :
    m.Does (s.change?.bind (m.catalog.change s.target)) (m.write sql) := by
  have hname : PlainName s.target.toList :=
    ⟨Statement.target_ne_nil_of_render hrender h.changes, h.chars⟩
  have htarget : String.ofList s.target.toList = s.target := String.ofList_toList
  have htext := Statement.toList_render hrender
  -- the text is logged first, which leaves the objects
  have hcreate (sql : String) := (m.log sql).does_create hname sql
  have hdrop (sql : String) := (m.log sql).does_drop hname
  have hdelete (sql : String) := (m.log sql).does_delete hname sql
  rw [htarget] at hcreate hdrop hdelete
  rw [Statement.change?]
  cases hkind : s.kind with
  | createTable =>
    rw [hkind] at htext
    obtain ⟨back, hback⟩ := htext
    rw [write_creation m .table _ hname hback (by decide) (by decide) (by decide)]
    exact hcreate _ .table s.flags.ifNotExists
  | createDictionary =>
    rw [hkind] at htext
    obtain ⟨back, hback⟩ := htext
    rw [write_creation m .dictionary _ hname hback (by decide) (by decide) (by decide)]
    exact hcreate _ .dictionary false
  | createMaterializedView =>
    rw [hkind] at htext
    obtain ⟨back, hback⟩ := htext
    rw [write_creation m .view _ hname hback (by decide) (by decide) (by decide)]
    exact hcreate _ .view s.flags.ifNotExists
  | dropTable =>
    rw [hkind] at htext
    rw [write_removal_of_name m .table _ hname htext]
    exact hdrop _ s.flags.ifExists
  | dropView =>
    rw [hkind] at htext
    rw [write_removal_of_name m .view _ hname htext]
    exact hdrop _ s.flags.ifExists
  | dropDictionary =>
    rw [hkind] at htext
    rw [write_removal_of_name m .dictionary _ hname htext]
    exact hdrop _ false
  | delete =>
    rw [hkind] at htext
    rw [write_deletion m hname (htext (h.everyRow hkind))]
    exact hdelete _
  | insert => exact absurd hkind hinsert
  | select => exact absurd hkind h.changes

/-- A call to the store that a statement is carried out with does what the statement does. -/
theorem Does.of_call {m : Memory} {change : Option Catalog} {s : Statement}
    {call : ExceptT StoreError (StateM Memory) Unit} {r : Except StoreError Unit × Memory}
    {done : Execution} (hexecute : s.execute client = (do StatementError.ofStore call; return done))
    (hcall : perform call m = r) (h : m.Does change r) :
    m.Does change (perform (s.execute client) m) := by
  rw [hexecute, Migration.perform_bind, Migration.perform_statement_ofStore, hcall]
  obtain ⟨outcome, m'⟩ := r
  cases outcome <;> exact h.of_isOk rfl

/-- A store in memory that is given the text of a change does what a catalog does. -/
theorem does_execute (m : Memory) {s : Statement} (h : s.IsChange) :
    m.Does (m.catalog.step s) (perform (s.execute client) m) := by
  cases hrender : s.render with
  | error e =>
    rw [Catalog.step, Statement.execute, hrender]
    exact ⟨rfl, rfl⟩
  | ok sql =>
    rw [Catalog.step, hrender]
    by_cases hinsert : s.kind = .insert
    · have hname : PlainName s.target.toList :=
        ⟨Statement.target_ne_nil_of_render hrender h.changes, h.chars⟩
      have hexecute : s.execute client = (do
          StatementError.ofStore (client.insert s.target [s.row.map (·.2)] (s.row.map (·.1)))
          return .inserted) := by
        rw [Statement.execute, hrender, hinsert]
      have hchange : s.change?.bind (m.catalog.change s.target)
          = m.catalog.change s.target (.append (.ofList s.row)) := by
        rw [Statement.change?, hinsert]
        rfl
      change m.Does (s.change?.bind (m.catalog.change s.target)) _
      rw [hchange]
      refine Does.of_call hexecute ?_ (m.does_insert hname s.row)
      rw [client, perform_insert]
      simp only [id_eq]
    · have hexecute : s.execute client = (do
          StatementError.ofStore (client.write sql)
          return .written) := by
        rw [Statement.execute, hrender]
        cases hkind : s.kind with
        | insert => exact absurd hkind hinsert
        | select => exact absurd hkind h.changes
        | _ => rfl
      refine Does.of_call hexecute ?_ (m.does_write h hinsert hrender)
      rw [client, perform_write]
      simp only [id_eq]

/-- Whatever changes a store in memory is given the texts of, in any order and from whatever state,
it does what a catalog does: each of them is carried out exactly if the catalog takes it, and the
objects are then as in the catalog; a change that fails leaves all objects and rows. -/
theorem runAll_eq_run (m : Memory) {ss : List Statement} (h : ∀ s ∈ ss, s.IsChange) :
    m.runAll ss = m.catalog.run ss := by
  induction ss generalizing m with
  | nil => rfl
  | cons s ss ih =>
    obtain ⟨hs, hss⟩ := List.forall_mem_cons.1 h
    have hdoes := m.does_execute hs
    rw [runAll, Catalog.run]
    generalize perform (s.execute client) m = r at hdoes
    obtain ⟨outcome, m'⟩ := r
    cases hstep : m.catalog.step s with
    | some c =>
      rw [hstep] at hdoes
      obtain ⟨hok, rfl⟩ := hdoes
      simp only [ih m' hss, hok]
    | none =>
      rw [hstep] at hdoes
      obtain ⟨hok, hobjects⟩ := hdoes
      have hcatalog := catalog_of_objects hobjects
      simp only [ih m' hss, hok, hcatalog]

/-- A view of the name of a table is refused, and what has the name is dropped either way. -/
example : (Memory.empty.runAll [
    .ofSteps [.createTable "IF" {}, .addColumn "a" .string .none, .engine .mergeTree],
    .ofSteps [.createMaterializedView "IF" "t" {}, .source "t"], .ofSteps [.dropView "IF" {}],
    .ofSteps [.delete "IF"]]).map (·.1) = [true, false, true, false] := by
  decide +kernel

/-- Objects named by words of the language: a table, created twice and filled, a view of that name,
which is refused, a dictionary without columns, and drops with and without their clause. -/
theorem runAll_eq_run_keywords :
    let table : List Statement.Step := [.addColumn "a" .string .none, .engine .mergeTree]
    let ss : List Statement := [
      .ofSteps (.createTable "IF" {} :: table),
      .ofSteps (.createTable "IF" { ifNotExists := true } :: table),
      .ofSteps [.insert "IF" [("a", .string "NOT EXISTS"), ("a", .null)]],
      .ofSteps [.createMaterializedView "IF" "VIEW" {}, .source "IF"],
      .ofSteps [.createMaterializedView "VIEW" "NOT" { ifNotExists := true }, .source "IF"],
      .ofSteps [.createDictionary "EXISTS"], .ofSteps [.dropDictionary "EXISTS"],
      .ofSteps [.delete "IF"], .ofSteps [.dropView "IF" {}],
      .ofSteps [.dropTable "IF" { ifExists := true }]]
    (∀ s ∈ ss, s.IsChange) ∧ Memory.empty.runAll ss = Memory.empty.catalog.run ss := by
  intro table ss
  have h : ∀ s ∈ ss, s.IsChange := by
    decide +kernel
  exact ⟨h, runAll_eq_run Memory.empty h⟩

end Colonnade.Store.Memory
