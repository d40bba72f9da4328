import Colonnade.Sql.Placeholder
import Colonnade.Store.Client
import Colonnade.Store.Order

/-!
# A store in memory

Objects with their rows, a log of the statements received, and results waiting to answer selects
that the objects cannot answer. A statement is understood by its shape (`Store.Shape`).
-/

namespace Colonnade.Store

/-- An object of the store. -/
structure StoredObject where
  kind : ObjectKind
  /-- The statement that created it. -/
  createSql : String
  rows : List Row
deriving DecidableEq

/-- The state of a store in memory. -/
structure Memory where
  objects : NameMap StoredObject
  /-- The statements received, first to last, after binding. -/
  executed : List String
  /-- Results for selects that cannot be answered otherwise, next one first. -/
  queued : List SelectResult

namespace Memory

/-- The store without objects. -/
def empty : Memory := ⟨.empty, [], []⟩

instance : Inhabited Memory := ⟨empty⟩

/-- The text of a statement without white space and semicolons around it. -/
def normalSql (sql : String) : String :=
  .ofList (Text.trimChars (Text.trimRightOf ';' (Text.trimChars sql.toList)))

/-- The bare name of an object: unquoted, and without the part before the last dot. -/
def bareName (name : List Char) : String :=
  .ofList (Text.afterLast '.' ((Text.trimChars name).filter (· != nameQuote)))

/-- The refusal of a statement whose shape is not understood. -/
def refused (sql : String) : StoreError := .unsupported "memory" sql

/-- Adds a statement to the log. -/
def log (s : Memory) (sql : String) : Memory := { s with executed := s.executed ++ [sql] }

/-- Replaces the rows of an object. -/
def setRows (s : Memory) (name : String) (rows : List Row) : Memory :=
  { s with objects := s.objects.modify name fun o => { o with rows } }

/-! ## Statements that change the store -/

/-- Creates an object, unless one of its name exists. -/
def create (s : Memory) (sql : String) (shape : CreateShape) : Except StoreError Unit × Memory :=
  let name := bareName shape.name
  if s.objects.contains name then
    if shape.ifNotExists then (.ok (), s)
    else (.error (.execution (name ++ " already exists: " ++ sql)), s)
  else (.ok (), { s with objects := s.objects.insert name ⟨shape.kind, sql, []⟩ })

/-- Drops an object. -/
def drop (s : Memory) (shape : DropShape) : Except StoreError Unit × Memory :=
  let name := bareName shape.name
  if s.objects.contains name || shape.ifExists then
    (.ok (), { s with objects := s.objects.erase name })
  else (.error (.tableNotFound name), s)

/-- The rows that a filter keeps out of a deletion. -/
def survivors (filter : Option (String × Value)) (rows : List Row) : List Row :=
  match filter with
  | none => []
  | some (column, value) => rows.filter fun row => !matchesCell column value row

/-- The filter of an optional predicate, if it is understood. -/
def filterOf (sql : String) :
    Option (List Char) → Except StoreError (Option (String × Value))
  | none => .ok none
  | some predicate =>
    match equality? (Text.trimChars predicate) with
    | some filter => .ok (some filter)
    | none => .error (refused sql)

/-- Deletes rows of an object. -/
def delete (s : Memory) (sql : String) (shape : DeleteShape) : Except StoreError Unit × Memory :=
  let name := bareName shape.name
  match filterOf sql shape.predicate with
  | .error e => (.error e, s)
  | .ok filter =>
    match s.objects.get? name with
    | none => (.error (.tableNotFound name), s)
    | some o => (.ok (), s.setRows name (survivors filter o.rows))

/-- Applies a statement by its shape. -/
def apply (s : Memory) (sql : String) : Except StoreError Unit × Memory :=
  match createShape? sql.toList with
  | some shape => s.create sql shape
  | none =>
    match dropShape? sql.toList with
    | some shape => s.drop shape
    | none =>
      match deleteShape? sql.toList with
      | some shape => s.delete sql shape
      | none => (.error (refused sql), s)

/-- Receives a statement that returns no rows. -/
def write (s : Memory) (sql : String) : Except StoreError Unit × Memory :=
  (s.log (normalSql sql)).apply (normalSql sql)

/-! ## Selects -/

/-- The cells of a row under their aliases, missing ones as `null`. -/
def projectRow (columns : List (String × String)) (row : Row) : Row :=
  .ofList (columns.map fun (column, name) => (name, (row.get? column).getD .null))

/-- The rows in the order of the keys, the page cut out, every row projected. -/
def page (rows : List Row) (tail : SelectTail) : List Row :=
  let sorted :=
    match tail.order with
    | some order => sortBy (compareRows (sortKeys order)) rows
    | none => rows
  let rest := sorted.drop ((tail.offset.bind rowCount?).getD 0)
  match tail.limit.bind rowCount? with
  | some limit => rest.take limit
  | none => rest

/-- The answer to a select from the stored rows. -/
def answer (s : Memory) (sql : String) : Except StoreError SelectResult :=
  match selectShape? sql.toList with
  | none => .error (refused sql)
  | some shape =>
    let name := bareName shape.table
    match s.objects.get? name with
    | none => .error (.tableNotFound name)
    | some o =>
      match filterOf sql shape.tail.predicate with
      | .error e => .error e
      | .ok filter =>
        let rows :=
          match filter with
          | some (column, value) => o.rows.filter (matchesCell column value)
          | none => o.rows
        let result := page rows shape.tail
        let projection := Text.trimChars shape.projection
        if projection = ['*'] then .ok ⟨result, rows.length⟩
        else
          match projection? projection with
          | some columns => .ok ⟨result.map (projectRow columns), rows.length⟩
          | none => .error (refused sql)

/-- Receives a query. One that the stored rows do not answer takes the next queued result. -/
def select (s : Memory) (sql : String) (params : Params) :
    Except StoreError SelectResult × Memory :=
  let sql := normalSql (Sql.bind sql params)
  let s := s.log sql
  match s.answer sql, s.queued with
  | .ok result, _ => (.ok result, s)
  | .error _, next :: queued => (.ok next, { s with queued })
  | .error e, [] => (.error e, s)

/-! ## Inserting and looking -/

/-- Appends rows until one has the wrong number of cells. -/
def appendRows (name : String) (columns : List String) (rows : List Row) :
    List (List Value) → Except StoreError Unit × List Row
  | [] => (.ok (), rows)
  | cells :: rest =>
    if cells.length = columns.length then
      appendRows name columns (rows ++ [.ofList (columns.zip cells)]) rest
    else
      (.error (.execution ("insert into " ++ name ++ ": expected " ++ toString columns.length
        ++ " values, got " ++ toString cells.length)), rows)

/-- Appends rows to a table. -/
def insert (s : Memory) (table : String) (rows : List (List Value)) (columns : List String) :
    Except StoreError Unit × Memory :=
  let name := bareName table.toList
  let s := s.log ("INSERT INTO " ++ name ++ " (" ++ ", ".intercalate columns ++ ")")
  match s.objects.get? name with
  | none => (.error (.tableNotFound name), s)
  | some o =>
    let (outcome, rows) := appendRows name columns o.rows rows
    (outcome, s.setRows name rows)

/-- The statement that created an object, or the empty text. -/
def showCreate (s : Memory) (name : String) : String :=
  ((s.objects.get? (bareName name.toList)).map (·.createSql)).getD ""

/-- The names of all objects. -/
def showTables (s : Memory) : List String := s.objects.names

/-- The rows of an object. -/
def rowsOf (s : Memory) (table : String) : Except StoreError (List Row) :=
  match s.objects.get? (bareName table.toList) with
  | some o => .ok o.rows
  | none => .error (.tableNotFound table)

/-- The kind of an object. -/
def kindOf? (s : Memory) (name : String) : Option ObjectKind :=
  (s.objects.get? (bareName name.toList)).map (·.kind)

/-- Queues a result for a select that cannot be answered otherwise. -/
def push (s : Memory) (result : SelectResult) : Memory :=
  { s with queued := s.queued ++ [result] }

/-- The client of a store in memory that is part of a larger state. -/
def clientOf {σ : Type} (read : σ → Memory) (update : Memory → σ → σ) : Client (StateM σ) where
  write sql := fun s => let (r, m) := (read s).write sql; (r, update m s)
  select sql params := fun s => let (r, m) := (read s).select sql params; (r, update m s)
  insert table rows columns := fun s =>
    let (r, m) := (read s).insert table rows columns; (r, update m s)
  showCreate name := fun s => (.ok ((read s).showCreate name), s)
  showTables := fun s => (.ok (read s).showTables, s)
  kind := "memory"

/-- The client of a store in memory. -/
def client : Client (StateM Memory) := clientOf id fun m _ => m

end Memory

end Colonnade.Store
