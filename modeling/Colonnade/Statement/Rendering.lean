import Colonnade.Sql.Literal
import Colonnade.Statement.Basic

/-!
# The text of a statement

Each kind of statement has its own text and its own needs: a table needs an engine and columns, a
dictionary needs a source and a key, a select needs a table.
-/

namespace Colonnade.Statement

/-- The clause that makes creating an existing object harmless. -/
def ifNotExistsText (s : Statement) : String := if s.flags.ifNotExists then "IF NOT EXISTS " else ""

/-- The clause that makes dropping a missing object harmless. -/
def ifExistsText (s : Statement) : String := if s.flags.ifExists then "IF EXISTS " else ""

/-- The definitions of the columns; there must be one. -/
def columnList (s : Statement) : Except StatementError String :=
  if s.columns.isEmpty then
    .error (.configuration ("No columns defined for '" ++ s.target ++ "'"))
  else .ok (", ".intercalate (s.columns.map Column.definition))

/-- A keyword and a part, or nothing for an empty part. -/
def clause (keyword part : String) : String := if part.isEmpty then "" else keyword ++ part

/-- A definition of a table. -/
def renderCreateTable (s : Statement) : Except StatementError String :=
  match s.engine with
  | none => .error (.configuration ("Engine is not set for table '" ++ s.target ++ "'"))
  | some e => do
    let columns ← s.columnList
    let dsn ← e.dsn
    let settings := if e.family.allowsSettings then e.settingsText else ""
    return "CREATE TABLE " ++ s.ifNotExistsText ++ s.target ++ " (" ++ columns ++ ") ENGINE = "
      ++ dsn ++ clause " SETTINGS " settings ++ clause " ORDER BY " s.order

/-- A definition of a dictionary. -/
def renderCreateDictionary (s : Statement) : Except StatementError String :=
  match s.dictionarySource with
  | none =>
    .error (.configuration ("Dictionary source is not set for dictionary '" ++ s.target ++ "'"))
  | some source =>
    if s.primaryKey.isEmpty then
      .error (.configuration ("Primary key is not set for dictionary '" ++ s.target ++ "'"))
    else do
      let columns ← s.columnList
      let sourceText ← source.text
      return "CREATE DICTIONARY " ++ s.target ++ " (" ++ columns ++ ") PRIMARY KEY "
        ++ s.primaryKey ++ " SOURCE(" ++ sourceText ++ ") LAYOUT(" ++ source.layout
        ++ ") LIFETIME(" ++ toString source.lifetime.toNat ++ ")"

/-- An item of a select list. -/
def itemText : SelectItem → String
  | .all => "*"
  | .aliased name source => source ++ " AS " ++ name

/-- The select list; without items everything is selected. -/
def selectList (s : Statement) : String :=
  if s.selected.isEmpty then "*" else ", ".intercalate (s.selected.map itemText)

/-- A keyword and a number, or nothing. -/
def numberClause (keyword : String) : Option UInt64 → String
  | none => ""
  | some n => keyword ++ toString n.toNat

/-- A query. -/
def renderSelect (s : Statement) : Except StatementError String :=
  if s.source.isEmpty then .error (.configuration "Select has no FROM table")
  else
    .ok ("SELECT " ++ s.selectList ++ " FROM " ++ s.source ++ clause " WHERE " s.predicate
      ++ clause " ORDER BY " s.order ++ numberClause " LIMIT " s.limit
      ++ numberClause " OFFSET " s.offset)

/-- An insert of one row; it needs a cell. -/
def renderInsert (s : Statement) : Except StatementError String :=
  if s.row.isEmpty then
    .error (.configuration ("Insert into '" ++ s.target ++ "' has no values"))
  else
    .ok ("INSERT INTO " ++ s.target ++ " (" ++ ", ".intercalate (s.row.map (·.1)) ++ ") VALUES ("
      ++ ", ".intercalate (s.row.map fun cell => Sql.literal cell.2) ++ ")")

/-- The text of a statement. All kinds but a select need a target. -/
def render (s : Statement) : Except StatementError String :=
  if s.kind ≠ .select ∧ s.target.isEmpty then
    .error (.configuration (s.kind.name ++ " statement has no target name"))
  else
    match s.kind with
    | .createTable => s.renderCreateTable
    | .createDictionary => s.renderCreateDictionary
    | .createMaterializedView => do
      let query ← s.renderSelect
      return "CREATE MATERIALIZED VIEW " ++ s.ifNotExistsText ++ s.target ++ " TO "
        ++ s.viewTarget ++ " AS " ++ query
    | .dropTable => .ok ("DROP TABLE " ++ s.ifExistsText ++ s.target)
    | .dropView => .ok ("DROP VIEW " ++ s.ifExistsText ++ s.target)
    | .dropDictionary => .ok ("DROP DICTIONARY " ++ s.target)
    | .delete => .ok ("ALTER TABLE " ++ s.target ++ " DELETE" ++ clause " WHERE " s.predicate)
    | .insert => s.renderInsert
    | .select => s.renderSelect

end Colonnade.Statement
