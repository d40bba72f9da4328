import Colonnade.Statement.Column
import Colonnade.Statement.Dictionary
import Colonnade.Statement.Engine

/-!
# Statements under construction

A statement collects the parts of one definition, change or query. The call that starts a kind of
statement decides which parts count when it is rendered (`Statement.Rendering`).
-/

namespace Colonnade

/-- The kinds of statements. -/
inductive StatementKind where
  | createTable
  | createDictionary
  | createMaterializedView
  | select
  | dropTable
  | dropView
  | dropDictionary
  | insert
  | delete
deriving DecidableEq, Repr, Inhabited

/-- The name of a kind. -/
def StatementKind.name : StatementKind → String
  | .createTable => "CreateTable"
  | .createDictionary => "CreateDictionary"
  | .createMaterializedView => "CreateMaterializedView"
  | .select => "Select"
  | .dropTable => "DropTable"
  | .dropView => "DropView"
  | .dropDictionary => "DropDictionary"
  | .insert => "Insert"
  | .delete => "Delete"

/-- An item of a select list. -/
inductive SelectItem where
  | all
  | aliased (name source : String)
deriving DecidableEq, Repr

/-- The parts of a statement. -/
structure Statement where
  kind : StatementKind := .select
  flags : Flags := {}
  /-- The object the statement is about; a select has `source` instead. -/
  target : String := ""
  /-- The table a materialized view writes into. -/
  viewTarget : String := ""
  columns : List Column := []
  selected : List SelectItem := []
  /-- The table of the select. -/
  source : String := ""
  predicate : String := ""
  order : String := ""
  limit : Option UInt64 := none
  offset : Option UInt64 := none
  primaryKey : String := ""
  engine : Option Engine := none
  dictionarySource : Option DictionarySource := none
  bindings : Params := .empty
  /-- The row of an insert. -/
  row : List (String × Value) := []

namespace Statement

/-- A select without any part. -/
def empty : Statement := {}

instance : Inhabited Statement := ⟨empty⟩

/-- The columns with one put in: in the place of the first column of its name, or at the end. -/
def upsertColumn (column : Column) : List Column → List Column
  | [] => [column]
  | c :: cs => if c.name = column.name then column :: cs else c :: upsertColumn column cs

/-- A part given to a statement, as data. -/
inductive Step where
  | addColumn (name : String) (type : ColumnType) (flags : Flags)
  | createTable (name : String) (flags : Flags)
  | createDictionary (name : String)
  | createMaterializedView (name target : String) (flags : Flags)
  | dropTable (name : String) (flags : Flags)
  | dropView (name : String) (flags : Flags)
  | dropDictionary (name : String)
  | insert (table : String) (row : List (String × Value))
  | delete (table : String)
  | source (table : String)
  | predicate (text : String)
  | order (text : String)
  | limit (n : UInt64)
  | offset (n : UInt64)
  | select (items : List (String × String))
  | selectAll
  | bindings (params : Params)
  | engine (e : Engine)
  | primaryKey (column : String)
  | dictionarySource (s : DictionarySource)

namespace Step

/-! ### Columns by their types -/

/-- A column of dates with times. -/
def addDateTime (name : String) (flags : Flags) (size : UInt8) : Step :=
  .addColumn name (.dateTime size) flags

def addUuid (name : String) (flags : Flags) : Step := .addColumn name .uuid flags

def addString (name : String) (flags : Flags) : Step := .addColumn name .string flags

def addDecimal (name : String) (flags : Flags) (precision scale : UInt8) : Step :=
  .addColumn name (.decimal precision scale) flags

/-- A column of labels, which keep their order. -/
def addEnumeration (name : String) (values : List (String × Int64)) (flags : Flags)
    (size : UInt8) : Step :=
  .addColumn name (.enumeration size values) flags

def addSigned (name : String) (flags : Flags) (size : UInt8) : Step :=
  .addColumn name (.signed size) flags

def addUnsigned (name : String) (flags : Flags) (size : UInt8) : Step :=
  .addColumn name (.unsigned size) flags

end Step

/-- Starts a kind of statement. -/
def start (s : Statement) (kind : StatementKind) (target : String) (flags : Flags) : Statement :=
  { s with kind, target, flags }

/-- The statement with one more part. -/
def step (s : Statement) : Step → Statement
  | .addColumn name type flags => { s with columns := upsertColumn ⟨name, type, flags⟩ s.columns }
  | .createTable name flags => s.start .createTable name flags
  | .createDictionary name => s.start .createDictionary name .none
  | .createMaterializedView name target flags =>
    { s with viewTarget := target }.start .createMaterializedView name flags
  | .dropTable name flags => s.start .dropTable name flags
  | .dropView name flags => s.start .dropView name flags
  | .dropDictionary name => s.start .dropDictionary name .none
  | .insert table row => { s with row }.start .insert table .none
  | .delete table => s.start .delete table .none
  | .source table => { s with source := table }
  | .predicate text => { s with predicate := text }
  | .order text => { s with order := text }
  | .limit n => { s with limit := some n }
  | .offset n => { s with offset := some n }
  | .select items => { s with selected := items.map fun (name, source) => .aliased name source }
  | .selectAll => { s with selected := [.all] }
  | .bindings params => { s with bindings := params }
  | .engine e => { s with engine := some e }
  | .primaryKey column => { s with primaryKey := column }
  | .dictionarySource source => { s with dictionarySource := some source }

/-- The statement of a list of parts. -/
def ofSteps (steps : List Step) : Statement := steps.foldl step empty

end Statement

end Colonnade
