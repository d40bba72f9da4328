import Colonnade.Http.Answer
import Colonnade.Sql.Literal
import Colonnade.Sql.Placeholder
import Colonnade.Store.Client

/-!
# A store behind a network

The client posts every statement and reads the answer. What the network does is a parameter.
-/

namespace Colonnade.Http

open Project

/-- Posts a request; it may be lost, for a reason. -/
abbrev Network (m : Type → Type) := Request → ExceptT String m Response

/-- A network on which nothing is reached. -/
def unreachable {m : Type → Type} [Monad m] : Network m := fun _ => throw "not reached"

/-- The rows of an insert: each in parentheses, with commas between cells and between rows. -/
def rowsText (rows : List (List Value)) : String :=
  ", ".intercalate (rows.map fun row => "(" ++ ", ".intercalate (row.map Sql.bracketed) ++ ")")

/-- The statement that inserts rows. -/
def insertText (table : String) (rows : List (List Value)) (columns : List String) : String :=
  "INSERT INTO " ++ table ++ " (" ++ ", ".intercalate columns ++ ") VALUES " ++ rowsText rows

/-- The names in an answer, one in a line. -/
def namesOf (body : String) : List String :=
  let lines := (Text.piecesOf '\n' body).map Text.trim
  (NameMap.ofList ((lines.filter (· ≠ "")).map fun name => (name, ()))).names

variable {m : Type → Type} [Monad m]

/-- Posts a statement; the text of the answer. -/
def post (c : Connection) (network : Network m) (sql : String) : ExceptT StoreError m String :=
  ExceptT.mk do
    match Request.of? c sql with
    | none => return .error (.connection (c.url ++ ": the request cannot be built"))
    | some request =>
      match ← (network request).run with
      | .error detail => return .error (.connection (c.url ++ ": " ++ detail))
      | .ok response =>
        if response.isSuccess then return .ok response.text
        else return .error (errorOf response.text sql)

/-- The rows of a query. -/
def select (c : Connection) (network : Network m) (sql : String) (params : Params) :
    ExceptT StoreError m SelectResult := do
  let body ← post c network (Sql.bind sql params ++ " FORMAT JSON")
  match resultOf? body with
  | some r => return r
  | none => throw (.response "the answer is not a table")

/-- Inserts rows. Without rows nothing is posted. -/
def insert (c : Connection) (network : Network m) (table : String) (rows : List (List Value))
    (columns : List String) : ExceptT StoreError m Unit := do
  if !rows.isEmpty then
    let _ ← post c network (insertText table rows columns)

/-- The statement that created an object, or nothing if the store does not know it. -/
def showCreate (c : Connection) (network : Network m) (name : String) :
    ExceptT StoreError m String :=
  ExceptT.mk do
    match ← (post c network ("SHOW CREATE TABLE " ++ name ++ " FORMAT TabSeparatedRaw")).run with
    | .ok body => return .ok (Text.trim body)
    | .error (.tableNotFound _) => return .ok ""
    | .error e => return .error e

/-- The client of a store behind a network. -/
def client (c : Connection) (network : Network m) : Client m where
  write sql := do
    let _ ← post c network sql
  select := select c network
  insert := insert c network
  showCreate := showCreate c network
  showTables := return namesOf (← post c network "SHOW TABLES FORMAT TabSeparatedRaw")
  kind := "clickhouse-http"

end Colonnade.Http
