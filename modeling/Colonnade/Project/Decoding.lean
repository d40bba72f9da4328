import Colonnade.Project.Config
import Colonnade.Yaml.Decoding
import Colonnade.Yaml.Reading

/-!
# Reading configurations

A record has no other fields than its own, each at most once; it may also be written as the list of
its fields in their order, or left blank. Texts are taken as they are written, whatever they spell.
-/

namespace Colonnade.Project

open Yaml

/-- The fields of a record. -/
abbrev Fields := List (String × Node)

/-- Adds a field to those of a record. -/
def addField? (names : List String) (fields : Fields) (entry : Node × Node) : Option Fields := do
  let name ← entry.1.text?
  if names.contains name && (fields.lookup name).isNone then return (name, entry.2) :: fields
  else none

/-- The fields of a record. -/
def fields? (names : List String) (n : Node) : Option Fields :=
  match n with
  | .map _ entries => entries.foldlM (addField? names) []
  | .list _ items => if items.length ≤ names.length then some (names.zip items) else none
  | n => if n.isBlank then some [] else none

/-- What a field says, or what it says if it is not given. -/
def fieldOr? {α : Type} (fields : Fields) (name : String) (default : α) (read? : Node → Option α) :
    Option α :=
  match fields.lookup name with
  | some n => read? n
  | none => some default

/-- A map from names. Of two entries with one name the later one counts. -/
def named? {α : Type} (read? : Node → Option α) (n : Node) : Option (NameMap α) :=
  match n with
  | .map _ entries =>
    entries.foldlM (fun m e => do return m.insert (← e.1.text?) (← read? e.2)) NameMap.empty
  | n => if n.isBlank then some .empty else none

/-- A connection. -/
def Connection.ofNode? (n : Node) : Option Connection := do
  let fields ← fields? ["url", "database", "user", "password"] n
  let standard : Connection := {}
  return {
    url := ← fieldOr? fields "url" standard.url Node.text?
    database := ← fieldOr? fields "database" standard.database Node.text?
    user := ← fieldOr? fields "user" standard.user Node.text?
    password := ← fieldOr? fields "password" standard.password Node.text? }

/-- A connection that may be missing. -/
def optionalConnection? (n : Node) : Option (Option Connection) := do
  if ← n.isNull? then return none else return some (← Connection.ofNode? n)

/-- A target. -/
def Target.ofNode? (n : Node) : Option Target := do
  let fields ← fields? ["connection", "vars"] n
  return {
    connection := ← fieldOr? fields "connection" none optionalConnection?
    vars := ← fieldOr? fields "vars" .empty (named? Node.value?) }

/-- A configuration. -/
def Config.ofNode? (n : Node) : Option Config := do
  let fields ← fields? ["name", "migration_path", "connection", "vars", "targets"] n
  return {
    name := ← (← fields.lookup "name").text?
    migrationPath := ← fieldOr? fields "migration_path" "migrations" Node.text?
    connection := ← fieldOr? fields "connection" {} Connection.ofNode?
    vars := ← fieldOr? fields "vars" .empty (named? Node.value?)
    targets := ← fieldOr? fields "targets" .empty (named? Target.ofNode?) }

/-- The configuration that a text spells, if nothing is wrong with it. -/
def Config.ofText (text : String) : Except ConfigError Config :=
  match readDocument? text >>= Config.ofNode? with
  | none => .error .malformed
  | some c =>
    match c.fault? with
    | some fault => .error (.invalid fault)
    | none => .ok c

end Colonnade.Project
