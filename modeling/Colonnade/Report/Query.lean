import Colonnade.Report.Condition
import Colonnade.Text.Cut
import Colonnade.Text.Space

/-!
# Report queries

A report adds fragments as it looks at the requested columns and the active filters. Fragments are
kept as given and each counts once, at its first place, so that a fragment which several columns
need may be added by each of them.
-/

namespace Colonnade.Report

/-- The fragments of a report query. -/
structure Query where
  source : String := ""
  selects : List String := []
  joins : List String := []
  predicates : List String := []
  groups : List String := []
  groupExclusions : List String := []
  havings : List String := []
  sorts : List String := []
  parameters : Params := .empty
  limit : Nat := 0
  offset : Nat := 0
  /-- How many filters were compiled. -/
  compiled : Nat := 0

/-! ## Aliases -/

/-- The text after an alias mark, ` as ` in any case, at the start. -/
def afterAliasMark? : List Char → Option (List Char)
  | ' ' :: a :: s :: ' ' :: rest => if a.toLower = 'a' ∧ s.toLower = 's' then some rest else none
  | _ => none

/-- A select entry cut at its last alias mark. -/
def cutAlias? : List Char → Option (List Char × List Char)
  | [] => none
  | c :: cs =>
    match cutAlias? cs with
    | some (before, after) => some (c :: before, after)
    | none => (afterAliasMark? (c :: cs)).map fun rest => ([], rest)

/-- The expression and the alias of a select entry. -/
def splitAlias? (entry : String) : Option (String × String) :=
  (cutAlias? entry.toList).map fun (before, after) =>
    (.ofList (Text.trimChars before), .ofList (Text.trimChars after))

namespace Query

/-- A query without fragments. -/
def empty : Query := {}

instance : Inhabited Query := ⟨empty⟩

/-! ## Adding fragments -/

/-- The alias that an aggregate gives, which is then no group. -/
def aggregateAlias (entry : String) : List String :=
  match splitAlias? entry with
  | some (_, name) => [name]
  | none => []

/-- Compiles a filter under the next seed. -/
def compile (q : Query) (column : String) (f : FilterField) (like : Bool) : Condition × Query :=
  let compiled := q.compiled + 1
  (Report.compile column f like (seedOf f.id compiled), { q with compiled })

/-- A fragment given to a query, as data. -/
inductive Step where
  | source (text : String)
  | select (text : String)
  | aggregate (text : String)
  | join (text : String)
  | predicate (text : String)
  | group (text : String)
  | groupExclusion (name : String)
  | having (text : String)
  | sort (text : String)
  | sortList (texts : List String)
  | parameters (params : Params)
  | limit (n : Nat)
  | offset (n : Nat)
  /-- Adds the comparisons of a filter to the predicates. -/
  | filterPredicate (column : String) (f : FilterField) (like : Bool)
  /-- Adds the comparisons of a filter to the conditions on groups. -/
  | filterHaving (column : String) (f : FilterField) (like : Bool)
  /-- Compiles a filter and adds nothing. -/
  | compile (column : String) (f : FilterField) (like : Bool)

/-- The query with one more fragment. -/
def step (q : Query) : Step → Query
  | .source text => { q with source := text }
  | .select text => { q with selects := q.selects ++ [text] }
  | .aggregate text =>
    { q with
      groupExclusions := q.groupExclusions ++ aggregateAlias text
      selects := q.selects ++ [text] }
  | .join text => { q with joins := q.joins ++ [text] }
  | .predicate text => { q with predicates := q.predicates ++ [text] }
  | .group text => { q with groups := q.groups ++ [text] }
  | .groupExclusion name => { q with groupExclusions := q.groupExclusions ++ [name] }
  | .having text => { q with havings := q.havings ++ [text] }
  | .sort text => { q with sorts := q.sorts ++ [text] }
  | .sortList texts => { q with sorts := texts }
  | .parameters params => { q with parameters := q.parameters.overwriteWith params }
  | .limit n => { q with limit := n }
  | .offset n => { q with offset := n }
  | .filterPredicate column f like =>
    let (c, q) := q.compile column f like
    { q with
      predicates := q.predicates ++ c.expressions
      parameters := q.parameters.overwriteWith c.placeholders }
  | .filterHaving column f like =>
    let (c, q) := q.compile column f like
    { q with
      havings := q.havings ++ c.expressions
      parameters := q.parameters.overwriteWith c.placeholders }
  | .compile column f like => (q.compile column f like).2

/-- The query of a list of fragments. -/
def ofSteps (steps : List Step) : Query := steps.foldl step empty

/-! ## Rendering -/

/-- Each text once, at its first place. -/
def unique (texts : List String) : List String := texts.eraseDups

/-- The groups with the alias of a select entry that is not grouped yet. -/
def extendGroups (groups : List String) (entry : String) : List String :=
  match splitAlias? entry with
  | some (expression, name) =>
    if groups.contains expression || groups.contains name then groups else groups ++ [name]
  | none => groups

/-- The groups that count: if there is a group at all, every selected alias is one too, except those
excluded. -/
def effectiveGroups (q : Query) : List String :=
  match unique q.groups with
  | [] => []
  | groups => ((unique q.selects).foldl extendGroups groups).filter fun g =>
      !q.groupExclusions.contains g

/-- A clause over the items of a list; none without items. -/
def clause (text : List String → String) : List String → List String
  | [] => []
  | items => [text items]

/-- The clauses of a query in their order. -/
def clauses (q : Query) : List String :=
  ["SELECT " ++ ", ".intercalate (unique q.selects), "FROM " ++ q.source]
  ++ clause (" ".intercalate ·) (unique q.joins)
  ++ clause (fun l => "WHERE " ++ conjunction l) (unique q.predicates)
  ++ clause (fun l => "GROUP BY " ++ ", ".intercalate l) q.effectiveGroups
  ++ clause (fun l => "HAVING " ++ conjunction l) (unique q.havings)
  ++ clause (fun l => "ORDER BY " ++ ", ".intercalate l) (unique q.sorts)
  ++ if q.limit = 0 then [] else ["LIMIT " ++ toString q.limit ++ " OFFSET " ++ toString q.offset]

/-- The text of a query. Without a source or a select entry it selects nothing. -/
def text (q : Query) : String :=
  if q.source = "" ∨ q.selects = [] then "SELECT NULL" else " ".intercalate q.clauses

end Query

end Colonnade.Report
