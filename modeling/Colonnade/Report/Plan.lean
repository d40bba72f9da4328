import Colonnade.Report.Registry

/-!
# Reports as data

A plan lists the fragments of a report and says for which requests each is needed.
-/

namespace Colonnade.Report

/-- When a fragment is needed. -/
inductive Need where
  | shown (column : String)
  | sorted (column : String)
  | filtered (filter : String)
deriving DecidableEq, Repr

/-- What a plan does. -/
inductive PlanAction where
  | step (s : Query.Step)
  /-- Filters rows by a filter of the request. -/
  | filterPredicate (filter column : String) (like : Bool)
  /-- Filters groups by a filter of the request. -/
  | filterHaving (filter column : String) (like : Bool)
  /-- Sorts and cuts out the page that is asked for. -/
  | paginate
  /-- Refuses the request. -/
  | fail (detail : String)

/-- An action with its needs; an action without needs is always carried out, another one if some of
its needs holds. -/
structure PlanStep where
  needs : List Need
  action : PlanAction

namespace Need

/-- Whether a need holds for a request. -/
def holds (c : Columns) (r : Request) : Need → Bool
  | shown column => c.isShown column r
  | sorted column => c.isSorted column r
  | filtered filter => FilterField.isGiven (r.filter? filter)

end Need

/-- Carries out an action. -/
def PlanAction.apply (c : Columns) (r : Request) (q : Query) : PlanAction → Except ReportError Query
  | step s => .ok (q.step s)
  | filterPredicate filter column like =>
    match r.filter? filter with
    | some f => .ok (q.step (.filterPredicate column f like))
    | none => .ok q
  | filterHaving filter column like =>
    match r.filter? filter with
    | some f => .ok (q.step (.filterHaving column f like))
    | none => .ok q
  | paginate => do
    let page ← Columns.page r.pagination
    return ((q.step (.sortList (c.sortList r))).step (.limit page.limit)).step (.offset page.offset)
  | fail detail => .error (.filter detail)

/-- Carries out a step if it is needed. -/
def PlanStep.apply (c : Columns) (r : Request) (q : Query) (s : PlanStep) :
    Except ReportError Query :=
  if s.needs = [] ∨ s.needs.any (·.holds c r) then s.action.apply c r q else .ok q

/-- The report of a plan. -/
def Definition.ofPlan (name : String) (columns : Columns) (steps : List PlanStep) : Definition where
  name
  columns
  prepare r := steps.foldlM (PlanStep.apply columns r) .empty

end Colonnade.Report
