import Colonnade.Proofs.BindingTheorems
import Colonnade.Proofs.SelectParts
import Colonnade.Proofs.SortTheorems
import Colonnade.Statement.Rendering

/-!
# Selections

A selection says what is asked of one table: which rows, in which order, which page of them and
which of their cells. What is asked for is said in the words of lists (`Selection.result`): filter,
sort stably, drop, take, project. It knows nothing of the text of a select.

A statement may ask for a selection (`Selection.AskedBy`). Its text is then fixed up to the white
space that names cannot contain, so it is written here twice as a `SelectShape`: once with the
placeholder, as the statement is rendered (`exists_render`), and once with the operand in its
place, as the store receives it (`bindChars_template`). Binding finds the one placeholder because
no other part has a quote or a colon.
-/

namespace Colonnade.Store

open Sql (bindChars)
open Text

/-! ## Selections -/

/-- A name that may stand in a select. -/
structure Name where
  text : String
  free : FreeName text.toList

/-- A cell of the result and the column it is taken from. -/
structure CellItem where
  name : Name
  source : Name

/-- A sort key of a selection. -/
structure OrderItem where
  column : Name
  direction : Option Direction

/-- A column compared with the value of a parameter. -/
structure Condition where
  column : Name
  parameter : String
  operand : Operand
  readable : (Sql.Token.placeholder parameter.toList).Readable
  unspaced : operand.Unspaced

/-- What is asked of a table. -/
structure Selection where
  table : Name
  /-- The cells of the result; without any, whole rows. -/
  items : List CellItem
  condition : Option Condition
  order : List OrderItem
  limit : Option UInt64
  offset : Option UInt64

namespace Selection

variable (q : Selection)

/-- Whether a row is asked for: its cell is there and equals the operand. -/
def keeps (row : Row) : Bool :=
  match q.condition with
  | some c => matchesCell c.column.text c.operand.value row
  | none => true

/-- The keys that the rows are sorted by. -/
def keys : List SortKey :=
  q.order.map fun item => ⟨item.column.text, item.direction = some .down⟩

/-- The part of a list of rows that is asked for. -/
def page (rows : List Row) : List Row :=
  let rest := rows.drop (q.offset.elim 0 UInt64.toNat)
  q.limit.elim rest fun n => rest.take n.toNat

/-- The cells of a row that are asked for; those that are missing are `null`. -/
def project (row : Row) : Row :=
  if q.items.isEmpty then row
  else .ofList (q.items.map fun item => (item.name.text, (row.get? item.source.text).getD .null))

/-- The result of a selection on the rows of its table: of the rows that are asked for, sorted
stably, a page is cut out and projected; the total counts them before the page is cut. -/
def result (rows : List Row) : SelectResult :=
  let kept := rows.filter q.keeps
  ⟨(q.page (kept.mergeSort (mayPrecede (rowOrder q.keys)))).map q.project, kept.length⟩

end Selection

/-! ## Statements that ask for a selection -/

/-- The text of a condition. -/
def Condition.text (c : Condition) : String := c.column.text ++ " = :" ++ c.parameter

/-- The text of a sort key. -/
def OrderItem.text (item : OrderItem) : String :=
  match item.direction with
  | none => item.column.text
  | some .up => item.column.text ++ " ASC"
  | some .down => item.column.text ++ " DESC"

/-- A statement whose parts say what a selection asks for. -/
structure Selection.AskedBy (q : Selection) (s : Statement) : Prop where
  kind : s.kind = .select
  source : s.source = q.table.text
  selected : s.selected = q.items.map (fun item => .aliased item.name.text item.source.text) ∨
    q.items = [] ∧ s.selected = [.all]
  predicate : s.predicate = (q.condition.map Condition.text).getD ""
  order : s.order = ", ".intercalate (q.order.map OrderItem.text)
  limit : s.limit = q.limit
  offset : s.offset = q.offset
  bound : ∀ c ∈ q.condition, s.bindings.get? c.parameter = some c.operand.value

/-! ## The text of a selection -/

/-- An item of a select list as it is written. -/
def CellItem.chars (item : CellItem) : List Char :=
  itemChars item.name.text.toList item.source.text.toList

/-- A sort key as it is written. -/
def OrderItem.chars (item : OrderItem) : List Char :=
  keyChars item.column.text.toList item.direction

namespace Selection

variable (q : Selection)

/-- A list with commas; nothing is written of an empty one. -/
def listed (parts : List (List Char)) : Option (List Char) :=
  if parts = [] then none else some ([',', ' '].intercalate parts)

theorem mem_listed {parts : List (List Char)} {p : List Char} :
    p ∈ listed parts ↔ parts ≠ [] ∧ [',', ' '].intercalate parts = p := by
  unfold listed
  split
  · next hempty => simp [hempty]
  · next hne => simp [hne]

theorem listed_of_ne_nil {parts : List (List Char)} (h : parts ≠ []) :
    listed parts = some ([',', ' '].intercalate parts) :=
  mem_listed.2 ⟨h, rfl⟩

/-- The select list as it is written. -/
def projectionChars : List Char :=
  (listed (q.items.map CellItem.chars)).getD ['*']

/-- The order as it is written. -/
def orderChars : Option (List Char) :=
  listed (q.order.map OrderItem.chars)

/-- The select as it is written, with the given text in place of the operand. -/
def shapeWith (operand : Condition → List Char) : SelectShape where
  projection := q.projectionChars
  table := q.table.text.toList
  tail :=
    { predicate := q.condition.map fun c => conditionChars c.column.text.toList (operand c)
      order := q.orderChars
      limit := q.limit.map numberChars
      offset := q.offset.map numberChars }

/-- The select as it is rendered. -/
def template : SelectShape := q.shapeWith fun c => ':' :: c.parameter.toList

/-- The select as it is received. -/
def shape : SelectShape := q.shapeWith fun c => c.operand.chars

/-- The statement as it is received. -/
def sql : String := .ofList q.shape.text

end Selection

theorem toList_clause (keyword part : String) : (Statement.clause keyword part).toList
    = clauseText keyword (if part = "" then none else some part.toList) := by
  unfold Statement.clause
  by_cases h : part = ""
  · subst h
    rfl
  · simp [h, clauseText]

theorem toList_numberClause (keyword : String) (n : Option UInt64) :
    (Statement.numberClause keyword n).toList = clauseText keyword (n.map numberChars) := by
  cases n with
  | none => rfl
  | some n =>
    rw [Statement.numberClause, String.toList_append, Decimal.toList_toString_nat]
    rfl

theorem toList_orderText (item : OrderItem) : item.text.toList = item.chars := by
  unfold OrderItem.text OrderItem.chars keyChars
  cases item.direction with
  | none => rfl
  | some d => cases d <;> exact String.toList_append

theorem toList_intercalate {α : Type} {items : List α} {f : α → String} {g : α → List Char}
    (h : ∀ a ∈ items, (f a).toList = g a) :
    (", ".intercalate (items.map f)).toList = [',', ' '].intercalate (items.map g) := by
  have hmap : items.map (fun a => (f a).toList) = items.map g := List.map_congr_left h
  rw [String.toList_intercalate, List.map_map, ← hmap]
  rfl

theorem intercalate_ne_nil {p : List Char} (h : p ≠ []) (ps : List (List Char)) :
    [',', ' '].intercalate (p :: ps) ≠ [] := by
  cases ps with
  | nil => simpa using h
  | cons q ps =>
    rw [List.intercalate_cons_cons, List.append_assoc]
    exact List.append_ne_nil_of_left_ne_nil h _

namespace Selection

variable {q : Selection} {s : Statement}

theorem toList_selectList (h : q.AskedBy s) : s.selectList.toList = q.projectionChars := by
  have hitem : ∀ item ∈ q.items,
      (Statement.itemText (.aliased item.name.text item.source.text)).toList
        = item.chars := fun item _ => by
    simp [Statement.itemText, CellItem.chars, itemChars]
  unfold Statement.selectList projectionChars
  rcases h.selected with hselected | ⟨hitems, hselected⟩
  · rw [hselected, List.map_map]
    cases hitems : q.items with
    | nil => rfl
    | cons item items =>
      rw [hitems] at hitem
      exact toList_intercalate hitem
  · rw [hselected, hitems]
    rfl

theorem toList_predicate (h : q.AskedBy s) (keyword : String) :
    (Statement.clause keyword s.predicate).toList = clauseText keyword (q.condition.map fun c =>
      conditionChars c.column.text.toList (':' :: c.parameter.toList)) := by
  rw [toList_clause, h.predicate]
  cases q.condition with
  | none => rfl
  | some c =>
    have hchars : c.text.toList
        = conditionChars c.column.text.toList (':' :: c.parameter.toList) := by
      simp [Condition.text, conditionChars]
    have hne : c.text ≠ "" := by
      intro hempty
      rw [hempty, conditionChars] at hchars
      simp at hchars
    simp only [Option.map_some, Option.getD_some, if_neg hne, hchars]

theorem toList_order (h : q.AskedBy s) (keyword : String) :
    (Statement.clause keyword s.order).toList = clauseText keyword q.orderChars := by
  have hchars : s.order.toList = [',', ' '].intercalate (q.order.map OrderItem.chars) := by
    rw [h.order]
    exact toList_intercalate fun item _ => toList_orderText item
  rw [toList_clause, orderChars]
  cases horder : q.order with
  | nil =>
    rw [h.order, horder]
    rfl
  | cons item items =>
    have hitem : item.chars ≠ [] := by
      unfold OrderItem.chars
      cases item.direction with
      | none => exact item.column.free.ne_nil
      | some d => cases d <;> exact List.append_ne_nil_of_left_ne_nil item.column.free.ne_nil _
    have hne : s.order ≠ "" := by
      intro hempty
      rw [hempty, horder, List.map_cons] at hchars
      exact intercalate_ne_nil hitem _ hchars.symm
    rw [if_neg hne, hchars, horder]
    rfl

/-- A statement that asks for a selection is rendered as the selection is written. -/
theorem exists_render (h : q.AskedBy s) :
    ∃ sql, s.render = .ok sql ∧ sql.toList = q.template.text := by
  have hsource : s.source.isEmpty = false := by
    rw [h.source]
    simpa using q.table.free.ne_nil
  have hkind : ¬ (s.kind ≠ .select ∧ s.target.isEmpty) := fun hne => hne.1 h.kind
  have hrender : s.render = .ok ("SELECT " ++ s.selectList ++ " FROM " ++ s.source
      ++ Statement.clause " WHERE " s.predicate ++ Statement.clause " ORDER BY " s.order
      ++ Statement.numberClause " LIMIT " s.limit
      ++ Statement.numberClause " OFFSET " s.offset) := by
    rw [Statement.render, if_neg hkind, h.kind]
    simp only [Statement.renderSelect, hsource]
    rfl
  refine ⟨_, hrender, ?_⟩
  simp only [String.toList_append, toList_selectList h, h.source, toList_predicate h,
    toList_order h, toList_numberClause, h.limit, h.offset, List.append_assoc]
  rfl

/-! ## Binding -/

/-- A text in which binding finds nothing. -/
def Unbound (cs : List Char) : Prop := ∀ c ∈ cs, c ≠ '\'' ∧ c ≠ ':'

instance (cs : List Char) : Decidable (Unbound cs) :=
  inferInstanceAs (Decidable (∀ c ∈ cs, c ≠ '\'' ∧ c ≠ ':'))

theorem Unbound.append {cs ds : List Char} (hcs : Unbound cs) (hds : Unbound ds) :
    Unbound (cs ++ ds) :=
  List.forall_mem_append.2 ⟨hcs, hds⟩

theorem Unbound.clause {keyword : String} (h : Unbound keyword.toList) {part : Option (List Char)}
    (hpart : ∀ p ∈ part, Unbound p) : Unbound (clauseText keyword part) := by
  cases part with
  | none => exact fun c hc => absurd hc List.not_mem_nil
  | some p => exact h.append (hpart p rfl)

theorem Unbound.intercalate {parts : List (List Char)} (h : ∀ p ∈ parts, Unbound p) :
    Unbound ([',', ' '].intercalate parts) :=
  Text.forall_mem_intercalate (by decide : Unbound [',', ' ']) h

theorem unbound_name (name : Name) : Unbound name.text.toList := by
  intro c hc
  have hname := name.free.chars c hc
  constructor <;> rintro rfl <;> exact absurd hname (by decide)

theorem unbound_numberChars (n : UInt64) : Unbound (numberChars n) := Sql.plain_toDigits n.toNat

theorem unbound_listed {parts : List (List Char)} (h : ∀ p ∈ parts, Unbound p) :
    ∀ p ∈ listed parts, Unbound p := fun _ hp =>
  (mem_listed.1 hp).2 ▸ Unbound.intercalate h

theorem unbound_projectionChars (q : Selection) : Unbound q.projectionChars := by
  have has : Unbound " AS ".toList := by decide
  have hitems : ∀ p ∈ listed (q.items.map CellItem.chars), Unbound p :=
    unbound_listed (List.forall_mem_map.2 fun item _ =>
      ((unbound_name item.source).append has).append (unbound_name item.name))
  unfold projectionChars
  cases hlisted : listed (q.items.map CellItem.chars) with
  | none => decide
  | some p => exact hitems p hlisted

theorem unbound_orderChars (q : Selection) : ∀ p ∈ q.orderChars, Unbound p := by
  have hitem : ∀ item ∈ q.order, Unbound item.chars := by
    intro item _
    have hup : Unbound " ASC".toList := by decide
    have hdown : Unbound " DESC".toList := by decide
    unfold OrderItem.chars
    cases item.direction with
    | none => exact unbound_name item.column
    | some d =>
      cases d with
      | up => exact (unbound_name item.column).append hup
      | down => exact (unbound_name item.column).append hdown
  exact unbound_listed (List.forall_mem_map.2 hitem)

theorem unbound_orderText (q : Selection) (operand : Condition → List Char) :
    Unbound (q.shapeWith operand).tail.orderText := by
  have hnumber : ∀ n : Option UInt64, ∀ p ∈ n.map numberChars, Unbound p := by
    rintro n p hp
    obtain ⟨m, -, rfl⟩ := Option.map_eq_some_iff.1 hp
    exact unbound_numberChars m
  exact (Unbound.clause (by decide) q.unbound_orderChars).append
    ((Unbound.clause (by decide) (hnumber q.limit)).append
      (Unbound.clause (by decide) (hnumber q.offset)))

theorem bindChars_tail {params : Params}
    (h : ∀ c ∈ q.condition, params.get? c.parameter = some c.operand.value) :
    bindChars params q.template.tail.text = q.shape.tail.text := by
  have horder : bindChars params q.template.tail.orderText = q.shape.tail.orderText :=
    Sql.bindChars_of_plain params (q.unbound_orderText _)
  unfold SelectTail.text
  cases hcondition : q.condition with
  | none =>
    have hnone : q.template.tail.predicate = none ∧ q.shape.tail.predicate = none := by
      simp [template, shape, shapeWith, hcondition]
    rw [hnone.1, hnone.2]
    exact horder
  | some c =>
    have htemplate : clauseText " WHERE " q.template.tail.predicate
        = (" WHERE ".toList ++ (c.column.text.toList ++ " = ".toList))
          ++ (Sql.Token.placeholder c.parameter.toList).text := by
      simp [template, shapeWith, hcondition, clauseText, conditionChars, Sql.Token.text]
    have hshape : clauseText " WHERE " q.shape.tail.predicate
        = (" WHERE ".toList ++ (c.column.text.toList ++ " = ".toList)) ++ c.operand.chars := by
      simp [shape, shapeWith, hcondition, clauseText, conditionChars]
    have hfront : Unbound (" WHERE ".toList ++ (c.column.text.toList ++ " = ".toList)) :=
      Unbound.append (by decide) ((unbound_name c.column).append (by decide))
    have hends : (Sql.Token.placeholder c.parameter.toList).Ends q.template.tail.orderText := by
      intro d hd
      rw [q.template.tail.spaceStart_orderText d hd]
      decide
    have hvalue : Sql.Token.bound params (.placeholder c.parameter.toList) = c.operand.chars := by
      simp [Sql.Token.bound, h c hcondition, Operand.chars]
    rw [htemplate, hshape, List.append_assoc, Sql.bindChars_append_of_plain _ _ hfront,
      Sql.bindChars_of_nextToken? _ (c.readable.nextToken? hends), hvalue, horder]
    simp only [List.append_assoc]

/-- Binding puts the operand in the place of its parameter. -/
theorem bindChars_template {params : Params}
    (h : ∀ c ∈ q.condition, params.get? c.parameter = some c.operand.value) :
    bindChars params q.template.text = q.shape.text := by
  have hselect : Unbound "SELECT ".toList := by decide
  have hfrom : Unbound " FROM ".toList := by decide
  have hprojection : Unbound q.template.projection := unbound_projectionChars q
  have htable : Unbound q.template.table := unbound_name q.table
  unfold SelectShape.text
  rw [Sql.bindChars_append_of_plain _ _ hselect, Sql.bindChars_append_of_plain _ _ hprojection,
    Sql.bindChars_append_of_plain _ _ hfrom, Sql.bindChars_append_of_plain _ _ htable,
    bindChars_tail h]
  rfl

end Selection

end Colonnade.Store
