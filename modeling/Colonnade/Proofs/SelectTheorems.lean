import Colonnade.Proofs.Equations
import Colonnade.Proofs.MemoryScenes
import Colonnade.Proofs.Selections
import Colonnade.Statement.Execution

/-!
# What a select answers

A statement that asks for a selection is answered with the result of the selection
(`execute_select`). The text is received as it was bound, cut at the keywords it was put together
with, and each part is read back as the datum it was written from; only then do the rows count.
That the cuts fall where they were made is the reason for the words that names cannot be: the
parts of a select are cut off at the first keyword that fits.
-/

namespace Colonnade.Store

open Text

namespace Selection

/-! ## The selection as it is understood -/

theorem listed_spec {parts : List (List Char)} (h : ∀ p ∈ parts, IsPart p ∧ EndsSolid p) :
    ∀ p ∈ listed parts, IsPiece p ∧ EndsSolid p := by
  intro p hp
  obtain ⟨hne, rfl⟩ := mem_listed.1 hp
  obtain ⟨q, qs, rfl⟩ := List.exists_cons_of_ne_nil hne
  exact ⟨isPiece_intercalate fun r hr => (h r hr).1, endsSolid_intercalate fun r hr => (h r hr).2⟩

/-- The select list contains no keyword of a clause, and nothing is trimmed at its end. -/
theorem projectionChars_spec (q : Selection) :
    IsPiece q.projectionChars ∧ EndsSolid q.projectionChars := by
  have hitems : ∀ p ∈ listed (q.items.map CellItem.chars), IsPiece p ∧ EndsSolid p :=
    listed_spec (List.forall_mem_map.2 fun item _ =>
      ⟨isPart_itemChars item.name.free item.source.free,
        endsSolid_itemChars item.name.free item.source.text.toList⟩)
  unfold projectionChars
  cases hlisted : listed (q.items.map CellItem.chars) with
  | none =>
    have hstar : IsPiece ['*'] :=
      ⟨startsPlain_cons (by decide) (by decide) [], fun h => absurd h (by decide), trivial⟩
    exact ⟨hstar, [], '*', by decide⟩
  | some p => exact hitems p hlisted

theorem orderChars_spec (q : Selection) : ∀ p ∈ q.orderChars, IsPiece p ∧ EndsSolid p :=
  listed_spec (List.forall_mem_map.2 fun item _ => ⟨isPart_keyChars item.column.free item.direction,
    endsSolid_keyChars item.column.free item.direction⟩)

theorem readable_shape (q : Selection) : q.shape.Readable where
  projection := q.projectionChars_spec.1
  table := q.table.free.toPlainName
  tail :=
    { predicate := fun p hp => by
        obtain ⟨c, -, rfl⟩ := Option.map_eq_some_iff.1 hp
        exact isPiece_conditionChars c.column.free (Operand.isPart_chars c.unspaced)
      order := fun p hp => (q.orderChars_spec p hp).1
      limit := fun p hp => by
        obtain ⟨n, -, rfl⟩ := Option.map_eq_some_iff.1 hp
        exact isNumber_numberChars n
      offset := fun p hp => by
        obtain ⟨n, -, rfl⟩ := Option.map_eq_some_iff.1 hp
        exact isNumber_numberChars n }

theorem endsSolid_tail (q : Selection) {front : List Char} (h : EndsSolid front) :
    EndsSolid (front ++ q.shape.tail.text) := by
  have htail := q.readable_shape.tail
  have hpredicate : ∀ p ∈ q.shape.tail.predicate, EndsSolid p := fun p hp => by
    obtain ⟨c, -, rfl⟩ := Option.map_eq_some_iff.1 hp
    exact c.operand.endsSolid_chars.append _
  have horder : ∀ p ∈ q.shape.tail.order, EndsSolid p := fun p hp => (q.orderChars_spec p hp).2
  have hends := (((h.clause " WHERE " hpredicate).clause " ORDER BY " horder).clause
    " LIMIT " fun p hp => (htail.limit p hp).endsSolid).clause
    " OFFSET " fun p hp => (htail.offset p hp).endsSolid
  simpa only [SelectTail.text, SelectTail.orderText, SelectTail.limitText,
    SelectTail.offsetText, List.append_assoc] using hends

/-- The statement is received as it is. -/
theorem normalSql_sql (q : Selection) : Memory.normalSql q.sql = q.sql := by
  -- it begins with a letter and ends solid, so nothing is trimmed on either side
  have hrest : EndsSolid ("ELECT ".toList ++ (q.shape.projection ++ (" FROM ".toList
      ++ (q.shape.table ++ q.shape.tail.text)))) :=
    (((q.endsSolid_tail q.table.free.endsSolid).append _).append _).append _
  have hselect : "SELECT ".toList = 'S' :: "ELECT ".toList := by decide
  obtain ⟨most, d, hmost, hd⟩ := hrest
  have hcut : q.sql.toList = 'S' :: (most ++ [d]) := by
    rw [← hmost]
    exact String.toList_ofList.trans (congrArg (· ++ (q.shape.projection ++ (" FROM ".toList
      ++ (q.shape.table ++ q.shape.tail.text)))) hselect)
  exact normalSql_of_ends most hcut (by decide) hd.1 hd.2

/-! ## The answer -/

theorem projection?_projectionChars (q : Selection) (h : q.items ≠ []) :
    projection? q.projectionChars
      = some (q.items.map fun item => (item.source.text, item.name.text)) := by
  have hlist : q.projectionChars = [',', ' '].intercalate (q.items.map CellItem.chars) := by
    rw [projectionChars, listed_of_ne_nil (by simpa using h), Option.getD_some]
  have hread : ∀ item ∈ q.items, ',' ∉ item.chars ∧
      projectionItem? item.chars = some (item.source.text, item.name.text) := fun item _ => by
    refine ⟨comma_not_mem_itemChars item.name.free item.source.free, ?_⟩
    rw [CellItem.chars,
      projectionItem?_itemChars item.name.free.toPlainName item.source.free.toPlainName,
      String.ofList_toList, String.ofList_toList]
  have hmap := map_pieces_intercalate (fun _ => rfl) h hread
  have hall {l : List (List Char)} : l.mapM projectionItem? = (l.map projectionItem?).mapM id := by
    rw [List.mapM_map]
    rfl
  rw [projection?, hlist, hall, hmap, List.mapM_map]
  exact List.mapM_pure

theorem sortKeys_orderChars (q : Selection) : ∀ p ∈ q.orderChars, sortKeys p = q.keys := by
  intro p hp
  have hread : ∀ item ∈ q.order, ',' ∉ item.chars ∧ sortKey? item.chars
      = some (⟨item.column.text, item.direction = some .down⟩ : SortKey) := fun item _ => by
    refine ⟨comma_not_mem_keyChars item.column.free item.direction, ?_⟩
    rw [OrderItem.chars, sortKey?_keyChars item.column.free.toPlainName, String.ofList_toList]
  obtain ⟨hne, rfl⟩ := mem_listed.1 hp
  have hmap := map_pieces_intercalate (fun _ => rfl) (by simpa using hne) hread
  have hall {l : List (List Char)} : l.filterMap sortKey? = (l.map sortKey?).filterMap id := by
    rw [List.filterMap_map]
    rfl
  rw [sortKeys_eq_filterMap, hall, hmap, List.filterMap_map]
  exact congrFun List.filterMap_eq_map' q.order

/-- The predicate is understood as the condition. -/
theorem filterOf_predicate (q : Selection) (sql : String) :
    Memory.filterOf sql q.shape.tail.predicate
      = .ok (q.condition.map fun c => (c.column.text, c.operand.value)) := by
  have hpredicate : q.shape.tail.predicate
      = q.condition.map fun c => conditionChars c.column.text.toList c.operand.chars := rfl
  rw [hpredicate]
  cases q.condition with
  | none => rfl
  | some c =>
    have hequation := isEquation_conditionChars c.column.free.toPlainName.isColumn c.operand
    rw [Option.map_some, hequation.filterOf_eq, String.ofList_toList]
    rfl

theorem bind_rowCount? (n : Option UInt64) :
    (n.map numberChars).bind rowCount? = n.map UInt64.toNat := by
  cases n with
  | none => rfl
  | some n => exact rowCount?_numberChars n

theorem keys_of_orderChars_eq_none {q : Selection} (h : q.orderChars = none) : q.keys = [] := by
  have hempty : q.order = [] := by
    by_contra hne
    rw [orderChars, listed_of_ne_nil (by simpa using hne)] at h
    cases h
  rw [keys, hempty, List.map_nil]

/-- Where each key is of one kind, the page that is cut out is the page that is asked for. -/
theorem page_eq {q : Selection} {rows : List Row}
    (h : ∀ item ∈ q.order, OneKind rows item.column.text) :
    Memory.page rows q.shape.tail
      = q.page (rows.mergeSort (mayPrecede (rowOrder q.keys))) := by
  have hkeys : ∀ key ∈ q.keys, OneKind rows key.column := List.forall_mem_map.2 h
  have horder : q.shape.tail.order = q.orderChars := rfl
  have hoffset : q.shape.tail.offset.bind rowCount? = q.offset.map UInt64.toNat :=
    bind_rowCount? q.offset
  have hlimit : q.shape.tail.limit.bind rowCount? = q.limit.map UInt64.toNat :=
    bind_rowCount? q.limit
  have hdrop : (q.offset.map UInt64.toNat).getD 0 = q.offset.elim 0 UInt64.toNat := by
    cases q.offset <;> rfl
  unfold Memory.page page
  rw [horder, hoffset, hlimit, hdrop]
  cases hchars : q.orderChars with
  | none =>
    have hunsorted : rows.mergeSort (mayPrecede (rowOrder [])) = rows :=
      List.mergeSort_of_pairwise (List.pairwise_of_forall fun _ _ => rfl)
    rw [keys_of_orderChars_eq_none hchars, hunsorted]
    cases q.limit <;> rfl
  | some p =>
    simp only [q.sortKeys_orderChars p hchars, sortBy_compareRows hkeys]
    cases q.limit <;> rfl

/-- The rows are projected as it is asked for. -/
theorem project_eq {q : Selection} (h : q.items ≠ []) :
    Memory.projectRow (q.items.map fun item => (item.source.text, item.name.text)) = q.project := by
  funext row
  rw [Memory.projectRow, project, if_neg (by simpa using h), List.map_map]
  rfl

theorem projectionChars_eq_star_iff (q : Selection) :
    q.projectionChars = ['*'] ↔ q.items = [] := by
  constructor
  · intro hstar
    by_contra hne
    have hread := q.projection?_projectionChars hne
    have hnone : projection? ['*'] = none := by decide
    rw [hstar, hnone] at hread
    cases hread
  · intro hempty
    rw [projectionChars, hempty]
    rfl

/-- The rows of a page as they are answered: whole, or projected by what the select list says. -/
theorem projected_page {q : Selection} {rows : List Row} (sql : String) (total : Nat) :
    (if q.projectionChars = ['*'] then Except.ok (⟨rows, total⟩ : SelectResult)
      else match projection? q.projectionChars with
        | some columns => .ok ⟨rows.map (Memory.projectRow columns), total⟩
        | none => .error (Memory.refused sql)) = .ok ⟨rows.map q.project, total⟩ := by
  by_cases hitems : q.items = []
  · have hproject : q.project = id := by
      funext row
      simp [project, hitems]
    rw [if_pos (q.projectionChars_eq_star_iff.2 hitems), hproject, List.map_id]
  · rw [if_neg (mt q.projectionChars_eq_star_iff.1 hitems), q.projection?_projectionChars hitems]
    simp only [project_eq hitems]

/-- The stored rows answer a selection with its result. -/
theorem answer_sql {q : Selection} {m : Memory} {o : StoredObject}
    (hobject : m.objects.get? q.table.text = some o)
    (hkinds : ∀ item ∈ q.order, OneKind o.rows item.column.text) :
    m.answer q.sql = .ok (q.result o.rows) := by
  have hshape : selectShape? q.sql.toList = some q.shape := by
    rw [sql, String.toList_ofList, SelectShape.selectShape?_text q.readable_shape]
  have hname : Memory.bareName q.shape.table = q.table.text := by
    rw [← String.ofList_toList (s := q.table.text)]
    exact q.table.free.bareName_eq
  have hprojection : trimChars q.shape.projection = q.projectionChars :=
    q.projectionChars_spec.1.trimChars_eq q.projectionChars_spec.2
  have hkept : ∀ item ∈ q.order, OneKind (o.rows.filter q.keeps) item.column.text :=
    fun item hitem => (hkinds item hitem).mono fun _ hrow => List.mem_of_mem_filter hrow
  have hpage (rows : List Row) (hrows : rows = o.rows.filter q.keeps) :
      Except.ok (⟨(Memory.page rows q.shape.tail).map q.project, rows.length⟩ : SelectResult)
        = (.ok (q.result o.rows) : Except StoreError SelectResult) := by
    rw [hrows, page_eq hkept, result]
  unfold Memory.answer
  simp only [hshape, hname, hobject, filterOf_predicate, hprojection]
  cases hcondition : q.condition with
  | none =>
    have hall : o.rows = o.rows.filter q.keeps := by
      refine (List.filter_eq_self.2 fun row _ => ?_).symm
      rw [keeps, hcondition]
    exact (projected_page _ _).trans (hpage _ hall)
  | some c =>
    have hsome : o.rows.filter (matchesCell c.column.text c.operand.value)
        = o.rows.filter q.keeps := by
      refine List.filter_congr fun row _ => ?_
      rw [keeps, hcondition]
    exact (projected_page _ _).trans (hpage _ hsome)

end Selection

/-! ## Executing -/

open Migration (perform perform_bind perform_statement_ofStore)
open Memory (perform_select)

/-- What a store in memory answers to a statement that asks for a selection, where each sort key is
of one kind: the result of the selection on the rows of its table. -/
theorem execute_select {q : Selection} {s : Statement} (hasked : q.AskedBy s) {m : Memory}
    {o : StoredObject} (hobject : m.objects.get? q.table.text = some o)
    (hkinds : ∀ item ∈ q.order, OneKind o.rows item.column.text) :
    perform (s.execute Memory.client) m = (.ok (.selected (q.result o.rows)), m.log q.sql) := by
  obtain ⟨sql, hrender, htext⟩ := Selection.exists_render hasked
  have hbound : Sql.bind sql s.bindings = q.sql := by
    rw [Sql.bind, htext, Selection.bindChars_template hasked.bound]
    rfl
  have hreceived : Memory.normalSql (Sql.bind sql s.bindings) = q.sql := by
    rw [hbound, q.normalSql_sql]
  have hselect : m.select sql s.bindings = (.ok (q.result o.rows), m.log q.sql) := by
    have hanswer : m.answer (Memory.normalSql (Sql.bind sql s.bindings))
        = .ok (q.result o.rows) := by
      rw [hreceived, Selection.answer_sql hobject hkinds]
    rw [Memory.select_of_answer hanswer, hreceived]
  have hcall : perform (Memory.client.select sql s.bindings) m
      = (.ok (q.result o.rows), m.log q.sql) := by
    rw [Memory.client, perform_select, id, hselect]
  unfold Statement.execute
  rw [hrender, hasked.kind]
  simp only [perform_bind, perform_statement_ofStore, hcall]
  rfl

/-- The members of a team but the oldest one, from old to young; one has no age. -/
theorem execute_select_team :
    let member (name : String) (cells : List (String × Value)) : Row :=
      .ofList (("name", .string name) :: cells)
    let team : String × Value := ("team", .string "it's\\")
    let rows := [member "ann" [team, ("age", .int 30)], member "bob" [team],
      member "cyd" [team, ("age", .int 41)], member "dan" [("team", .string "its")],
      member "eve" [team, ("age", .int 41)]]
    let m : Memory := ⟨.ofList [("people", ⟨.table, "", rows⟩)], [], []⟩
    let s : Statement := .ofSteps [.select [("who", "name"), ("years", "age")], .source "people",
      .predicate "team = :team", .bindings (.ofList [team]), .order "age DESC, name", .limit 3,
      .offset 1]
    perform (s.execute Memory.client) m
      = (.ok (.selected ⟨[.ofList [("who", .string "eve"), ("years", .int 41)],
            .ofList [("who", .string "ann"), ("years", .int 30)],
            .ofList [("who", .string "bob"), ("years", .null)]], 4⟩),
          m.log ("SELECT name AS who, age AS years FROM people WHERE team = 'it\\'s\\\\'"
            ++ " ORDER BY age DESC, name LIMIT 3 OFFSET 1")) := by
  intro member team rows m s
  let name : Name := ⟨"name", by decide⟩
  let age : Name := ⟨"age", by decide⟩
  let q : Selection :=
    { table := ⟨"people", by decide⟩
      items := [⟨⟨"who", by decide⟩, name⟩, ⟨⟨"years", by decide⟩, age⟩]
      condition := some
        { column := ⟨"team", by decide⟩
          parameter := "team"
          operand := .string "it's\\"
          readable := ⟨'t', _, rfl, by decide, by decide⟩
          unspaced := by decide }
      order := [⟨age, some .down⟩, ⟨name, none⟩]
      limit := some 3
      offset := some 1 }
  have hasked : q.AskedBy s :=
    { kind := rfl
      source := rfl
      selected := .inl rfl
      predicate := rfl
      order := rfl
      limit := rfl
      offset := rfl
      bound := fun c hc => Option.mem_some_iff.1 hc ▸ rfl }
  have hkinds : ∀ item ∈ q.order, OneKind rows item.column.text := by decide +kernel
  have hresult : q.result rows = ⟨[.ofList [("who", .string "eve"), ("years", .int 41)],
      .ofList [("who", .string "ann"), ("years", .int 30)],
      .ofList [("who", .string "bob"), ("years", .null)]], 4⟩ := by
    rw [Selection.result, ← sortBy_eq_mergeSort]
    decide +kernel
  have hsql : q.sql = "SELECT name AS who, age AS years FROM people WHERE team = 'it\\'s\\\\'"
      ++ " ORDER BY age DESC, name LIMIT 3 OFFSET 1" := by decide +kernel
  rw [execute_select hasked rfl hkinds, hresult, hsql]

end Colonnade.Store
