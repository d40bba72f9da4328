import Colonnade.Proofs.CellOrderTheorems
import Colonnade.Proofs.Equations
import Colonnade.Proofs.LookupTheorems

/-!
# Equalities and `null`

Two cells are equal if their integers are, or else their texts. A `null` has no integer and the
empty text, so an equality with a literal holds of it for the literal `''` and for no other
(`matchesCell_of_null`). What that means for the rows of a store is said for every statement that
is understood as a select or a deletion by an equality: with any other literal, rows that are
`null` in the column are neither found nor removed (`SparesNulls`); with `''` all of them are
(`TakesNulls`).

The usual texts of a deletion and of a select are of this kind (`deletesBy_equalityDeletion`,
`selectsBy_equalitySelect`). The exception is a select by a string that reads as an order: its
equality is cut off there, and no store answers it (`answer_equalitySelect_of_readsAsOrder`).
-/

namespace Colonnade.Store

open Sql.Quoted Text

/-! ## Cells that are `null` -/

/-- Whether the cell of a column is there and is `null`. -/
def nullAt (column : String) (row : Row) : Bool := row.get? column = some .null

/-- The empty string is the only literal that a `null` is equal to. -/
theorem matchesCell_of_null {column : String} {row : Row} (h : nullAt column row = true)
    (v : Operand) : matchesCell column v.value row = decide (v = .string "") := by
  have hcell : row.get? column = some .null := of_decide_eq_true h
  rw [matchesCell, hcell, Bool.eq_iff_iff]
  simp only [compareCells, comparePresent_of_plain (v := .null) rfl, beq_iff_eq,
    Std.LawfulEqOrd.compare_eq_iff_eq, decide_eq_true_eq]
  cases v with
  | int n => simpa [Operand.value, Value.plain] using (Decimal.toString_int_ne_empty n.toInt).symm
  | string s => simp [Operand.value, Value.plain, eq_comm]

section Rows

variable (column : String) (v : Operand) (rows : List Row)

/-- Where `null` is not found, rows that are `null` make no difference to what is found. -/
theorem filter_matchesCell_filter_not_nullAt (hv : v ≠ .string "") :
    (rows.filter fun row => !nullAt column row).filter (matchesCell column v.value)
      = rows.filter (matchesCell column v.value) := by
  rw [List.filter_filter]
  refine List.filter_congr fun row _ => ?_
  cases hnull : nullAt column row with
  | false => simp
  | true => simp [matchesCell_of_null hnull, hv]

/-- Of the rows that are `null`, those that are not found are all or none. -/
theorem filter_nullAt_filter_not_matchesCell :
    (rows.filter fun row => !matchesCell column v.value row).filter (nullAt column)
      = if v = .string "" then [] else rows.filter (nullAt column) := by
  have hboth (row : Row) : (nullAt column row && !matchesCell column v.value row)
      = (nullAt column row && decide (v ≠ .string "")) := by
    cases hnull : nullAt column row with
    | false => rfl
    | true => rw [matchesCell_of_null hnull, decide_not]
  simp only [List.filter_filter, hboth]
  split
  · next hv => simp [hv]
  · next hv => simp [hv]

theorem length_filter_nullAt_le : (rows.filter (nullAt column)).length
    ≤ (rows.filter (matchesCell column (Operand.string "").value)).length := by
  refine (List.monotone_filter_right rows fun row hrow => ?_).length_le
  simp [matchesCell_of_null hrow]

end Rows

/-! ## Statements by an equality -/

/-- The text is a select from a table by the equality of a column with a literal. -/
def SelectsBy (sql table column : String) (v : Operand) : Prop :=
  ∃ shape p, selectShape? sql.toList = some shape ∧ Memory.bareName shape.table = table ∧
    shape.tail.predicate = some p ∧ equality? (trimChars p) = some (column, v.value)

/-- The text is a deletion from a table by the equality of a column with a literal. -/
def DeletesBy (sql table column : String) (v : Operand) : Prop :=
  ∃ name p, deleteShape? sql.toList = some ⟨name, some p⟩ ∧ Memory.bareName name = table ∧
    equality? (trimChars p) = some (column, v.value)

/-- A deletion is not taken for another statement: it begins with another letter. -/
theorem shapes_of_deleteShape? {cs : List Char} {shape : DeleteShape}
    (h : deleteShape? cs = some shape) : createShape? cs = none ∧ dropShape? cs = none := by
  cases cs with
  | nil => cases h
  | cons c cs =>
    have hletter : sameLetter 'A' c = true := by
      by_contra hne
      have hword : keywordSpaces? "ALTER" (c :: cs) = none := by
        simp [keywordSpaces?, keyword?, hne]
      rw [deleteShape?, hword] at h
      cases h
    have hupper : c.toUpper = 'A' := by simpa [sameLetter] using hletter
    have hother : sameLetter 'C' c = false ∧ sameLetter 'D' c = false := by
      simp [sameLetter, hupper]
    have hcreate : keywordSpaces? "CREATE" (c :: cs) = none := by
      simp [keywordSpaces?, keyword?, hother.1]
    have hdrop : keywordSpaces? "DROP" (c :: cs) = none := by
      simp [keywordSpaces?, keyword?, hother.2]
    rw [createShape?, dropShape?, hcreate, hdrop]
    exact ⟨rfl, rfl⟩

/-! ## Orders in operands -/

/-- Whether an operand is a string that reads as an order. -/
def Operand.readsAsOrder : Operand → Bool
  | .int _ => false
  | .string s => Store.readsAsOrder s.toList

/-- The end of an operand from an order in its string on. -/
def OrderInside (v : Operand) (back : List Char) : Prop :=
  ∃ s inner, v = .string s ∧ back = inner ++ ['\''] ∧ inner <:+ encode s.toList ∧
    (orderHead? inner).isSome

theorem OrderInside.readsAsOrder {v : Operand} {back : List Char} (h : OrderInside v back) :
    v.readsAsOrder = true := by
  obtain ⟨s, inner, rfl, -, hinner, horder⟩ := h
  rw [Operand.readsAsOrder, ← readsAsOrder_encode]
  exact readsAsOrder_iff.2 ⟨inner, hinner, horder⟩

/-- No rest of a select begins with anything but white space. -/
theorem isSpace_of_isSome_orderTail? {c : Char} {cs : List Char}
    (h : (orderTail? (c :: cs)).isSome) : isSpace c = true := by
  by_contra hc
  rw [delimits_orderTail?.word c cs (Bool.eq_false_iff.2 hc)] at h
  cases h

/-- A rest of a select that is found in an operand is an order in its string. -/
theorem orderInside_of_suffix_chars {v : Operand} {back : List Char} (hback : back <:+ v.chars)
    (hne : back ≠ []) (htail : (orderTail? back).isSome) : OrderInside v back := by
  obtain ⟨c, cs, rfl⟩ := List.exists_cons_of_ne_nil hne
  have hspace := isSpace_of_isSome_orderTail? htail
  cases v with
  | int n =>
    have hc := (Operand.int n).isSpace_chars trivial c (hback.subset List.mem_cons_self)
    rw [hc] at hspace
    cases hspace
  | string s =>
    rw [Operand.chars_string, quoteChars] at hback
    rcases List.suffix_cons_iff.1 hback with hwhole | hback
    · cases hwhole
      cases hspace
    · rcases List.suffix_concat_iff.1 hback with hnil | ⟨inner, heq, hinner⟩
      · cases hnil
      · rw [heq] at htail ⊢
        have hend : (limitTail? []).isSome := rfl
        rw [isSome_orderTail?_append_quote inner hend] at htail
        exact ⟨s, inner, rfl, rfl, hinner, htail⟩

/-- So is one that is found in an equality. -/
theorem orderInside_of_suffix_condition {column : List Char} (hcolumn : IsColumn column)
    {v : Operand} {back : List Char} (hback : back <:+ conditionChars column v.chars)
    (hne : back ≠ []) (htail : (orderTail? back).isSome) : OrderInside v back := by
  have hparts : conditionChars column v.chars = column ++ (' ' :: '=' :: ' ' :: v.chars) := by
    simp [conditionChars]
  have hafter : back <:+ ' ' :: '=' :: ' ' :: v.chars := by
    rw [hparts] at hback
    rcases List.suffix_or_suffix_of_suffix hback (List.suffix_append column _) with h | ⟨front, rfl⟩
    · exact h
    · cases front with
      | nil => exact List.suffix_rfl
      | cons c front =>
        -- it would begin with a character of the column
        rw [List.suffix_append_self_iff] at hback
        have hspace := isSpace_of_isSome_orderTail? htail
        rw [hcolumn.not_isSpace c (hback.subset List.mem_cons_self)] at hspace
        cases hspace
  rcases List.suffix_cons_iff.1 hafter with rfl | hafter
  · cases htail
  rcases List.suffix_cons_iff.1 hafter with rfl | hafter
  · cases htail
  rcases List.suffix_cons_iff.1 hafter with rfl | hafter
  · obtain ⟨c, cs, hchars, hc, hletter⟩ := v.chars_eq_cons
    have hplain := startsPlain_cons hc hletter cs
    rw [hchars, delimits_orderTail?.space c cs hc fun word hword => by
      simpa using hplain.word word hword [] spaceStart_nil] at htail
    cases htail
  · exact orderInside_of_suffix_chars hafter hne htail

/-- The part of an equality before an order in its string is refused. -/
theorem filterOf_of_orderInside {column : List Char} (hcolumn : IsColumn column) {v : Operand}
    {front back : List Char} (hcut : conditionChars column v.chars = front ++ back)
    (hback : OrderInside v back) (sql : String) :
    Memory.filterOf sql (some front) = .error (Memory.refused sql) := by
  obtain ⟨s, inner, rfl, rfl, ⟨pre, hpre⟩, -⟩ := hback
  have hfront : front = column ++ (" = ".toList ++ '\'' :: pre) := by
    refine List.append_cancel_right (hcut.symm.trans ?_)
    rw [Operand.chars_string, quoteChars, ← hpre]
    simp [conditionChars]
  have htrim : trimChars front = column ++ (" = ".toList ++ '\'' :: trimRight pre) := by
    have hleft : trimLeft (column ++ (" = ".toList ++ '\'' :: pre)) = _ :=
      hcolumn.trimLeft_append isGap_nil _
    have hquote : isSpace '\'' = false := rfl
    have hright := trimRight_append_cons hquote (column ++ " = ".toList) pre
    simp only [List.append_assoc] at hright
    rw [hfront, trimChars, hleft, hright]
  have hkept := trimRight_prefix pre
  have hprefix : trimRight pre <+: encode s.toList := hkept.trans ⟨inner, hpre⟩
  rw [Memory.filterOf, htrim, equality?_of_prefix_encode hcolumn hprefix]

/-! ## The usual texts -/

/-- The usual select by an equality. -/
def equalitySelect (table column : String) (v : Operand) : String :=
  "SELECT * FROM " ++ table ++ " WHERE " ++ column ++ " = " ++ Sql.literal v.value

/-- The usual deletion by an equality. -/
def equalityDeletion (table column : String) (v : Operand) : String :=
  "ALTER TABLE " ++ table ++ " DELETE WHERE " ++ column ++ " = " ++ Sql.literal v.value

section Texts

variable {table column : String} (htable : PlainName table.toList)
  (hcolumn : IsColumn column.toList) (v : Operand)

theorem toList_equalitySelect (table column : String) (v : Operand) :
    (equalitySelect table column v).toList
      = "SELECT * FROM ".toList ++ (table.toList ++ (" WHERE ".toList
        ++ conditionChars column.toList v.chars)) := by
  unfold equalitySelect conditionChars Operand.chars
  simp only [String.toList_append, List.append_assoc]

theorem toList_equalityDeletion (table column : String) (v : Operand) :
    (equalityDeletion table column v).toList
      = "ALTER TABLE ".toList ++ (table.toList ++ (" DELETE WHERE ".toList
        ++ conditionChars column.toList v.chars)) := by
  unfold equalityDeletion conditionChars Operand.chars
  simp only [String.toList_append, List.append_assoc]

include htable in
theorem bareName_toList : Memory.bareName table.toList = table := by
  rw [htable.bareName_eq, String.ofList_toList]

include hcolumn in
theorem equality?_condition :
    equality? (trimChars (conditionChars column.toList v.chars)) = some (column, v.value) := by
  rw [equality?_of_isEquation (isEquation_conditionChars hcolumn v).trimChars,
    String.ofList_toList]

/-- A statement that begins with a letter and ends with a condition is received as it is. -/
theorem normalSql_of_condition {sql : String} {c : Char} {front column : List Char}
    (h : sql.toList = c :: (front ++ conditionChars column v.chars)) (hc : isSpace c = false) :
    Memory.normalSql sql = sql := by
  obtain ⟨most, d, hcut, hd⟩ := (v.endsSolid_chars.append (column ++ " = ".toList)).append front
  rw [conditionChars, hcut] at h
  exact normalSql_of_ends most h hc hd.1 hd.2

/-- The usual deletion is received as it is. -/
theorem normalSql_equalityDeletion (table column : String) :
    Memory.normalSql (equalityDeletion table column v) = equalityDeletion table column v := by
  have hcut : "ALTER TABLE ".toList = 'A' :: "LTER TABLE ".toList := by decide
  have htext := toList_equalityDeletion table column v
  rw [hcut, List.cons_append, ← List.append_assoc, ← List.append_assoc] at htext
  exact normalSql_of_condition v htext (by decide)

include htable hcolumn

/-- So is the usual select, in which binding finds no placeholder. -/
theorem normalSql_bind_equalitySelect (params : Params) :
    Memory.normalSql (Sql.bind (equalitySelect table column v) params)
      = equalitySelect table column v := by
  have hword {name : List Char} (h : IsColumn name) : ∀ c ∈ name, c ≠ '\'' ∧ c ≠ ':' := by
    intro c hc
    constructor <;> rintro rfl <;> exact absurd (h.word _ hc) (by decide)
  have hfront : ∀ c ∈ "SELECT * FROM ".toList ++ (table.toList ++ (" WHERE ".toList
      ++ (column.toList ++ " = ".toList))), c ≠ '\'' ∧ c ≠ ':' := by
    simp only [List.forall_mem_append]
    exact ⟨by decide, hword htable.isColumn, by decide, hword hcolumn, by decide⟩
  have htext := toList_equalitySelect table column v
  have hbind : Sql.bind (equalitySelect table column v) params = equalitySelect table column v := by
    have hplain := Sql.bindChars_append_of_plain params v.chars hfront
    simp only [List.append_assoc] at hplain
    rw [Sql.bind, htext, conditionChars, List.append_assoc, hplain, v.bindChars_chars,
      ← List.append_assoc column.toList, ← conditionChars, ← htext, String.ofList_toList]
  have hcut : "SELECT * FROM ".toList = 'S' :: "ELECT * FROM ".toList := by decide
  rw [hcut, List.cons_append, ← List.append_assoc, ← List.append_assoc] at htext
  rw [hbind]
  exact normalSql_of_condition v htext (by decide)

/-- The usual select is understood with its equality, or with a part of it that ends before an order
in its string. -/
theorem selectShape?_equalitySelect {piece rest : List Char}
    (hcut : conditionChars column.toList v.chars = piece ++ rest) (hpiece : piece ≠ [])
    (hrest : (orderTail? rest).isSome) :
    ∃ front back, ∃ tail : SelectTail, selectShape? (equalitySelect table column v).toList
        = some ⟨['*'], table.toList, { tail with predicate := some front }⟩ ∧
      conditionChars column.toList v.chars = front ++ back ∧ rest <:+ back ∧
      (back = [] ∨ OrderInside v back) := by
  obtain ⟨found, hfound⟩ := Option.isSome_iff_exists.1 hrest
  obtain ⟨front, back, tail, rfl, hback, hfirst⟩ := firstCut?_spec hpiece hfound
  rw [← hcut] at hfirst
  rw [List.append_assoc] at hcut
  have hinside : back ++ rest = [] ∨ OrderInside v (back ++ rest) := by
    by_cases hnil : back ++ rest = []
    · exact .inl hnil
    · have hsuffix : back ++ rest <:+ conditionChars column.toList v.chars := ⟨front, hcut.symm⟩
      exact .inr (orderInside_of_suffix_condition hcolumn hsuffix hnil (by rw [hback]; rfl))
  have hfree := freePiece?_space orderTail? (spaceCuts_conditionChars hcolumn v.chars)
  rw [hfirst] at hfree
  have hname (after : List Char) : objectName? (trimLeft (table.toList ++ ' ' :: after))
      = some (table.toList, ' ' :: after) := by
    rw [htable.trimLeft_append]
    exact htable.objectName?_append fun c hc => by cases hc; decide
  refine ⟨front, back ++ rest, tail, ?_, hcut, List.suffix_append back rest, hinside⟩
  rw [toList_equalitySelect]
  exact selectShape?_of_freePiece? hname hfree

/-- Unless its literal reads as an order, the usual select is one by its equality. -/
theorem selectsBy_equalitySelect (h : v.readsAsOrder = false) :
    SelectsBy (equalitySelect table column v) table column v := by
  have hne := conditionChars_ne_nil hcolumn v.chars
  obtain ⟨front, back, tail, hshape, hcut, -, rfl | hinside⟩ :=
    selectShape?_equalitySelect htable hcolumn v (List.append_nil _).symm hne rfl
  · rw [List.append_nil] at hcut
    subst hcut
    exact ⟨_, _, hshape, bareName_toList htable, rfl, equality?_condition hcolumn v⟩
  · rw [hinside.readsAsOrder] at h
    cases h

/-- If it does, no store answers it: the table is not there, or the select is refused. -/
theorem answer_equalitySelect_of_readsAsOrder (h : v.readsAsOrder = true) (m : Memory) :
    m.answer (equalitySelect table column v)
      = .error (if m.objects.contains table then Memory.refused (equalitySelect table column v)
          else .tableNotFound table) := by
  cases v with
  | int n => cases h
  | string s =>
    rw [Operand.readsAsOrder, ← readsAsOrder_encode] at h
    obtain ⟨inner, ⟨pre, hpre⟩, horder⟩ := readsAsOrder_iff.1 h
    have hcut : conditionChars column.toList (Operand.string s).chars
        = (column.toList ++ (" = ".toList ++ '\'' :: pre)) ++ (inner ++ ['\'']) := by
      rw [Operand.chars_string, quoteChars, ← hpre]
      simp [conditionChars]
    have hend : (limitTail? []).isSome := rfl
    rw [← isSome_orderTail?_append_quote inner hend] at horder
    obtain ⟨front, back, tail, hshape, hparts, hsuffix, rfl | hinside⟩ :=
      selectShape?_equalitySelect htable hcolumn _ hcut (by simp) horder
    · simp at hsuffix
    · have hfilter := filterOf_of_orderInside hcolumn hparts hinside
      simp only [Memory.answer, hshape, bareName_toList htable, hfilter]
      cases ho : m.objects.get? table with
      | none => simp [NameMap.contains, ho]
      | some o => simp [NameMap.contains, ho]

/-- The usual deletion is one by its equality. -/
theorem deletesBy_equalityDeletion :
    DeletesBy (Memory.normalSql (equalityDeletion table column v)) table column v := by
  have hname : objectName? (table.toList ++ (" DELETE WHERE ".toList
        ++ conditionChars column.toList v.chars))
      = some (table.toList, " DELETE WHERE ".toList ++ conditionChars column.toList v.chars) :=
    htable.objectName?_append fun c hc => by cases hc; decide
  have hwhere : wherePredicate? (" WHERE ".toList ++ conditionChars column.toList v.chars)
      = some (conditionChars column.toList v.chars) := by
    change (spaceCuts (' ' :: conditionChars column.toList v.chars)).find? _ = _
    have hspace : isSpace ' ' = true := rfl
    simp [spaceCuts, hspace, spaceCuts_conditionChars hcolumn, conditionChars_ne_nil hcolumn]
  have hshape : deleteShape? (equalityDeletion table column v).toList
      = some ⟨table.toList, some (conditionChars column.toList v.chars)⟩ := by
    rw [toList_equalityDeletion]
    change (objectName? (trimLeft (table.toList ++ (" DELETE WHERE ".toList
      ++ conditionChars column.toList v.chars)))).bind _ = _
    rw [htable.trimLeft_append, hname]
    change (wherePredicate? (" WHERE ".toList ++ conditionChars column.toList v.chars)).bind _ = _
    rw [hwhere]
    rfl
  rw [normalSql_equalityDeletion]
  exact ⟨_, _, hshape, bareName_toList htable, equality?_condition hcolumn v⟩

end Texts

namespace Memory

/-- The rows of a table that are `null` in a column. -/
def nullRows (m : Memory) (table column : String) : List Row :=
  ((m.objects.get? table).map fun o => o.rows.filter (nullAt column)).getD []

/-- The store without the rows of a table that are `null` in a column. -/
def withoutNulls (m : Memory) (table column : String) : Memory :=
  { m with objects := m.objects.modify table fun o =>
      { o with rows := o.rows.filter fun row => !nullAt column row } }

variable {m : Memory} {sql table column : String} {v : Operand}

/-! ## Selects -/

/-- With another literal, rows that are `null` in the column count for nothing. -/
theorem answer_withoutNulls (h : SelectsBy sql table column v) (hv : v ≠ .string "") :
    (m.withoutNulls table column).answer sql = m.answer sql := by
  obtain ⟨shape, p, hshape, rfl, hpredicate, hequality⟩ := h
  have hfilter := filterOf_of_equality? hequality sql
  have hkept := fun rows => filter_matchesCell_filter_not_nullAt column v rows hv
  simp only [answer, hshape, hpredicate, hfilter, withoutNulls, NameMap.get?_modify]
  cases m.objects.get? (bareName shape.table) with
  | none => rfl
  | some o => simp only [Option.map_some, if_true, hkept]

/-- What is selected depends on the answer and on what is queued. -/
theorem select_congr {m' : Memory} {params : Params} (hqueued : m'.queued = m.queued)
    (h : m'.answer (normalSql (Sql.bind sql params)) = m.answer (normalSql (Sql.bind sql params))) :
    (m'.select sql params).1 = (m.select sql params).1 := by
  have hanswer (s : Memory) (received : String) : (s.log received).answer received
      = s.answer received := rfl
  have hlog (s : Memory) (received : String) : (s.log received).queued = s.queued := rfl
  simp only [select, hanswer, hlog, h, hqueued]
  split <;> rfl

/-- With the empty string, they are all counted. -/
theorem length_nullRows_le (h : SelectsBy sql table column (.string "")) {r : SelectResult}
    (hr : m.answer sql = .ok r) : (m.nullRows table column).length ≤ r.total := by
  obtain ⟨shape, p, hshape, rfl, hpredicate, hequality⟩ := h
  have hfilter := filterOf_of_equality? hequality sql
  simp only [answer, hshape, hpredicate, hfilter] at hr
  unfold nullRows
  cases ho : m.objects.get? (bareName shape.table) with
  | none => exact Nat.zero_le _
  | some o =>
    rw [ho] at hr
    have htotal : r.total
        = (o.rows.filter (matchesCell column (Operand.string "").value)).length := by
      simp only at hr
      split at hr
      · cases hr
        rfl
      · split at hr
        · cases hr
          rfl
        · cases hr
    rw [htotal]
    exact length_filter_nullAt_le column o.rows

/-! ## Deletions -/

/-- A deletion leaves the rows of its table of which the equality does not hold. -/
theorem objects_write_of_deletesBy (h : DeletesBy (normalSql sql) table column v) :
    (m.write sql).2.objects = m.objects.modify table fun o =>
      { o with rows := o.rows.filter fun row => !matchesCell column v.value row } := by
  obtain ⟨name, p, hshape, rfl, hequality⟩ := h
  obtain ⟨hcreate, hdrop⟩ := shapes_of_deleteShape? hshape
  have hfilter := filterOf_of_equality? hequality (normalSql sql)
  simp only [write, apply, hcreate, hdrop, hshape, delete, hfilter]
  cases ho : m.objects.get? (bareName name) with
  | none =>
    simp only [log, ho]
    refine (NameMap.modify_eq_self_iff.2 fun o ho' => ?_).symm
    rw [ho] at ho'
    cases ho'
  | some o =>
    simp only [log, ho, setRows, survivors]
    refine NameMap.modify_congr fun o' ho' => ?_
    rw [ho] at ho'
    cases ho'
    rfl

/-- Of the rows that are `null` in the column, all are left, or none with the empty string. -/
theorem nullRows_write_of_deletesBy (h : DeletesBy (normalSql sql) table column v) :
    (m.write sql).2.nullRows table column
      = if v = .string "" then [] else m.nullRows table column := by
  unfold nullRows
  rw [objects_write_of_deletesBy h, NameMap.get?_modify]
  cases m.objects.get? table with
  | none => simp
  | some o =>
    simp only [Option.map_some, if_true, Option.getD_some, filter_nullAt_filter_not_matchesCell]

/-! ## The usual texts and `null` -/

section

variable (htable : PlainName table.toList) (hcolumn : IsColumn column.toList)

include htable hcolumn

/-- The usual select by another literal gives what it would give without rows that are `null`. -/
theorem select_equalitySelect (hv : v ≠ .string "") (params : Params) :
    (m.select (equalitySelect table column v) params).1
      = ((m.withoutNulls table column).select (equalitySelect table column v) params).1 := by
  refine select_congr rfl ?_
  rw [normalSql_bind_equalitySelect htable hcolumn]
  cases horder : v.readsAsOrder with
  | false => exact (answer_withoutNulls (selectsBy_equalitySelect htable hcolumn v horder) hv).symm
  | true =>
    have hcontains : (m.withoutNulls table column).objects.contains table
        = m.objects.contains table := by
      simp [withoutNulls, NameMap.contains]
    simp only [answer_equalitySelect_of_readsAsOrder htable hcolumn v horder, hcontains]

/-- The usual deletion leaves all rows that are `null`, or none with the empty string. -/
theorem nullRows_write_equalityDeletion :
    (m.write (equalityDeletion table column v)).2.nullRows table column
      = if v = .string "" then [] else m.nullRows table column :=
  nullRows_write_of_deletesBy (deletesBy_equalityDeletion htable hcolumn v)

end

/-! ## What becomes of the rows -/

/-- No statement by this equality touches a row that is `null` in the column. -/
structure SparesNulls (m : Memory) (column : String) (v : Operand) : Prop where
  /-- A select gives what it would give without these rows. -/
  selected : ∀ sql params table, SelectsBy (normalSql (Sql.bind sql params)) table column v →
    (m.select sql params).1 = ((m.withoutNulls table column).select sql params).1
  /-- A deletion leaves them as they are, in their order. -/
  deleted : ∀ sql table, DeletesBy (normalSql sql) table column v →
    (m.write sql).2.nullRows table column = m.nullRows table column

/-- Every statement by the equality with the empty string takes all rows that are `null` in the
column. -/
structure TakesNulls (m : Memory) (column : String) : Prop where
  /-- A select that is answered counts them. -/
  selected : ∀ sql table r, SelectsBy sql table column (.string "") → m.answer sql = .ok r →
    (m.nullRows table column).length ≤ r.total
  /-- A deletion leaves none of them. -/
  deleted : ∀ sql table, DeletesBy (normalSql sql) table column (.string "") →
    (m.write sql).2.nullRows table column = []

/-- What the equality of a column with a literal means for rows that are `null` there. -/
structure NullLaw (m : Memory) (column : String) (v : Operand) : Prop where
  /-- Such an equality is read as the comparison that it is. -/
  read : ∀ p, IsEquation (trimChars p) column.toList v →
    equality? (trimChars p) = some (column, v.value)
  spared : v ≠ .string "" → m.SparesNulls column v
  taken : v = .string "" → m.TakesNulls column

/-- **Equalities spare `null`, but for the empty string.** In every store, for every column and
every literal. -/
theorem equality_spares_nulls (m : Memory) (column : String) (v : Operand) :
    m.NullLaw column v where
  read p h := by rw [equality?_of_isEquation h, String.ofList_toList]
  spared hv := {
    selected := fun _ _ _ h => select_congr rfl (answer_withoutNulls h hv).symm
    deleted := fun _ _ h => by rw [nullRows_write_of_deletesBy h, if_neg hv] }
  taken hv := {
    selected := fun _ _ _ h hr => length_nullRows_le h hr
    deleted := fun _ _ h => by rw [nullRows_write_of_deletesBy h, if_pos rfl] }

/-- A table with a `null`, an empty string, a missing cell, a zero and a text. -/
def gaps : Memory :=
  ⟨.ofList [("t", ⟨.table, "CREATE TABLE t (c Nullable(String))",
    [.ofList [("c", .null)], .ofList [("c", .string "")], .ofList [("d", .int 1)],
      .ofList [("c", .int 0)], .ofList [("c", .string "it's")]]⟩)], [], []⟩

/-- A select and a deletion, spaced and in parentheses, by a zero and by a text. -/
theorem equality_spares_nulls_spaced :
    SelectsBy "SELECT * FROM t WHERE ( c =0 ) LIMIT 5" "t" "c" (.int 0) ∧
      gaps.SparesNulls "c" (.int 0) ∧
      DeletesBy "ALTER TABLE t DELETE WHERE (c= 'it\\'s' )" "t" "c" (.string "it's") ∧
      gaps.SparesNulls "c" (.string "it's") := by
  have hzero := equality_spares_nulls gaps "c" (.int 0)
  have htext := equality_spares_nulls gaps "c" (.string "it's")
  have hcolumn : IsColumn "c".toList := PlainName.isColumn (by decide)
  have hspaced : IsEquation "( c =0 )".toList "c".toList (.int 0) :=
    ⟨hcolumn, ['('], [' '], [' '], [], [' '], [')'], by decide +kernel, .inr rfl, .inr rfl,
      isGap_space, isGap_space, isGap_nil, isGap_space⟩
  have hclosed : IsEquation "(c= 'it\\'s' )".toList "c".toList (.string "it's") :=
    ⟨hcolumn, ['('], [], [], [' '], [' '], [')'], by decide +kernel, .inr rfl, .inr rfl,
      isGap_nil, isGap_nil, isGap_space, isGap_space⟩
  refine ⟨⟨⟨['*'], ['t'], ⟨some "( c =0 )".toList, none, some ['5'], none⟩⟩, _, by decide +kernel,
    rfl, rfl, hzero.read _ hspaced⟩, hzero.spared (by decide), ?_, htext.spared (by decide)⟩
  exact ⟨['t'], "(c= 'it\\'s' )".toList, by decide +kernel, rfl, htext.read _ hclosed⟩

/-- A `null` is found and removed by an equality with the empty string. -/
theorem empty_string_takes_null :
    ¬ gaps.SparesNulls "c" (.string "") ∧
      (gaps.select "SELECT * FROM t WHERE c = ''" .empty).1
        = .ok ⟨[.ofList [("c", .null)], .ofList [("c", .string "")]], 2⟩ ∧
      (gaps.write "ALTER TABLE t DELETE WHERE c = ''").2.rowsOf "t" = .ok
        [.ofList [("d", .int 1)], .ofList [("c", .int 0)], .ofList [("c", .string "it's")]] := by
  refine ⟨fun h => ?_, by decide +kernel, by decide +kernel⟩
  have hdeletes : DeletesBy (normalSql "ALTER TABLE t DELETE WHERE c = ''") "t" "c" (.string "") :=
    ⟨"t".toList, "c = ''".toList, by decide +kernel, by decide +kernel, by decide +kernel⟩
  have hkept := h.deleted _ _ hdeletes
  rw [nullRows_write_of_deletesBy hdeletes, if_pos rfl] at hkept
  exact absurd hkept (by decide +kernel)

end Memory

end Colonnade.Store
