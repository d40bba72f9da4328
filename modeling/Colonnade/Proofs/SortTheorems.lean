import Colonnade.Store.Order

/-!
# Stable sorts

A sort is stable if elements that the order does not tell apart keep their places. Two sorted lists
with the same elements of every class are one list (`eq_of_classOf_eq`), so there is only one stable
sort, and a store in memory sorts as any other does (`sortBy_eq_mergeSort`).

Cells are ordered by their kinds, and within a kind by what they hold (`cellOrder`). A store in
memory orders cells of one kind in the same way (`compareRows_eq_rowOrder`).
-/

namespace Colonnade.Store

section Stable

variable {α : Type}

/-! ## One stable sort -/

section Places

variable {cmp : α → α → Ordering} {p : α → Bool}
  (h : ∀ x y, p x = true → p y = true → cmp x y ≠ .lt)

include h

/-- An element that goes into a list goes before those it is not below. -/
theorem filter_insertDown (x : α) (l : List α) :
    (insertDown cmp x l).filter p = (x :: l).filter p := by
  induction l with
  | nil => rfl
  | cons y ys ih =>
    rw [insertDown]
    split
    · next hlt =>
      by_cases hx : p x = true
      · have hy : ¬ p y = true := fun hy => h x y hx hy hlt
        simpa [List.filter_cons, hx, hy] using ih
      · rw [List.filter_cons, ih]
        simp [List.filter_cons, hx]
    · rfl

theorem filter_foldl_insertDown (l acc : List α) :
    (l.foldl (fun sorted x => insertDown cmp x sorted) acc).filter p
      = (l.reverse ++ acc).filter p := by
  induction l generalizing acc with
  | nil => rfl
  | cons x l ih =>
    rw [List.foldl_cons, ih, List.filter_append, filter_insertDown h, ← List.filter_append,
      List.reverse_cons, List.append_assoc, List.singleton_append]

/-- Sorting keeps the places of elements none of which is below another. -/
theorem filter_sortBy (l : List α) : (sortBy cmp l).filter p = l.filter p := by
  have hfold := filter_foldl_insertDown h l []
  rw [List.append_nil] at hfold
  rw [sortBy, List.filter_reverse, hfold, List.filter_reverse, List.reverse_reverse]

end Places

/-- The elements of a list that the order does not tell apart from the given one. -/
def classOf (cmp : α → α → Ordering) (a : α) (l : List α) : List α :=
  l.filter fun b => cmp a b == .eq

theorem mem_classOf {cmp : α → α → Ordering} {a b : α} {l : List α} :
    b ∈ classOf cmp a l ↔ b ∈ l ∧ cmp a b = .eq := by
  simp [classOf]

/-- Whether an element may stand before another. -/
def mayPrecede (cmp : α → α → Ordering) (a b : α) : Bool := (cmp a b).isLE

variable {cmp : α → α → Ordering} [Std.TransCmp cmp]

theorem mayPrecede_refl (a : α) : mayPrecede cmp a a = true := by
  have hself : cmp a a = .eq := Std.ReflCmp.compare_self
  rw [mayPrecede, hself]
  rfl

theorem mayPrecede_trans (a b c : α) :
    mayPrecede cmp a b = true → mayPrecede cmp b c = true → mayPrecede cmp a c = true :=
  Std.TransCmp.isLE_trans

theorem mayPrecede_total (a b : α) : (mayPrecede cmp a b || mayPrecede cmp b a) = true := by
  have hswap : cmp b a = (cmp a b).swap := Std.OrientedCmp.eq_swap
  rw [mayPrecede, mayPrecede, hswap]
  cases cmp a b <;> rfl

/-- The order does not tell the elements of a class apart. -/
theorem compare_of_class {a x y : α} (hx : cmp a x = .eq) (hy : cmp a y = .eq) : cmp x y = .eq :=
  Std.TransCmp.eq_trans (Std.OrientedCmp.eq_symm hx) hy

theorem classOf_sortBy (a : α) (l : List α) : classOf cmp a (sortBy cmp l) = classOf cmp a l :=
  filter_sortBy (fun x y hx hy => by
    rw [compare_of_class (eq_of_beq hx) (eq_of_beq hy)]
    decide) l

theorem classOf_mergeSort (a : α) (l : List α) :
    classOf cmp a (l.mergeSort (mayPrecede cmp)) = classOf cmp a l := by
  have hsorted : (classOf cmp a l).Pairwise fun x y => mayPrecede cmp x y = true := by
    rw [List.pairwise_iff_forall_sublist]
    intro x y hxy
    have hx := mem_classOf.1 (hxy.subset List.mem_cons_self)
    have hy := mem_classOf.1 (hxy.subset (List.mem_cons_of_mem x List.mem_cons_self))
    rw [mayPrecede, compare_of_class hx.2 hy.2]
    rfl
  have hsublist : (classOf cmp a l).Sublist (l.mergeSort (mayPrecede cmp)) :=
    List.sublist_mergeSort mayPrecede_trans mayPrecede_total hsorted List.filter_sublist
  have hclass : (classOf cmp a l).Sublist (classOf cmp a (l.mergeSort (mayPrecede cmp))) := by
    have hfilter := hsublist.filter fun b => cmp a b == .eq
    simp only [classOf, List.filter_filter, Bool.and_self] at hfilter
    exact hfilter
  have hperm := (List.mergeSort_perm l (mayPrecede cmp)).filter fun b => cmp a b == .eq
  exact (hclass.eq_of_length hperm.length_eq.symm).symm

theorem mem_iff_of_classOf_eq {l l' : List α} (h : ∀ a, classOf cmp a l = classOf cmp a l')
    (a : α) : a ∈ l ↔ a ∈ l' := by
  have hself : cmp a a = .eq := Std.ReflCmp.compare_self
  simpa [mem_classOf, hself] using congrArg (a ∈ ·) (h a)

/-- The first of sorted elements may stand before each of them. -/
theorem mayPrecede_of_mem {a b : α} {l : List α}
    (h : (a :: l).Pairwise fun x y => mayPrecede cmp x y = true) (hb : b ∈ a :: l) :
    mayPrecede cmp a b = true := by
  rcases List.mem_cons.1 hb with rfl | hb
  · exact mayPrecede_refl b
  · exact (List.pairwise_cons.1 h).1 b hb

/-- Sorted lists that agree in every class agree. -/
theorem eq_of_classOf_eq {l l' : List α} (hl : l.Pairwise fun a b => mayPrecede cmp a b = true)
    (hl' : l'.Pairwise fun a b => mayPrecede cmp a b = true)
    (h : ∀ a, classOf cmp a l = classOf cmp a l') : l = l' := by
  have hmem := mem_iff_of_classOf_eq h
  induction l generalizing l' with
  | nil => simpa [List.eq_nil_iff_forall_not_mem, eq_comm] using hmem
  | cons a l ih =>
    cases l' with
    | nil => exact absurd ((hmem a).1 List.mem_cons_self) List.not_mem_nil
    | cons b l' =>
      -- each head may stand before the other, so both are the first of one class
      have heq : cmp a b = .eq := Std.OrientedCmp.isLE_antisymm
        (mayPrecede_of_mem hl ((hmem b).2 List.mem_cons_self))
        (mayPrecede_of_mem hl' ((hmem a).1 List.mem_cons_self))
      have hself : cmp a a = .eq := Std.ReflCmp.compare_self
      have hheads := h a
      simp only [classOf, List.filter_cons, hself, heq, beq_self_eq_true, if_true] at hheads
      obtain ⟨rfl, -⟩ := List.cons.inj hheads
      have htails (c : α) : classOf cmp c l = classOf cmp c l' := by
        have hc := h c
        simp only [classOf, List.filter_cons] at hc
        split at hc
        · exact (List.cons.inj hc).2
        · exact hc
      rw [ih hl.of_cons hl'.of_cons htails (mem_iff_of_classOf_eq htails)]

theorem sorts_mayPrecede :
    Sorts cmp (fun _ => True) fun a b => mayPrecede cmp a b = true where
  trans := mayPrecede_trans
  below a b _ _ h := by
    rw [mayPrecede, h]
    rfl
  notBelow a b _ _ h := by
    have hswap : cmp b a = (cmp a b).swap := Std.OrientedCmp.eq_swap
    rw [mayPrecede, hswap]
    revert h
    cases cmp a b <;> decide

/-- A store in memory sorts as every stable sort does. -/
theorem sortBy_eq_mergeSort (l : List α) : sortBy cmp l = l.mergeSort (mayPrecede cmp) := by
  refine eq_of_classOf_eq (sorts_mayPrecede.pairwise_sortBy fun _ _ => trivial)
    (List.pairwise_mergeSort mayPrecede_trans mayPrecede_total l) fun a => ?_
  rw [classOf_sortBy, classOf_mergeSort]

end Stable

/-! ## Sorting by orders that agree -/

section Agree

variable {α : Type} {cmp cmp' : α → α → Ordering}

theorem insertDown_congr {x : α} {l : List α} (h : ∀ y ∈ l, cmp x y = cmp' x y) :
    insertDown cmp x l = insertDown cmp' x l := by
  induction l with
  | nil => rfl
  | cons y ys ih =>
    rw [insertDown, insertDown, h y List.mem_cons_self,
      ih fun z hz => h z (List.mem_cons_of_mem y hz)]

theorem foldl_insertDown_congr {l rest acc : List α} (h : ∀ x ∈ l, ∀ y ∈ l, cmp x y = cmp' x y)
    (hrest : ∀ x ∈ rest, x ∈ l) (hacc : ∀ x ∈ acc, x ∈ l) :
    rest.foldl (fun sorted x => insertDown cmp x sorted) acc
      = rest.foldl (fun sorted x => insertDown cmp' x sorted) acc := by
  induction rest generalizing acc with
  | nil => rfl
  | cons x rest ih =>
    obtain ⟨hx, hrest⟩ := List.forall_mem_cons.1 hrest
    have hinsert : ∀ y ∈ insertDown cmp x acc, y ∈ l := fun y hy =>
      List.forall_mem_cons.2 ⟨hx, hacc⟩ y ((insertDown_perm cmp x acc).mem_iff.1 hy)
    rw [List.foldl_cons, List.foldl_cons, ih hrest hinsert,
      insertDown_congr fun y hy => h x hx y (hacc y hy)]

/-- Only the order of the elements themselves counts. -/
theorem sortBy_congr {l : List α} (h : ∀ x ∈ l, ∀ y ∈ l, cmp x y = cmp' x y) :
    sortBy cmp l = sortBy cmp' l := by
  rw [sortBy, sortBy, foldl_insertDown_congr h (fun _ hx => hx)
    fun _ hx => absurd hx List.not_mem_nil]

end Agree

/-! ## Cells and rows -/

/-- The place of a cell among the kinds of cells: a missing one is below all others. -/
def cellKind : Option Value → Nat
  | none => 0
  | some (.int _) => 1
  | some (.string _) => 2
  | some _ => 3

/-- The integer in a cell. -/
def cellNumber : Option Value → Int
  | some (.int n) => n.toInt
  | _ => 0

/-- The string in a cell. -/
def cellText : Option Value → String
  | some (.string s) => s
  | _ => ""

/-- The order of cells: by their kinds, integers by size, strings by their characters. -/
def cellOrder : Option Value → Option Value → Ordering :=
  compareLex (compareOn cellKind) (compareLex (compareOn cellNumber) (compareOn cellText))

instance : Std.TransCmp cellOrder :=
  inferInstanceAs (Std.TransCmp (compareLex _ (compareLex _ _)))

/-- The order of rows by one key. -/
def keyOrder (key : SortKey) (a b : Row) : Ordering :=
  if key.descending then cellOrder (b.get? key.column) (a.get? key.column)
  else cellOrder (a.get? key.column) (b.get? key.column)

/-- The order of rows by their keys, the first key first. -/
def rowOrder : List SortKey → Row → Row → Ordering
  | [] => fun _ _ => .eq
  | key :: keys => compareLex (keyOrder key) (rowOrder keys)

instance (key : SortKey) : Std.TransCmp (keyOrder key) where
  eq_swap := by
    intro a b
    unfold keyOrder
    split <;> exact Std.OrientedCmp.eq_swap
  isLE_trans := by
    intro a b c hab hbc
    unfold keyOrder at hab hbc ⊢
    split
    · next hdown =>
      rw [if_pos hdown] at hab hbc
      exact Std.TransCmp.isLE_trans hbc hab
    · next hup =>
      rw [if_neg hup] at hab hbc
      exact Std.TransCmp.isLE_trans hab hbc

instance (keys : List SortKey) : Std.TransCmp (rowOrder keys) := by
  induction keys with
  | nil => exact { eq_swap := rfl, isLE_trans := fun _ _ => rfl }
  | cons key keys ih => exact inferInstanceAs (Std.TransCmp (compareLex _ _))

/-- A column whose cells are all integers or all strings; some may be missing. -/
def OneKind (rows : List Row) (column : String) : Prop :=
  (∀ row ∈ rows, ∀ v ∈ row.get? column, ∃ n, v = .int n) ∨
    ∀ row ∈ rows, ∀ v ∈ row.get? column, ∃ s, v = .string s

instance : (v : Value) → Decidable (∃ n, v = .int n)
  | .int n => isTrue ⟨n, rfl⟩
  | .null | .bool _ | .uint _ | .float _ | .string _ | .array _ =>
    isFalse (by rintro ⟨_, h⟩; cases h)

instance : (v : Value) → Decidable (∃ s, v = .string s)
  | .string s => isTrue ⟨s, rfl⟩
  | .null | .bool _ | .int _ | .uint _ | .float _ | .array _ =>
    isFalse (by rintro ⟨_, h⟩; cases h)

instance (rows : List Row) (column : String) : Decidable (OneKind rows column) :=
  inferInstanceAs (Decidable (_ ∨ _))

theorem OneKind.mono {rows rows' : List Row} {column : String} (h : OneKind rows column)
    (hsub : ∀ row ∈ rows', row ∈ rows) : OneKind rows' column :=
  h.imp (fun h row hrow => h row (hsub row hrow)) fun h row hrow => h row (hsub row hrow)

/-- Cells of one kind are compared in their order. -/
theorem compareCells_eq_cellOrder {rows : List Row} {column : String} (h : OneKind rows column)
    {a b : Row} (ha : a ∈ rows) (hb : b ∈ rows) :
    compareCells (a.get? column) (b.get? column)
      = cellOrder (a.get? column) (b.get? column) := by
  cases hacell : a.get? column with
  | none =>
    cases hbcell : b.get? column with
    | none => rfl
    | some y => rcases h with h | h <;> obtain ⟨_, rfl⟩ := h b hb y hbcell <;> rfl
  | some x =>
    cases hbcell : b.get? column with
    | none => rcases h with h | h <;> obtain ⟨_, rfl⟩ := h a ha x hacell <;> rfl
    | some y =>
      rcases h with h | h
      · obtain ⟨n, rfl⟩ := h a ha x hacell
        obtain ⟨k, rfl⟩ := h b hb y hbcell
        have horder : cellOrder (some (.int n)) (some (.int k))
            = (compare n.toInt k.toInt).then .eq := rfl
        have hcells : compareCells (some (.int n)) (some (.int k)) = compare n.toInt k.toInt := rfl
        rw [horder, hcells, Ordering.then_eq]
      · obtain ⟨s, rfl⟩ := h a ha x hacell
        obtain ⟨t, rfl⟩ := h b hb y hbcell
        exact comparePresent_string s t

theorem compareRows_eq_rowOrder {rows : List Row} {keys : List SortKey}
    (h : ∀ key ∈ keys, OneKind rows key.column) {a b : Row} (ha : a ∈ rows) (hb : b ∈ rows) :
    compareRows keys a b = rowOrder keys a b := by
  induction keys with
  | nil => rfl
  | cons key keys ih =>
    obtain ⟨hkey, hkeys⟩ := List.forall_mem_cons.1 h
    have hcells := compareCells_eq_cellOrder hkey ha hb
    have hswap : cellOrder (b.get? key.column) (a.get? key.column)
        = (cellOrder (a.get? key.column) (b.get? key.column)).swap := Std.OrientedCmp.eq_swap
    rw [compareRows, rowOrder, compareLex, keyOrder, ih hkeys, hcells, hswap]

/-- Where each key is of one kind, a store in memory sorts the rows stably by their keys. -/
theorem sortBy_compareRows {rows : List Row} {keys : List SortKey}
    (h : ∀ key ∈ keys, OneKind rows key.column) :
    sortBy (compareRows keys) rows = rows.mergeSort (mayPrecede (rowOrder keys)) := by
  rw [sortBy_congr fun a ha b hb => compareRows_eq_rowOrder h ha hb, sortBy_eq_mergeSort]

end Colonnade.Store
