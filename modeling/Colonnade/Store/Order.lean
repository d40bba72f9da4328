import Colonnade.Store.Shape

/-!
# The order of cells and the order of rows

How a store in memory compares two cells, and the stable sort by keys built on it. A missing cell is
below every present one. Cells that are integers are compared as integers, unless both are strings;
all others by their plain text.
-/

namespace Colonnade.Store

/-- The order of two present cells. -/
def comparePresent (a b : Value) : Ordering :=
  match a.asInt64?, b.asInt64?, a, b with
  | some _, some _, .string _, .string _ => compare a.plain b.plain
  | some x, some y, _, _ => compare x.toInt y.toInt
  | _, _, _, _ => compare a.plain b.plain

/-- Two strings are compared as they are, also those that read as integers. -/
theorem comparePresent_string (a b : String) :
    comparePresent (.string a) (.string b) = compare a b := by
  unfold comparePresent
  cases (Value.string a).asInt64? <;> cases (Value.string b).asInt64? <;> rfl

/-- The order of two cells, either of which may be missing. -/
def compareCells : Option Value → Option Value → Ordering
  | none, none => .eq
  | none, some _ => .lt
  | some _, none => .gt
  | some a, some b => comparePresent a b

/-- Whether a row has a cell in the column that compares equal to the value. -/
def matchesCell (column : String) (value : Value) (row : Row) : Bool :=
  match row.get? column with
  | some cell => compareCells (some cell) (some value) == .eq
  | none => false

/-- The order of two rows: that of the first key in which they differ. -/
def compareRows : List SortKey → Row → Row → Ordering
  | [], _, _ => .eq
  | key :: keys, a, b =>
    let order := compareCells (a.get? key.column) (b.get? key.column)
    (if key.descending then order.swap else order).then (compareRows keys a b)

/-- Puts an element into a list that is sorted downwards: before the first element it is not
below. -/
def insertDown {α : Type} (cmp : α → α → Ordering) (x : α) : List α → List α
  | [] => [x]
  | y :: ys => if cmp x y = .lt then y :: insertDown cmp x ys else x :: y :: ys

/-- The elements sorted upwards; equal ones keep their places. -/
def sortBy {α : Type} (cmp : α → α → Ordering) (l : List α) : List α :=
  (l.foldl (fun sorted x => insertDown cmp x sorted) []).reverse

theorem insertDown_perm {α : Type} (cmp : α → α → Ordering) (x : α) (l : List α) :
    (insertDown cmp x l).Perm (x :: l) := by
  induction l with
  | nil => exact List.Perm.refl _
  | cons y ys ih =>
    simp only [insertDown]
    split
    · exact (ih.cons y).trans (List.Perm.swap x y ys)
    · exact List.Perm.refl _

theorem foldl_insertDown_perm {α : Type} (cmp : α → α → Ordering) (l acc : List α) :
    (l.foldl (fun sorted x => insertDown cmp x sorted) acc).Perm (l.reverse ++ acc) := by
  induction l generalizing acc with
  | nil => exact List.Perm.refl _
  | cons x xs ih =>
    refine (ih _).trans ?_
    simp only [List.reverse_cons, List.append_assoc, List.singleton_append]
    exact (insertDown_perm cmp x acc).append_left _

/-- Sorting loses and adds nothing. -/
theorem sortBy_perm {α : Type} (cmp : α → α → Ordering) (l : List α) : (sortBy cmp l).Perm l := by
  have h := foldl_insertDown_perm cmp l []
  rw [List.append_nil] at h
  exact (List.reverse_perm _).trans (h.trans (List.reverse_perm l))

/-! ## Sorted lists

Cells of different kinds are not ordered transitively, so something is known of sorted lists only
where all elements are comparable. -/

/-- The comparison of comparable elements tells which of them may stand before which. -/
structure Sorts {α : Type} (cmp : α → α → Ordering) (comparable : α → Prop) (r : α → α → Prop) :
    Prop where
  trans : ∀ a b c, r a b → r b c → r a c
  below : ∀ a b, comparable a → comparable b → cmp a b = .lt → r a b
  notBelow : ∀ a b, comparable a → comparable b → cmp a b ≠ .lt → r b a

namespace Sorts

variable {α : Type} {cmp : α → α → Ordering} {comparable : α → Prop} {r : α → α → Prop}
  (h : Sorts cmp comparable r)

include h

theorem pairwise_insertDown {x : α} (hx : comparable x) {l : List α} (hl : ∀ y ∈ l, comparable y)
    (hsorted : l.Pairwise fun a b => r b a) :
    (insertDown cmp x l).Pairwise fun a b => r b a := by
  induction l with
  | nil => exact List.pairwise_singleton _ x
  | cons y ys ih =>
    obtain ⟨hy, hys⟩ := List.forall_mem_cons.1 hl
    obtain ⟨hrest, hpairs⟩ := List.pairwise_cons.1 hsorted
    rw [insertDown]
    split
    · next hlt =>
      refine List.pairwise_cons.2 ⟨fun z hz => ?_, ih hys hpairs⟩
      rcases List.mem_cons.1 ((insertDown_perm cmp x ys).mem_iff.1 hz) with rfl | hz
      · exact h.below _ _ hx hy hlt
      · exact hrest z hz
    · next hlt =>
      have hyx := h.notBelow x y hx hy hlt
      refine List.pairwise_cons.2 ⟨fun z hz => ?_, hsorted⟩
      rcases List.mem_cons.1 hz with rfl | hz
      · exact hyx
      · exact h.trans _ _ _ (hrest z hz) hyx

theorem pairwise_foldl_insertDown {l acc : List α} (hl : ∀ x ∈ l, comparable x)
    (hacc : ∀ x ∈ acc, comparable x) (hsorted : acc.Pairwise fun a b => r b a) :
    (l.foldl (fun sorted x => insertDown cmp x sorted) acc).Pairwise fun a b => r b a := by
  induction l generalizing acc with
  | nil => exact hsorted
  | cons x xs ih =>
    obtain ⟨hx, hxs⟩ := List.forall_mem_cons.1 hl
    refine ih hxs (fun y hy => ?_) (h.pairwise_insertDown hx hacc hsorted)
    rcases List.mem_cons.1 ((insertDown_perm cmp x acc).mem_iff.1 hy) with rfl | hy
    · exact hx
    · exact hacc y hy

/-- Sorting puts no element before one that is below it. -/
theorem pairwise_sortBy {l : List α} (hl : ∀ x ∈ l, comparable x) : (sortBy cmp l).Pairwise r :=
  List.pairwise_reverse.2
    (h.pairwise_foldl_insertDown hl (fun _ hx => absurd hx List.not_mem_nil) .nil)

/-- The first of the sorted elements may stand before all others. -/
theorem head?_sortBy {l : List α} (hl : ∀ x ∈ l, comparable x) {x : α}
    (hhead : (sortBy cmp l).head? = some x) : x ∈ l ∧ ∀ y ∈ l, y = x ∨ r x y := by
  have hsorted := h.pairwise_sortBy hl
  have hperm := sortBy_perm cmp l
  obtain ⟨rest, hrest⟩ := List.head?_eq_some_iff.1 hhead
  rw [hrest] at hsorted hperm
  refine ⟨hperm.mem_iff.1 List.mem_cons_self, fun y hy => ?_⟩
  rcases List.mem_cons.1 (hperm.mem_iff.2 hy) with rfl | hy
  · exact .inl rfl
  · exact .inr ((List.pairwise_cons.1 hsorted).1 y hy)

end Sorts

end Colonnade.Store
