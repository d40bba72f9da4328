import Colonnade.Proofs.SortTheorems

/-!
# Where the comparison of cells is an order

A store in memory compares two cells as integers or by their texts, and which of the two depends on
the pair. Numbers are in another order than their texts, so where both ways are taken the comparison
is no order, not even among unsigned numbers (`compareCells_not_transitive`). Where all pairs are
compared in one way, it compares what the cells hold, as numbers or as texts
(`compareCells_eq_numberKey`, `compareCells_eq_textKey`), and rows are sorted by such columns
(`compareCells_orders_uniform`).
-/

namespace Colonnade.Store

/-! ## Two ways to compare -/

/-- Whether two values are compared as integers: both read as one, and not both are strings. -/
def ComparedAsIntegers (a b : Value) : Prop :=
  a.asInt64?.isSome ∧ b.asInt64?.isSome ∧ (a.asString? = none ∨ b.asString? = none)

instance (a b : Value) : Decidable (ComparedAsIntegers a b) :=
  inferInstanceAs (Decidable (_ ∧ _ ∧ _))

theorem ComparedAsIntegers.symm {a b : Value} (h : ComparedAsIntegers a b) :
    ComparedAsIntegers b a :=
  ⟨h.2.1, h.1, h.2.2.symm⟩

/-- The integer that a value reads as. -/
def integerOf (v : Value) : Int := (v.asInt64?.map Int64.toInt).getD 0

theorem eq_string_of_asString? {v : Value} {s : String} (h : v.asString? = some s) :
    v = .string s := by
  cases v with
  | string t => exact congrArg Value.string (Option.some.inj h)
  | _ => cases h

theorem comparePresent_eq (a b : Value) :
    comparePresent a b = if ComparedAsIntegers a b then compare (integerOf a) (integerOf b)
      else compare a.plain b.plain := by
  unfold comparePresent
  split
  · exact (if_neg fun h => by simp [ComparedAsIntegers, Value.asString?] at h).symm
  · next a b _ _ _ _ x y hstrings hx hy =>
    have hone : a.asString? = none ∨ b.asString? = none := by
      cases ha : a.asString? with
      | none => exact .inl rfl
      | some s =>
        cases hb : b.asString? with
        | none => exact .inr rfl
        | some t =>
          exact (hstrings s t (eq_string_of_asString? ha) (eq_string_of_asString? hb)).elim
    rw [if_pos ⟨by simp [hx], by simp [hy], hone⟩, integerOf, integerOf, hx, hy]
    rfl
  · next a b _ _ _ _ hnone _ =>
    refine (if_neg fun ⟨ha, hb, _⟩ => ?_).symm
    obtain ⟨x, hx⟩ := Option.isSome_iff_exists.1 ha
    obtain ⟨y, hy⟩ := Option.isSome_iff_exists.1 hb
    exact hnone x y hx hy

/-- A value is equal to itself in either way. -/
theorem comparePresent_self (v : Value) : comparePresent v v = .eq := by
  rw [comparePresent_eq]
  split <;> exact Std.ReflCmp.compare_self

/-- Comparing the other way round gives the reverse. -/
theorem compareCells_swap (a b : Option Value) : compareCells b a = (compareCells a b).swap := by
  cases a with
  | none => cases b <;> rfl
  | some a =>
    cases b with
    | none => rfl
    | some b =>
      rw [compareCells, compareCells, comparePresent_eq, comparePresent_eq a]
      by_cases h : ComparedAsIntegers a b
      · rw [if_pos h, if_pos h.symm]
        exact Std.OrientedOrd.eq_swap
      · rw [if_neg h, if_neg fun h' => h h'.symm]
        exact Std.OrientedOrd.eq_swap

/-! ## Cells without a text -/

/-- What reads as an integer has a text. -/
theorem asInt64?_eq_none_of_plain {v : Value} (h : v.plain = "") : v.asInt64? = none := by
  cases v with
  | null | float | array => rfl
  | bool b => cases b <;> exact absurd h (by decide)
  | int n => exact absurd h (Decimal.toString_int_ne_empty n.toInt)
  | uint n => exact absurd h (Decimal.toString_int_ne_empty n.toNat)
  | string s =>
    obtain rfl : s = "" := h
    decide

theorem compare_empty {s : String} (h : s ≠ "") : compare "" s = .lt := by
  obtain ⟨c, cs, hs⟩ := List.exists_cons_of_ne_nil (mt String.toList_eq_nil_iff.1 h)
  have hlt : "" < s := by
    rw [String.lt_iff, hs]
    exact List.nil_lt_cons c cs
  exact compareOfLessAndEq_eq_lt.2 hlt

/-- A value without a text is compared by it. -/
theorem comparePresent_of_plain {v : Value} (h : v.plain = "") (w : Value) :
    comparePresent v w = compare "" w.plain := by
  have hnone : ¬ ComparedAsIntegers v w := fun hboth => by
    have hsome := hboth.1
    rw [asInt64?_eq_none_of_plain h] at hsome
    cases hsome
  rw [comparePresent_eq, if_neg hnone, h]

/-! ## Cells compared in one way -/

/-- Whether the values of two cells are compared as integers, if they differ and have a text. -/
def MeetAsIntegers (a b : Option Value) : Prop :=
  ∀ v ∈ a, ∀ w ∈ b, v ≠ w → v.plain ≠ "" → w.plain ≠ "" → ComparedAsIntegers v w

/-- Whether the values of two cells are compared by their texts, if they differ. -/
def MeetAsTexts (a b : Option Value) : Prop :=
  ∀ v ∈ a, ∀ w ∈ b, v ≠ w → ¬ ComparedAsIntegers v w

instance (a b : Option Value) : Decidable (MeetAsIntegers a b) :=
  inferInstanceAs (Decidable (∀ _ ∈ _, _))

instance (a b : Option Value) : Decidable (MeetAsTexts a b) :=
  inferInstanceAs (Decidable (∀ _ ∈ _, _))

/-- Whether all cells are compared in one way: every two as integers, or every two by their texts. -/
def Uniform (cells : List (Option Value)) : Prop :=
  (∀ a ∈ cells, ∀ b ∈ cells, MeetAsIntegers a b) ∨ ∀ a ∈ cells, ∀ b ∈ cells, MeetAsTexts a b

instance (cells : List (Option Value)) : Decidable (Uniform cells) :=
  inferInstanceAs (Decidable (_ ∨ _))

/-- The integer in a cell; a missing cell and one without a text are below all that have one. -/
def numberKey (cell : Option Value) : Option (Option Int) :=
  cell.map fun v => if v.plain = "" then none else some (integerOf v)

/-- The text of a cell; a missing cell is below all others. -/
def textKey (cell : Option Value) : Option String := cell.map Value.plain

theorem numberKey_of_plain {v : Value} (h : v.plain = "") : numberKey (some v) = some none :=
  congrArg some (if_pos h)

theorem numberKey_of_plain_ne {v : Value} (h : v.plain ≠ "") :
    numberKey (some v) = some (some (integerOf v)) :=
  congrArg some (if_neg h)

theorem compareCells_eq_numberKey {a b : Option Value} (h : MeetAsIntegers a b) :
    compareCells a b = compare (numberKey a) (numberKey b) := by
  cases a with
  | none => cases b <;> rfl
  | some v =>
    cases b with
    | none => rfl
    | some w =>
      by_cases hvw : v = w
      · rw [hvw, compareCells, comparePresent_self]
        exact Std.ReflOrd.compare_self.symm
      by_cases hv : v.plain = ""
      · rw [compareCells, comparePresent_of_plain hv, numberKey_of_plain hv]
        by_cases hw : w.plain = ""
        · rw [hw, numberKey_of_plain hw]
          rfl
        · rw [compare_empty hw, numberKey_of_plain_ne hw]
          rfl
      by_cases hw : w.plain = ""
      · rw [compareCells_swap, compareCells, comparePresent_of_plain hw, compare_empty hv,
          numberKey_of_plain hw, numberKey_of_plain_ne hv]
        rfl
      · rw [compareCells, comparePresent_eq, if_pos (h v rfl w rfl hvw hv hw),
          numberKey_of_plain_ne hv, numberKey_of_plain_ne hw]
        rfl

theorem compareCells_eq_textKey {a b : Option Value} (h : MeetAsTexts a b) :
    compareCells a b = compare (textKey a) (textKey b) := by
  cases a with
  | none => cases b <;> rfl
  | some v =>
    cases b with
    | none => rfl
    | some w =>
      by_cases hvw : v = w
      · rw [hvw, compareCells, comparePresent_self]
        exact Std.ReflOrd.compare_self.symm
      · rw [compareCells, comparePresent_eq, if_neg (h v rfl w rfl hvw)]
        rfl

theorem Uniform.isLE_trans {cells : List (Option Value)} (h : Uniform cells) {a b c : Option Value}
    (ha : a ∈ cells) (hb : b ∈ cells) (hc : c ∈ cells) (hab : (compareCells a b).isLE)
    (hbc : (compareCells b c).isLE) : (compareCells a c).isLE := by
  rcases h with h | h
  · rw [compareCells_eq_numberKey (h a ha b hb)] at hab
    rw [compareCells_eq_numberKey (h b hb c hc)] at hbc
    rw [compareCells_eq_numberKey (h a ha c hc)]
    exact Std.TransOrd.isLE_trans hab hbc
  · rw [compareCells_eq_textKey (h a ha b hb)] at hab
    rw [compareCells_eq_textKey (h b hb c hc)] at hbc
    rw [compareCells_eq_textKey (h a ha c hc)]
    exact Std.TransOrd.isLE_trans hab hbc

/-! ## Rows -/

theorem compareRows_swap (keys : List SortKey) (a b : Row) :
    compareRows keys b a = (compareRows keys a b).swap := by
  induction keys with
  | nil => rfl
  | cons key keys ih =>
    rw [compareRows, compareRows, Ordering.swap_then, ← ih, compareCells_swap (a.get? key.column)]
    split <;> rfl

/-- Rows whose cells under a key are compared in one way are ordered by it, upwards and
downwards. -/
theorem transCmp_key {rows : List Row} {key : SortKey}
    (h : Uniform (rows.map fun row => row.get? key.column)) :
    Std.TransCmp fun a b : { row // row ∈ rows } =>
      if key.descending then (compareCells (a.1.get? key.column) (b.1.get? key.column)).swap
      else compareCells (a.1.get? key.column) (b.1.get? key.column) := by
  have hcell (a : { row // row ∈ rows }) :
      a.1.get? key.column ∈ rows.map fun row => row.get? key.column := List.mem_map_of_mem a.2
  have hup : Std.TransCmp fun a b : { row // row ∈ rows } =>
      compareCells (a.1.get? key.column) (b.1.get? key.column) :=
    { eq_swap := compareCells_swap _ _
      isLE_trans := h.isLE_trans (hcell _) (hcell _) (hcell _) }
  by_cases hdown : key.descending = true
  · simp only [if_pos hdown, ← compareCells_swap]
    exact Std.TransCmp.opposite
  · simpa only [if_neg hdown] using hup

/-- Rows whose cells under each key are compared in one way are ordered. -/
theorem transCmp_compareRows {rows : List Row} {keys : List SortKey}
    (h : ∀ key ∈ keys, Uniform (rows.map fun row => row.get? key.column)) :
    Std.TransCmp fun a b : { row // row ∈ rows } => compareRows keys a.1 b.1 := by
  induction keys with
  | nil => exact { eq_swap := rfl, isLE_trans := fun _ _ => rfl }
  | cons key keys ih =>
    obtain ⟨hkey, hkeys⟩ := List.forall_mem_cons.1 h
    have hfirst := transCmp_key hkey
    have hrest := ih hkeys
    exact inferInstanceAs (Std.TransCmp (compareLex _ _))

/-- Rows whose cells under each key are compared in one way are sorted. -/
theorem pairwise_sortBy_compareRows {rows : List Row} {keys : List SortKey}
    (h : ∀ key ∈ keys, Uniform (rows.map fun row => row.get? key.column)) :
    (sortBy (compareRows keys) rows).Pairwise fun a b => (compareRows keys a b).isLE := by
  have htrans := transCmp_compareRows h
  have hsorts : Sorts (compareRows keys) (· ∈ rows)
      fun a b => a ∈ rows ∧ b ∈ rows ∧ (compareRows keys a b).isLE :=
    { trans := fun a b c ⟨ha, hb, hab⟩ ⟨_, hc, hbc⟩ =>
        ⟨ha, hc, htrans.isLE_trans (a := ⟨a, ha⟩) (b := ⟨b, hb⟩) (c := ⟨c, hc⟩) hab hbc⟩
      below := fun a b ha hb hlt => ⟨ha, hb, by rw [hlt]; rfl⟩
      notBelow := fun a b ha hb hle => ⟨hb, ha, by
        rw [compareRows_swap keys a b]
        revert hle
        cases compareRows keys a b <;> decide⟩ }
  exact (hsorts.pairwise_sortBy fun _ hrow => hrow).imp fun hab => hab.2.2

/-- **The comparison of cells is an order where all are compared in one way.** Comparing the other
way round gives the reverse, for all cells. Of three cells that are compared in one way, the first is
not above the third if neither is the first above the second nor the second above the third. Rows are
sorted by columns whose cells are compared in one way, upwards and downwards, by any number of
keys. -/
theorem compareCells_orders_uniform (a b c : Option Value) (rows : List Row)
    (keys : List SortKey) :
    compareCells b a = (compareCells a b).swap ∧
    (Uniform [a, b, c] →
      (compareCells a b).isLE → (compareCells b c).isLE → (compareCells a c).isLE) ∧
    ((∀ key ∈ keys, Uniform (rows.map fun row => row.get? key.column)) →
      (sortBy (compareRows keys) rows).Pairwise fun a b => (compareRows keys a b).isLE) :=
  ⟨compareCells_swap a b, fun h => h.isLE_trans (by simp) (by simp) (by simp),
    pairwise_sortBy_compareRows⟩

/-- A column of numbers of every kind and one string, with gaps. -/
theorem compareCells_orders_uniform_gaps :
    let rows : List Row := [.ofList [("n", .int 10)], .ofList [("n", .null)],
      .ofList [("n", .string " +09")], .ofList [], .ofList [("n", .uint 2)],
      .ofList [("n", .bool true)]]
    Uniform [some (.bool true), some (.string " +09"), some (.int 10)] ∧
      (compareCells (some (.bool true)) (some (.int 10))).isLE ∧
      Uniform (rows.map fun row => row.get? "n") ∧
      (sortBy (compareRows [⟨"n", true⟩]) rows).Pairwise
        fun a b => (compareRows [⟨"n", true⟩] a b).isLE := by
  intro rows
  have hthree : Uniform [some (.bool true), some (.string " +09"), some (.int 10)] :=
    by decide
  have hcolumn : Uniform (rows.map fun row => row.get? "n") := by decide
  obtain ⟨-, htrans, hsorted⟩ := compareCells_orders_uniform (some (.bool true))
    (some (.string " +09")) (some (.int 10)) rows [⟨"n", true⟩]
  exact ⟨hthree, htrans hthree (by decide) (by decide), hcolumn,
    hsorted (List.forall_mem_singleton.2 hcolumn)⟩

/-- **The comparison of cells is no order in a column of unsigned numbers**: one that does not fit 64
bits with a sign is compared by its text, which is above that of 100 and below that of 95. Rows that
are sorted by such cells may keep the greater number before the smaller one. -/
theorem compareCells_not_transitive :
    ((compareCells (some (.int 100)) (some (.uint 9223372036854775808))).isLE ∧
      (compareCells (some (.uint 9223372036854775808)) (some (.int 95))).isLE ∧
      ¬ (compareCells (some (.int 100)) (some (.int 95))).isLE) ∧
    ¬ (sortBy (compareRows [⟨"c", false⟩]) [.ofList [("c", .int 100)],
        .ofList [("c", .uint 9223372036854775808)], .ofList [("c", .int 95)]]).Pairwise
      fun a b => (compareRows [⟨"c", false⟩] a b).isLE :=
  ⟨by decide, by decide⟩

end Colonnade.Store
