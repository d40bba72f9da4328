/-!
# Maps sorted by name

A finite map from names to values, kept as its entries in ascending order of names. There is one
representation per map, so two maps with the same entries are equal.
-/

namespace Colonnade

/-- Entries in ascending order of their names, each name once. -/
structure NameMap (α : Type) where
  entries : List (String × α)
  ascending : entries.Pairwise (fun a b => a.1 < b.1)

namespace NameMap

variable {α β : Type}

instance [DecidableEq α] : DecidableEq (NameMap α) := fun a b =>
  match decEq a.entries b.entries with
  | isTrue h => isTrue (by cases a; cases b; cases h; rfl)
  | isFalse h => isFalse fun e => h (congrArg entries e)

instance [Repr α] : Repr (NameMap α) := ⟨fun m n => reprPrec m.entries n⟩

@[ext] theorem ext {a b : NameMap α} (h : a.entries = b.entries) : a = b := by
  cases a; cases b; cases h; rfl

/-! ## Two facts about the order of names -/

theorem lt_of_not_lt_of_ne {a b : String} (h : ¬ a < b) (hne : a ≠ b) : b < a := by
  rcases Std.lt_trichotomy a b with h' | h' | h'
  · exact absurd h' h
  · exact absurd h' hne
  · exact h'

/-! ## Entries as plain lists -/

/-- The entries with one name written in its place, in place of an entry of that name. -/
def insertEntry (name : String) (value : α) : List (String × α) → List (String × α)
  | [] => [(name, value)]
  | (n, v) :: rest =>
    if name < n then (name, value) :: (n, v) :: rest
    else if name = n then (name, value) :: rest
    else (n, v) :: insertEntry name value rest

theorem mem_insertEntry {name : String} {value : α} {l : List (String × α)} {e : String × α}
    (h : e ∈ insertEntry name value l) : e = (name, value) ∨ e ∈ l := by
  induction l with
  | nil => simp [insertEntry] at h; exact Or.inl h
  | cons x xs ih =>
    obtain ⟨n, v⟩ := x
    simp only [insertEntry] at h
    split at h
    · rcases List.mem_cons.1 h with h | h
      · exact Or.inl h
      · exact Or.inr h
    · split at h
      · rcases List.mem_cons.1 h with h | h
        · exact Or.inl h
        · exact Or.inr (List.mem_cons_of_mem _ h)
      · rcases List.mem_cons.1 h with h | h
        · exact Or.inr (h ▸ List.mem_cons_self)
        · exact (ih h).imp_right (List.mem_cons_of_mem _)

theorem pairwise_insertEntry (name : String) (value : α) {l : List (String × α)}
    (h : l.Pairwise (fun a b => a.1 < b.1)) :
    (insertEntry name value l).Pairwise (fun a b => a.1 < b.1) := by
  induction l with
  | nil => simp [insertEntry]
  | cons x xs ih =>
    obtain ⟨n, v⟩ := x
    have hx := List.pairwise_cons.1 h
    simp only [insertEntry]
    split
    · next hlt =>
      refine List.pairwise_cons.2 ⟨fun e he => ?_, h⟩
      rcases List.mem_cons.1 he with he | he
      · exact he ▸ hlt
      · exact String.lt_trans hlt (hx.1 e he)
    · next hlt =>
      split
      · next heq => exact List.pairwise_cons.2 ⟨fun e he => heq ▸ hx.1 e he, hx.2⟩
      · next hne =>
        refine List.pairwise_cons.2 ⟨fun e he => ?_, ih hx.2⟩
        rcases mem_insertEntry he with he | he
        · exact he ▸ lt_of_not_lt_of_ne hlt hne
        · exact hx.1 e he

/-! ## Operations -/

/-- The map without entries. -/
def empty : NameMap α := ⟨[], List.Pairwise.nil⟩

instance : Inhabited (NameMap α) := ⟨empty⟩

/-- Writes the value of a name, replacing one it had. -/
def insert (m : NameMap α) (name : String) (value : α) : NameMap α :=
  ⟨insertEntry name value m.entries, pairwise_insertEntry name value m.ascending⟩

/-- The map without a name. -/
def erase (m : NameMap α) (name : String) : NameMap α :=
  ⟨m.entries.filter (fun e => e.1 ≠ name), m.ascending.filter _⟩

/-- The value of a name. -/
def get? (m : NameMap α) (name : String) : Option α := m.entries.lookup name

/-- Whether a name has a value. -/
def contains (m : NameMap α) (name : String) : Bool := (m.get? name).isSome

/-- The names, ascending. -/
def names (m : NameMap α) : List String := m.entries.map (·.1)

/-- The values in the order of their names. -/
def values (m : NameMap α) : List α := m.entries.map (·.2)

/-- Whether there is no entry. -/
def isEmpty (m : NameMap α) : Bool := m.entries.isEmpty

/-- The map of a list of entries; of two entries with one name the later one counts. -/
def ofList (l : List (String × α)) : NameMap α := l.foldl (fun m e => m.insert e.1 e.2) empty

/-- The first map overwritten by the second. -/
def overwriteWith (a b : NameMap α) : NameMap α :=
  b.entries.foldl (fun m e => m.insert e.1 e.2) a

/-- The map with every value replaced by its image. -/
def map (f : α → β) (m : NameMap α) : NameMap β :=
  ⟨m.entries.map fun e => (e.1, f e.2), by
    have := m.ascending
    exact List.pairwise_map.2 this⟩

/-- The map with one value changed, if the name has one. -/
def modify (m : NameMap α) (name : String) (f : α → α) : NameMap α :=
  ⟨m.entries.map fun e => (e.1, if e.1 = name then f e.2 else e.2), by
    have := m.ascending
    exact List.pairwise_map.2 this⟩

/-! ## What each operation does to a lookup -/

theorem lookup_insertEntry (name n : String) (value : α) (l : List (String × α)) :
    (insertEntry name value l).lookup n = if n = name then some value else l.lookup n := by
  induction l with
  | nil =>
    by_cases h : n = name
    · simp [insertEntry, h]
    · have : (n == name) = false := by simpa using h
      simp [insertEntry, List.lookup_cons, h, this]
  | cons x xs ih =>
    obtain ⟨k, v⟩ := x
    by_cases h : n = name
    · subst h
      simp only [insertEntry, if_true]
      split
      · simp
      · split
        · simp
        · next hne =>
          have hne' : (n == k) = false := by simpa using hne
          simp [List.lookup_cons, hne', ih]
    · have hn : (n == name) = false := by simpa using h
      simp only [insertEntry]
      split
      · simp [List.lookup_cons, hn]
      · split
        · next heq =>
          subst heq
          simp [List.lookup_cons, hn]
        · simp only [List.lookup_cons, ih, if_neg h]

@[simp] theorem get?_empty (n : String) : (empty : NameMap α).get? n = none := rfl

@[simp] theorem get?_insert (m : NameMap α) (name n : String) (value : α) :
    (m.insert name value).get? n = if n = name then some value else m.get? n :=
  lookup_insertEntry name n value m.entries

@[simp] theorem get?_erase (m : NameMap α) (name n : String) :
    (m.erase name).get? n = if n = name then none else m.get? n := by
  simp only [get?, erase]
  induction m.entries with
  | nil => simp
  | cons x xs ih =>
    obtain ⟨k, v⟩ := x
    by_cases hk : k = name
    · subst hk
      by_cases hn : n = k
      · simpa [List.filter, hn] using ih
      · have : (n == k) = false := by simpa using hn
        simpa [List.filter, List.lookup_cons, hn, this] using ih
    · by_cases hn : n = name
      · subst hn
        have : (n == k) = false := by simpa using Ne.symm hk
        simpa [List.filter, List.lookup_cons, hk, this] using ih
      · by_cases hnk : n = k
        · subst hnk; simp [List.filter, hk]
        · have : (n == k) = false := by simpa using hnk
          simpa [List.filter, List.lookup_cons, hk, hn, this] using ih

theorem lookup_map (f : String → α → β) (l : List (String × α)) (n : String) :
    (l.map fun e => (e.1, f e.1 e.2)).lookup n = (l.lookup n).map (f n) := by
  induction l with
  | nil => rfl
  | cons x xs ih =>
    obtain ⟨k, v⟩ := x
    by_cases h : n = k
    · subst h; simp
    · have : (n == k) = false := by simpa using h
      simpa [List.lookup_cons, this] using ih

@[simp] theorem get?_map (f : α → β) (m : NameMap α) (n : String) :
    (m.map f).get? n = (m.get? n).map f :=
  lookup_map (fun _ => f) m.entries n

@[simp] theorem get?_modify (m : NameMap α) (name n : String) (f : α → α) :
    (m.modify name f).get? n = (m.get? n).map fun v => if n = name then f v else v :=
  lookup_map (fun k v => if k = name then f v else v) m.entries n

/-- Entries of different names written into a map count where they have a value. -/
theorem get?_foldl_insert {l : List (String × α)} (h : (l.map (·.1)).Nodup) (m : NameMap α)
    (n : String) :
    (l.foldl (fun m e => m.insert e.1 e.2) m).get? n = (l.lookup n).or (m.get? n) := by
  induction l generalizing m with
  | nil => rfl
  | cons e l ih =>
    obtain ⟨k, v⟩ := e
    obtain ⟨hk, hl⟩ := List.nodup_cons.1 h
    rw [List.foldl_cons, ih hl, get?_insert]
    by_cases hn : n = k
    · subst hn
      have hnone : l.lookup n = none := List.lookup_eq_none_iff.2 fun p hp => by
        simpa using (ne_of_mem_of_not_mem (List.mem_map_of_mem hp) hk).symm
      simp [hnone]
    · have hne : (n == k) = false := by simpa using hn
      rw [if_neg hn, List.lookup_cons, hne]

theorem lookup_eq_some_iff_mem {l : List (String × α)} (h : (l.map (·.1)).Nodup) {n : String}
    {v : α} : l.lookup n = some v ↔ (n, v) ∈ l := by
  induction l with
  | nil => simp
  | cons e l ih =>
    obtain ⟨k, u⟩ := e
    obtain ⟨hk, hl⟩ := List.nodup_cons.1 h
    by_cases hn : n = k
    · subst hn
      have hnot : (n, v) ∉ l := fun hmem => hk (List.mem_map_of_mem (f := (·.1)) hmem)
      simp [hnot, eq_comm]
    · have hne : (n == k) = false := by simpa using hn
      simp [List.lookup_cons, hne, hn, ih hl]

/-- The value of a name among entries of different names. -/
theorem get?_ofList_eq_some_iff {l : List (String × α)} (h : (l.map (·.1)).Nodup) {n : String}
    {v : α} : (ofList l).get? n = some v ↔ (n, v) ∈ l := by
  rw [ofList, get?_foldl_insert h, get?_empty, Option.or_none, lookup_eq_some_iff_mem h]

theorem contains_iff_mem_names {m : NameMap α} {name : String} :
    m.contains name = true ↔ name ∈ m.names := by
  rw [contains, get?, List.lookup_isSome_iff, names, List.mem_map]
  exact exists_congr fun e => and_congr Iff.rfl (beq_iff_eq.trans eq_comm)

theorem mem_names_of_get? {m : NameMap α} {name : String} {value : α}
    (h : m.get? name = some value) : name ∈ m.names := by
  rw [← contains_iff_mem_names, contains, h, Option.isSome_some]

theorem names_nodup (m : NameMap α) : m.names.Nodup :=
  List.pairwise_map.2 (m.ascending.imp fun h => String.ne_of_lt h)

/-- The entries of a map of entries of different names. -/
theorem mem_entries_ofList {l : List (String × α)} (h : (l.map (·.1)).Nodup) {e : String × α} :
    e ∈ (ofList l).entries ↔ e ∈ l := by
  rw [← lookup_eq_some_iff_mem (ofList l).names_nodup]
  exact get?_ofList_eq_some_iff h

theorem mem_names_insert {m : NameMap α} {name n : String} (value : α) :
    n ∈ (m.insert name value).names ↔ n = name ∨ n ∈ m.names := by
  rw [← contains_iff_mem_names, ← contains_iff_mem_names, contains, contains, get?_insert]
  by_cases h : n = name <;> simp [h]

/-- The names of a map are those of the entries it is made of. -/
theorem mem_names_ofList {l : List (String × α)} {n : String} :
    n ∈ (ofList l).names ↔ n ∈ l.map (·.1) := by
  have hfold (m : NameMap α) : n ∈ (l.foldl (fun m e => m.insert e.1 e.2) m).names
      ↔ n ∈ l.map (·.1) ∨ n ∈ m.names := by
    induction l generalizing m with
    | nil => simp
    | cons e l ih =>
      rw [List.foldl_cons, ih, mem_names_insert, List.map_cons, List.mem_cons, or_assoc,
        or_left_comm]
  have hempty : n ∉ (empty : NameMap α).names := List.not_mem_nil
  rw [ofList, hfold, or_iff_left hempty]

/-- A name that is erased might as well not have been written. -/
theorem erase_insert (m : NameMap α) (name : String) (value : α) :
    (m.insert name value).erase name = m.erase name := by
  refine NameMap.ext ?_
  simp only [erase, insert]
  induction m.entries with
  | nil => simp [insertEntry]
  | cons e rest ih =>
    obtain ⟨n, v⟩ := e
    rw [insertEntry]
    split
    · simp
    · split
      · next heq => simp [heq]
      · rw [List.filter_cons, List.filter_cons, ih]

/-- A name that is erased might as well not have been changed. -/
theorem erase_modify (m : NameMap α) (name : String) (f : α → α) :
    (m.modify name f).erase name = m.erase name := by
  refine NameMap.ext ?_
  simp only [erase, modify, List.filter_map, Function.comp_def]
  refine (List.map_congr_left fun e he => ?_).trans (List.map_id _)
  have hne : e.1 ≠ name := by simpa using (List.mem_filter.1 he).2
  rw [if_neg hne, id]

/-- What a change does depends on the value of the name only. -/
theorem modify_congr {m : NameMap α} {name : String} {f g : α → α}
    (h : ∀ v, m.get? name = some v → f v = g v) : m.modify name f = m.modify name g := by
  refine NameMap.ext ?_
  simp only [modify]
  refine List.map_congr_left fun e he => ?_
  split
  · next heq =>
    rw [h e.2 ((lookup_eq_some_iff_mem m.names_nodup).2 (heq ▸ he))]
  · rfl

/-- A map is as it was exactly if the value that it has for the name is. -/
theorem modify_eq_self_iff {m : NameMap α} {name : String} {f : α → α} :
    m.modify name f = m ↔ ∀ v, m.get? name = some v → f v = v := by
  constructor
  · intro heq v hv
    have hget := get?_modify m name name f
    rw [heq, hv] at hget
    simpa using hget.symm
  · intro h
    rw [modify_congr (g := id) h]
    refine NameMap.ext ?_
    simp [modify]

theorem map_fst_insertEntry {name : String} {value : α} {l : List (String × α)}
    (hl : l.Pairwise (fun a b => a.1 < b.1)) (h : name ∈ l.map (·.1)) :
    (insertEntry name value l).map (·.1) = l.map (·.1) := by
  induction l with
  | nil => cases h
  | cons e rest ih =>
    obtain ⟨n, v⟩ := e
    obtain ⟨hn, hrest⟩ := List.pairwise_cons.1 hl
    rw [insertEntry]
    split
    · next hlt =>
      -- a name before the first one is not among the names
      rcases List.mem_cons.1 h with rfl | hmem
      · exact absurd hlt (String.lt_irrefl name)
      · obtain ⟨e, he, rfl⟩ := List.mem_map.1 hmem
        exact absurd (String.lt_trans hlt (hn e he)) (String.lt_irrefl e.1)
    · split
      · next heq => simp [heq]
      · next hne =>
        rw [List.map_cons, List.map_cons, ih hrest ((List.mem_cons.1 h).resolve_left hne)]

/-- Writing a name that has a value adds no name. -/
theorem names_insert {m : NameMap α} {name : String} (value : α) (h : name ∈ m.names) :
    (m.insert name value).names = m.names :=
  map_fst_insertEntry m.ascending h

/-- An entry of a map is the one written or one of another name. -/
theorem mem_entries_insert {m : NameMap α} {name : String} {value : α} {e : String × α}
    (h : e ∈ (m.insert name value).entries) :
    e = (name, value) ∨ e ∈ m.entries ∧ e.1 ≠ name := by
  have hget : (m.insert name value).get? e.1 = some e.2 :=
    (lookup_eq_some_iff_mem (m.insert name value).names_nodup).2 h
  rw [get?_insert] at hget
  split at hget
  · next heq => exact .inl (Prod.ext heq (Option.some.inj hget).symm)
  · next hne => exact .inr ⟨(lookup_eq_some_iff_mem m.names_nodup).1 hget, hne⟩

/-- The second map counts where it has a value. -/
@[simp] theorem get?_overwriteWith (a b : NameMap α) (n : String) :
    (a.overwriteWith b).get? n = (b.get? n).or (a.get? n) :=
  get?_foldl_insert b.names_nodup a n

end NameMap

end Colonnade
