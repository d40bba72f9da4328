import Colonnade.Http.Client

/-!
# The text of an insert tells its rows apart

Nothing but quotes, brackets and commas holds the cells of an insert apart, and no number is closed.
A written form `Delimits` its element if it tells it from every other element and from whatever
follows, as long as what follows does not go on with an integer. The commas and the closing brackets
go on with none, so the property passes from the elements to a list of them (`eq_of_listChars_eq`):
to lists inside of cells, to the cells of a row and to the rows of an insert.
-/

namespace Colonnade

/-- A value that its literal tells: `NULL`, an integer, a string or a list of such values. A bit and
an unsigned integer may look like an integer, and what is not a finite number looks like `NULL`. -/
inductive Value.Legible : Value → Prop
  | null : Legible .null
  | int (n : Int64) : Legible (.int n)
  | string (s : String) : Legible (.string s)
  | array {items : List Value} (h : ∀ v ∈ items, Legible v) : Legible (.array items)

namespace Value

theorem legible_array_iff {items : List Value} :
    (Value.array items).Legible ↔ ∀ v ∈ items, v.Legible := by
  constructor
  · intro h
    cases h with
    | array h => exact h
  · exact .array

end Value

namespace Sql

/-! ## Written forms that end by themselves -/

/-- Whether a character may stand in an integer. -/
def isNumeral (c : Char) : Bool := c == '-' || c.isDigit

/-- Whether an integer before the text ends where the text begins. -/
def EndsNumeral (rest : List Char) : Prop := ∀ c ∈ rest.head?, isNumeral c = false

/-- Whether a written form tells its element, among those with `p`, and what follows. -/
def Delimits {α : Type} (p : α → Prop) (write : α → List Char) (a : α) : Prop :=
  ∀ ⦃b⦄, p b → ∀ ⦃rest rest'⦄, EndsNumeral rest → EndsNumeral rest' →
    write a ++ rest = write b ++ rest' → a = b ∧ rest = rest'

theorem endsNumeral_cons {c : Char} (h : isNumeral c = false) (rest : List Char) :
    EndsNumeral (c :: rest) := by
  intro d hd
  cases hd
  exact h

/-! ## Lists -/

section Lists

variable {α : Type} {p : α → Prop} {write : α → List Char} {close : Char}

/-- The elements of a list with commas between them. -/
def listChars (write : α → List Char) (as : List α) : List Char :=
  [',', ' '].intercalate (as.map write)

/-- The elements of a list behind its first one, each behind a comma. -/
def tailChars (write : α → List Char) (as : List α) : List Char :=
  as.flatMap fun a => ',' :: ' ' :: write a

theorem listChars_cons (a : α) (as : List α) :
    listChars write (a :: as) = write a ++ tailChars write as := by
  induction as generalizing a with
  | nil => simp [listChars, tailChars]
  | cons b as ih =>
    have htail : [',', ' '].intercalate (write b :: as.map write)
        = write b ++ tailChars write as := ih b
    simp [listChars, htail, tailChars]

/-- Behind an element stands a comma or the closing character. -/
theorem endsNumeral_tailChars (hclose : isNumeral close = false) (as : List α)
    (rest : List Char) : EndsNumeral (tailChars write as ++ close :: rest) := by
  cases as with
  | nil => exact endsNumeral_cons hclose rest
  | cons a as => exact endsNumeral_cons (by decide) _

theorem eq_of_tailChars_eq (hclose : isNumeral close = false) (hcomma : close ≠ ',')
    {as bs : List α} (has : ∀ a ∈ as, Delimits p write a) (hbs : ∀ b ∈ bs, p b)
    {rest rest' : List Char}
    (h : tailChars write as ++ close :: rest = tailChars write bs ++ close :: rest') :
    as = bs ∧ rest = rest' := by
  induction as generalizing bs with
  | nil =>
    cases bs with
    | nil => exact ⟨rfl, (List.cons.inj h).2⟩
    | cons b bs => exact absurd (List.cons.inj h).1 hcomma
  | cons a as ih =>
    cases bs with
    | nil => exact absurd (List.cons.inj h).1.symm hcomma
    | cons b bs =>
      have htexts : write a ++ (tailChars write as ++ close :: rest)
          = write b ++ (tailChars write bs ++ close :: rest') := by
        simpa [tailChars] using h
      obtain ⟨rfl, htails⟩ := has a List.mem_cons_self (hbs b List.mem_cons_self)
        (endsNumeral_tailChars hclose as rest) (endsNumeral_tailChars hclose bs rest') htexts
      obtain ⟨rfl, hrest⟩ := ih (fun a ha => has a (List.mem_cons_of_mem _ ha))
        (fun b hb => hbs b (List.mem_cons_of_mem _ hb)) htails
      exact ⟨rfl, hrest⟩

/-- Lists whose elements delimit themselves are told by their texts up to a closing character that
starts no element. -/
theorem eq_of_listChars_eq (hclose : isNumeral close = false) (hcomma : close ≠ ',')
    (hstart : ∀ a, p a → ∃ c ∈ (write a).head?, c ≠ close) {as bs : List α}
    (has : ∀ a ∈ as, p a ∧ Delimits p write a) (hbs : ∀ b ∈ bs, p b) {rest rest' : List Char}
    (h : listChars write as ++ close :: rest = listChars write bs ++ close :: rest') :
    as = bs ∧ rest = rest' := by
  -- an element of one list against the closing character of an empty one
  have hempty (a : α) (ha : p a) (as : List α) (rest rest' : List Char) :
      listChars write (a :: as) ++ rest ≠ close :: rest' := by
    obtain ⟨c, hc, hne⟩ := hstart a ha
    obtain ⟨cs, hcs⟩ := List.head?_eq_some_iff.1 hc
    rw [listChars_cons, hcs]
    exact fun h => hne (List.cons.inj h).1
  cases as with
  | nil =>
    cases bs with
    | nil => exact ⟨rfl, (List.cons.inj h).2⟩
    | cons b bs => exact absurd h.symm (hempty b (hbs b List.mem_cons_self) bs _ _)
  | cons a as =>
    cases bs with
    | nil => exact absurd h (hempty a (has a List.mem_cons_self).1 as _ _)
    | cons b bs =>
      rw [listChars_cons, listChars_cons, List.append_assoc, List.append_assoc] at h
      obtain ⟨rfl, htails⟩ := (has a List.mem_cons_self).2 (hbs b List.mem_cons_self)
        (endsNumeral_tailChars hclose as rest) (endsNumeral_tailChars hclose bs rest') h
      obtain ⟨rfl, hrest⟩ := eq_of_tailChars_eq hclose hcomma
        (fun a ha => (has a (List.mem_cons_of_mem _ ha)).2)
        (fun b hb => hbs b (List.mem_cons_of_mem _ hb)) htails
      exact ⟨rfl, hrest⟩

/-- A list between two characters. -/
def enclosed (start close : Char) (write : α → List Char) (as : List α) : List Char :=
  start :: (listChars write as ++ [close])

theorem delimits_enclosed (start : Char) (hclose : isNumeral close = false) (hcomma : close ≠ ',')
    (hstart : ∀ a, p a → ∃ c ∈ (write a).head?, c ≠ close) {as : List α}
    (has : ∀ a ∈ as, p a ∧ Delimits p write a) :
    Delimits (fun as => ∀ a ∈ as, p a) (enclosed start close write) as := by
  intro bs hbs rest rest' _ _ h
  have hlists : listChars write as ++ close :: rest = listChars write bs ++ close :: rest' := by
    simpa [enclosed] using h
  exact eq_of_listChars_eq hclose hcomma hstart has hbs hlists

end Lists

/-! ## Cells -/

/-- What a literal may start with. -/
def Starts (c : Char) : Value → Prop
  | .null => c = 'N'
  | .string _ => c = '\''
  | .array _ => c = '['
  | .int _ | .bool _ | .uint _ | .float _ => isNumeral c = true

/-- The characters of the literal of a cell. -/
def cellChars (v : Value) : List Char := (bracketed v).toList

theorem cellChars_int (n : Int64) : cellChars (.int n) = (toString n.toInt).toList := by
  rw [cellChars, bracketed, scalarLiteral]

theorem cellChars_string (s : String) :
    cellChars (.string s) = '\'' :: (Quoted.encode s.toList ++ ['\'']) := by
  rw [cellChars, bracketed, scalarLiteral, Quoted.toList_quote, Quoted.quoteChars]

theorem cellChars_array (items : List Value) :
    cellChars (.array items) = enclosed '[' ']' cellChars items := by
  have hitems : (", ".intercalate (bracketedAll items)).toList = listChars cellChars items := by
    rw [bracketedAll_eq_map, String.toList_intercalate, List.map_map]
    rfl
  rw [cellChars, bracketed, String.toList_append, String.toList_append, hitems]
  rfl

theorem isNumeral_of_mem_toString_int {n : Int} {c : Char} (h : c ∈ (toString n).toList) :
    isNumeral c = true := by
  rw [isNumeral, Bool.or_eq_true, beq_iff_eq]
  exact Decimal.mem_toString_int h

theorem starts_cellChars {v : Value} (h : v.Legible) :
    ∃ c ∈ (cellChars v).head?, Starts c v := by
  cases h with
  | null => exact ⟨'N', rfl, rfl⟩
  | int n =>
    rw [cellChars_int]
    obtain ⟨c, cs, hcs⟩ := List.exists_cons_of_ne_nil (Decimal.toString_int_ne_nil n.toInt)
    have hc : c ∈ (toString n.toInt).toList := hcs ▸ List.mem_cons_self
    exact ⟨c, by rw [hcs]; rfl, isNumeral_of_mem_toString_int hc⟩
  | string s => exact ⟨'\'', by rw [cellChars_string]; rfl, rfl⟩
  | array h => exact ⟨'[', by rw [cellChars_array]; rfl, rfl⟩

/-- An integer is read back up to where it ends. -/
theorem takeWhile_isNumeral_toString (n : Int) {rest : List Char} (h : EndsNumeral rest) :
    ((toString n).toList ++ rest).takeWhile isNumeral = (toString n).toList :=
  (Text.cut_append (fun _ => isNumeral_of_mem_toString_int) h).1

theorem eq_of_cellChars_int_eq {m n : Int64} {rest rest' : List Char} (hrest : EndsNumeral rest)
    (hrest' : EndsNumeral rest') (h : cellChars (.int m) ++ rest = cellChars (.int n) ++ rest') :
    m = n ∧ rest = rest' := by
  rw [cellChars_int, cellChars_int] at h
  have hdigits : (toString m.toInt).toList = (toString n.toInt).toList := by
    rw [← takeWhile_isNumeral_toString m.toInt hrest, h, takeWhile_isNumeral_toString _ hrest']
  have hread := Decimal.readInt64?_toString m
  rw [hdigits, Decimal.readInt64?_toString] at hread
  rw [hdigits] at h
  exact ⟨(Option.some.inj hread).symm, List.append_cancel_left h⟩

theorem eq_of_cellChars_string_eq {s t : String} {rest rest' : List Char}
    (h : cellChars (.string s) ++ rest = cellChars (.string t) ++ rest') :
    s = t ∧ rest = rest' := by
  rw [cellChars_string, cellChars_string] at h
  have hbodies : Quoted.encode s.toList ++ '\'' :: rest
      = Quoted.encode t.toList ++ '\'' :: rest' := by
    simpa using h
  have hscan := Quoted.scanBody_encode s.toList rest
  rw [hbodies, Quoted.scanBody_encode] at hscan
  obtain ⟨hbody, hrest⟩ := Prod.mk.inj (Option.some.inj hscan)
  exact ⟨(String.toList_injective (Quoted.encode_injective hbody)).symm, hrest.symm⟩

/-- No cell starts with the end of a list or of a row. -/
theorem exists_head?_cellChars_ne {close : Char} (h : close = ']' ∨ close = ')') (v : Value)
    (hv : v.Legible) : ∃ c ∈ (cellChars v).head?, c ≠ close := by
  obtain ⟨c, hc, hstart⟩ := starts_cellChars hv
  refine ⟨c, hc, ?_⟩
  rintro rfl
  cases v <;> rcases h with rfl | rfl <;> simp [Starts, isNumeral] at hstart

/-- Texts that start alike are literals of values that may start alike. -/
theorem exists_starts_of_cellChars_eq {v w : Value} (hv : v.Legible) (hw : w.Legible)
    {rest rest' : List Char} (h : cellChars v ++ rest = cellChars w ++ rest') :
    ∃ c, Starts c v ∧ Starts c w := by
  obtain ⟨c, hc, hstart⟩ := starts_cellChars hv
  obtain ⟨d, hd, hstart'⟩ := starts_cellChars hw
  obtain ⟨cs, hcs⟩ := List.head?_eq_some_iff.1 hc
  obtain ⟨ds, hds⟩ := List.head?_eq_some_iff.1 hd
  rw [hcs, hds] at h
  obtain rfl := (List.cons.inj h).1
  exact ⟨c, hstart, hstart'⟩

/-- No two legible cells share a literal, not even as the start of a longer text. -/
theorem delimits_cellChars {v : Value} (hv : v.Legible) :
    Delimits Value.Legible cellChars v := by
  induction hv with
  | null =>
    intro w hw rest rest' _ _ h
    obtain ⟨c, hc, hstart⟩ := exists_starts_of_cellChars_eq .null hw h
    obtain rfl : c = 'N' := hc
    cases hw with
    | null => exact ⟨rfl, List.append_cancel_left h⟩
    | int | string | array => simp [Starts, isNumeral] at hstart
  | int n =>
    intro w hw rest rest' hrest hrest' h
    obtain ⟨c, hc, hstart⟩ := exists_starts_of_cellChars_eq (.int n) hw h
    cases hw with
    | int m =>
      obtain ⟨rfl, hrests⟩ := eq_of_cellChars_int_eq hrest hrest' h
      exact ⟨rfl, hrests⟩
    | null | string | array =>
      obtain rfl := hstart
      simp [Starts, isNumeral] at hc
  | string s =>
    intro w hw rest rest' _ _ h
    obtain ⟨c, hc, hstart⟩ := exists_starts_of_cellChars_eq (.string s) hw h
    obtain rfl : c = '\'' := hc
    cases hw with
    | string t =>
      obtain ⟨rfl, hrests⟩ := eq_of_cellChars_string_eq h
      exact ⟨rfl, hrests⟩
    | null | int | array => simp [Starts, isNumeral] at hstart
  | @array items hitems ih =>
    intro w hw rest rest' hrest hrest' h
    obtain ⟨c, hc, hstart⟩ := exists_starts_of_cellChars_eq (.array hitems) hw h
    obtain rfl : c = '[' := hc
    cases hw with
    | @array items' hitems' =>
      rw [cellChars_array, cellChars_array] at h
      have hdelimits := delimits_enclosed '[' (by decide) (by decide)
        (exists_head?_cellChars_ne (.inl rfl)) fun v hv => ⟨hitems v hv, ih v hv⟩
      obtain ⟨rfl, hrests⟩ := hdelimits hitems' hrest hrest' h
      exact ⟨rfl, hrests⟩
    | null | int | string => simp [Starts, isNumeral] at hstart

end Sql

/-! ## Rows -/

namespace Http

open Sql

/-- The characters of a row of an insert. -/
def rowChars : List Value → List Char := enclosed '(' ')' cellChars

theorem toList_rowsText (rows : List (List Value)) :
    (rowsText rows).toList = listChars rowChars rows := by
  have hrow (row : List Value) :
      ("(" ++ ", ".intercalate (row.map bracketed) ++ ")").toList = rowChars row := by
    rw [String.toList_append, String.toList_append, String.toList_intercalate, List.map_map]
    rfl
  rw [rowsText, String.toList_intercalate, List.map_map, listChars]
  exact congrArg _ (List.map_congr_left fun row _ => hrow row)

theorem delimits_rowChars {row : List Value} (hrow : ∀ v ∈ row, v.Legible) :
    Delimits (fun row => ∀ v ∈ row, v.Legible) rowChars row :=
  delimits_enclosed '(' (by decide) (by decide) (exists_head?_cellChars_ne (.inr rfl))
    fun v hv => ⟨hrow v hv, delimits_cellChars (hrow v hv)⟩

theorem eq_of_rowsText_eq {rows rows' : List (List Value)}
    (hrows : ∀ row ∈ rows, ∀ v ∈ row, v.Legible) (hrows' : ∀ row ∈ rows', ∀ v ∈ row, v.Legible)
    (h : rowsText rows = rowsText rows') : rows = rows' := by
  -- a statement may be ended by a semicolon
  have hlists : listChars rowChars rows ++ ';' :: [] = listChars rowChars rows' ++ ';' :: [] := by
    rw [← toList_rowsText, ← toList_rowsText, h]
  exact (eq_of_listChars_eq (by decide) (by decide) (fun _ _ => ⟨'(', rfl, by decide⟩)
    (fun row hrow => ⟨hrows row hrow, delimits_rowChars (hrows row hrow)⟩) hrows' hlists).1

/-- The text of an insert into given columns of a table determines its rows, also where rows are
empty or of different lengths. -/
theorem insertText_determines_rows {table : String} {columns : List String}
    {rows rows' : List (List Value)} (hrows : ∀ row ∈ rows, ∀ v ∈ row, v.Legible)
    (hrows' : ∀ row ∈ rows', ∀ v ∈ row, v.Legible) :
    insertText table rows columns = insertText table rows' columns ↔ rows = rows' := by
  unfold insertText
  constructor
  · intro h
    exact eq_of_rowsText_eq hrows hrows' ((String.append_right_inj _).1 h)
  · intro h
    rw [h]

/-- Strings with quotes, brackets and commas in them make no cell, list or row of their own. -/
theorem insertText_determines_rows_hostile :
    let rows : List (List Value) :=
      [[.array [.string "a', ['b'], 'c", .array [.int (-1), .null]]], [], [.int 12]]
    let rows' : List (List Value) :=
      [[.array [.string "a", .array [.string "b"], .string "c", .array [.int (-1), .null]]], [],
        [.int 1, .int 2]]
    (∀ row ∈ rows, ∀ v ∈ row, v.Legible) ∧ (∀ row ∈ rows', ∀ v ∈ row, v.Legible) ∧
      insertText "t" rows ["c"] ≠ insertText "t" rows' ["c"] := by
  intro rows rows'
  have hrows : ∀ row ∈ rows, ∀ v ∈ row, v.Legible := by
    simp [rows, Value.legible_array_iff, Value.Legible.int, Value.Legible.string,
      Value.Legible.null]
  have hrows' : ∀ row ∈ rows', ∀ v ∈ row, v.Legible := by
    simp [rows', Value.legible_array_iff, Value.Legible.int, Value.Legible.string,
      Value.Legible.null]
  have hne : rows ≠ rows' := by decide +kernel
  exact ⟨hrows, hrows', fun h => hne ((insertText_determines_rows hrows hrows').1 h)⟩

end Http

end Colonnade
