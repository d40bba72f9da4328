import Colonnade.Proofs.DescriptorTheorems
import Colonnade.Statement.Expression

/-!
# Membership tests

The quotes of a membership test belong to the separator between its items and to the parentheses
around them, so that no item has quotes of its own. Read again, the test is the expression, `IN` and
one literal for each item all the same (`lists_isIn`), whatever the items are, if there is one. The
quotes that stand for themselves where there is none are a literal, too: the test on no items is the
test on the empty string (`isIn_nil`).
-/

namespace Colonnade

namespace Sql

/-! ## Texts without quotes -/

theorem mem_of_mem_tokens {cs : List Char} {t : Token} (ht : t ∈ tokens cs) :
    ∀ c ∈ t.text, c ∈ cs := by
  intro c hc
  rw [← flatten_text_tokens cs]
  exact List.mem_flatMap.2 ⟨t, ht, hc⟩

theorem char_quote_not_mem_tokens {cs : List Char} (h : '\'' ∉ cs) : .char '\'' ∉ tokens cs :=
  fun ht => h (mem_of_mem_tokens ht '\'' List.mem_cons_self)

theorem content?_eq_none_of_mem_tokens {cs : List Char} (h : '\'' ∉ cs) :
    ∀ t ∈ tokens cs, t.content? = none := by
  intro t ht
  cases t with
  | literal body => exact absurd (mem_of_mem_tokens ht '\'' List.mem_cons_self) h
  | cast | placeholder | char => rfl

/-- Escaped texts with a quote before the first, after the last and two around each comma are
quoted texts with commas between them. -/
theorem quotedList_eq {items : List String} (h : items ≠ []) :
    quotedList items
      = '\'' :: ((("','".intercalate (items.map Quoted.escape)).toList) ++ ['\'']) := by
  induction items with
  | nil => exact absurd rfl h
  | cons s items ih =>
    cases items with
    | nil => simp [quotedList, Quoted.quote]
    | cons s' items =>
      rw [quotedList_cons_cons, ih (List.cons_ne_nil s' items)]
      simp [Quoted.quote, String.intercalate_cons_cons]

end Sql

namespace Expression

open Sql

/-! ## What a membership test is read as -/

/-- A condition admits the values that its literals stand for. -/
def Admits (condition value : String) : Prop := value ∈ contents condition

/-- The text is read as an expression, `IN` and, in parentheses, the literals of items with commas
between them, and so admits the items and no other value. -/
structure Lists (text expression : String) (items : List String) : Prop where
  tokens_eq : tokens text.toList = tokens expression.toList ++ " IN (".toList.map .char
    ++ literalTokens items ++ [.char ')']
  contents_eq : contents text = items
  admits_iff : ∀ value, Admits text value ↔ value ∈ items

variable {expression : String} {items : List String}

theorem toList_isIn (h : items ≠ []) : (isIn expression items).toList
    = expression.toList ++ (" IN (".toList ++ (quotedList items ++ [')'])) := by
  rw [quotedList_eq h]
  simp [isIn]

/-- No items make one empty literal. -/
theorem isIn_nil (expression : String) : isIn expression [] = isIn expression [""] := by
  simp [isIn, Quoted.escape, Quoted.encode]

theorem tokens_isIn (hquote : '\'' ∉ expression.toList) (h : items ≠ []) :
    tokens (isIn expression items).toList = tokens expression.toList ++ " IN (".toList.map .char
      ++ literalTokens items ++ [.char ')'] := by
  have hplain : ∀ c ∈ " IN (".toList, c ≠ '\'' ∧ c ≠ ':' := by decide +kernel
  have hbreak : ∀ c ∈ (" IN (".toList ++ (quotedList items ++ [')'])).head?,
      isBreak c = true := by
    intro c hc
    cases hc
    decide
  have hclosed : tokens [')'] = [.char ')'] := by decide +kernel
  rw [toList_isIn h, tokens_append (char_quote_not_mem_tokens hquote) hbreak,
    tokens_append_of_plain hplain, tokens_quotedList_append, hclosed]
  simp only [List.append_assoc]

/-- A test on an expression without quotes lists its items, if it has any. -/
theorem lists_isIn (hquote : '\'' ∉ expression.toList) (h : items ≠ []) :
    Lists (isIn expression items) expression items := by
  have htokens := tokens_isIn hquote h
  have hcontents : contents (isIn expression items) = items := by
    have hplain : (tokens expression.toList).filterMap Token.content? = [] :=
      List.filterMap_eq_nil_iff.2 (content?_eq_none_of_mem_tokens hquote)
    have hlabel : (" IN (".toList.map Token.char).filterMap Token.content? = [] := rfl
    have hclosed : [Token.char ')'].filterMap Token.content? = [] := rfl
    rw [contents, htokens, List.filterMap_append, List.filterMap_append, List.filterMap_append,
      hplain, hlabel, hclosed, filterMap_content?_literalTokens]
    simp
  exact ⟨htokens, hcontents, fun value => by rw [Admits, hcontents]⟩

/-- **A membership test lists its items**, whatever they are, exactly if there is one: the test on no
items lists the empty string. -/
theorem isIn_lists_iff (hquote : '\'' ∉ expression.toList) (items : List String) :
    (Lists (isIn expression items) expression items ↔ items ≠ []) ∧
      Lists (isIn expression []) expression [""] := by
  have hempty : Lists (isIn expression []) expression [""] := by
    rw [isIn_nil]
    exact lists_isIn hquote (List.cons_ne_nil _ _)
  refine ⟨⟨?_, lists_isIn hquote⟩, hempty⟩
  rintro hlists rfl
  exact absurd (hempty.contents_eq.symm.trans hlists.contents_eq) (List.cons_ne_nil _ _)

/-- Items that look like separators and escapes, an empty one and one that is given twice. -/
theorem isIn_lists_iff_hostile :
    let items := ["','", "\\", "", "it's)", "','", "\\'"]
    '\'' ∉ "lower(:x)::String".toList ∧ items ≠ [] ∧
      Lists (isIn "lower(:x)::String" items) "lower(:x)::String" items := by
  intro items
  have hquote : '\'' ∉ "lower(:x)::String".toList := by decide +kernel
  have hne : items ≠ [] := List.cons_ne_nil _ _
  exact ⟨hquote, hne, (isIn_lists_iff hquote items).1.2 hne⟩

/-- The test on no items admits the empty string. -/
theorem isIn_admits_unlisted : ¬ Lists (isIn "status" []) "status" [] := by
  intro hlists
  have hadmits : Admits (isIn "status" []) "" := by
    have hcontents : contents (isIn "status" []) = [""] := by decide +kernel
    rw [Admits, hcontents]
    exact List.mem_singleton_self _
  exact absurd ((hlists.admits_iff "").1 hadmits) List.not_mem_nil

end Expression

end Colonnade
