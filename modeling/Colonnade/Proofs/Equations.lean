import Colonnade.Proofs.SelectParts

/-!
# How equalities are read

A predicate compares a column, which may be any word, with a string or an integer. It is read as it
is meant however it is spaced, and whether parentheses stand around it (`equality?_of_isEquation`):
white space between the parts and one opening parenthesis are not looked at (`equality?_gaps`,
`equality?_parenthesis`), and what is left is read part by part (`equality?_operand`). White space
around a predicate is trimmed before it is read, which leaves an equality as one
(`IsEquation.filterOf_eq`).
-/

namespace Colonnade.Store

open Text

/-! ## The parts of an equality -/

theorem isWord_of_isNameChar {c : Char} (h : Sql.isNameChar c = true) : isWord c = true := by
  rw [isWord_of_ascii (toNat_lt_of_isNameChar h)]
  exact h

/-- The name of a column as a predicate may have it. -/
structure IsColumn (column : List Char) : Prop where
  ne_nil : column ≠ []
  word : ∀ c ∈ column, isWord c = true

theorem IsColumn.not_isSpace {column : List Char} (h : IsColumn column) :
    ∀ c ∈ column, isSpace c = false := by
  intro c hc
  refine Bool.eq_false_iff.2 fun hspace => ?_
  have hword := h.word c hc
  rw [(isWord_of_isSpace hspace).1] at hword
  cases hword

theorem PlainName.isColumn {name : List Char} (h : PlainName name) : IsColumn name where
  ne_nil := h.ne_nil
  word c hc := isWord_of_isNameChar (h.chars c hc)

/-- White space, or nothing. -/
def IsGap (gap : List Char) : Prop := ∀ c ∈ gap, isSpace c = true

theorem isGap_nil : IsGap [] := by
  simp [IsGap]

theorem isGap_space : IsGap [' '] := by
  simp only [IsGap, List.forall_mem_singleton]
  decide

/-- A predicate that compares a column with an operand. White space may stand between its parts, and
a parenthesis on either side. -/
structure IsEquation (p column : List Char) (v : Operand) : Prop where
  isColumn : IsColumn column
  exists_parts : ∃ opening gap₁ gap₂ gap₃ gap₄ closing : List Char,
    p = opening ++ (gap₁ ++ (column ++ (gap₂ ++ '=' :: (gap₃ ++ (v.chars ++ (gap₄ ++ closing)))))) ∧
      (opening = [] ∨ opening = ['(']) ∧ (closing = [] ∨ closing = [')']) ∧
      IsGap gap₁ ∧ IsGap gap₂ ∧ IsGap gap₃ ∧ IsGap gap₄

/-! ## Up to the equals sign -/

namespace IsColumn

variable {column gap : List Char} (hcolumn : IsColumn column) (hgap : IsGap gap)

include hcolumn hgap

/-- A column does not begin with a parenthesis, and nor does white space before it. -/
theorem ne_parenthesis (rest cs : List Char) : gap ++ (column ++ rest) ≠ '(' :: cs := by
  have hparenthesis : isSpace '(' = false ∧ isWord '(' = false := by decide
  intro heq
  cases gap with
  | cons c gap =>
    cases heq
    rw [hgap '(' List.mem_cons_self] at hparenthesis
    cases hparenthesis.1
  | nil =>
    obtain ⟨d, ds, rfl⟩ := List.exists_cons_of_ne_nil hcolumn.ne_nil
    cases heq
    rw [hcolumn.word '(' List.mem_cons_self] at hparenthesis
    cases hparenthesis.2

theorem trimLeft_append (rest : List Char) :
    trimLeft (gap ++ (column ++ rest)) = column ++ rest := by
  obtain ⟨c, cs, rfl⟩ := List.exists_cons_of_ne_nil hcolumn.ne_nil
  rw [trimLeft_append_of_spaces hgap]
  exact trimLeft_cons_of_not_space (hcolumn.not_isSpace c List.mem_cons_self)

/-- A column ends before white space and before an equals sign. -/
theorem cut (rest : List Char) :
    (column ++ (gap ++ '=' :: rest)).takeWhile isWord = column ∧
      (column ++ (gap ++ '=' :: rest)).dropWhile isWord = gap ++ '=' :: rest := by
  refine cut_append hcolumn.word fun c hc => ?_
  cases gap with
  | nil =>
    cases hc
    decide
  | cons d gap =>
    cases hc
    exact (isWord_of_isSpace (hgap c List.mem_cons_self)).1

end IsColumn

theorem trimLeft_equals {gap : List Char} (hgap : IsGap gap) (rest : List Char) :
    trimLeft (gap ++ '=' :: rest) = '=' :: rest := by
  rw [trimLeft_append_of_spaces hgap]
  exact trimLeft_cons_of_not_space (by decide)

/-- One opening parenthesis is not looked at. -/
theorem equality?_parenthesis {cs : List Char} (h : ∀ rest, cs ≠ '(' :: rest) :
    equality? ('(' :: cs) = equality? cs := by
  conv_rhs => unfold equality?
  split
  · next rest => exact absurd rfl (h rest)
  · rfl

section

variable {column : List Char} (hcolumn : IsColumn column)

include hcolumn

/-- White space around a column and behind the equals sign is not looked at. -/
theorem equality?_gaps {gap₁ gap₂ gap₃ : List Char} (hgap₁ : IsGap gap₁) (hgap₂ : IsGap gap₂)
    (hgap₃ : IsGap gap₃) (cs : List Char) :
    equality? (gap₁ ++ (column ++ (gap₂ ++ '=' :: (gap₃ ++ cs))))
      = equality? ([] ++ (column ++ ([] ++ '=' :: cs))) := by
  unfold equality?
  split
  · next h => exact absurd h (hcolumn.ne_parenthesis hgap₁ _ _)
  · split
    · next h => exact absurd h (hcolumn.ne_parenthesis isGap_nil _ _)
    · simp only [hcolumn.trimLeft_append hgap₁, hcolumn.trimLeft_append isGap_nil,
        hcolumn.cut hgap₂, hcolumn.cut isGap_nil, trimLeft_equals hgap₂,
        trimLeft_equals isGap_nil, trimLeft_append_of_spaces hgap₃]

/-! ## Behind the equals sign -/

/-- An operand is read where it ends. -/
theorem equality?_operand (v : Operand) {back : List Char} (hends : equalityEnds back = true)
    (hdigit : ∀ c ∈ back.head?, isDecimalDigit c = false) :
    equality? ([] ++ (column ++ ([] ++ '=' :: (v.chars ++ back))))
      = some (.ofList column, v.value) := by
  have hne : column.isEmpty = false := by simpa using hcolumn.ne_nil
  have hoperand : trimLeft (v.chars ++ back) = v.chars ++ back := by
    obtain ⟨c, cs, hcs, hc, -⟩ := v.chars_eq_cons
    rw [hcs]
    exact trimLeft_cons_of_not_space hc
  unfold equality?
  split
  · next h => exact absurd h (hcolumn.ne_parenthesis isGap_nil _ _)
  · simp only [hcolumn.trimLeft_append isGap_nil, hcolumn.cut isGap_nil,
      trimLeft_equals isGap_nil, hoperand, hne]
    rw [if_neg Bool.false_ne_true]
    cases v with
    | string s =>
      rw [Operand.chars_string, Sql.Quoted.quoteChars]
      simp [Sql.Quoted.scanBody_encode, Sql.Quoted.decode_encode, hends, Operand.value]
    | int n =>
      rw [Operand.chars_int]
      have hread := Decimal.readInt64?_toString n
      have hdigits : IsNumber (Nat.toDigits 10 n.toInt.natAbs) :=
        ⟨Nat.toDigits_ne_nil, fun c hc => Decimal.isDigit_of_mem_toDigits hc⟩
      have hcut := hdigits.cut hdigit
      rw [Decimal.toList_toString_int, Decimal.signText] at hread ⊢
      by_cases hneg : n.toInt < 0
      · rw [if_pos hneg] at hread ⊢
        rw [List.cons_append, List.nil_append] at hread ⊢
        simp [hcut.1, hcut.2, hread, hends, Operand.value]
      · rw [if_neg hneg, List.nil_append] at hread ⊢
        -- the first digit is neither a quote nor a sign
        obtain ⟨d, ds, hds⟩ := List.exists_cons_of_ne_nil hdigits.ne_nil
        have hd : d.isDigit = true := hdigits.digit d (hds ▸ List.mem_cons_self)
        split
        · next h =>
          rw [hds] at h
          cases h
          cases hd
        · split
          · next h =>
            rw [hds] at h
            cases h
            cases hd
          · simp [hcut.1, hcut.2, hread, hends, Operand.value]

end

/-- An equality that is cut off in its string is not understood. -/
theorem equality?_of_prefix_encode {column pre cs : List Char} (hcolumn : IsColumn column)
    (hpre : pre <+: Sql.Quoted.encode cs) :
    equality? (column ++ (" = ".toList ++ '\'' :: pre)) = none := by
  have hgaps := equality?_gaps hcolumn isGap_nil isGap_space isGap_space ('\'' :: pre)
  have hne : column.isEmpty = false := by simpa using hcolumn.ne_nil
  have hquote : trimLeft ('\'' :: pre) = '\'' :: pre := trimLeft_cons_of_not_space rfl
  refine hgaps.trans ?_
  unfold equality?
  split
  · next h => exact absurd h (hcolumn.ne_parenthesis isGap_nil _ _)
  · simp only [hcolumn.trimLeft_append isGap_nil, hcolumn.cut isGap_nil,
      trimLeft_equals isGap_nil, hquote, hne, scanBody_of_prefix hpre]
    rfl

/-- What closes an equality goes on no number. -/
theorem equalityEnds_closing {gap closing : List Char} (hgap : IsGap gap)
    (hclosing : closing = [] ∨ closing = [')']) : equalityEnds (gap ++ closing) = true ∧
      ∀ c ∈ (gap ++ closing).head?, isDecimalDigit c = false := by
  constructor
  · rw [equalityEnds, trimLeft_append_of_spaces hgap]
    rcases hclosing with rfl | rfl <;> rfl
  · cases gap with
    | nil => rcases hclosing with rfl | rfl <;> decide
    | cons d gap =>
      intro c hc
      cases hc
      exact (isWord_of_isSpace (hgap d List.mem_cons_self)).2

/-- An equality is read as the comparison that it is. -/
theorem equality?_of_isEquation {p column : List Char} {v : Operand} (h : IsEquation p column v) :
    equality? p = some (.ofList column, v.value) := by
  obtain ⟨opening, gap₁, gap₂, gap₃, gap₄, closing, rfl, hopening, hclosing, hgap₁, hgap₂, hgap₃,
    hgap₄⟩ := h.exists_parts
  obtain ⟨hends, hdigit⟩ := equalityEnds_closing hgap₄ hclosing
  have hread : equality? (gap₁ ++ (column ++ (gap₂ ++ '=' :: (gap₃ ++ (v.chars ++
      (gap₄ ++ closing)))))) = some (.ofList column, v.value) := by
    rw [equality?_gaps h.isColumn hgap₁ hgap₂ hgap₃, equality?_operand h.isColumn v hends hdigit]
  rcases hopening with rfl | rfl
  · exact hread
  · rw [List.singleton_append, equality?_parenthesis (h.isColumn.ne_parenthesis hgap₁ _), hread]

/-! ## Predicates -/

section

variable {p column : List Char} {v : Operand}

namespace IsEquation

variable {c : Char} (hc : isSpace c = true)

include hc

/-- White space before an equality is none of its parts. -/
theorem of_cons_space (h : IsEquation (c :: p) column v) : IsEquation p column v := by
  obtain ⟨hcolumn, opening, gap₁, gap₂, gap₃, gap₄, closing, heq, hopening, hclosing, hgap₁,
    hgaps⟩ := h
  rcases hopening with rfl | rfl
  · cases gap₁ with
    | nil =>
      obtain ⟨d, ds, rfl⟩ := List.exists_cons_of_ne_nil hcolumn.ne_nil
      cases heq
      have hword := hcolumn.not_isSpace c List.mem_cons_self
      rw [hc] at hword
      cases hword
    | cons d gap₁ =>
      cases heq
      exact ⟨hcolumn, [], gap₁, gap₂, gap₃, gap₄, closing, rfl, .inl rfl, hclosing,
        (List.forall_mem_cons.1 hgap₁).2, hgaps⟩
  · cases heq
    cases hc

/-- White space behind an equality is none of its parts. -/
theorem of_concat_space (h : IsEquation (p ++ [c]) column v) : IsEquation p column v := by
  obtain ⟨hcolumn, opening, gap₁, gap₂, gap₃, gap₄, closing, heq, hopening, hclosing, hgap₁, hgap₂,
    hgap₃, hgap₄⟩ := h
  have hsolid (front : List Char) (d : Char) (hd : isSpace d = false) :
      p ++ [c] ≠ front ++ [d] := by
    intro hfront
    obtain ⟨-, hcd⟩ := List.append_inj' hfront rfl
    cases hcd
    rw [hc] at hd
    cases hd
  let front := opening ++ (gap₁ ++ (column ++ (gap₂ ++ '=' :: gap₃)))
  have hfront : p ++ [c] = front ++ (v.chars ++ (gap₄ ++ closing)) := by simpa [front] using heq
  rcases hclosing with rfl | rfl
  · rcases List.eq_nil_or_concat gap₄ with rfl | ⟨gap₄, d, rfl⟩
    · obtain ⟨most, d, hchars, hd, -⟩ := v.endsSolid_chars
      exact absurd (by simpa [hchars] using hfront) (hsolid (front ++ most) d hd)
    · have hp : p ++ [c] = (front ++ (v.chars ++ gap₄)) ++ [d] := by simpa using hfront
      obtain ⟨rfl, -⟩ := List.append_inj' hp rfl
      exact ⟨hcolumn, opening, gap₁, gap₂, gap₃, gap₄, [], by simp [front], hopening, .inl rfl,
        hgap₁, hgap₂, hgap₃, fun e he => hgap₄ e (by simp [he])⟩
  · exact absurd (by simpa using hfront) (hsolid (front ++ (v.chars ++ gap₄)) ')' rfl)

end IsEquation

/-- White space around an equality is none of its parts. -/
theorem IsEquation.trimChars (h : IsEquation p column v) : IsEquation (trimChars p) column v :=
  trimChars_rec (P := fun p => IsEquation p column v) (fun _ _ => of_cons_space)
    (fun _ _ => of_concat_space) h

theorem Memory.filterOf_of_equality? {filter : String × Value}
    (h : equality? (Text.trimChars p) = some filter) (sql : String) :
    filterOf sql (some p) = .ok (some filter) := by
  rw [filterOf, h]

/-- As a predicate an equality keeps to the comparison that it is. -/
theorem IsEquation.filterOf_eq (h : IsEquation p column v) (sql : String) :
    Memory.filterOf sql (some p) = .ok (some (.ofList column, v.value)) :=
  Memory.filterOf_of_equality? (equality?_of_isEquation h.trimChars) sql

end

/-- A column, an equals sign with white space around it and an operand are an equality. -/
theorem isEquation_gaps {column gap gap' : List Char} (hcolumn : IsColumn column) (hgap : IsGap gap)
    (hgap' : IsGap gap') (v : Operand) :
    IsEquation (column ++ (gap ++ '=' :: (gap' ++ v.chars))) column v where
  isColumn := hcolumn
  exists_parts := ⟨[], [], gap, gap', [], [], by simp, .inl rfl, .inl rfl, isGap_nil, hgap, hgap',
    isGap_nil⟩

theorem spaceCuts_conditionChars {column : List Char} (hcolumn : IsColumn column)
    (literal : List Char) : spaceCuts (conditionChars column literal) = [] := by
  obtain ⟨c, cs, rfl⟩ := List.exists_cons_of_ne_nil hcolumn.ne_nil
  have hc : isSpace c = false := hcolumn.not_isSpace c List.mem_cons_self
  simp [conditionChars, spaceCuts, hc]

theorem conditionChars_ne_nil {column : List Char} (hcolumn : IsColumn column)
    (literal : List Char) : conditionChars column literal ≠ [] := by
  simp [conditionChars, hcolumn.ne_nil]

/-- A condition is an equality. -/
theorem isEquation_conditionChars {column : List Char} (hcolumn : IsColumn column) (v : Operand) :
    IsEquation (conditionChars column v.chars) column v := by
  simpa [conditionChars] using isEquation_gaps hcolumn isGap_space isGap_space v

end Colonnade.Store
