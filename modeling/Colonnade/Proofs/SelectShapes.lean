import Colonnade.Proofs.ChangeShapes

/-!
# How selects are understood

Behind a free piece a select goes on with a space and the keyword of a clause, and the piece ends
where this can first be recognised. So a piece in which no space stands before such a keyword is
read as it is meant (`IsPiece.freePiece?_eq_some`), and a select whose pieces are of this kind is
understood as it is written (`selectShape?_text`).
-/

namespace Colonnade.Store

open Text

/-! ## Pieces without keywords -/

/-- A text that ends here, or goes on with a space. -/
def SpaceStart (cs : List Char) : Prop := ∀ c ∈ cs.head?, c = ' '

theorem spaceStart_nil : SpaceStart [] := by
  simp [SpaceStart]

/-- The keywords that may follow a free piece. -/
def clauseWords : List String := ["FROM", "ORDER", "LIMIT", "OFFSET"]

/-- A text that begins neither with white space nor with the keyword of a clause. -/
structure StartsPlain (cs : List Char) : Prop where
  first : ∃ c rest, cs = c :: rest ∧ isSpace c = false
  word : ∀ word ∈ clauseWords, ∀ tail, SpaceStart tail → keywordSpaces? word (cs ++ tail) = none

/-- A text in which white space is spaces, and what stands behind a space starts plain. -/
def Spaced : List Char → Prop
  | [] => True
  | c :: cs => (isSpace c = true → c = ' ' ∧ StartsPlain cs) ∧ Spaced cs

/-- A piece of a select that contains no keyword of a clause. -/
structure IsPiece (p : List Char) : Prop where
  plain : StartsPlain p
  spaced : Spaced p

theorem Spaced.word_append {w rest : List Char} (h : Spaced rest)
    (hw : ∀ c ∈ w, isSpace c = false) : Spaced (w ++ rest) := by
  induction w with
  | nil => exact h
  | cons c w ih =>
    obtain ⟨hc, hw⟩ := List.forall_mem_cons.1 hw
    exact ⟨fun hspace => absurd hspace (by simp [hc]), ih hw⟩

theorem IsPiece.space {p : List Char} (h : IsPiece p) : Spaced (' ' :: p) :=
  ⟨fun _ => ⟨rfl, h.plain⟩, h.spaced⟩

theorem Spaced.back {front back : List Char} (h : Spaced (front ++ back)) : Spaced back := by
  induction front with
  | nil => exact h
  | cons c front ih => exact ih h.2

/-- A rest that begins with a space and the keyword of a clause, if it is recognised. -/
structure Delimits {α : Type} (rest? : List Char → Option α) : Prop where
  word : ∀ c cs, isSpace c = false → rest? (c :: cs) = none
  space : ∀ c cs, isSpace c = false →
    (∀ word ∈ clauseWords, keywordSpaces? word (c :: cs) = none) → rest? (' ' :: c :: cs) = none

section Piece

variable {α : Type} {rest? : List Char → Option α}

/-- No part of a spaced text is taken for a rest. -/
theorem Delimits.eq_none (h : Delimits rest?) {cs tail : List Char} (hcs : Spaced cs)
    (hne : cs ≠ []) (htail : SpaceStart tail) : rest? (cs ++ tail) = none := by
  obtain ⟨c, cs, rfl⟩ := List.exists_cons_of_ne_nil hne
  by_cases hc : isSpace c = true
  · obtain ⟨rfl, hplain⟩ := hcs.1 hc
    obtain ⟨d, ds, rfl, hd⟩ := hplain.first
    exact h.space d (ds ++ tail) hd fun word hword => hplain.word word hword tail htail
  · exact h.word c (cs ++ tail) (Bool.eq_false_iff.2 hc)

/-- A piece is read as it is meant. -/
theorem IsPiece.freePiece?_eq_some {p tail : List Char} {a : α} (h : IsPiece p)
    (hrest : Delimits rest?) (htail : SpaceStart tail) (ha : rest? tail = some a) :
    freePiece? rest? (' ' :: (p ++ tail)) = some (p, a) := by
  obtain ⟨c, cs, hp, hc⟩ := h.plain.first
  have hcuts : spaceCuts (p ++ tail) = [] := by simp [hp, spaceCuts, hc]
  have hne : p ≠ [] := hp ▸ List.cons_ne_nil c cs
  -- the first cut may come before the end of the piece, with `back` of it left over
  obtain ⟨front, back, b, rfl, hback, hfirst⟩ := firstCut?_spec hne ha
  have hnil : back = [] := by
    by_contra hne
    rw [hrest.eq_none h.spaced.back hne htail] at hback
    cases hback
  rw [freePiece?_space rest? hcuts, hfirst]
  rw [hnil, List.nil_append, ha] at hback
  rw [hnil, List.append_nil, Option.some.inj hback]

end Piece

/-! ## The rests of a select delimit -/

theorem spacesKeyword?_of_not_space {c : Char} (h : isSpace c = false) (word : String)
    (cs : List Char) : spacesKeyword? word (c :: cs) = none := by
  rw [spacesKeyword?, spaces?_of_not_space h, Option.bind_none]

theorem spacesKeyword?_space {c : Char} (h : isSpace c = false) (word : String)
    (cs : List Char) : spacesKeyword? word (' ' :: c :: cs) = keyword? word.toList (c :: cs) := by
  have hspaces : spaces? (' ' :: c :: cs) = some (trimLeft (c :: cs)) := rfl
  rw [spacesKeyword?, hspaces, Option.bind_some, trimLeft_cons_of_not_space h]

theorem numberClause?_eq_none {word : String} {cs : List Char}
    (h : (spacesKeyword? word cs).bind spaces? = none) : numberClause? word cs = none := by
  unfold numberClause?
  cases hword : spacesKeyword? word cs with
  | none => rfl
  | some cs' =>
    rw [hword, Option.bind_some] at h
    simp [h]

theorem offsetTail?_eq_none {c : Char} {cs : List Char}
    (h : numberClause? "OFFSET" (c :: cs) = none) : offsetTail? (c :: cs) = none := by
  rw [offsetTail?, h]
  rfl

theorem limitTail?_eq_none {c : Char} {cs : List Char}
    (hlimit : numberClause? "LIMIT" (c :: cs) = none)
    (hoffset : numberClause? "OFFSET" (c :: cs) = none) : limitTail? (c :: cs) = none := by
  rw [limitTail?, hlimit, offsetTail?_eq_none hoffset]
  rfl

theorem numberClause?_of_not_space {c : Char} (h : isSpace c = false) (word : String)
    (cs : List Char) : numberClause? word (c :: cs) = none :=
  numberClause?_eq_none (by rw [spacesKeyword?_of_not_space h, Option.bind_none])

theorem numberClause?_space {c : Char} (h : isSpace c = false) {word : String} {cs : List Char}
    (hword : keywordSpaces? word (c :: cs) = none) : numberClause? word (' ' :: c :: cs) = none :=
  numberClause?_eq_none (by rw [spacesKeyword?_space h]; exact hword)

theorem delimits_limitTail? : Delimits limitTail? where
  word c cs h :=
    limitTail?_eq_none (numberClause?_of_not_space h "LIMIT" cs)
      (numberClause?_of_not_space h "OFFSET" cs)
  space c cs h hwords :=
    limitTail?_eq_none (numberClause?_space h (hwords "LIMIT" (by decide)))
      (numberClause?_space h (hwords "OFFSET" (by decide)))

theorem delimits_orderTail? : Delimits orderTail? where
  word c cs h := by
    rw [orderTail?, spacesKeyword?_of_not_space h, delimits_limitTail?.word c cs h]
    rfl
  space c cs h hwords := by
    have horder : (spacesKeyword? "ORDER" (' ' :: c :: cs)).bind (spacesKeyword? "BY") = none := by
      have hspaces : (keyword? "ORDER".toList (c :: cs)).bind spaces? = none :=
        hwords "ORDER" (by decide)
      have hby : spacesKeyword? "BY" = fun cs => (spaces? cs).bind (keyword? "BY".toList) := rfl
      rw [spacesKeyword?_space h, hby, ← Option.bind_assoc, hspaces, Option.bind_none]
    rw [orderTail?, horder, delimits_limitTail?.space c cs h hwords]
    rfl

theorem delimits_fromTail? : Delimits fromTail? where
  word c cs h := by
    rw [fromTail?, spacesKeyword?_of_not_space h]
    rfl
  space c cs h hwords := by
    have hspaces : (keyword? "FROM".toList (c :: cs)).bind spaces? = none :=
      hwords "FROM" (by decide)
    change (spacesKeyword? "FROM" (' ' :: c :: cs)).bind (fun cs => (spaces? cs).bind _) = none
    rw [spacesKeyword?_space h, ← Option.bind_assoc, hspaces, Option.bind_none]

/-! ## Clauses -/

/-- A number in decimal. -/
structure IsNumber (digits : List Char) : Prop where
  ne_nil : digits ≠ []
  digit : ∀ c ∈ digits, c.isDigit = true

theorem isDecimalDigit_of_isDigit {c : Char} (h : c.isDigit = true) : isDecimalDigit c = true := by
  have hname : Sql.isNameChar c = true := by simp [Sql.isNameChar, Char.isAlphanum, h]
  rw [isDecimalDigit_of_ascii (toNat_lt_of_isNameChar hname), h]

/-- A number is read where it ends. -/
theorem IsNumber.cut {digits : List Char} (h : IsNumber digits) {rest : List Char}
    (hrest : ∀ c ∈ rest.head?, isDecimalDigit c = false) :
    (digits ++ rest).takeWhile isDecimalDigit = digits ∧
      (digits ++ rest).dropWhile isDecimalDigit = rest :=
  cut_append (fun c hc => isDecimalDigit_of_isDigit (h.digit c hc)) hrest

theorem IsNumber.takeWhile_append {digits : List Char} (h : IsNumber digits) {rest : List Char}
    (hrest : SpaceStart rest) : (digits ++ rest).takeWhile isDecimalDigit = digits ∧
      (digits ++ rest).dropWhile isDecimalDigit = rest :=
  h.cut fun c hc => by
    rw [hrest c hc]
    decide

theorem IsNumber.trimLeft_append {digits : List Char} (h : IsNumber digits) (rest : List Char) :
    trimLeft (digits ++ rest) = digits ++ rest := by
  obtain ⟨c, cs, rfl⟩ := List.exists_cons_of_ne_nil h.ne_nil
  have hc := h.digit c List.mem_cons_self
  exact trimLeft_cons_of_not_space
    (nameChar_spec (by simp [Sql.isNameChar, Char.isAlphanum, hc])).2.1

/-- A clause is read with its number. -/
theorem numberClause?_append {word : String} {cs digits rest : List Char} (h : IsNumber digits)
    (hrest : SpaceStart rest) (hword : spacesKeyword? word cs = some (' ' :: (digits ++ rest))) :
    numberClause? word cs = some (digits, rest) := by
  have hspaces : spaces? (' ' :: (digits ++ rest)) = some (digits ++ rest) := by
    have htrim : spaces? (' ' :: (digits ++ rest)) = some (trimLeft (digits ++ rest)) := rfl
    rw [htrim, h.trimLeft_append]
  obtain ⟨htake, hdrop⟩ := h.takeWhile_append hrest
  obtain ⟨c, cs', rfl⟩ := List.exists_cons_of_ne_nil h.ne_nil
  simp only [numberClause?, hword, hspaces, htake, hdrop, Option.bind_eq_bind, Option.bind_some]
  rfl

/-- A keyword and what is written behind it, or nothing. -/
def clauseText (keyword : String) : Option (List Char) → List Char
  | none => []
  | some part => keyword.toList ++ part

theorem spaceStart_clauseText {keyword : String} (h : keyword.toList.head? = some ' ')
    (part : Option (List Char)) {rest : List Char} (hrest : SpaceStart rest) :
    SpaceStart (clauseText keyword part ++ rest) := by
  cases part with
  | none => exact hrest
  | some part =>
    intro c hc
    rw [clauseText, List.append_assoc, List.head?_append, h] at hc
    exact (Option.mem_some_iff.1 hc).symm

namespace SelectTail

/-- The clauses from the offset on, as they are written. -/
def offsetText (t : SelectTail) : List Char := clauseText " OFFSET " t.offset

/-- The clauses from the limit on, as they are written. -/
def limitText (t : SelectTail) : List Char := clauseText " LIMIT " t.limit ++ t.offsetText

/-- The clauses from the order on, as they are written. -/
def orderText (t : SelectTail) : List Char := clauseText " ORDER BY " t.order ++ t.limitText

/-- The clauses as they are written. -/
def text (t : SelectTail) : List Char := clauseText " WHERE " t.predicate ++ t.orderText

end SelectTail

/-- Clauses that are read as they are meant. -/
structure SelectTail.Readable (t : SelectTail) : Prop where
  predicate : ∀ p ∈ t.predicate, IsPiece p
  order : ∀ p ∈ t.order, IsPiece p
  limit : ∀ digits ∈ t.limit, IsNumber digits
  offset : ∀ digits ∈ t.offset, IsNumber digits

namespace SelectTail

variable {t : SelectTail}

theorem spaceStart_offsetText (t : SelectTail) : SpaceStart t.offsetText := by
  have hword : " OFFSET ".toList.head? = some ' ' := by decide
  have h := spaceStart_clauseText hword t.offset spaceStart_nil
  rwa [List.append_nil] at h

theorem spaceStart_limitText (t : SelectTail) : SpaceStart t.limitText :=
  spaceStart_clauseText (by decide) t.limit t.spaceStart_offsetText

theorem spaceStart_orderText (t : SelectTail) : SpaceStart t.orderText :=
  spaceStart_clauseText (by decide) t.order t.spaceStart_limitText

theorem spaceStart_text (t : SelectTail) : SpaceStart t.text :=
  spaceStart_clauseText (by decide) t.predicate t.spaceStart_orderText

theorem offsetTail?_offsetText (h : t.Readable) :
    offsetTail? t.offsetText = some ⟨none, none, none, t.offset⟩ := by
  unfold offsetText
  cases hoffset : t.offset with
  | none => rfl
  | some digits =>
    have hclause :
        numberClause? "OFFSET" (" OFFSET ".toList ++ (digits ++ [])) = some (digits, []) :=
      numberClause?_append (h.offset digits hoffset) spaceStart_nil rfl
    rw [List.append_nil] at hclause
    rw [offsetTail?, clauseText, hclause]

theorem limitTail?_limitText (h : t.Readable) :
    limitTail? t.limitText = some ⟨none, none, t.limit, t.offset⟩ := by
  unfold limitText
  cases hlimit : t.limit with
  | none =>
    have hnone : numberClause? "LIMIT" t.offsetText = none := by
      unfold offsetText
      cases t.offset <;> rfl
    rw [limitTail?, clauseText, List.nil_append, hnone, offsetTail?_offsetText h]
    rfl
  | some digits =>
    have hclause : numberClause? "LIMIT" (" LIMIT ".toList ++ (digits ++ t.offsetText))
        = some (digits, t.offsetText) :=
      numberClause?_append (h.limit digits hlimit) t.spaceStart_offsetText rfl
    rw [limitTail?, clauseText, List.append_assoc, hclause, Option.bind_some]
    simp only [offsetTail?_offsetText h, Option.map_some]
    rfl

theorem orderTail?_orderText (h : t.Readable) :
    orderTail? t.orderText = some ⟨none, t.order, t.limit, t.offset⟩ := by
  unfold orderText
  cases horder : t.order with
  | none =>
    have hnone : spacesKeyword? "ORDER" t.limitText = none := by
      unfold limitText offsetText
      cases t.limit <;> cases t.offset <;> rfl
    rw [orderTail?, clauseText, List.nil_append, hnone, limitTail?_limitText h]
    rfl
  | some order =>
    have hword : (spacesKeyword? "ORDER" (" ORDER BY ".toList ++ (order ++ t.limitText))).bind
        (spacesKeyword? "BY") = some (' ' :: (order ++ t.limitText)) := rfl
    have hpiece := (h.order order horder).freePiece?_eq_some delimits_limitTail?
      t.spaceStart_limitText (limitTail?_limitText h)
    rw [orderTail?, clauseText, List.append_assoc, hword, Option.bind_some, hpiece]
    rfl

theorem whereTail?_text (h : t.Readable) : whereTail? t.text = some t := by
  change whereTail? (clauseText " WHERE " t.predicate ++ t.orderText)
    = some ⟨t.predicate, t.order, t.limit, t.offset⟩
  cases hpredicate : t.predicate with
  | none =>
    have hnone : spacesKeyword? "WHERE" t.orderText = none := by
      unfold orderText limitText offsetText
      cases t.order <;> cases t.limit <;> cases t.offset <;> rfl
    rw [whereTail?, clauseText, List.nil_append, hnone, orderTail?_orderText h]
    rfl
  | some p =>
    have hword : spacesKeyword? "WHERE" (" WHERE ".toList ++ (p ++ t.orderText))
        = some (' ' :: (p ++ t.orderText)) := rfl
    have hpiece := (h.predicate p hpredicate).freePiece?_eq_some delimits_orderTail?
      t.spaceStart_orderText (orderTail?_orderText h)
    rw [whereTail?, clauseText, List.append_assoc, hword, Option.bind_some, hpiece]
    rfl

end SelectTail

namespace SelectShape

/-- A select as it is written. -/
def text (s : SelectShape) : List Char :=
  "SELECT ".toList ++ (s.projection ++ (" FROM ".toList ++ (s.table ++ s.tail.text)))

/-- A select that is read as it is meant. -/
structure Readable (s : SelectShape) : Prop where
  projection : IsPiece s.projection
  table : PlainName s.table
  tail : s.tail.Readable

theorem fromTail?_text {s : SelectShape} (h : s.Readable) :
    fromTail? (" FROM ".toList ++ (s.table ++ s.tail.text)) = some (s.table, s.tail) := by
  have htable : objectName? (s.table ++ s.tail.text) = some (s.table, s.tail.text) :=
    h.table.objectName?_append fun c hc => by
      rw [s.tail.spaceStart_text c hc]
      decide
  change (objectName? (trimLeft (s.table ++ s.tail.text))).bind _ = _
  rw [h.table.trimLeft_append, htable]
  change (whereTail? s.tail.text).bind _ = _
  rw [SelectTail.whereTail?_text h.tail]
  rfl

/-- A select is understood as it is written. -/
theorem selectShape?_text {s : SelectShape} (h : s.Readable) : selectShape? s.text = some s := by
  have hfrom : SpaceStart (" FROM ".toList ++ (s.table ++ s.tail.text)) := by
    intro c hc
    exact (Option.mem_some_iff.1 hc).symm
  have hpiece := h.projection.freePiece?_eq_some delimits_fromTail? hfrom (fromTail?_text h)
  change (freePiece? fromTail? (' ' :: (s.projection ++ _))).bind _ = _
  rw [hpiece]
  rfl

end SelectShape

end Colonnade.Store
