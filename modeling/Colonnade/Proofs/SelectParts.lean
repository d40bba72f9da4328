import Colonnade.Proofs.SelectShapes

/-!
# The parts of a select

What is written between the keywords of a select: names, select lists, orders and conditions. Each
is a piece that contains no keyword, and is read back as it was written.
-/

namespace Colonnade.Store

open Text

/-! ## Names -/

/-- The words of a select that cannot be names. -/
def reservedWords : List String :=
  ["SELECT", "FROM", "WHERE", "ORDER", "BY", "LIMIT", "OFFSET", "AS", "ASC", "DESC"]

/-- A plain name that is no word of a select, whatever the case of its letters. -/
structure FreeName (name : List Char) : Prop extends PlainName name where
  unreserved : ∀ word ∈ reservedWords, name.map Char.toUpper ≠ word.toList

instance (name : List Char) : Decidable (FreeName name) :=
  decidable_of_iff
    (PlainName name ∧ ∀ word ∈ reservedWords, name.map Char.toUpper ≠ word.toList)
    ⟨fun h => ⟨h.1, h.2⟩, fun h => ⟨h.toPlainName, h.unreserved⟩⟩

/-- An ASCII character that passes for a letter of a keyword is that letter in some case. -/
theorem toUpper_of_sameLetter {k c : Char} (hc : c.toNat < 128) (h : sameLetter k c = true) :
    c.toUpper = k := by
  have hs : c ≠ '\u017f' := by
    rintro rfl
    exact absurd hc (by decide)
  have hk : c ≠ '\u212a' := by
    rintro rfl
    exact absurd hc (by decide)
  simpa [sameLetter, hs, hk] using h

/-- A name that is not the keyword is not taken for it, if no letter of the keyword follows. -/
theorem keyword?_name {ks name rest : List Char} (hname : ∀ c ∈ name, Sql.isNameChar c = true)
    (hne : name.map Char.toUpper ≠ ks)
    (hrest : ∀ c ∈ rest.head?, ∀ k ∈ ks, sameLetter k c = false) :
    (keyword? ks (name ++ rest)).bind spaces? = none := by
  induction ks generalizing name with
  | nil =>
    cases name with
    | nil => exact absurd rfl hne
    | cons c cs =>
      exact spaces?_of_not_space (nameChar_spec (hname c List.mem_cons_self)).2.1 (cs ++ rest)
  | cons k ks ih =>
    cases name with
    | nil =>
      cases rest with
      | nil => rfl
      | cons c rest =>
        have hc := hrest c rfl k List.mem_cons_self
        simp [keyword?, hc]
    | cons c cs =>
      obtain ⟨hc, hcs⟩ := List.forall_mem_cons.1 hname
      rw [List.cons_append, keyword?]
      split
      · next hsame =>
        refine ih hcs (fun hcs => hne ?_) fun d hd k' hk' =>
          hrest d hd k' (List.mem_cons_of_mem k hk')
        rw [List.map_cons, toUpper_of_sameLetter (toNat_lt_of_isNameChar hc) hsame, hcs]
      · rfl

/-- What may follow a name: the end, a space or a comma. -/
def NameEnd (cs : List Char) : Prop := ∀ c ∈ cs.head?, c = ' ' ∨ c = ','

theorem FreeName.startsPlain {name rest : List Char} (h : FreeName name) (hrest : NameEnd rest) :
    StartsPlain (name ++ rest) where
  first := by
    obtain ⟨c, cs, rfl⟩ := List.exists_cons_of_ne_nil h.ne_nil
    exact ⟨c, cs ++ rest, rfl, h.isSpace_eq c List.mem_cons_self⟩
  word word hword tail htail := by
    have hreserved : ∀ word ∈ clauseWords, word ∈ reservedWords ∧
        ∀ k ∈ word.toList, sameLetter k ' ' = false ∧ sameLetter k ',' = false := by decide
    obtain ⟨hmem, hletters⟩ := hreserved word hword
    rw [List.append_assoc, keywordSpaces?]
    refine keyword?_name h.chars (h.unreserved word hmem) fun c hc k hk => ?_
    have hc : c = ' ' ∨ c = ',' := by
      cases rest with
      | nil => exact .inl (htail c hc)
      | cons d rest => exact hrest c hc
    rcases hc with rfl | rfl
    · exact (hletters k hk).1
    · exact (hletters k hk).2

/-- A text that begins with no first letter of a clause starts plain. -/
theorem startsPlain_cons {c : Char} (hspace : isSpace c = false)
    (hletter : ∀ k ∈ ['F', 'O', 'L'], sameLetter k c = false) (cs : List Char) :
    StartsPlain (c :: cs) where
  first := ⟨c, cs, rfl, hspace⟩
  word word hword tail _ := by
    have hinitial : ∀ word ∈ clauseWords, word.toList.head?.any (· ∈ ['F', 'O', 'L']) = true := by
      decide
    obtain ⟨k, hword, hk⟩ := (Option.any_eq_true _ _).1 (hinitial word hword)
    obtain ⟨ks, hks⟩ := List.head?_eq_some_iff.1 hword
    rw [keywordSpaces?, hks, List.cons_append, keyword?,
      hletter k (of_decide_eq_true hk)]
    rfl

/-! ## Ends of texts -/

/-- A text whose last character is kept when a statement is received. -/
def EndsSolid (cs : List Char) : Prop :=
  ∃ most d, cs = most ++ [d] ∧ isSpace d = false ∧ d ≠ ';'

theorem EndsSolid.append {back : List Char} (h : EndsSolid back) (front : List Char) :
    EndsSolid (front ++ back) := by
  obtain ⟨most, d, rfl, hd⟩ := h
  exact ⟨front ++ most, d, (List.append_assoc _ _ _).symm, hd⟩

theorem EndsSolid.of_word {w : List Char} (hne : w ≠ [])
    (h : ∀ c ∈ w, isSpace c = false ∧ c ≠ ';') : EndsSolid w := by
  obtain ⟨most, d, rfl⟩ := List.eq_nil_or_concat w |>.resolve_left hne
  exact ⟨most, d, List.concat_eq_append, h d (by simp)⟩

theorem EndsSolid.clause {front : List Char} (h : EndsSolid front) (keyword : String)
    {part : Option (List Char)} (hpart : ∀ p ∈ part, EndsSolid p) :
    EndsSolid (front ++ clauseText keyword part) := by
  cases part with
  | none => rwa [clauseText, List.append_nil]
  | some p =>
    rw [clauseText, ← List.append_assoc]
    exact (hpart p rfl).append _

/-- Nothing is trimmed from a piece that ends solid. -/
theorem IsPiece.trimChars_eq {p : List Char} (h : IsPiece p) (hend : EndsSolid p) :
    trimChars p = p := by
  obtain ⟨c, cs, hp, hc⟩ := h.plain.first
  obtain ⟨most, d, hp', hd, -⟩ := hend
  have hleft : trimLeft p = p := by
    rw [hp]
    exact trimLeft_cons_of_not_space hc
  have hright : trimRight p = p := by
    rw [hp']
    exact trimRight_append_of_not_space hd
  rw [trimChars, hleft, hright]

theorem FreeName.endsSolid {name : List Char} (h : FreeName name) : EndsSolid name :=
  .of_word h.ne_nil fun c hc =>
    ⟨h.isSpace_eq c hc, (nameChar_spec (h.chars c hc)).2.2.2.2⟩

theorem IsNumber.endsSolid {digits : List Char} (h : IsNumber digits) : EndsSolid digits :=
  .of_word h.ne_nil fun c hc =>
    have hname := nameChar_spec (c := c) (by simp [Sql.isNameChar, Char.isAlphanum, h.digit c hc])
    ⟨hname.2.1, hname.2.2.2.2⟩

/-! ## Lists of parts -/

/-- A part of a list: it contains no keyword of a clause, also where a comma follows it. -/
def IsPart (p : List Char) : Prop :=
  ∀ rest, Spaced rest → (∀ c ∈ rest.head?, c = ',') → IsPiece (p ++ rest)

/-- Parts with commas between them are a piece. -/
theorem isPiece_intercalate {p : List Char} {ps : List (List Char)} (h : ∀ q ∈ p :: ps, IsPart q) :
    IsPiece ([',', ' '].intercalate (p :: ps)) := by
  induction ps generalizing p with
  | nil =>
    have hp := h p List.mem_cons_self [] trivial (by simp)
    simpa using hp
  | cons q ps ih =>
    obtain ⟨hp, hps⟩ := List.forall_mem_cons.1 h
    have hspace := (ih hps).space
    rw [List.intercalate_cons_cons, List.append_assoc]
    exact hp _ ⟨fun hcomma => absurd hcomma (by decide), hspace⟩ (by simp)

theorem endsSolid_intercalate {p : List Char} {ps : List (List Char)}
    (h : ∀ q ∈ p :: ps, EndsSolid q) : EndsSolid ([',', ' '].intercalate (p :: ps)) := by
  induction ps generalizing p with
  | nil => simpa using h p List.mem_cons_self
  | cons q ps ih =>
    rw [List.intercalate_cons_cons]
    exact (ih (List.forall_mem_cons.1 h).2).append _

/-- What is read of the pieces of a list is read of its parts, if a space before a part makes no
difference. -/
theorem map_pieces_intercalate {ι β : Type} {f : List Char → β} (hf : ∀ q, f (' ' :: q) = f q)
    {items : List ι} (hne : items ≠ []) {part : ι → List Char} {g : ι → β}
    (h : ∀ i ∈ items, ',' ∉ part i ∧ f (part i) = g i) :
    (pieces ',' ([',', ' '].intercalate (items.map part))).map f = items.map g := by
  obtain ⟨i, is, rfl⟩ := List.exists_cons_of_ne_nil hne
  have hcomma : ∀ q ∈ part i :: is.map part, ',' ∉ q := by
    rw [← List.map_cons, List.forall_mem_map]
    exact fun k hk => (h k hk).1
  obtain ⟨hi, his⟩ := List.forall_mem_cons.1 h
  rw [List.map_cons, pieces_intercalate hcomma, List.map_cons, List.map_map, List.map_map, hi.2,
    List.map_cons]
  refine congrArg (g i :: ·) (List.map_congr_left fun k hk => ?_)
  simp only [Function.comp_apply, hf, (his k hk).2]

theorem FreeName.isPart {name : List Char} (h : FreeName name) : IsPart name :=
  fun _ hrest hcomma =>
    ⟨h.startsPlain fun c hc => .inr (hcomma c hc), hrest.word_append h.isSpace_eq⟩

theorem FreeName.comma_not_mem {name : List Char} (h : FreeName name) : ',' ∉ name := fun hmem =>
  absurd (h.chars ',' hmem) (by decide)

/-- A name and a text behind it with a space between are a part, if the text is one. -/
theorem FreeName.isPart_append {name : List Char} (h : FreeName name) {p : List Char}
    (hp : IsPart p) : IsPart (name ++ ' ' :: p) := fun rest hrest hcomma => by
  have hspace := (hp rest hrest hcomma).space
  rw [List.append_assoc]
  exact ⟨h.startsPlain fun c hc => .inl (Option.mem_some_iff.1 hc).symm,
    hspace.word_append h.isSpace_eq⟩

/-- A word that begins with no first letter of a clause is a part. -/
theorem isPart_cons {c : Char} {cs : List Char} (hspace : ∀ d ∈ c :: cs, isSpace d = false)
    (hletter : ∀ k ∈ ['F', 'O', 'L'], sameLetter k c = false) : IsPart (c :: cs) :=
  fun rest hrest _ => ⟨startsPlain_cons (hspace c List.mem_cons_self) hletter (cs ++ rest),
    hrest.word_append hspace⟩

/-! ## Select lists -/

/-- An item of a select list as it is written. -/
def itemChars (name source : List Char) : List Char := source ++ " AS ".toList ++ name

theorem isPart_itemChars {name source : List Char} (hname : FreeName name)
    (hsource : FreeName source) : IsPart (itemChars name source) := by
  have has : IsPart ("AS ".toList ++ name) := fun rest hrest hcomma =>
    ⟨startsPlain_cons (by decide) (by decide) _,
      (hname.isPart rest hrest hcomma).space.word_append (w := "AS".toList) (by decide)⟩
  have hitem := hsource.isPart_append has
  rwa [itemChars, List.append_assoc]

theorem endsSolid_itemChars {name : List Char} (h : FreeName name) (source : List Char) :
    EndsSolid (itemChars name source) :=
  h.endsSolid.append _

theorem comma_not_mem_itemChars {name source : List Char} (hname : FreeName name)
    (hsource : FreeName source) : ',' ∉ itemChars name source := by
  simp [itemChars, hname.comma_not_mem, hsource.comma_not_mem]

theorem isColumnName_eq {name : List Char} (h : PlainName name) : isColumnName name = true := by
  have hall : name.all (fun c => c.isAlphanum || c == '_') = true := List.all_eq_true.2 h.chars
  rw [isColumnName, hall]
  simpa using h.ne_nil

/-- An item is read as it is written. -/
theorem projectionItem?_itemChars {name source : List Char} (hname : PlainName name)
    (hsource : PlainName source) :
    projectionItem? (itemChars name source) = some (.ofList source, .ofList name) := by
  have hwords : words (itemChars name source) = [source, "AS".toList, name] := by
    have has : words ("AS".toList ++ ' ' :: name) = ["AS".toList, name] := by
      rw [words_append_space (by decide) (by decide), words_of_forall hname.ne_nil hname.isSpace_eq]
    have hcut : itemChars name source = source ++ ' ' :: ("AS".toList ++ ' ' :: name) := by
      simp [itemChars]
    rw [hcut, words_append_space hsource.ne_nil hsource.isSpace_eq, has]
  have has : "AS".toList.map Char.toUpper = "AS".toList := by decide
  rw [projectionItem?, hwords]
  simp only [has, isColumnName_eq hname, isColumnName_eq hsource]
  rfl

/-! ## Orders -/

/-- The direction of a sort key. -/
inductive Direction where
  | up
  | down
deriving DecidableEq, Repr

/-- A sort key as it is written. -/
def keyChars (column : List Char) : Option Direction → List Char
  | none => column
  | some .up => column ++ " ASC".toList
  | some .down => column ++ " DESC".toList

theorem isPart_keyChars {column : List Char} (h : FreeName column) (direction : Option Direction) :
    IsPart (keyChars column direction) := by
  have hup : IsPart "ASC".toList := isPart_cons (by decide) (by decide)
  have hdown : IsPart "DESC".toList := isPart_cons (by decide) (by decide)
  cases direction with
  | none => exact h.isPart
  | some d =>
    cases d with
    | up => exact h.isPart_append hup
    | down => exact h.isPart_append hdown

theorem endsSolid_keyChars {column : List Char} (h : FreeName column)
    (direction : Option Direction) : EndsSolid (keyChars column direction) := by
  cases direction with
  | none => exact h.endsSolid
  | some d =>
    have hword : EndsSolid " ASC".toList ∧ EndsSolid " DESC".toList :=
      ⟨⟨" AS".toList, 'C', by decide⟩, ⟨" DES".toList, 'C', by decide⟩⟩
    cases d with
    | up => exact hword.1.append column
    | down => exact hword.2.append column

theorem comma_not_mem_keyChars {column : List Char} (h : FreeName column)
    (direction : Option Direction) : ',' ∉ keyChars column direction := by
  cases direction with
  | none => exact h.comma_not_mem
  | some d => cases d <;> simp [keyChars, h.comma_not_mem]

/-- The sort key of an item of an order, if the item has a word. -/
def sortKey? (item : List Char) : Option SortKey :=
  match words item with
  | [] => none
  | column :: rest =>
    some ⟨.ofList column, rest.head?.any fun word => word.map Char.toUpper = "DESC".toList⟩

theorem sortKeys_eq_filterMap (cs : List Char) :
    sortKeys cs = (pieces ',' cs).filterMap sortKey? := rfl

/-- A sort key is read as it is written. -/
theorem sortKey?_keyChars {column : List Char} (h : PlainName column)
    (direction : Option Direction) :
    sortKey? (keyChars column direction) = some ⟨.ofList column, direction = some .down⟩ := by
  have hword {w : List Char} (hw : w ≠ []) (hspace : ∀ c ∈ w, isSpace c = false) :
      words (column ++ ' ' :: w) = [column, w] := by
    rw [words_append_space h.ne_nil h.isSpace_eq, words_of_forall hw hspace]
  cases direction with
  | none =>
    rw [keyChars, sortKey?, words_of_forall h.ne_nil h.isSpace_eq]
    rfl
  | some d =>
    cases d with
    | up =>
      have hup : words (keyChars column (some .up)) = [column, "ASC".toList] :=
        hword (by decide) (by decide)
      rw [sortKey?, hup]
      rfl
    | down =>
      have hdown : words (keyChars column (some .down)) = [column, "DESC".toList] :=
        hword (by decide) (by decide)
      rw [sortKey?, hdown]
      rfl

/-! ## Limits and offsets -/

/-- A number as it is written. -/
def numberChars (n : UInt64) : List Char := Nat.toDigits 10 n.toNat

theorem isNumber_numberChars (n : UInt64) : IsNumber (numberChars n) :=
  ⟨Nat.toDigits_ne_nil, fun _ hc => Decimal.isDigit_of_mem_toDigits hc⟩

/-- A number is read as it is written. -/
theorem rowCount?_numberChars (n : UInt64) : rowCount? (numberChars n) = some n.toNat := by
  have hle : n.toNat ≤ Decimal.maxUInt64 := Nat.le_of_lt_succ n.toNat_lt
  rw [rowCount?, numberChars, Decimal.natural?_toDigits]
  simp [hle]

/-! ## Conditions -/

/-- A condition as it is written. -/
def conditionChars (column literal : List Char) : List Char := column ++ " = ".toList ++ literal

theorem isPiece_conditionChars {column literal : List Char} (hcolumn : FreeName column)
    (hliteral : IsPart literal) : IsPiece (conditionChars column literal) := by
  have hequals : IsPart ("= ".toList ++ literal) := fun rest hrest hcomma =>
    ⟨startsPlain_cons (by decide) (by decide) _,
      (hliteral rest hrest hcomma).space.word_append (w := ['=']) (by decide)⟩
  have hpart := hcolumn.isPart_append hequals [] trivial (by simp)
  rw [List.append_nil] at hpart
  rwa [conditionChars, List.append_assoc]

/-- A character of an integer is no white space and no letter of a clause. -/
theorem numberChar_spec {c : Char} (h : c = '-' ∨ c.isDigit = true) : isSpace c = false ∧
    (∀ k ∈ ['F', 'O', 'L'], sameLetter k c = false) ∧ c ≠ '\'' ∧ c ≠ ';' := by
  have hascii : c.toNat < 128 := by
    rcases h with rfl | h
    · decide
    · exact toNat_lt_of_isNameChar (by simp [Sql.isNameChar, Char.isAlphanum, h])
  revert h
  refine forall_ascii hascii ?_
  decide +kernel

/-- A value that a column is compared with. -/
inductive Operand where
  | int (n : Int64)
  | string (s : String)
deriving DecidableEq

namespace Operand

/-- The operand as a value. -/
def value : Operand → Value
  | int n => .int n
  | string s => .string s

/-- The operand as it is written. -/
def chars (v : Operand) : List Char := (Sql.literal v.value).toList

theorem chars_string (s : String) : (string s).chars = Sql.Quoted.quoteChars s.toList := by
  rw [chars, value, Sql.literal, Sql.scalarLiteral, Sql.Quoted.toList_quote]

theorem chars_int (n : Int64) : (int n).chars = (toString n.toInt).toList := by
  rw [chars, value, Sql.literal, Sql.scalarLiteral]

/-- An operand without white space; integers have none. -/
def Unspaced : Operand → Prop
  | int _ => True
  | string s => ∀ c ∈ s.toList, isSpace c = false

instance : (v : Operand) → Decidable v.Unspaced
  | int _ => isTrue trivial
  | string s => inferInstanceAs (Decidable (∀ c ∈ s.toList, isSpace c = false))

theorem isSpace_encode {cs : List Char} (h : ∀ c ∈ cs, isSpace c = false) :
    ∀ c ∈ Sql.Quoted.encode cs, isSpace c = false := by
  induction cs with
  | nil => simp [Sql.Quoted.encode]
  | cons c cs ih =>
    obtain ⟨hc, hcs⟩ := List.forall_mem_cons.1 h
    rw [Sql.Quoted.encode]
    split
    · exact List.forall_mem_cons.2 ⟨by decide, List.forall_mem_cons.2 ⟨hc, ih hcs⟩⟩
    · exact List.forall_mem_cons.2 ⟨hc, ih hcs⟩

theorem isSpace_chars {v : Operand} (h : v.Unspaced) : ∀ c ∈ v.chars, isSpace c = false := by
  cases v with
  | int n =>
    intro c hc
    rw [chars_int] at hc
    exact (numberChar_spec (Decimal.mem_toString_int hc)).1
  | string s =>
    rw [chars_string, Sql.Quoted.quoteChars, List.forall_mem_cons, List.forall_mem_append]
    exact ⟨by decide, isSpace_encode h, by decide⟩

/-- An operand begins with no white space and no first letter of a clause. -/
theorem chars_eq_cons (v : Operand) : ∃ c cs, v.chars = c :: cs ∧ isSpace c = false ∧
    ∀ k ∈ ['F', 'O', 'L'], sameLetter k c = false := by
  cases v with
  | int n =>
    rw [chars_int]
    obtain ⟨c, cs, hcs⟩ := List.exists_cons_of_ne_nil (Decimal.toString_int_ne_nil n.toInt)
    have hc := numberChar_spec (Decimal.mem_toString_int (hcs ▸ List.mem_cons_self : c ∈ _))
    exact ⟨c, cs, hcs, hc.1, hc.2.1⟩
  | string s =>
    rw [chars_string]
    exact ⟨'\'', _, rfl, by decide, by decide⟩

theorem endsSolid_chars (v : Operand) : EndsSolid v.chars := by
  cases v with
  | int n =>
    obtain ⟨c, cs, hcs, -⟩ := (int n).chars_eq_cons
    refine .of_word (hcs ▸ List.cons_ne_nil c cs) fun d hd => ?_
    rw [chars_int] at hd
    have hnumber := numberChar_spec (Decimal.mem_toString_int hd)
    exact ⟨hnumber.1, hnumber.2.2.2⟩
  | string s =>
    rw [chars_string]
    exact ⟨'\'' :: Sql.Quoted.encode s.toList, '\'', rfl, by decide⟩

/-- Binding leaves an operand as it is. -/
theorem bindChars_chars (v : Operand) (params : Params) :
    Sql.bindChars params v.chars = v.chars := by
  cases v with
  | int n =>
    rw [chars_int]
    refine Sql.bindChars_of_plain params fun c hc => ?_
    rcases Decimal.mem_toString_int hc with rfl | hdigit
    · decide
    · constructor <;> rintro rfl <;> exact absurd hdigit (by decide)
  | string s =>
    have hnext : Sql.nextToken? (Sql.Quoted.quoteChars s.toList)
        = some (.literal (Sql.Quoted.encode s.toList), []) := by
      simp [Sql.nextToken?, Sql.Quoted.quoteChars, Sql.Quoted.scanBody_encode]
    rw [chars_string, Sql.bindChars_of_nextToken? params hnext, Sql.bindChars, Sql.tokens_nil,
      List.flatMap_nil, List.append_nil]
    rfl

theorem isPart_chars {v : Operand} (h : v.Unspaced) : IsPart v.chars := by
  obtain ⟨c, cs, hcs, -, hletter⟩ := v.chars_eq_cons
  have hspace := isSpace_chars h
  rw [hcs] at hspace ⊢
  exact isPart_cons hspace hletter

end Operand

end Colonnade.Store
