import Colonnade.Proofs.BindingTheorems
import Colonnade.Proofs.Equations
import Colonnade.Proofs.ScriptTheorems
import Mathlib.Computability.Language

/-!
# Literals are read as they are written

Three readers come upon the literals of strings: binding copies them, splitting keeps each in its
statement, and an equality takes the string out of one again. All of them mean the same texts, the
words of a regular language (`closedLiterals`): between two quotes stand characters that are neither
quotes nor backslashes, and pairs of a backslash and any character. Binding takes these words and no
others for literals (`nextToken?_eq_literal_iff`), they are what splitting never cuts
(`pieces_append_eq_literal_iff`), and an equality says a string where binding would find a literal
(`equality?_eq_string_iff`).

A text begins with at most one of these words (`eq_of_mem_closedLiterals`), and escaping makes one
of every string (`quoteChars_mem_closedLiterals`). So each reader takes the literal of a string for
what it is, whatever follows, and an equality says the string again (`literals_read_back`).
-/

namespace Colonnade

namespace Sql.Quoted

open scoped Computability

/-! ## The language of literals -/

/-- The characters that are neither quotes nor backslashes. -/
def plainUnits : Language Char := {u | ∃ c, c ≠ '\'' ∧ c ≠ '\\' ∧ u = [c]}

/-- A backslash and any character behind it. -/
def escapedUnits : Language Char := {u | ∃ c, u = ['\\', c]}

/-- What the inside of a literal is made of. -/
def bodyUnits : Language Char := plainUnits + escapedUnits

/-- Closed literals: units between two quotes. -/
def closedLiterals : Language Char := {['\'']} * bodyUnits∗ * {['\'']}

variable {u cs body rest front front' rest' : List Char}

theorem singleton_mem_bodyUnits {c : Char} (hquote : c ≠ '\'') (hslash : c ≠ '\\') :
    [c] ∈ bodyUnits := Or.inl ⟨c, hquote, hslash, rfl⟩

theorem slash_mem_bodyUnits (c : Char) : ['\\', c] ∈ bodyUnits := Or.inr ⟨c, rfl⟩

theorem append_mem_bodies (hu : u ∈ bodyUnits) (hbody : body ∈ bodyUnits∗) :
    u ++ body ∈ bodyUnits∗ :=
  have hunit : bodyUnits * bodyUnits∗ ≤ bodyUnits∗ := mul_kstar_le_kstar
  hunit (Language.append_mem_mul hu hbody)

theorem mem_closedLiterals_iff :
    cs ∈ closedLiterals ↔ ∃ body ∈ bodyUnits∗, cs = '\'' :: (body ++ ['\'']) := by
  constructor
  · intro h
    obtain ⟨opened, hopened, closing, rfl, rfl⟩ := Language.mem_mul.1 h
    obtain ⟨opening, rfl, body, hbody, rfl⟩ := Language.mem_mul.1 hopened
    exact ⟨body, hbody, rfl⟩
  · rintro ⟨body, hbody, rfl⟩
    exact Language.append_mem_mul (Language.append_mem_mul (Set.mem_singleton _) hbody)
      (Set.mem_singleton _)

theorem enclosed_mem_closedLiterals_iff :
    '\'' :: (body ++ ['\'']) ∈ closedLiterals ↔ body ∈ bodyUnits∗ := by
  rw [mem_closedLiterals_iff]
  constructor
  · rintro ⟨body', hbody', heq⟩
    rwa [List.append_cancel_right (List.cons.inj heq).2]
  · exact fun hbody => ⟨body, hbody, rfl⟩

/-! ## Finding the closing quote -/

/-- A unit is scanned as a whole. -/
theorem scanBody_append_of_mem_bodyUnits (hu : u ∈ bodyUnits) (cs : List Char) :
    scanBody (u ++ cs) = (scanBody cs).map fun (body, rest) => (u ++ body, rest) := by
  rcases hu with ⟨c, hquote, hslash, rfl⟩ | ⟨c, rfl⟩
  · exact scanBody_cons hquote hslash cs
  · rfl

/-- The scan goes over units and stops at the quote behind them. -/
theorem scanBody_of_mem_bodies (hbody : body ∈ bodyUnits∗) (rest : List Char) :
    scanBody (body ++ '\'' :: rest) = some (body, rest) := by
  obtain ⟨units, rfl, hunits⟩ := Language.mem_kstar.1 hbody
  induction units with
  | nil => rfl
  | cons u units ih =>
    obtain ⟨hu, hunits⟩ := List.forall_mem_cons.1 hunits
    have hrest := ih hunits (Language.join_mem_kstar hunits)
    rw [List.flatten_cons, List.append_assoc, scanBody_append_of_mem_bodyUnits hu, hrest]
    rfl

/-- What the scan has gone over consists of units. -/
theorem mem_bodies_of_scanBody (h : scanBody cs = some (body, rest)) : body ∈ bodyUnits∗ := by
  induction cs using scanBody.induct generalizing body rest with
  | case1 => cases h
  | case2 cs =>
    cases h
    exact Language.nil_mem_kstar _
  | case3 c cs ih =>
    obtain ⟨⟨b, r⟩, hb, he⟩ := Option.map_eq_some_iff.1 h
    cases he
    exact append_mem_bodies (slash_mem_bodyUnits c) (ih hb)
  | case4 => cases h
  | case5 c cs hquote hpair hslash ih =>
    have hc := ne_slash_of_cases hpair hslash
    rw [scanBody_cons hquote hc] at h
    obtain ⟨⟨b, r⟩, hb, he⟩ := Option.map_eq_some_iff.1 h
    cases he
    exact append_mem_bodies (singleton_mem_bodyUnits hquote hc) (ih hb)

/-- The scan finds the one way in which a text is units, a quote and a rest. -/
theorem scanBody_eq_some_iff :
    scanBody cs = some (body, rest) ↔ body ∈ bodyUnits∗ ∧ cs = body ++ '\'' :: rest := by
  constructor
  · exact fun h => ⟨mem_bodies_of_scanBody h, eq_of_scanBody h⟩
  · rintro ⟨hbody, rfl⟩
    exact scanBody_of_mem_bodies hbody rest

/-- A closed literal is a quote and what a scan goes to the end of. -/
theorem mem_closedLiterals_iff_scanBody : cs ∈ closedLiterals ↔
    ∃ closed ∈ scanBody cs.tail, cs.head? = some '\'' ∧ closed.2 = [] := by
  rw [mem_closedLiterals_iff]
  constructor
  · rintro ⟨body, hbody, rfl⟩
    exact ⟨(body, []), scanBody_of_mem_bodies hbody [], rfl, rfl⟩
  · rintro ⟨⟨body, rest⟩, hscan, hhead, rfl⟩
    obtain ⟨tail, rfl⟩ := List.head?_eq_some_iff.1 hhead
    obtain ⟨hbody, rfl⟩ := scanBody_eq_some_iff.1 hscan
    exact ⟨body, hbody, rfl⟩

instance (cs : List Char) : Decidable (cs ∈ closedLiterals) :=
  decidable_of_iff _ mem_closedLiterals_iff_scanBody.symm

example : "'it\\'s'".toList ∈ closedLiterals ∧ "'it's'".toList ∉ closedLiterals ∧
    "'it\\'".toList ∉ closedLiterals := by decide +kernel

/-- A text begins with at most one literal. -/
theorem eq_of_mem_closedLiterals (h : front ∈ closedLiterals) (h' : front' ∈ closedLiterals)
    (heq : front ++ rest = front' ++ rest') : front = front' := by
  obtain ⟨body, hbody, rfl⟩ := mem_closedLiterals_iff.1 h
  obtain ⟨body', hbody', rfl⟩ := mem_closedLiterals_iff.1 h'
  have hcs : body ++ '\'' :: rest = body' ++ '\'' :: rest' := by simpa using heq
  have hscan := scanBody_of_mem_bodies hbody rest
  rw [hcs, scanBody_of_mem_bodies hbody' rest'] at hscan
  cases hscan
  rfl

/-! ## Escaping -/

/-- The text with another text in the place of each occurrence of a character. -/
def replaceEach (c : Char) (other cs : List Char) : List Char :=
  cs.flatMap fun d => if d = c then other else [d]

/-- To escape is to double the backslashes and then to put one before each quote. -/
theorem encode_eq_replaceEach (cs : List Char) :
    encode cs = replaceEach '\'' ['\\', '\''] (replaceEach '\\' ['\\', '\\'] cs) := by
  unfold replaceEach
  induction cs with
  | nil => rfl
  | cons c cs ih =>
    rw [List.flatMap_cons, List.flatMap_append, ← ih, encode]
    by_cases hslash : c = '\\'
    · subst hslash
      rfl
    by_cases hquote : c = '\''
    · subst hquote
      rfl
    · simp [hslash, hquote]

theorem encode_mem_bodies (cs : List Char) : encode cs ∈ bodyUnits∗ :=
  mem_bodies_of_scanBody (scanBody_encode cs [])

theorem quoteChars_mem_closedLiterals (cs : List Char) : quoteChars cs ∈ closedLiterals :=
  mem_closedLiterals_iff.2 ⟨encode cs, encode_mem_bodies cs, rfl⟩

/-- A text that begins with the literal of a string begins with no other literal. -/
theorem mem_closedLiterals_iff_of_prefix {s : List Char} (h : front <+: quoteChars s ++ rest) :
    front ∈ closedLiterals ↔ front = quoteChars s := by
  constructor
  · intro hfront
    obtain ⟨more, hmore⟩ := h
    exact eq_of_mem_closedLiterals hfront (quoteChars_mem_closedLiterals s) hmore
  · rintro rfl
    exact quoteChars_mem_closedLiterals s

end Sql.Quoted

/-! ## Binding and splitting -/

namespace Sql

open Quoted

open scoped Computability

variable {w cs body rest : List Char}

theorem readable_literal_iff :
    (Token.literal body).Readable ↔ (Token.literal body).text ∈ closedLiterals := by
  rw [Token.text, enclosed_mem_closedLiterals_iff, Token.Readable, scanBody_eq_some_iff]
  exact and_iff_left rfl

/-- Binding takes for literals what the language has, and nothing else. -/
theorem nextToken?_eq_literal_iff : nextToken? cs = some (.literal body, rest) ↔
    (Token.literal body).text ∈ closedLiterals ∧ cs = (Token.literal body).text ++ rest := by
  rw [← readable_literal_iff]
  constructor
  · intro h
    exact ⟨(Token.spec_of_nextToken? h).2 (by simp), eq_of_nextToken? h⟩
  · rintro ⟨hreadable, rfl⟩
    exact hreadable.nextToken? trivial

namespace Script

/-- Behind an opening quote splitting goes to the closing one and no further. -/
theorem spanLiteral_of_mem_bodies (hbody : body ∈ bodyUnits∗) (rest : List Char) :
    spanLiteral (body ++ '\'' :: rest) = (body ++ ['\''], rest) :=
  spanLiteral_of_scanBody (scanBody_of_mem_bodies hbody rest)

theorem eq_quote_of_nextPiece {c : Char} (h : (nextPiece c cs).1 = .literal w) : c = '\'' := by
  unfold nextPiece at h
  split at h
  · assumption
  · split at h
    · cases h
    · split at h <;> cases h

/-- A text is one literal to splitting, whatever follows, exactly if the language has it. -/
theorem pieces_append_eq_literal_iff :
    (∀ rest, pieces (w ++ rest) = .literal w :: pieces rest) ↔ w ∈ closedLiterals := by
  constructor
  · intro h
    cases w with
    | nil => exact absurd (h []) (by simp)
    | cons c w =>
      have hpieces := h ['x']
      rw [List.cons_append, pieces_cons] at hpieces
      have hpiece := (List.cons.inj hpieces).1
      obtain rfl := eq_quote_of_nextPiece hpiece
      rw [nextPiece_quote] at hpiece
      have hspan : (spanLiteral (w ++ ['x'])).1 = w := by simpa using hpiece
      cases hscan : scanBody (w ++ ['x']) with
      | none =>
        -- the literal would go on to the end
        rw [spanLiteral_of_unclosed hscan] at hspan
        simp at hspan
      | some closed =>
        obtain ⟨body, rest⟩ := closed
        rw [spanLiteral_of_scanBody hscan] at hspan
        rw [← hspan, enclosed_mem_closedLiterals_iff]
        exact mem_bodies_of_scanBody hscan
  · intro hw rest
    obtain ⟨body, hbody, rfl⟩ := mem_closedLiterals_iff.1 hw
    have hscan := scanBody_of_mem_bodies hbody []
    simpa using (Reads.literal hscan (reads_pieces rest)).pieces_eq

end Script

/-- What the readers take from a text that begins with the literal of a string: the literal, and
nothing of what follows it. -/
structure TakesLiteral (s t : String) : Prop where
  /-- In the literal the backslashes of the string are doubled, then its quotes have one each. -/
  written : (quote s).toList = '\'' :: (replaceEach '\'' ['\\', '\'']
    (replaceEach '\\' ['\\', '\\'] s.toList) ++ ['\''])
  /-- Nothing else that the text begins with is a closed literal. -/
  pattern : ∀ front, front <+: (quote s ++ t).toList →
    (front ∈ closedLiterals ↔ front = (quote s).toList)
  /-- Binding finds it as the first token, with the escaped string inside. -/
  token : nextToken? (quote s ++ t).toList = some (.literal (encode s.toList), t.toList)
  /-- Splitting has seen the opening quote and goes on to the closing one. -/
  span : Script.spanLiteral (escape s ++ "'" ++ t).toList = ((escape s ++ "'").toList, t.toList)
  /-- Binding reads on behind it. -/
  tokens_eq : tokens (quote s ++ t).toList = .literal (encode s.toList) :: tokens t.toList
  /-- Splitting keeps it whole and reads on behind it. -/
  pieces_eq : Script.pieces (quote s ++ t).toList
    = .literal (quote s).toList :: Script.pieces t.toList

theorem takesLiteral (s t : String) : TakesLiteral s t := by
  have htext : (quote s ++ t).toList = quoteChars s.toList ++ t.toList := by
    rw [String.toList_append, toList_quote]
  have hmem := quoteChars_mem_closedLiterals s.toList
  have htoken : nextToken? (quote s ++ t).toList
      = some (.literal (encode s.toList), t.toList) := nextToken?_eq_literal_iff.2 ⟨hmem, htext⟩
  refine ⟨?_, fun front hfront => ?_, htoken, ?_, tokens_of_some htoken, ?_⟩
  · rw [toList_quote, quoteChars, encode_eq_replaceEach]
  · rw [htext] at hfront
    rw [toList_quote]
    exact mem_closedLiterals_iff_of_prefix hfront
  · simpa [toList_escape] using
      Script.spanLiteral_of_mem_bodies (encode_mem_bodies s.toList) t.toList
  · rw [htext, toList_quote]
    exact Script.pieces_append_eq_literal_iff.2 hmem t.toList

end Sql

/-! ## The three readers together -/

namespace Store

open Text Sql

/-- Behind its equals sign an equality says a string exactly if binding finds a literal there that
has the string inside and ends the equality. -/
theorem equality?_eq_string_iff {column gap cs : List Char} {x : String} (hcolumn : IsColumn column)
    (hgap : IsGap gap) :
    equality? (column ++ (gap ++ '=' :: cs)) = some (.ofList column, .string x) ↔
      ∃ body back, nextToken? (trimLeft cs) = some (.literal body, back) ∧
        equalityEnds back = true ∧ (Token.literal body).content? = some x := by
  have hne : column.isEmpty = false := by simpa using hcolumn.ne_nil
  have hgaps : equality? (column ++ (gap ++ '=' :: cs))
      = equality? ([] ++ (column ++ ([] ++ '=' :: cs))) :=
    equality?_gaps hcolumn isGap_nil hgap isGap_nil cs
  rw [hgaps]
  unfold equality?
  split
  · next h => exact absurd h (hcolumn.ne_parenthesis isGap_nil _ _)
  · simp only [hcolumn.trimLeft_append isGap_nil, hcolumn.cut isGap_nil,
      trimLeft_equals isGap_nil, hne]
    rw [if_neg Bool.false_ne_true]
    split
    · next tail htail =>
      rw [htail]
      cases hscan : Quoted.scanBody tail with
      | none => simp [nextToken?, hscan]
      | some closed =>
        obtain ⟨body, back⟩ := closed
        simp [nextToken?, hscan, Token.content?]
    · next hquote =>
      -- without a quote there is an integer or nothing
      constructor
      · intro h
        obtain ⟨n, -, hn⟩ := Option.bind_eq_some_iff.1 (Option.ite_none_right_eq_some.1 h).2
        cases hn
      · rintro ⟨body, back, htoken, -⟩
        exact absurd (eq_of_nextToken? htoken) (hquote _)

/-- **Literals are read as they are written.** Whatever the string and whatever follows its literal,
binding and splitting take exactly the literal; and an equality of any column with the literal of a
string or an integer is understood as the column and that value. -/
theorem literals_read_back (s t column sql : String) (n : Int64) (hcolumn : IsColumn column.toList)
    {gap gap' : List Char} (hgap : IsGap gap) (hgap' : IsGap gap') :
    TakesLiteral s t ∧
      Memory.filterOf sql (some (column.toList ++ (gap ++ '=' :: (gap' ++
        (Quoted.quote s).toList)))) = .ok (some (column, .string s)) ∧
      Memory.filterOf sql (some (column.toList ++ (gap ++ '=' :: (gap' ++
        (literal (.int n)).toList)))) = .ok (some (column, .int n)) := by
  have hread (v : Operand) : Memory.filterOf sql (some (column.toList ++ (gap ++ '=' :: (gap' ++
      v.chars)))) = .ok (some (column, v.value)) := by
    rw [(isEquation_gaps hcolumn hgap hgap' v).filterOf_eq, String.ofList_toList]
  exact ⟨takesLiteral s t, hread (.string s), hread (.int n)⟩

/-- A string that ends in a backslash and looks like the end of its literal, before a text that
could go on with it; a column with letters beyond ASCII; the least integer. -/
theorem literals_read_back_hostile :
    let s := "it's'; -- \\' \\"
    let t := "' OR :x = '1"
    let column := "größe_1"
    let sql := "ALTER TABLE t DELETE WHERE"
    IsColumn column.toList ∧ IsGap ['\t', ' '] ∧ IsGap [] ∧ TakesLiteral s t ∧
      Memory.filterOf sql (some (column.toList ++ (['\t', ' '] ++ '=' :: ([] ++
        (Quoted.quote s).toList)))) = .ok (some (column, .string s)) ∧
      Memory.filterOf sql (some (column.toList ++ (['\t', ' '] ++ '=' :: ([] ++
        (literal (.int Int64.minValue)).toList)))) = .ok (some (column, .int Int64.minValue)) := by
  intro s t column sql
  have hcolumn : IsColumn column.toList := by
    refine ⟨by decide +kernel, ?_⟩
    simp only [isWord, CodePointRanges.holds_eq_any]
    decide +kernel
  have hgap : IsGap ['\t', ' '] := by
    simp only [IsGap, List.forall_mem_cons]
    decide
  exact ⟨hcolumn, hgap, isGap_nil,
    literals_read_back s t column sql Int64.minValue hcolumn hgap isGap_nil⟩

end Store

end Colonnade
