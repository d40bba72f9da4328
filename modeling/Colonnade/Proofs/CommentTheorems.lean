import Colonnade.Proofs.BindingTheorems
import Mathlib.Data.List.Chain

/-!
# Dashes in bound statements

Two dashes outside of literals begin a comment. `outside` is what a statement has outside of its
closed literals; unlike its tokens it is not changed by what texts go on each other, so that of a
statement with its placeholders bound it consists of what each token is bound to
(`outside_bindChars`). The literal of a value has a dash at its start if the value is a negative
number, and else outside of quotes none. A bound value therefore begins a comment exactly where a
negative number stands right behind a dash (`dashesApart_bind_iff`).
-/

namespace Colonnade.Sql

/-! ## Outside of literals -/

/-- What stands outside of the closed literals of a text, with `none` in the place of each. -/
def outside : List Char → List (Option Char)
  | [] => []
  | c :: cs =>
    if c = '\'' then
      match _h : Quoted.scanBody cs with
      | some (_, rest) => none :: outside rest
      | none => some c :: outside cs
    else some c :: outside cs
termination_by cs => cs.length
decreasing_by
  · exact Nat.lt_succ_of_lt (Quoted.length_lt_of_scanBody _h)
  · exact Nat.lt_succ_self _
  · exact Nat.lt_succ_self _

/-- Whether every literal of a text is closed: no quote is left outside of them. -/
def Closed (cs : List Char) : Prop := some '\'' ∉ outside cs

/-- Whether no two neighbours outside of literals are dashes. -/
def DashesApart (cs : List Char) : Prop :=
  (outside cs).IsChain fun a b => ¬ (a = some '-' ∧ b = some '-')

instance (cs : List Char) : Decidable (Closed cs) := inferInstanceAs (Decidable (¬ _))

instance (cs : List Char) : Decidable (DashesApart cs) :=
  inferInstanceAs (Decidable (List.IsChain _ _))

@[simp] theorem outside_nil : outside [] = [] := by rw [outside]

theorem outside_cons {c : Char} (h : c ≠ '\'') (cs : List Char) :
    outside (c :: cs) = some c :: outside cs := by
  rw [outside, if_neg h]

theorem outside_literal {cs body rest : List Char} (h : Quoted.scanBody cs = some (body, rest)) :
    outside ('\'' :: cs) = none :: outside rest := by
  rw [outside, if_pos rfl]
  split
  · next hbody =>
    rw [h] at hbody
    cases hbody
    rfl
  · next hnone =>
    rw [h] at hnone
    cases hnone

theorem outside_lone {cs : List Char} (h : Quoted.scanBody cs = none) :
    outside ('\'' :: cs) = some '\'' :: outside cs := by
  rw [outside, if_pos rfl]
  split
  · next hbody =>
    rw [h] at hbody
    cases hbody
  · rfl

/-- A text without quotes is outside of literals. -/
theorem outside_of_forall {cs : List Char} (h : ∀ c ∈ cs, c ≠ '\'') :
    outside cs = cs.map some := by
  induction cs with
  | nil => exact outside_nil
  | cons c cs ih =>
    obtain ⟨hc, hcs⟩ := List.forall_mem_cons.1 h
    rw [outside_cons hc, ih hcs, List.map_cons]

theorem closed_of_forall {cs : List Char} (h : ∀ c ∈ cs, c ≠ '\'') : Closed cs := by
  rw [Closed, outside_of_forall h]
  intro hmem
  obtain ⟨c, hc, heq⟩ := List.mem_map.1 hmem
  exact h c hc (Option.some.inj heq)

/-- Closed literals are closed whatever follows them. -/
theorem outside_append {cs : List Char} (h : Closed cs) (rest : List Char) :
    outside (cs ++ rest) = outside cs ++ outside rest := by
  unfold Closed at h
  fun_induction outside cs with
  | case1 => rfl
  | case2 cs body after hbody ih =>
    have hparts := Quoted.eq_of_scanBody hbody
    have hagain := Quoted.scanBody_of_scanBody hbody (after ++ rest)
    have hscan : Quoted.scanBody (cs ++ rest) = some (body, after ++ rest) := by
      rw [hparts, List.append_assoc, List.cons_append]
      exact hagain
    rw [List.cons_append, outside_literal hscan, ih (by simpa using h), List.cons_append]
  | case3 cs hnone ih => exact absurd List.mem_cons_self h
  | case4 c cs hc ih =>
    rw [List.cons_append, outside_cons hc, ih (mt (List.mem_cons_of_mem _) h), List.cons_append]

theorem outside_quoteChars (s : List Char) : outside (Quoted.quoteChars s) = [none] := by
  rw [Quoted.quoteChars, outside_literal (Quoted.scanBody_encode s []), outside_nil]

/-! ## Outside of the literals of a token -/

/-- The name of a placeholder that can be read has word characters only. -/
theorem Token.Readable.isNameChar {name : List Char} (h : (Token.placeholder name).Readable) :
    ∀ c ∈ name, isNameChar c = true := by
  obtain ⟨d, ds, rfl, hstart, hall⟩ := h
  exact List.forall_mem_cons.2 ⟨isNameChar_of_isNameStart hstart, hall⟩

/-- A token that can be read is a closed literal or has no quote. -/
theorem Token.Readable.closed {t : Token} (h : t.Readable) : Closed t.text := by
  cases t with
  | literal body =>
    rw [Closed, text, outside_literal h]
    simp
  | cast => exact closed_of_forall (by decide)
  | placeholder name =>
    refine closed_of_forall (List.forall_mem_cons.2 ⟨by decide, ?_⟩)
    rintro _ hc rfl
    cases h.isNameChar _ hc
  | char c => exact closed_of_forall (List.forall_mem_singleton.2 h)

theorem scanBody_eq_none_of_nextToken? {cs rest : List Char}
    (h : nextToken? cs = some (.char '\'', rest)) :
    cs = '\'' :: rest ∧ Quoted.scanBody rest = none := by
  have hcs : cs = '\'' :: rest := eq_of_nextToken? h
  subst hcs
  refine ⟨rfl, ?_⟩
  simp only [nextToken?, if_true] at h
  split at h
  · cases h
  · next hnone => exact hnone

/-- The first token of a text and the rest are outside of each other's literals. -/
theorem outside_of_nextToken? {cs rest : List Char} {t : Token}
    (h : nextToken? cs = some (t, rest)) : outside cs = outside t.text ++ outside rest := by
  by_cases hquote : t = .char '\''
  · subst hquote
    obtain ⟨rfl, hnone⟩ := scanBody_eq_none_of_nextToken? h
    rw [outside_lone hnone, Token.text, outside_lone rfl, outside_nil]
    rfl
  · have hreadable := (Token.spec_of_nextToken? h).2 hquote
    rw [eq_of_nextToken? h, outside_append hreadable.closed]

theorem closed_of_nextToken? {cs rest : List Char} {t : Token}
    (h : nextToken? cs = some (t, rest)) : Closed cs ↔ Closed t.text ∧ Closed rest := by
  rw [Closed, outside_of_nextToken? h, List.mem_append, not_or]
  rfl

/-- The tokens of a text with closed literals can be read. -/
theorem readable_of_mem_tokens {cs : List Char} (h : Closed cs) :
    ∀ t ∈ tokens cs, t.Readable := by
  fun_induction tokens cs with
  | case1 => simp
  | case2 cs t rest hnext ih =>
    obtain ⟨ht, hrest⟩ := (closed_of_nextToken? hnext).1 h
    refine List.forall_mem_cons.2 ⟨(Token.spec_of_nextToken? hnext).2 ?_, ih hrest⟩
    rintro rfl
    exact ht (by rw [Token.text, outside_lone rfl]; exact List.mem_cons_self)

section Binding

variable {params : Params}
  (hvalues : ∀ name v, params.get? name = some v → Closed (Sql.literal v).toList)

include hvalues

theorem Token.Readable.closed_bound {t : Token} (h : t.Readable) : Closed (t.bound params) := by
  cases t with
  | literal | cast | char => exact h.closed
  | placeholder name =>
    rw [bound]
    split
    · next v hv => exact hvalues _ v hv
    · exact h.closed

/-- What every token is bound to is outside of the literals of the others, if values leave no
literal open. -/
theorem outside_bindChars {cs : List Char} (h : Closed cs) :
    outside (bindChars params cs) = (tokens cs).flatMap fun t => outside (t.bound params) := by
  have hreadable := readable_of_mem_tokens h
  rw [bindChars]
  generalize tokens cs = ts at hreadable
  induction ts with
  | nil => simp
  | cons t ts ih =>
    obtain ⟨ht, hts⟩ := List.forall_mem_cons.1 hreadable
    rw [List.flatMap_cons, List.flatMap_cons, outside_append (ht.closed_bound hvalues), ih hts]

theorem closed_bindChars {cs : List Char} (h : Closed cs) : Closed (bindChars params cs) := by
  rw [Closed, outside_bindChars hvalues h]
  intro hmem
  obtain ⟨t, ht, hquote⟩ := List.mem_flatMap.1 hmem
  exact (readable_of_mem_tokens h t ht).closed_bound hvalues hquote

end Binding

end Colonnade.Sql

namespace Colonnade

/-! ## The texts of numbers -/

/-- Whether a text has something in it, and neither a quote nor a dash. -/
def Dashless (cs : List Char) : Prop := cs ≠ [] ∧ ∀ c ∈ cs, c ≠ '\'' ∧ c ≠ '-'

theorem dashless_of_isDigit {cs : List Char} (hne : cs ≠ [])
    (h : ∀ c ∈ cs, c.isDigit = true ∨ c = '.') : Dashless cs := by
  refine ⟨hne, fun c hc => ?_⟩
  constructor
  all_goals
    rintro rfl
    exact absurd (h _ hc) (by decide)

theorem Dashless.outside_eq {cs : List Char} (h : Dashless cs) : Sql.outside cs = cs.map some :=
  Sql.outside_of_forall fun c hc => (h.2 c hc).1

theorem Dashless.not_mem {cs : List Char} (h : Dashless cs) : some '-' ∉ cs.map some := by
  intro hmem
  obtain ⟨c, hc, heq⟩ := List.mem_map.1 hmem
  exact (h.2 c hc).2 (Option.some.inj heq)

namespace Decimal

theorem dashless_toDigits (n : Nat) : Dashless (Nat.toDigits 10 n) :=
  dashless_of_isDigit Nat.toDigits_ne_nil fun _ hc => .inl (isDigit_of_mem_toDigits hc)

theorem dashless_positionalText {digits : List Char} (hne : digits ≠ [])
    (h : ∀ c ∈ digits, c.isDigit = true) (point : Int) (pointZero : Bool) :
    Dashless (positionalText digits point pointZero) := by
  have hdigits : ∀ c ∈ digits, c.isDigit = true ∨ c = '.' := fun c hc => .inl (h c hc)
  have hzeros (n : Nat) : ∀ c ∈ List.replicate n '0', c.isDigit = true ∨ c = '.' := by
    intro c hc
    rw [List.eq_of_mem_replicate hc]
    exact .inl rfl
  unfold positionalText
  split
  · refine dashless_of_isDigit (by simp) ?_
    simp only [List.forall_mem_cons, List.forall_mem_append]
    exact ⟨by decide, by decide, hzeros _, hdigits⟩
  · split
    · refine dashless_of_isDigit (by simp [hne]) ?_
      simp only [List.forall_mem_append]
      refine ⟨⟨hdigits, hzeros _⟩, ?_⟩
      cases pointZero <;> decide
    · refine dashless_of_isDigit (by simp) ?_
      simp only [List.forall_mem_append, List.forall_mem_cons]
      exact ⟨fun c hc => hdigits c (List.mem_of_mem_take hc), by decide,
        fun c hc => hdigits c (List.mem_of_mem_drop hc)⟩

theorem not_isNaN_of_isFinite {x : Float} (h : x.isFinite = true) : x.isNaN = false := by
  change x.toModel.unpack.isFinite = true at h
  change x.toModel.unpack.isNaN = false
  cases hx : x.toModel.unpack with
  | zero | finite | infinity => rfl
  | notANumber =>
    rw [hx] at h
    cases h

/-- A finite number is written as its sign and a text without dashes. -/
theorem positional_chars {x : Float} (h : x.isFinite = true) :
    ∃ digits, Dashless digits ∧
      Layout.positional.chars x = (if isNegative x then ['-'] else []) ++ digits := by
  have hmagnitude : Dashless (Layout.positional.magnitude (Binary.ofFloat x)) := by
    have hdashless (n : Nat) (point : Int) : Dashless (positionalText (digitsOf n) point false) :=
      dashless_positionalText Nat.toDigits_ne_nil (fun _ hc => isDigit_of_mem_toDigits hc) _ _
    unfold Layout.magnitude
    by_cases hzero : ((Binary.ofFloat x).shortest Layout.positional.tie).digits = 0
    · simp only [hzero, if_true]
      exact hdashless _ _
    · simp only [hzero, if_false]
      exact hdashless _ _
  rw [Layout.chars, not_isNaN_of_isFinite h]
  by_cases hinf : x.isInf = true
  · exact ⟨"inf".toList, ⟨by decide, by decide⟩, by simp [hinf, Layout.positional]⟩
  · exact ⟨_, hmagnitude, by simp [hinf]⟩

end Decimal

namespace Value

/-- Whether a value is no list and, as a number, finite. -/
def IsScalar : Value → Prop
  | array _ => False
  | float x => x.isFinite = true
  | null | bool _ | int _ | uint _ | string _ => True

/-- Whether a value is a number with a sign. -/
def isNegative : Value → Bool
  | int n => n.toInt < 0
  | float x => Decimal.isNegative x
  | null | bool _ | uint _ | string _ | array _ => false

/-- The literal of a scalar is a quoted string, or a sign and a text without dashes. -/
theorem IsScalar.literal_cases {v : Value} (h : v.IsScalar) :
    (∃ s, v = .string s) ∨ ∃ digits, Dashless digits ∧
      (Sql.literal v).toList = (if v.isNegative then ['-'] else []) ++ digits := by
  cases v with
  | null => exact .inr ⟨"NULL".toList, ⟨by decide, by decide⟩, rfl⟩
  | bool b => exact .inr ⟨(bitText b).toList, by cases b <;> exact ⟨by decide, by decide⟩, rfl⟩
  | int n =>
    refine .inr ⟨_, Decimal.dashless_toDigits n.toInt.natAbs, ?_⟩
    rw [Sql.literal, Sql.scalarLiteral, Decimal.toList_toString_int, Decimal.signText]
    simp [isNegative]
  | uint n =>
    refine .inr ⟨_, Decimal.dashless_toDigits n.toNat, ?_⟩
    rw [Sql.literal, Sql.scalarLiteral, Decimal.toList_toString_nat]
    rfl
  | float x =>
    obtain ⟨digits, hdigits, hchars⟩ := Decimal.positional_chars h
    have hfinite : x.isFinite = true := h
    refine .inr ⟨digits, hdigits, ?_⟩
    rw [Sql.literal, Sql.scalarLiteral, if_pos hfinite, Decimal.Layout.render,
      String.toList_ofList, hchars]
    rfl
  | string s => exact .inl ⟨s, rfl⟩
  | array items => exact h.elim

end Value

end Colonnade

namespace Colonnade.Sql

/-! ## Pieces with a dash at the start at most -/

/-- Whether a piece has something in it, and no dash but at its start. -/
def DashFirst (p : List (Option Char)) : Prop := p ≠ [] ∧ some '-' ∉ p.tail

theorem DashFirst.of_not_mem {p : List (Option Char)} (hne : p ≠ []) (h : some '-' ∉ p) :
    DashFirst p :=
  ⟨hne, fun hmem => h (List.mem_of_mem_tail hmem)⟩

theorem DashFirst.isChain {p : List (Option Char)} (h : DashFirst p) :
    p.IsChain fun a b => ¬ (a = some '-' ∧ b = some '-') := by
  refine List.isChain_iff_forall_rel_of_append_cons_cons.2 ?_
  rintro a b front rest rfl ⟨-, rfl⟩
  apply h.2
  cases front <;> simp

/-- Such a piece ends with a dash only if it is one. -/
theorem DashFirst.mem_getLast?_iff {p : List (Option Char)} (h : DashFirst p) :
    some '-' ∈ p.getLast? ↔ p = [some '-'] := by
  obtain ⟨hne, htail⟩ := h
  match p with
  | [a] => simp
  | a :: b :: rest =>
    rw [List.getLast?_cons_cons]
    constructor
    · intro hlast
      exact absurd (List.mem_of_getLast? hlast) htail
    · intro heq
      cases heq

/-- Of pieces laid end to end two dashes are neighbours only where a piece that is a dash stands
before one that starts with a dash. -/
theorem isChain_flatMap_iff {ts : List Token} {f : Token → List (Option Char)}
    (h : ∀ t ∈ ts, DashFirst (f t)) :
    (ts.flatMap f).IsChain (fun a b => ¬ (a = some '-' ∧ b = some '-')) ↔
      ts.IsChain fun t t' => ¬ (f t = [some '-'] ∧ some '-' ∈ (f t').head?) := by
  have hne : [] ∉ ts.map f := fun hmem => by
    obtain ⟨t, ht, hnil⟩ := List.mem_map.1 hmem
    exact (h t ht).1 hnil
  have hpieces : ∀ p ∈ ts.map f, p.IsChain fun a b => ¬ (a = some '-' ∧ b = some '-') :=
    List.forall_mem_map.2 fun t ht => (h t ht).isChain
  rw [List.flatMap_def, List.isChain_flatten hne, and_iff_right hpieces, List.isChain_map]
  refine List.IsChain.iff_of_mem_imp fun t t' ht _ => ?_
  rw [← (h t ht).mem_getLast?_iff]
  constructor
  · rintro hlast ⟨hdash, hhead⟩
    exact hlast _ hdash _ hhead ⟨rfl, rfl⟩
  · rintro hnot x hx y hy ⟨rfl, rfl⟩
    exact hnot ⟨hx, hy⟩

/-! ## Pieces of bound statements -/

/-- Whether a token is a placeholder of a negative number. -/
def Token.Signed (params : Params) : Token → Prop
  | .placeholder name => ∃ v, params.get? (.ofList name) = some v ∧ v.isNegative = true
  | .literal _ | .cast | .char _ => False

theorem Token.not_signed_empty (t : Token) : ¬ t.Signed .empty := by
  cases t <;> simp [Signed]

/-- What is outside of the literals of a token that is bound: a dash for a dash, a text that starts
with a dash for a negative number, and no dash for another token. -/
structure Token.Piece (params : Params) (t : Token) (p : List (Option Char)) : Prop where
  dashFirst : DashFirst p
  eq_dash_iff : p = [some '-'] ↔ t = .char '-'
  head_dash_iff : some '-' ∈ p.head? ↔ t = .char '-' ∨ t.Signed params

theorem Token.piece_of_not_mem {params : Params} {t : Token} {p : List (Option Char)} (hne : p ≠ [])
    (h : some '-' ∉ p) (hchar : t ≠ .char '-') (hsigned : ¬ t.Signed params) :
    t.Piece params p where
  dashFirst := .of_not_mem hne h
  eq_dash_iff := by
    refine iff_of_false ?_ hchar
    rintro rfl
    exact h (List.mem_singleton_self _)
  head_dash_iff := iff_of_false (mt List.mem_of_mem_head? h) (not_or.2 ⟨hchar, hsigned⟩)

@[simp] theorem outside_string (s : String) : outside (literal (.string s)).toList = [none] := by
  rw [literal, scalarLiteral, Quoted.toList_quote, outside_quoteChars]

theorem closed_literal {v : Value} (h : v.IsScalar) : Closed (literal v).toList := by
  rcases h.literal_cases with ⟨s, rfl⟩ | ⟨digits, hdigits, htext⟩
  · simp [Closed]
  · rw [htext]
    refine closed_of_forall (List.forall_mem_append.2 ⟨?_, fun c hc => (hdigits.2 c hc).1⟩)
    split <;> decide

theorem piece_placeholder_of_value {params : Params} {name : List Char} {v : Value}
    (hget : params.get? (.ofList name) = some v) (hv : v.IsScalar) :
    (Token.placeholder name).Piece params (outside (literal v).toList) := by
  have hsigned : (Token.placeholder name).Signed params ↔ v.isNegative = true := by
    simp [Token.Signed, hget]
  rcases hv.literal_cases with ⟨s, rfl⟩ | ⟨digits, hdigits, htext⟩
  · rw [outside_string]
    exact Token.piece_of_not_mem (by simp) (by simp) (by simp) (by simp [hsigned, Value.isNegative])
  · cases hnegative : v.isNegative with
    | false =>
      have hplain : outside (literal v).toList = digits.map some := by
        simp [htext, hnegative, hdigits.outside_eq]
      rw [hplain]
      exact Token.piece_of_not_mem (by simpa using hdigits.1) hdigits.not_mem (by simp)
        (by simp [hsigned, hnegative])
    | true =>
      have hplain : outside (literal v).toList = some '-' :: digits.map some := by
        simp [htext, hnegative, outside_cons, hdigits.outside_eq]
      rw [hplain]
      exact {
        dashFirst := ⟨by simp, hdigits.not_mem⟩
        eq_dash_iff := by simp [hdigits.1]
        head_dash_iff := by simp [hsigned, hnegative] }

theorem Token.Readable.piece {params : Params} {t : Token} (h : t.Readable)
    (hscalar : ∀ name v, params.get? name = some v → v.IsScalar) :
    t.Piece params (outside (t.bound params)) := by
  cases t with
  | literal body =>
    have hbody : outside (literal body).text = [none] := by
      rw [text, outside_literal h, outside_nil]
    have hpiece : (literal body).Piece params [none] :=
      piece_of_not_mem (by simp) (by simp) (by simp) (by simp [Signed])
    rwa [← hbody] at hpiece
  | cast =>
    have hcast : outside cast.text = [some ':', some ':'] := outside_of_forall (by decide)
    have hpiece : cast.Piece params [some ':', some ':'] :=
      piece_of_not_mem (by simp) (by simp) (by simp) (by simp [Signed])
    rwa [← hcast] at hpiece
  | char c =>
    have hchar : outside (char c).text = [some c] :=
      outside_of_forall (List.forall_mem_singleton.2 h)
    have hpiece : (char c).Piece params [some c] := by
      by_cases hdash : c = '-'
      · subst hdash
        exact ⟨⟨by simp, by simp⟩, by simp, by simp⟩
      · exact piece_of_not_mem (by simp) (by simpa using Ne.symm hdash) (by simpa using hdash)
          (by simp [Signed])
    rwa [← hchar] at hpiece
  | placeholder name =>
    rw [bound]
    split
    · next v hget => exact piece_placeholder_of_value hget (hscalar _ v hget)
    · next hget =>
      have hname : Dashless (':' :: name) := by
        refine ⟨by simp, List.forall_mem_cons.2 ⟨by decide, fun c hc => ?_⟩⟩
        constructor
        all_goals
          rintro rfl
          cases h.isNameChar _ hc
      rw [text, hname.outside_eq]
      exact piece_of_not_mem (by simp) hname.not_mem (by simp) (by simp [Signed, hget])

/-! ## Comments -/

/-- What is bound has two neighbouring dashes exactly where a dash or a negative number stands right
behind a dash. -/
theorem dashesApart_bindChars_iff {params : Params}
    (hscalar : ∀ name v, params.get? name = some v → v.IsScalar) {cs : List Char}
    (h : Closed cs) : DashesApart (bindChars params cs) ↔
      (tokens cs).IsChain fun t t' => ¬ (t = .char '-' ∧ (t' = .char '-' ∨ t'.Signed params)) := by
  have hpiece (t : Token) (ht : t ∈ tokens cs) : t.Piece params (outside (t.bound params)) :=
    (readable_of_mem_tokens h t ht).piece hscalar
  rw [DashesApart, outside_bindChars (fun name v hv => closed_literal (hscalar name v hv)) h,
    isChain_flatMap_iff fun t ht => (hpiece t ht).dashFirst]
  refine List.IsChain.iff_of_mem_imp fun t t' ht ht' => ?_
  rw [(hpiece t ht).eq_dash_iff, (hpiece t' ht').head_dash_iff]

theorem dashesApart_iff {cs : List Char} (h : Closed cs) : DashesApart cs ↔
    (tokens cs).IsChain fun t t' => ¬ (t = .char '-' ∧ t' = .char '-') := by
  have hempty : DashesApart (bindChars .empty cs) ↔ _ := dashesApart_bindChars_iff (by simp) h
  rw [bindChars_empty] at hempty
  simpa [Token.not_signed_empty] using hempty

/-- A statement with closed literals and no two neighbouring dashes, bound to scalars, has closed
literals, and two neighbouring dashes exactly where a placeholder of a negative number stands right
behind a dash. -/
theorem dashesApart_bind_iff (sql : String) (params : Params)
    (hscalar : ∀ name v, params.get? name = some v → v.IsScalar) (hclosed : Closed sql.toList)
    (hdashes : DashesApart sql.toList) :
    Closed (bind sql params).toList ∧ (DashesApart (bind sql params).toList ↔
      ∀ front name rest v, tokens sql.toList = front ++ .char '-' :: .placeholder name :: rest →
        params.get? (.ofList name) = some v → v.isNegative = false) := by
  rw [bind, String.toList_ofList]
  refine ⟨closed_bindChars (fun name v hv => closed_literal (hscalar name v hv)) hclosed, ?_⟩
  rw [dashesApart_iff hclosed, List.isChain_iff_forall_rel_of_append_cons_cons] at hdashes
  rw [dashesApart_bindChars_iff hscalar hclosed, List.isChain_iff_forall_rel_of_append_cons_cons]
  constructor
  · intro h front name rest v htokens hget
    refine Bool.eq_false_iff.2 fun hnegative => h htokens ⟨rfl, .inr ?_⟩
    exact ⟨v, hget, hnegative⟩
  · rintro h t t' front rest htokens ⟨rfl, rfl | hsigned⟩
    · exact hdashes htokens ⟨rfl, rfl⟩
    · cases t' with
      | placeholder name =>
        obtain ⟨v, hget, hnegative⟩ := hsigned
        rw [h front name rest v htokens hget] at hnegative
        cases hnegative
      | literal | cast | char => exact hsigned

/-- A negative number behind an operator with a space, a string of dashes right behind a dash. -/
theorem dashesApart_bind_iff_spaced :
    let sql := "SELECT a - :n, '--:n'-:s, 5-:x::Int8 FROM t"
    let params : Params := .ofList [("n", .int (-1)), ("s", .string "--'"), ("x", .uint 2)]
    ((∀ name v, params.get? name = some v → v.IsScalar) ∧ Closed sql.toList ∧
      DashesApart sql.toList) ∧
    (Closed (bind sql params).toList ∧ (DashesApart (bind sql params).toList ↔
      ∀ front name rest v, tokens sql.toList = front ++ .char '-' :: .placeholder name :: rest →
        params.get? (.ofList name) = some v → v.isNegative = false)) ∧
    bind sql params = "SELECT a - -1, '--:n'-'--\\'', 5-2::Int8 FROM t" := by
  intro sql params
  have hscalar : ∀ name v, params.get? name = some v → v.IsScalar := by
    intro name v hget
    have hmem := (NameMap.get?_ofList_eq_some_iff (by decide)).1 hget
    simp only [List.mem_cons, List.not_mem_nil, or_false, Prod.mk.injEq] at hmem
    rcases hmem with ⟨-, rfl⟩ | ⟨-, rfl⟩ | ⟨-, rfl⟩ <;> trivial
  have hclosed : Closed sql.toList := by decide +kernel
  have hdashes : DashesApart sql.toList := by decide +kernel
  exact ⟨⟨hscalar, hclosed, hdashes⟩, dashesApart_bind_iff sql params hscalar hclosed hdashes,
    by decide +kernel⟩

/-- A negative number right behind a dash makes a comment of what follows. -/
theorem bind_makes_comment :
    let sql := "SELECT 5-:x FROM t"
    let params : Params := .ofList [("x", .int (-1))]
    (∀ name v, params.get? name = some v → v.IsScalar) ∧ Closed sql.toList ∧
      DashesApart sql.toList ∧ bind sql params = "SELECT 5--1 FROM t" ∧
      ¬ DashesApart (bind sql params).toList := by
  intro sql params
  refine ⟨fun name v hget => ?_, by decide +kernel, by decide +kernel, by decide +kernel,
    by decide +kernel⟩
  have hmem := (NameMap.get?_ofList_eq_some_iff (by decide)).1 hget
  simp only [List.mem_singleton, Prod.mk.injEq] at hmem
  obtain ⟨-, rfl⟩ := hmem
  trivial

end Colonnade.Sql
