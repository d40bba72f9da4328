import Colonnade.Sql.Placeholder
import Colonnade.Text.Space

/-!
# Binding puts literals in the place of placeholders

Read again, a statement with its placeholders bound consists of the tokens it had before, a literal
in the place of each placeholder with a value. `Token.Ends` is what makes it so: it says which texts
may follow a token for it to be read as it was written, and it survives binding, because a literal
starts with a quote, which goes on no name, no cast and no colon.
-/

namespace Colonnade.Sql

/-! ## What may follow a token -/

/-- Whether a character goes on no token: it lengthens no name, and makes no colon before it a cast
or a placeholder. -/
def isBreak (c : Char) : Bool := c != ':' && !isNameChar c

theorem isNameChar_of_isNameStart {c : Char} (h : isNameStart c = true) : isNameChar c = true := by
  rw [isNameStart, Bool.or_eq_true] at h
  rw [isNameChar, Char.isAlphanum, Bool.or_eq_true, Bool.or_eq_true]
  exact h.imp_left .inl

theorem isBreak_iff {c : Char} : isBreak c = true ↔ c ≠ ':' ∧ isNameChar c = false := by
  rw [isBreak, Bool.and_eq_true, bne_iff_ne, Bool.not_eq_true']

namespace Token

/-- Whether the token can be read: its literal ends with its body, its name is one, and it is no
quote that stands alone. -/
def Readable : Token → Prop
  | literal body => Quoted.scanBody (body ++ ['\'']) = some (body, [])
  | cast => True
  | placeholder name =>
    ∃ d ds, name = d :: ds ∧ isNameStart d = true ∧ ∀ c ∈ ds, isNameChar c = true
  | char c => c ≠ '\''

/-- Whether the token ends where a text begins: what follows does not go on it. -/
def Ends (rest : List Char) : Token → Prop
  | placeholder _ => ∀ c ∈ rest.head?, isNameChar c = false
  | char c => c = ':' → ∀ d ∈ rest.head?, d ≠ ':' ∧ isNameStart d = false
  | literal _ | cast => True

/-- Only the first character that follows counts, and a break ends every token. -/
theorem Ends.of_head? {rest rest' : List Char} {t : Token} (h : t.Ends rest)
    (hhead : ∀ c ∈ rest'.head?, c ∈ rest.head? ∨ isBreak c = true) : t.Ends rest' := by
  cases t with
  | literal | cast => trivial
  | placeholder name =>
    intro c hc
    rcases hhead c hc with hc | hbreak
    · exact h c hc
    · exact (isBreak_iff.1 hbreak).2
  | char c =>
    intro hcolon d hd
    rcases hhead d hd with hd | hbreak
    · exact h hcolon d hd
    · obtain ⟨hd, hname⟩ := isBreak_iff.1 hbreak
      refine ⟨hd, Bool.eq_false_iff.2 fun hstart => ?_⟩
      rw [isNameChar_of_isNameStart hstart] at hname
      cases hname

/-- A token that is read ends where the rest begins, and unless it is a lone quote it can be read
again. -/
theorem spec_of_nextToken? {cs rest : List Char} {t : Token} (h : nextToken? cs = some (t, rest)) :
    t.Ends rest ∧ (t ≠ .char '\'' → t.Readable) := by
  unfold nextToken? at h
  split at h
  · cases h
  · next c cs =>
    split at h
    · next hquote =>
      subst hquote
      split at h
      · next body r hb =>
        cases h
        exact ⟨trivial, fun _ => Quoted.scanBody_of_scanBody hb []⟩
      · cases h
        exact ⟨fun hcolon => absurd hcolon (by decide), fun hne => absurd rfl hne⟩
    · next hquote =>
      split at h
      · split at h
        · cases h
          exact ⟨fun _ d hd => by simp at hd, fun _ => hquote⟩
        · next d ds =>
          split at h
          · cases h
            exact ⟨trivial, fun _ => trivial⟩
          · next hd =>
            split at h
            · next hstart =>
              cases h
              refine ⟨fun c hc => ?_, fun _ => ⟨d, _, rfl, hstart, fun c hc => ?_⟩⟩
              · exact Bool.eq_false_iff.2 fun hname => by
                  have := List.head?_dropWhile_not isNameChar ds
                  rw [Option.mem_def.1 hc] at this
                  simp [hname] at this
              · exact List.all_eq_true.1 List.all_takeWhile c hc
            · next hstart =>
              cases h
              refine ⟨fun _ e he => ?_, fun _ => hquote⟩
              cases he
              exact ⟨hd, Bool.eq_false_iff.2 hstart⟩
      · next hcolon =>
        cases h
        exact ⟨fun h => absurd h hcolon, fun _ => hquote⟩

/-- The tokens of a text can be read again, lone quotes apart. -/
theorem readable_of_mem {cs : List Char} {t : Token} (h : t ∈ tokens cs) (hquote : t ≠ .char '\'') :
    t.Readable := by
  fun_induction tokens cs with
  | case1 => cases h
  | case2 cs t' rest hnext ih =>
    rcases List.mem_cons.1 h with rfl | hrest
    · exact (spec_of_nextToken? hnext).2 hquote
    · exact ih hrest

/-- A token that can be read is read back where it ends. -/
theorem Readable.nextToken? {t : Token} (h : t.Readable) {rest : List Char} (hends : t.Ends rest) :
    nextToken? (t.text ++ rest) = some (t, rest) := by
  cases t with
  | literal body =>
    have hbody := Quoted.scanBody_of_scanBody h rest
    simp [text, Sql.nextToken?, hbody]
  | cast => simp [text, Sql.nextToken?]
  | placeholder name =>
    obtain ⟨d, ds, rfl, hstart, hall⟩ := h
    have hd : d ≠ ':' := fun hd => by
      subst hd
      exact absurd hstart (by decide)
    have hname := Text.cut_append hall hends
    simp [text, Sql.nextToken?, hd, hstart, hname.1, hname.2]
  | char c =>
    have hquote : c ≠ '\'' := h
    by_cases hcolon : c = ':'
    · subst hcolon
      cases rest with
      | nil => rfl
      | cons d rest =>
        obtain ⟨hd, hstart⟩ := hends rfl d rfl
        simp [text, Sql.nextToken?, hd, hstart]
    · simp [text, Sql.nextToken?, hquote, hcolon]

/-- A name may go on. -/
theorem Readable.placeholder_append {name more : List Char} (h : (placeholder name).Readable)
    (hmore : ∀ c ∈ more, isNameChar c = true) : (placeholder (name ++ more)).Readable := by
  obtain ⟨d, ds, rfl, hstart, hall⟩ := h
  exact ⟨d, ds ++ more, rfl, hstart, List.forall_mem_append.2 ⟨hall, hmore⟩⟩

theorem Readable.tokens_append {t : Token} (h : t.Readable) {rest : List Char}
    (hends : t.Ends rest) : tokens (t.text ++ rest) = t :: tokens rest :=
  tokens_of_some (h.nextToken? hends)

end Token

/-- A text without lone quotes is read by itself before a break. -/
theorem tokens_append {cs rest : List Char} (hquotes : Token.char '\'' ∉ tokens cs)
    (hbreak : ∀ c ∈ rest.head?, isBreak c = true) :
    tokens (cs ++ rest) = tokens cs ++ tokens rest := by
  fun_induction tokens cs with
  | case1 cs hnext => rw [nextToken?_eq_none_iff.1 hnext]; rfl
  | case2 cs t after hnext ih =>
    obtain ⟨hquote, hafter⟩ := not_or.1 (mt List.mem_cons.2 hquotes)
    obtain ⟨hends, hreadable⟩ := Token.spec_of_nextToken? hnext
    have hends' : t.Ends (after ++ rest) := hends.of_head? fun c hc => by
      cases after with
      | nil => exact .inr (hbreak c hc)
      | cons d after => exact .inl hc
    rw [eq_of_nextToken? hnext, List.append_assoc,
      (hreadable (Ne.symm hquote)).tokens_append hends', ih hafter]
    rfl

/-- A text without quotes and colons is read character by character, whatever follows. -/
theorem tokens_append_of_plain {cs : List Char} (h : ∀ c ∈ cs, c ≠ '\'' ∧ c ≠ ':')
    (rest : List Char) : tokens (cs ++ rest) = cs.map .char ++ tokens rest := by
  induction cs with
  | nil => rfl
  | cons c cs ih =>
    obtain ⟨hquote, hcolon⟩ := h c List.mem_cons_self
    have hnext : nextToken? (c :: (cs ++ rest)) = some (.char c, cs ++ rest) := by
      simp only [nextToken?, if_neg hquote, if_neg hcolon]
    rw [List.cons_append, tokens_of_some hnext, ih fun d hd => h d (List.mem_cons_of_mem c hd)]
    rfl

theorem tokens_of_plain {cs : List Char} (h : ∀ c ∈ cs, c ≠ '\'' ∧ c ≠ ':') :
    tokens cs = cs.map .char := by
  simpa using tokens_append_of_plain h []

/-- Digits are neither quotes nor colons. -/
theorem plain_toDigits (n : Nat) : ∀ c ∈ Nat.toDigits 10 n, c ≠ '\'' ∧ c ≠ ':' := by
  intro c hc
  have hdigit := Nat.isDigit_of_mem_toDigits (by decide) (by decide) hc
  constructor <;> rintro rfl <;> exact absurd hdigit (by decide)

theorem plain_toString (n : Nat) : ∀ c ∈ (toString n).toList, c ≠ '\'' ∧ c ≠ ':' := by
  rw [Nat.toString_eq_repr, Nat.toList_repr]
  exact plain_toDigits n

/-- Joined texts are read one by one if what stands between them begins with a break. -/
theorem tokens_intercalate {sep : String} (hplain : ∀ c ∈ sep.toList, c ≠ '\'' ∧ c ≠ ':')
    (hsep : sep.toList.head?.any isBreak = true) {texts : List String}
    (hquotes : ∀ s ∈ texts, Token.char '\'' ∉ tokens s.toList) :
    tokens (sep.intercalate texts).toList
      = (sep.toList.map Token.char).intercalate (texts.map fun s => tokens s.toList) := by
  induction texts with
  | nil => simp
  | cons s texts ih =>
    obtain ⟨hs, htexts⟩ := List.forall_mem_cons.1 hquotes
    cases texts with
    | nil => simp
    | cons s' texts =>
      have hbreak (rest : List Char) : ∀ c ∈ (sep.toList ++ rest).head?, isBreak c = true := by
        intro c hc
        cases hlist : sep.toList with
        | nil => rw [hlist] at hsep; cases hsep
        | cons d ds =>
          rw [hlist] at hc hsep
          cases hc
          simpa using hsep
      rw [String.intercalate_cons_cons, String.toList_append, String.toList_append,
        List.append_assoc, tokens_append hs (hbreak _), tokens_append_of_plain hplain, ih htexts]
      simp [List.intercalate_cons_cons]

/-! ## Literals of texts -/

/-- The content of a literal. -/
def Token.content? : Token → Option String
  | .literal body => some (.ofList (Quoted.decode body))
  | .cast | .placeholder _ | .char _ => none

/-- The literals of texts, with a comma between neighbours. -/
def literalTokens (texts : List String) : List Token :=
  (texts.map fun s => .literal (Quoted.encode s.toList)).intersperse (.char ',')

theorem literalTokens_cons_cons (s s' : String) (texts : List String) :
    literalTokens (s :: s' :: texts)
      = .literal (Quoted.encode s.toList) :: .char ',' :: literalTokens (s' :: texts) := rfl

/-- The literals have the texts as their contents. -/
theorem filterMap_content?_literalTokens (texts : List String) :
    (literalTokens texts).filterMap Token.content? = texts := by
  induction texts with
  | nil => rfl
  | cons s texts ih =>
    cases texts with
    | nil => simp [literalTokens, Token.content?, Quoted.decode_encode]
    | cons s' texts =>
      rw [literalTokens_cons_cons]
      simp only [List.filterMap_cons, Token.content?, Quoted.decode_encode, String.ofList_toList,
        ih]

/-- Literals and commas are no placeholders. -/
theorem placeholder_not_mem_literalTokens (name : List Char) (texts : List String) :
    .placeholder name ∉ literalTokens texts := by
  induction texts with
  | nil => exact List.not_mem_nil
  | cons s texts ih =>
    cases texts with
    | nil => simp [literalTokens]
    | cons s' texts => simpa [literalTokens_cons_cons] using ih

/-- Quoted strings with commas between them. -/
def quotedList (texts : List String) : List Char :=
  (",".intercalate (texts.map Quoted.quote)).toList

theorem quotedList_cons_cons (s s' : String) (texts : List String) :
    quotedList (s :: s' :: texts)
      = (Quoted.quote s).toList ++ ',' :: quotedList (s' :: texts) := by
  simp [quotedList, String.intercalate_cons_cons]

/-- A list of quoted strings begins with a quote. -/
theorem head?_quotedList {texts : List String} (h : texts ≠ []) :
    (quotedList texts).head? = some '\'' := by
  match texts with
  | [s] => simp [quotedList, Quoted.quote]
  | s :: s' :: texts => simp [quotedList_cons_cons, Quoted.quote]

/-- Quoted strings are read as literals, whatever follows them. -/
theorem tokens_quotedList_append (texts : List String) (rest : List Char) :
    tokens (quotedList texts ++ rest) = literalTokens texts ++ tokens rest := by
  have hread (s : String) (rest : List Char) : tokens ((Quoted.quote s).toList ++ rest)
      = .literal (Quoted.encode s.toList) :: tokens rest := by
    have hreadable : (Token.literal (Quoted.encode s.toList)).Readable :=
      Quoted.scanBody_encode s.toList []
    rw [Quoted.toList_quote]
    exact hreadable.tokens_append trivial
  have hcomma (rest : List Char) : tokens (',' :: rest) = .char ',' :: tokens rest :=
    tokens_append_of_plain (by decide : ∀ c ∈ [','], c ≠ '\'' ∧ c ≠ ':') rest
  induction texts with
  | nil => rfl
  | cons s texts ih =>
    cases texts with
    | nil => simpa [quotedList, literalTokens] using hread s rest
    | cons s' texts =>
      rw [quotedList_cons_cons, List.append_assoc, hread, List.cons_append, hcomma, ih,
        literalTokens_cons_cons]
      rfl

end Colonnade.Sql

namespace Colonnade.Value

/-! ## Values that are texts -/

/-- A string, or a list of strings that is not empty. -/
inductive IsText : Value → Prop where
  | string (s : String) : IsText (.string s)
  | strings (s : String) (ss : List String) : IsText (.array ((s :: ss).map .string))

/-- The strings that a value consists of. -/
def texts : Value → List String
  | string s => [s]
  | array items => items.filterMap asString?
  | null | bool _ | int _ | uint _ | float _ => []

@[simp] theorem texts_strings (ss : List String) : (array (ss.map .string)).texts = ss := by
  rw [texts, List.filterMap_map]
  exact List.filterMap_some

theorem IsText.texts_ne_nil {v : Value} (h : v.IsText) : v.texts ≠ [] := by
  cases h with
  | string s => simp [texts]
  | strings s ss =>
    rw [texts_strings]
    exact List.cons_ne_nil s ss

/-- The literal of a text consists of its strings. -/
theorem IsText.toList_literal {v : Value} (h : v.IsText) :
    (Sql.literal v).toList = Sql.quotedList v.texts := by
  cases h with
  | string s => simp [texts, Sql.quotedList, Sql.literal, Sql.scalarLiteral]
  | strings s ss =>
    rw [texts_strings, Sql.quotedList, Sql.literal, Sql.literals_eq_map, List.map_map]
    exact congrArg (fun l => (",".intercalate l).toList) (List.map_congr_left fun s _ => rfl)

end Colonnade.Value

namespace Colonnade.Sql

/-! ## Binding -/

/-- The strings that a name stands for. -/
def textsOf (params : Params) (name : List Char) : List String :=
  ((params.get? (.ofList name)).map Value.texts).getD []

/-- What a token becomes once names stand for strings: a placeholder becomes the literals of the
strings, unless its name stands for none. -/
def Token.filled (texts : List Char → List String) : Token → List Token
  | .placeholder name => if texts name = [] then [.placeholder name] else literalTokens (texts name)
  | t => [t]

/-- A token is bound to its own text, or is a placeholder and bound to the literals of strings. -/
theorem Token.bound_cases {params : Params}
    (htexts : ∀ name v, params.get? name = some v → v.IsText) (t : Token) :
    (t.bound params = t.text ∧ t.filled (textsOf params) = [t]) ∨
      ∃ texts, texts ≠ [] ∧ t.bound params = quotedList texts ∧
        t.filled (textsOf params) = literalTokens texts := by
  cases t with
  | literal | cast | char => exact .inl ⟨rfl, rfl⟩
  | placeholder name =>
    cases hget : params.get? (.ofList name) with
    | none => exact .inl (by simp [bound, filled, textsOf, hget])
    | some v =>
      have hv := htexts _ v hget
      have hne := hv.texts_ne_nil
      refine .inr ⟨v.texts, hne, ?_, ?_⟩
      · simp [bound, hget, hv.toList_literal]
      · simp [filled, textsOf, hget, hne]

section Binding

variable {params : Params} (htexts : ∀ name v, params.get? name = some v → v.IsText)

include htexts

/-- A statement that is bound begins as before, or with a quote. -/
theorem head?_bindChars (cs : List Char) :
    ∀ c ∈ (bindChars params cs).head?, c ∈ cs.head? ∨ isBreak c = true := by
  intro c hc
  cases hnext : nextToken? cs with
  | none =>
    rw [nextToken?_eq_none_iff.1 hnext] at hc
    simp [bindChars] at hc
  | some p =>
    obtain ⟨t, rest⟩ := p
    rw [bindChars_of_nextToken? params hnext, List.head?_append] at hc
    rcases t.bound_cases htexts with ⟨hbound, -⟩ | ⟨texts, hne, hbound, -⟩
    · rw [eq_of_nextToken? hnext, List.head?_append]
      obtain ⟨d, ds, hd⟩ := List.exists_cons_of_ne_nil t.text_ne_nil
      rw [hbound, hd] at hc
      rw [hd]
      exact .inl hc
    · rw [hbound, head?_quotedList hne] at hc
      cases hc
      exact .inr (by decide)

/-- A statement without lone quotes, bound to strings, is read as before with the literals of the
strings in place of their placeholders. -/
theorem tokens_bindChars {cs : List Char} (hquotes : Token.char '\'' ∉ tokens cs) :
    tokens (bindChars params cs) = (tokens cs).flatMap (Token.filled (textsOf params)) := by
  fun_induction tokens cs with
  | case1 cs hnext =>
    rw [nextToken?_eq_none_iff.1 hnext]
    simp [bindChars]
  | case2 cs t rest hnext ih =>
    obtain ⟨hquote, hrest⟩ := not_or.1 (mt List.mem_cons.2 hquotes)
    obtain ⟨hends, hreadable⟩ := Token.spec_of_nextToken? hnext
    rw [bindChars_of_nextToken? params hnext, List.flatMap_cons, ← ih hrest]
    rcases t.bound_cases htexts with ⟨hbound, hfilled⟩ | ⟨texts, -, hbound, hfilled⟩
    · have hends' := hends.of_head? (head?_bindChars htexts rest)
      rw [hbound, hfilled, (hreadable (Ne.symm hquote)).tokens_append hends']
      rfl
    · rw [hbound, hfilled, tokens_quotedList_append]

end Binding

/-- Strings cannot be injected: whatever a statement without lone quotes is bound to, read again it
has the tokens it had, and in the place of each placeholder with a value literals whose contents are
the strings of that value. -/
theorem tokens_bind_texts (sql : String) (params : Params)
    (hquotes : Token.char '\'' ∉ tokens sql.toList)
    (htexts : ∀ name v, params.get? name = some v → v.IsText) :
    tokens (bind sql params).toList
        = (tokens sql.toList).flatMap (Token.filled (textsOf params)) ∧
      ∀ name v, params.get? name = some v →
        (Token.placeholder name.toList).filled (textsOf params) = literalTokens v.texts ∧
          (literalTokens v.texts).filterMap Token.content? = v.texts := by
  refine ⟨?_, fun name v hget => ⟨?_, filterMap_content?_literalTokens v.texts⟩⟩
  · rw [bind, String.toList_ofList]
    exact tokens_bindChars htexts hquotes
  · have hname : textsOf params name.toList = v.texts := by simp [textsOf, hget]
    rw [Token.filled, hname, if_neg (htexts name v hget).texts_ne_nil]

/-- A value with quotes, a backslash and a name of its own, a list, a literal, a cast and a name
without a value. -/
theorem tokens_bind_texts_hostile :
    let sql := "a = :x AND b IN (:ys) AND c = ':x''\\'' AND d::t = :z:x"
    let params : Params := .ofList
      [("x", .string "' OR :ys = '\\"), ("ys", .array [.string "'", .string ""])]
    Token.char '\'' ∉ tokens sql.toList ∧
      (∀ name v, params.get? name = some v → v.IsText) ∧
      tokens (bind sql params).toList
          = (tokens sql.toList).flatMap (Token.filled (textsOf params)) ∧
        ∀ name v, params.get? name = some v →
          (Token.placeholder name.toList).filled (textsOf params) = literalTokens v.texts ∧
            (literalTokens v.texts).filterMap Token.content? = v.texts := by
  intro sql params
  have hquotes : Token.char '\'' ∉ tokens sql.toList := by
    decide +kernel
  have htexts : ∀ name v, params.get? name = some v → v.IsText := by
    intro name v hget
    simp only [params, NameMap.ofList, List.foldl, NameMap.get?_insert, NameMap.get?_empty] at hget
    split at hget
    · cases hget
      exact .strings "'" [""]
    · split at hget
      · cases hget
        exact .string _
      · cases hget
  exact ⟨hquotes, htexts, tokens_bind_texts sql params hquotes htexts⟩

end Colonnade.Sql
