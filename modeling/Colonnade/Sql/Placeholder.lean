import Colonnade.Sql.Literal

/-!
# Placeholders

A statement is read as tokens: closed string literals, `::` casts, `:name` placeholders and single
characters. Binding replaces a placeholder that has a value by the literal of that value and copies
every other token, so a colon inside a literal or a cast is never taken for a placeholder.
-/

namespace Colonnade.Sql

/-- A piece of a statement as binding sees it. -/
inductive Token where
  /-- A closed string literal, with its body as written. -/
  | literal (body : List Char)
  | cast
  | placeholder (name : List Char)
  | char (c : Char)
deriving DecidableEq, Repr

/-- The text of a token. -/
def Token.text : Token → List Char
  | .literal body => '\'' :: (body ++ ['\''])
  | .cast => [':', ':']
  | .placeholder name => ':' :: name
  | .char c => [c]

/-- The characters a placeholder's name may start with. -/
def isNameStart (c : Char) : Bool := c.isAlpha || c == '_'

/-- The characters a placeholder's name may go on with. -/
def isNameChar (c : Char) : Bool := c.isAlphanum || c == '_'

/-- The token at the start of a text, and what follows it. -/
def nextToken? : List Char → Option (Token × List Char)
  | [] => none
  | c :: cs =>
    if c = '\'' then
      match Quoted.scanBody cs with
      | some (body, rest) => some (.literal body, rest)
      | none => some (.char c, cs)
    else if c = ':' then
      match cs with
      | [] => some (.char c, [])
      | d :: ds =>
        if d = ':' then some (.cast, ds)
        else if isNameStart d then
          some (.placeholder (d :: ds.takeWhile isNameChar), ds.dropWhile isNameChar)
        else some (.char c, d :: ds)
    else some (.char c, cs)

/-- The text is the token's text and the rest. -/
theorem eq_of_nextToken? {cs rest : List Char} {t : Token} (h : nextToken? cs = some (t, rest)) :
    cs = t.text ++ rest := by
  unfold nextToken? at h
  split at h
  · cases h
  · next c cs =>
    split at h
    · next hc =>
      subst hc
      split at h
      · next body r hb =>
        cases h
        simp [Token.text, Quoted.eq_of_scanBody hb]
      · cases h; rfl
    · split at h
      · next hc =>
        subst hc
        split at h
        · cases h; rfl
        · next d ds =>
          split at h
          · next hd => subst hd; cases h; rfl
          · split at h
            · cases h
              simp [Token.text, List.takeWhile_append_dropWhile]
            · cases h; rfl
      · cases h; rfl

theorem Token.text_ne_nil (t : Token) : t.text ≠ [] := by
  cases t <;> simp [Token.text]

theorem length_lt_of_nextToken? {cs rest : List Char} {t : Token}
    (h : nextToken? cs = some (t, rest)) : rest.length < cs.length := by
  have hpos : 0 < t.text.length := List.length_pos_iff.2 t.text_ne_nil
  rw [eq_of_nextToken? h]
  simp
  omega

/-- The tokens of a statement. -/
def tokens (cs : List Char) : List Token :=
  match _h : nextToken? cs with
  | none => []
  | some (t, rest) => t :: tokens rest
termination_by cs.length
decreasing_by exact length_lt_of_nextToken? _h

theorem tokens_of_none {cs : List Char} (h : nextToken? cs = none) : tokens cs = [] := by
  rw [tokens]; split <;> simp_all

theorem tokens_of_some {cs rest : List Char} {t : Token} (h : nextToken? cs = some (t, rest)) :
    tokens cs = t :: tokens rest := by
  rw [tokens]; split <;> simp_all

@[simp] theorem tokens_nil : tokens [] = [] := tokens_of_none rfl

theorem nextToken?_eq_none_iff {cs : List Char} : nextToken? cs = none ↔ cs = [] := by
  constructor
  · intro h
    cases cs with
    | nil => rfl
    | cons c cs =>
      simp only [nextToken?] at h
      repeat' split at h
      all_goals cases h
  · rintro rfl; rfl

/-- Nothing of a statement is lost in its tokens. -/
theorem flatten_text_tokens (cs : List Char) : (tokens cs).flatMap Token.text = cs := by
  induction hn : cs.length using Nat.strongRecOn generalizing cs with
  | _ n ih =>
    cases h : nextToken? cs with
    | none => rw [nextToken?_eq_none_iff.1 h]; simp
    | some p =>
      obtain ⟨t, rest⟩ := p
      rw [tokens_of_some h, List.flatMap_cons,
        ih rest.length (by subst hn; exact length_lt_of_nextToken? h) rest rfl,
        ← eq_of_nextToken? h]

/-- The text a token is bound to: a placeholder with a value becomes the literal of that value. -/
def Token.bound (params : Params) : Token → List Char
  | .placeholder name =>
    match params.get? (.ofList name) with
    | some v => (Sql.literal v).toList
    | none => Token.text (.placeholder name)
  | t => t.text

/-- The statement with its placeholders bound. -/
def bindChars (params : Params) (cs : List Char) : List Char :=
  (tokens cs).flatMap (Token.bound params)

/-- The statement with its placeholders bound. -/
def bind (sql : String) (params : Params) : String := .ofList (bindChars params sql.toList)

/-- Binding binds the first token and goes on behind it. -/
theorem bindChars_of_nextToken? (params : Params) {cs rest : List Char} {t : Token}
    (h : nextToken? cs = some (t, rest)) :
    bindChars params cs = t.bound params ++ bindChars params rest := by
  rw [bindChars, tokens_of_some h, List.flatMap_cons, ← bindChars]

/-- A text without quotes and colons is copied. -/
theorem bindChars_append_of_plain (params : Params) {cs : List Char} (rest : List Char)
    (h : ∀ c ∈ cs, c ≠ '\'' ∧ c ≠ ':') :
    bindChars params (cs ++ rest) = cs ++ bindChars params rest := by
  induction cs with
  | nil => rfl
  | cons c cs ih =>
    obtain ⟨hquote, hcolon⟩ := h c List.mem_cons_self
    have hnext : nextToken? (c :: (cs ++ rest)) = some (.char c, cs ++ rest) := by
      simp only [nextToken?, if_neg hquote, if_neg hcolon]
    rw [List.cons_append, bindChars_of_nextToken? params hnext,
      ih fun d hd => h d (List.mem_cons_of_mem c hd)]
    rfl

theorem bindChars_of_plain (params : Params) {cs : List Char}
    (h : ∀ c ∈ cs, c ≠ '\'' ∧ c ≠ ':') : bindChars params cs = cs := by
  have hnil : bindChars params [] = [] := by rw [bindChars, tokens_nil, List.flatMap_nil]
  have hcs := bindChars_append_of_plain params [] h
  rwa [hnil, List.append_nil] at hcs

/-- Without parameters every token is bound to its own text. -/
theorem Token.bound_empty : Token.bound .empty = Token.text := by
  funext t
  cases t <;> simp [Token.bound]

/-- Without parameters nothing changes. -/
theorem bindChars_empty (cs : List Char) : bindChars .empty cs = cs := by
  rw [bindChars, Token.bound_empty, flatten_text_tokens]

end Colonnade.Sql
