/-!
# Quoted literals

A string inside single quotes, with a backslash before every quote and every backslash of its
content. `encode` and `decode` go between content and written form, and `scanBody` finds where a
literal ends inside a longer text: at the first quote that no backslash precedes.
-/

namespace Colonnade.Sql.Quoted

/-- The content with a backslash before every quote and backslash. -/
def encode : List Char → List Char
  | [] => []
  | c :: cs => if c = '\\' ∨ c = '\'' then '\\' :: c :: encode cs else c :: encode cs

/-- The content of a written form: a backslash is dropped and the character after it is kept. -/
def decode : List Char → List Char
  | [] => []
  | '\\' :: c :: cs => c :: decode cs
  | '\\' :: [] => []
  | c :: cs => c :: decode cs

/-- What stands before the closing quote, as written, and what follows that quote. The text starts
after the opening quote; a literal that is never closed has no body. -/
def scanBody : List Char → Option (List Char × List Char)
  | [] => none
  | '\'' :: cs => some ([], cs)
  | '\\' :: c :: cs => (scanBody cs).map fun (body, rest) => ('\\' :: c :: body, rest)
  | '\\' :: [] => none
  | c :: cs => (scanBody cs).map fun (body, rest) => (c :: body, rest)

/-- The literal of a content. -/
def quoteChars (cs : List Char) : List Char := '\'' :: (encode cs ++ ['\''])

/-- The escaped content of a string. -/
def escape (s : String) : String := .ofList (encode s.toList)

/-- The literal of a string. -/
def quote (s : String) : String := "'" ++ escape s ++ "'"

theorem toList_escape (s : String) : (escape s).toList = encode s.toList := by
  simp [escape]

theorem toList_quote (s : String) : (quote s).toList = quoteChars s.toList := by
  simp [quote, quoteChars, toList_escape]

/-! ## The written form determines the content -/

theorem decode_encode (cs : List Char) : decode (encode cs) = cs := by
  induction cs with
  | nil => rfl
  | cons c cs ih =>
    by_cases h : c = '\\' ∨ c = '\''
    · simp [encode, h, decode, ih]
    · have hc : ¬ c = '\\' := fun e => h (Or.inl e)
      simp only [encode, if_neg h]
      rw [decode]
      · rw [ih]
      · intro c' cs' e _; exact hc e
      · intro e _; exact hc e

theorem encode_injective {a b : List Char} (h : encode a = encode b) : a = b := by
  rw [← decode_encode a, ← decode_encode b, h]

/-- A backslash would have been taken with the character after it, or have ended the text. -/
theorem ne_slash_of_cases {c : Char} {cs : List Char}
    (hpair : ∀ d ds, c = '\\' → cs = d :: ds → False) (hslash : c = '\\' → cs = [] → False) :
    c ≠ '\\' := by
  intro hc
  cases cs with
  | nil => exact hslash hc rfl
  | cons d ds => exact hpair d ds hc rfl

/-- A character that is neither quote nor backslash belongs to the body. -/
theorem scanBody_cons {c : Char} (hquote : c ≠ '\'') (hslash : c ≠ '\\') (cs : List Char) :
    scanBody (c :: cs) = (scanBody cs).map fun (body, rest) => (c :: body, rest) := by
  rw [scanBody]
  · exact hquote
  · exact fun _ _ h _ => hslash h
  · exact fun h _ => hslash h

/-- A literal ends exactly where it was closed, whatever follows. -/
theorem scanBody_encode (cs rest : List Char) :
    scanBody (encode cs ++ '\'' :: rest) = some (encode cs, rest) := by
  induction cs with
  | nil => simp [encode, scanBody]
  | cons c cs ih =>
    by_cases h : c = '\\' ∨ c = '\''
    · simp [encode, h, scanBody, ih]
    · have hb : ¬ c = '\\' := fun e => h (Or.inl e)
      have hq : ¬ c = '\'' := fun e => h (Or.inr e)
      simp only [encode, if_neg h, List.cons_append]
      rw [scanBody]
      · simp [ih]
      · intro e; exact hq e
      · intro c' cs' e _; exact hb e
      · intro e _; exact hb e

/-- The text is the body, the closing quote and the rest. -/
theorem eq_of_scanBody {cs body rest : List Char} (h : scanBody cs = some (body, rest)) :
    cs = body ++ '\'' :: rest := by
  induction cs using scanBody.induct generalizing body rest with
  | case1 => simp [scanBody] at h
  | case2 cs => simp [scanBody] at h; simp [h]
  | case3 c cs ih =>
    simp only [scanBody, Option.map_eq_some_iff] at h
    obtain ⟨⟨b, r⟩, hb, he⟩ := h
    cases he
    simp [ih hb]
  | case4 => simp [scanBody] at h
  | case5 c cs h1 h2 h3 ih =>
    rw [scanBody] at h
    · obtain ⟨⟨b, r⟩, hb, he⟩ := Option.map_eq_some_iff.1 h
      cases he
      simp [ih hb]
    · exact h1
    · exact h2
    · exact h3

/-- Where a literal ends does not depend on what follows it. -/
theorem scanBody_of_scanBody {cs body rest : List Char}
    (h : scanBody cs = some (body, rest)) (rest' : List Char) :
    scanBody (body ++ '\'' :: rest') = some (body, rest') := by
  induction cs using scanBody.induct generalizing body rest with
  | case1 => cases h
  | case2 cs =>
    cases h
    rfl
  | case3 c cs ih =>
    obtain ⟨⟨b, r⟩, hb, he⟩ := Option.map_eq_some_iff.1 h
    cases he
    simp [scanBody, ih hb]
  | case4 => cases h
  | case5 c cs hquote hpair hslash ih =>
    have hc := ne_slash_of_cases hpair hslash
    rw [scanBody_cons hquote hc] at h
    obtain ⟨⟨b, r⟩, hb, he⟩ := Option.map_eq_some_iff.1 h
    cases he
    rw [List.cons_append, scanBody_cons hquote hc, ih hb]
    rfl

theorem length_lt_of_scanBody {cs body rest : List Char} (h : scanBody cs = some (body, rest)) :
    rest.length < cs.length := by
  rw [eq_of_scanBody h]
  simp
  omega

end Colonnade.Sql.Quoted
