/-!
# White space

The characters of the Unicode property *White_Space*, and what is done with them: trimming a text,
cutting it into words, cutting it into lines.
-/

namespace Colonnade.Text

/-! ## Facts about every character of a text

They are decided along the text. Another instance, for what holds of every character there is,
applies to them as well, and goes through all of them. -/

instance (priority := high) decidableForallChar (P : Char → Prop) [DecidablePred P]
    (cs : List Char) : Decidable (∀ c ∈ cs, P c) :=
  List.decidableBAll P cs

instance (priority := high) decidableForallHead (P : Char → Prop) [DecidablePred P]
    (c? : Option Char) : Decidable (∀ c ∈ c?, P c) :=
  Option.decidableForallMem c?

/-- Whether a character has the property *White_Space*. -/
def isSpace (c : Char) : Bool :=
  let n := c.toNat
  (9 ≤ n && n ≤ 13) || n == 32 || n == 0x85 || n == 0xA0 || n == 0x1680
    || (0x2000 ≤ n && n ≤ 0x200A) || n == 0x2028 || n == 0x2029 || n == 0x202F
    || n == 0x205F || n == 0x3000

/-! ## Trimming -/

/-- The text from its first character that is not white space. -/
def trimLeft (cs : List Char) : List Char := cs.dropWhile isSpace

/-- The text up to its last character that is not white space. -/
def trimRight (cs : List Char) : List Char := (cs.reverse.dropWhile isSpace).reverse

/-- The text without white space at either end. -/
def trimChars (cs : List Char) : List Char := trimRight (trimLeft cs)

/-- The text without white space at either end. -/
def trim (s : String) : String := .ofList (trimChars s.toList)

/-- The text without white space at its end. -/
def trimEnd (s : String) : String := .ofList (trimRight s.toList)

/-- The text without the given character at its end. -/
def trimRightOf (c : Char) (cs : List Char) : List Char := (cs.reverse.dropWhile (· == c)).reverse

@[simp] theorem trimLeft_nil : trimLeft [] = [] := rfl

@[simp] theorem trimRight_nil : trimRight [] = [] := rfl

@[simp] theorem trimChars_nil : trimChars [] = [] := rfl

/-- Nothing is trimmed at the start of a text that starts with no white space. -/
theorem trimLeft_cons_of_not_space {c : Char} {cs : List Char} (h : isSpace c = false) :
    trimLeft (c :: cs) = c :: cs := by
  simp [trimLeft, h]

theorem trimLeft_append_of_spaces {gap : List Char} (h : ∀ c ∈ gap, isSpace c = true)
    (cs : List Char) : trimLeft (gap ++ cs) = trimLeft cs :=
  List.dropWhile_append_of_pos h

/-- Nothing is trimmed at the end of a text that ends with no white space. -/
theorem trimRight_append_of_not_space {c : Char} {cs : List Char} (h : isSpace c = false) :
    trimRight (cs ++ [c]) = cs ++ [c] := by
  simp [trimRight, h]

/-- A piece is cut off where its characters end. -/
theorem cut_append {p : Char → Bool} {piece rest : List Char} (hpiece : ∀ c ∈ piece, p c = true)
    (hrest : ∀ c ∈ rest.head?, p c = false) :
    (piece ++ rest).takeWhile p = piece ∧ (piece ++ rest).dropWhile p = rest := by
  rw [List.takeWhile_append_of_pos hpiece, List.dropWhile_append_of_pos hpiece]
  cases rest with
  | nil => simp
  | cons c rest => simp [hrest c rfl]

/-- What is dropped at the start lies before the first character that is kept. -/
theorem dropWhile_append_cons {p : Char → Bool} {c : Char} (h : p c = false)
    (front back : List Char) :
    (front ++ c :: back).dropWhile p = front.dropWhile p ++ c :: back := by
  induction front with
  | nil => simp [h]
  | cons d front ih => by_cases hd : p d <;> simp [hd, ih]

/-- What is dropped at the end lies behind the last character that is kept. -/
theorem reverse_dropWhile_reverse_append_cons {p : Char → Bool} {c : Char} (h : p c = false)
    (front back : List Char) : ((front ++ c :: back).reverse.dropWhile p).reverse
      = front ++ c :: (back.reverse.dropWhile p).reverse := by
  rw [List.reverse_append, List.reverse_cons, List.append_assoc, List.dropWhile_append]
  split
  · next hempty => simp [List.isEmpty_iff.1 hempty, h]
  · simp

theorem trimRight_append_cons {c : Char} (h : isSpace c = false) (front back : List Char) :
    trimRight (front ++ c :: back) = front ++ c :: trimRight back :=
  reverse_dropWhile_reverse_append_cons h front back

theorem trimRightOf_append_cons {c d : Char} (h : c ≠ d) (front back : List Char) :
    trimRightOf d (front ++ c :: back) = front ++ c :: trimRightOf d back :=
  reverse_dropWhile_reverse_append_cons (p := (· == d)) (beq_eq_false_iff_ne.2 h) front back

/-- A text without white space is as it is. -/
theorem trimLeft_of_forall {cs : List Char} (h : ∀ c ∈ cs, isSpace c = false) :
    trimLeft cs = cs := by
  cases cs with
  | nil => rfl
  | cons c cs => exact trimLeft_cons_of_not_space (h c List.mem_cons_self)

theorem trimChars_of_forall {cs : List Char} (h : ∀ c ∈ cs, isSpace c = false) :
    trimChars cs = cs := by
  have hreverse : trimLeft cs.reverse = cs.reverse :=
    trimLeft_of_forall fun c hc => h c (List.mem_reverse.1 hc)
  rw [trimLeft] at hreverse
  rw [trimChars, trimLeft_of_forall h, trimRight, hreverse, List.reverse_reverse]

theorem trimRight_prefix (cs : List Char) : trimRight cs <+: cs := by
  have h := List.reverse_prefix.2 (List.dropWhile_suffix (l := cs.reverse) isSpace)
  rwa [List.reverse_reverse] at h

theorem trimRight_concat_space {c : Char} (h : isSpace c = true) (cs : List Char) :
    trimRight (cs ++ [c]) = trimRight cs := by
  simp [trimRight, h]

theorem trimChars_cons_space {c : Char} (h : isSpace c = true) (cs : List Char) :
    trimChars (c :: cs) = trimChars cs := by
  simp [trimChars, trimLeft, h]

theorem trimChars_concat_space {c : Char} (h : isSpace c = true) (cs : List Char) :
    trimChars (cs ++ [c]) = trimChars cs := by
  rw [trimChars, trimLeft, List.dropWhile_append]
  split
  · next hempty => simp [trimChars, trimLeft, List.isEmpty_iff.1 hempty, h]
  · exact trimRight_concat_space h _

theorem dropWhile_rec {p : Char → Bool} {P : List Char → Prop}
    (hdrop : ∀ c cs, p c = true → P (c :: cs) → P cs) {cs : List Char} (h : P cs) :
    P (cs.dropWhile p) := by
  induction cs with
  | nil => exact h
  | cons c cs ih =>
    by_cases hc : p c = true
    · rw [List.dropWhile_cons_of_pos hc]
      exact ih (hdrop c cs hc h)
    · rwa [List.dropWhile_cons_of_neg hc]

/-- What holds of a text holds of it trimmed, if it is kept where white space goes from an end. -/
theorem trimChars_rec {P : List Char → Prop}
    (hleft : ∀ c cs, isSpace c = true → P (c :: cs) → P cs)
    (hright : ∀ c cs, isSpace c = true → P (cs ++ [c]) → P cs) {cs : List Char} (h : P cs) :
    P (trimChars cs) := by
  have hstart : P (trimLeft cs).reverse.reverse := by
    rw [List.reverse_reverse]
    exact dropWhile_rec hleft h
  have hback (c : Char) (rs : List Char) (hc : isSpace c = true) (hcs : P (c :: rs).reverse) :
      P rs.reverse := hright c rs.reverse hc (by rwa [← List.reverse_cons])
  exact dropWhile_rec (P := fun rs => P rs.reverse) hback hstart

/-- A trimmed text starts with no white space. -/
theorem isSpace_head?_trimChars (cs : List Char) :
    ∀ c ∈ (trimChars cs).head?, isSpace c = false := by
  intro c hc
  obtain ⟨rest, hrest⟩ := List.head?_eq_some_iff.1 hc
  obtain ⟨back, hback⟩ := trimRight_prefix (trimLeft cs)
  have hhead : (trimLeft cs).head? = some c := by
    rw [← hback, ← trimChars, hrest]
    rfl
  have hstop := List.head?_dropWhile_not isSpace cs
  rw [← trimLeft, hhead] at hstop
  exact hstop

/-- A trimmed text ends with no white space. -/
theorem isSpace_getLast?_trimChars (cs : List Char) :
    ∀ c ∈ (trimChars cs).getLast?, isSpace c = false := by
  intro c hc
  rw [trimChars, trimRight, List.getLast?_reverse] at hc
  have hstop := List.head?_dropWhile_not isSpace (trimLeft cs).reverse
  rw [Option.mem_def.1 hc] at hstop
  exact hstop

/-! ## Words and lines -/

/-- The maximal runs of characters that are not white space; `word` is the run read so far, last
character first. -/
def wordsFrom (word : List Char) : List Char → List (List Char)
  | [] => if word.isEmpty then [] else [word.reverse]
  | c :: cs =>
    if isSpace c then
      if word.isEmpty then wordsFrom [] cs else word.reverse :: wordsFrom [] cs
    else wordsFrom (c :: word) cs

/-- The words of a text, white space being what separates them. -/
def words (cs : List Char) : List (List Char) := wordsFrom [] cs

theorem wordsFrom_append {w : List Char} (h : ∀ c ∈ w, isSpace c = false) (word cs : List Char) :
    wordsFrom word (w ++ cs) = wordsFrom (w.reverse ++ word) cs := by
  induction w generalizing word with
  | nil => rfl
  | cons c w ih =>
    obtain ⟨hc, hw⟩ := List.forall_mem_cons.1 h
    rw [List.cons_append, wordsFrom, if_neg (by simp [hc]), ih hw, List.reverse_cons,
      List.append_assoc, List.singleton_append]

/-- A word ends where white space begins. -/
theorem words_append_space {w : List Char} (hne : w ≠ []) (h : ∀ c ∈ w, isSpace c = false)
    (cs : List Char) : words (w ++ ' ' :: cs) = w :: words cs := by
  have hspace : isSpace ' ' = true := rfl
  rw [words, wordsFrom_append h, List.append_nil, wordsFrom, if_pos hspace,
    if_neg (by simpa using hne), List.reverse_reverse]
  rfl

/-- A text without white space is one word. -/
theorem words_of_forall {w : List Char} (hne : w ≠ []) (h : ∀ c ∈ w, isSpace c = false) :
    words w = [w] := by
  have hw := wordsFrom_append h [] []
  rw [List.append_nil, List.append_nil] at hw
  rw [words, hw, wordsFrom, if_neg (by simpa using hne), List.reverse_reverse]

/-- The pieces of a text between occurrences of one character: one more than there are of it. -/
def pieces (sep : Char) : List Char → List (List Char)
  | [] => [[]]
  | c :: cs =>
    if c = sep then [] :: pieces sep cs
    else
      match pieces sep cs with
      | [] => [[c]]
      | piece :: rest => (c :: piece) :: rest

theorem pieces_append_cons {sep : Char} {cs : List Char} (h : sep ∉ cs) (rest : List Char) :
    pieces sep (cs ++ sep :: rest) = cs :: pieces sep rest := by
  induction cs with
  | nil => simp [pieces]
  | cons c cs ih =>
    obtain ⟨hc, hcs⟩ := not_or.1 (mt List.mem_cons.2 h)
    rw [List.cons_append, pieces, if_neg (Ne.symm hc), ih hcs]

theorem pieces_of_not_mem {sep : Char} {cs : List Char} (h : sep ∉ cs) : pieces sep cs = [cs] := by
  induction cs with
  | nil => rfl
  | cons c cs ih =>
    obtain ⟨hc, hcs⟩ := not_or.1 (mt List.mem_cons.2 h)
    rw [pieces, if_neg (Ne.symm hc), ih hcs]

/-- The pieces of parts with a comma and a space between them: all but the first begin with the
space. -/
theorem pieces_intercalate {p : List Char} {ps : List (List Char)}
    (h : ∀ q ∈ p :: ps, ',' ∉ q) :
    pieces ',' ([',', ' '].intercalate (p :: ps)) = p :: ps.map (' ' :: ·) := by
  induction ps generalizing p with
  | nil => simpa using pieces_of_not_mem (h p List.mem_cons_self)
  | cons q ps ih =>
    obtain ⟨hp, hps⟩ := List.forall_mem_cons.1 h
    obtain ⟨hq, hqs⟩ := List.forall_mem_cons.1 hps
    have hspaced := ih (p := ' ' :: q) (List.forall_mem_cons.2 ⟨by simpa using hq, hqs⟩)
    have hnext : [',', ' '].intercalate ((' ' :: q) :: ps)
        = ' ' :: [',', ' '].intercalate (q :: ps) := by
      cases ps <;> simp [List.intercalate_cons_cons]
    rw [hnext] at hspaced
    rw [List.intercalate_cons_cons, List.append_assoc, List.cons_append, List.cons_append,
      List.nil_append, pieces_append_cons hp, hspaced]
    rfl

/-- The pieces of a text, as strings. -/
def piecesOf (sep : Char) (s : String) : List String := (pieces sep s.toList).map .ofList

end Colonnade.Text
