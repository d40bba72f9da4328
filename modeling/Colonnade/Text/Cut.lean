/-!
# Cutting and searching text

Fixed beginnings and endings, the place of a piece inside a text, and replacement. All of it is
written over lists of characters, with a few entry points for strings.
-/

namespace Colonnade.Text

/-- What follows a fixed beginning, if the text has it. -/
def afterStart? : List Char → List Char → Option (List Char)
  | [], cs => some cs
  | _ :: _, [] => none
  | p :: ps, c :: cs => if p = c then afterStart? ps cs else none

/-- A text has a beginning exactly when it is that beginning and a rest. -/
theorem afterStart?_eq_some_iff {start cs rest : List Char} :
    afterStart? start cs = some rest ↔ cs = start ++ rest := by
  induction start generalizing cs with
  | nil => simp [afterStart?, eq_comm]
  | cons p ps ih =>
    cases cs with
    | nil => simp [afterStart?]
    | cons c cs =>
      by_cases h : p = c
      · simp [afterStart?, h, ih]
      · simp [afterStart?, h, Ne.symm h]

/-- What precedes a fixed ending, if the text has it. -/
def beforeEnd? (ending cs : List Char) : Option (List Char) :=
  (afterStart? ending.reverse cs.reverse).map List.reverse

/-- A text has an ending exactly when it is something and that ending. -/
theorem beforeEnd?_eq_some_iff {ending cs front : List Char} :
    beforeEnd? ending cs = some front ↔ cs = front ++ ending := by
  simp only [beforeEnd?, Option.map_eq_some_iff, afterStart?_eq_some_iff]
  constructor
  · rintro ⟨a, ha, rfl⟩
    have := congrArg List.reverse ha
    simpa using this
  · rintro rfl
    exact ⟨front.reverse, by simp, by simp⟩

/-- Whether the text has the beginning. -/
def startsWith (start s : String) : Bool := (afterStart? start.toList s.toList).isSome

/-- What follows a fixed beginning of a string. -/
def dropStart? (start s : String) : Option String :=
  (afterStart? start.toList s.toList).map .ofList

/-- What precedes a fixed ending of a string. -/
def dropEnd? (ending s : String) : Option String :=
  (beforeEnd? ending.toList s.toList).map .ofList

theorem dropEnd?_eq_some_iff {ending name front : String} :
    dropEnd? ending name = some front ↔ name = front ++ ending := by
  simp only [dropEnd?, Option.map_eq_some_iff, beforeEnd?_eq_some_iff]
  refine ⟨?_, fun h => ⟨front.toList, ?_, String.ofList_toList⟩⟩
  · rintro ⟨cs, hname, rfl⟩
    rw [← String.toList_inj, String.toList_append, String.toList_ofList, hname]
  · rw [h, String.toList_append]

/-- Whether a piece occurs in a text. -/
def occursIn (piece : List Char) : List Char → Bool
  | [] => piece.isEmpty
  | c :: cs => (afterStart? piece (c :: cs)).isSome || occursIn piece cs

/-- What precedes and what follows the first occurrence of a piece. -/
def cutAt? (piece : List Char) : List Char → Option (List Char × List Char)
  | [] => if piece.isEmpty then some ([], []) else none
  | c :: cs =>
    match afterStart? piece (c :: cs) with
    | some rest => some ([], rest)
    | none => (cutAt? piece cs).map fun (front, rest) => (c :: front, rest)

/-- What precedes and what follows the first character of a kind, that character left out. -/
def cutWhere? (p : Char → Bool) : List Char → Option (List Char × List Char)
  | [] => none
  | c :: cs =>
    if p c then some ([], cs)
    else (cutWhere? p cs).map fun (front, rest) => (c :: front, rest)

/-- A text is cut at the first character of the kind. -/
theorem cutWhere?_append_cons {p : Char → Bool} {front : List Char} {c : Char}
    (hfront : ∀ d ∈ front, p d = false) (hc : p c = true) (rest : List Char) :
    cutWhere? p (front ++ c :: rest) = some (front, rest) := by
  induction front with
  | nil => simp [cutWhere?, hc]
  | cons d front ih =>
    obtain ⟨hd, hfront⟩ := List.forall_mem_cons.1 hfront
    simp [cutWhere?, hd, ih hfront]

/-- The text after the last occurrence of a character, or the whole text without one. -/
def afterLast (c : Char) (cs : List Char) : List Char := (cs.reverse.takeWhile (· != c)).reverse

/-- A text without the character is kept whole. -/
theorem afterLast_of_not_mem {c : Char} {cs : List Char} (h : c ∉ cs) : afterLast c cs = cs := by
  have hall : ∀ d ∈ cs.reverse, (d != c) = true := fun d hd =>
    bne_iff_ne.2 fun hdc => h (hdc ▸ List.mem_reverse.1 hd)
  have hkept : cs.reverse.takeWhile (· != c) = cs.reverse := by
    rw [← List.append_nil cs.reverse, List.takeWhile_append_of_pos hall, List.takeWhile_nil]
  rw [afterLast, hkept, List.reverse_reverse]

/-- What follows the last occurrence of a character does not have it. -/
theorem afterLast_append_cons {c : Char} {back : List Char} (h : c ∉ back) (front : List Char) :
    afterLast c (front ++ c :: back) = back := by
  have hall : ∀ d ∈ back.reverse, (d != c) = true := fun d hd =>
    bne_iff_ne.2 fun hdc => h (hdc ▸ List.mem_reverse.1 hd)
  rw [afterLast, List.reverse_append, List.reverse_cons, List.append_assoc,
    List.takeWhile_append_of_pos hall]
  simp

/-- A text is cut in one way at the last occurrence of a character. -/
theorem append_cons_inj_of_not_mem {c : Char} {front front' back back' : List Char}
    (h : c ∉ back) (h' : c ∉ back') (heq : front ++ c :: back = front' ++ c :: back') :
    front = front' ∧ back = back' := by
  have hback : back = back' := by
    rw [← afterLast_append_cons h front, heq, afterLast_append_cons h' front']
  subst hback
  exact ⟨List.append_cancel_right heq, rfl⟩

/-- What holds of a separator and of every part holds of what they are joined to. -/
theorem forall_mem_intercalate {α : Type} {P : α → Prop} {sep : List α} {parts : List (List α)}
    (hsep : ∀ a ∈ sep, P a) (h : ∀ part ∈ parts, ∀ a ∈ part, P a) :
    ∀ a ∈ sep.intercalate parts, P a := by
  induction parts with
  | nil => simp
  | cons part parts ih =>
    obtain ⟨hpart, hparts⟩ := List.forall_mem_cons.1 h
    cases parts with
    | nil => simpa using hpart
    | cons part' parts =>
      rw [List.intercalate_cons_cons, List.forall_mem_append, List.forall_mem_append]
      exact ⟨⟨hpart, hsep⟩, ih hparts⟩

/-- Joined parts are mapped part by part. -/
theorem flatMap_intercalate {α β : Type} (f : α → List β) (sep : List α) (parts : List (List α)) :
    (sep.intercalate parts).flatMap f
      = (sep.flatMap f).intercalate (parts.map fun part => part.flatMap f) := by
  induction parts with
  | nil => simp
  | cons part parts ih =>
    cases parts with
    | nil => simp
    | cons part' parts =>
      rw [List.intercalate_cons_cons, List.flatMap_append, List.flatMap_append, ih]
      simp [List.intercalate_cons_cons]

end Colonnade.Text
