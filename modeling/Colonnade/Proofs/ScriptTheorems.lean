import Colonnade.Sql.Script
import Colonnade.Template.Filter

/-!
# Reading scripts

`Reads cs ps` is the grammar of scripts: the text `cs` consists of the pieces `ps`, one rule for each
kind of piece. A text has the pieces that it reads as, and no others (`reads_iff`), so facts about
scripts are inductions on the grammar.

Where the end of a text is outside of literals and comments, what follows is read as if it stood
alone (`Reads.append`). A quoted value is therefore one piece wherever it stands, and changes nothing
of how the script around it is split (`split_quote`).
-/

namespace Colonnade.Sql.Script

open Quoted Text

/-! ## The ends of literals and comments -/

/-- A closed literal reaches to its closing quote. -/
theorem spanLiteral_of_scanBody {cs body rest : List Char} (h : scanBody cs = some (body, rest)) :
    spanLiteral cs = (body ++ ['\''], rest) := by
  induction cs using scanBody.induct generalizing body rest with
  | case1 => cases h
  | case2 cs =>
    cases h
    rfl
  | case3 c cs ih =>
    obtain ⟨⟨b, r⟩, hb, he⟩ := Option.map_eq_some_iff.1 h
    cases he
    simp [spanLiteral, ih hb]
  | case4 => cases h
  | case5 c cs hquote hpair hslash ih =>
    rw [scanBody] at h
    · obtain ⟨⟨b, r⟩, hb, he⟩ := Option.map_eq_some_iff.1 h
      cases he
      rw [spanLiteral]
      · simp [ih hb]
      · exact hquote
      · exact hpair
    · exact hquote
    · exact hpair
    · exact hslash

/-- A literal that is never closed reaches to the end. -/
theorem spanLiteral_of_unclosed {cs : List Char} (h : scanBody cs = none) :
    spanLiteral cs = (cs, []) := by
  induction cs using scanBody.induct with
  | case1 => rfl
  | case2 => cases h
  | case3 c cs ih =>
    have hcs := Option.map_eq_none_iff.1 h
    simp [spanLiteral, ih hcs]
  | case4 => rfl
  | case5 c cs hquote hpair hslash ih =>
    rw [scanBody] at h
    · have hcs := Option.map_eq_none_iff.1 h
      rw [spanLiteral]
      · simp [ih hcs]
      · exact hquote
      · exact hpair
    · exact hquote
    · exact hpair
    · exact hslash

theorem skipComment_append_newline {line : List Char} (h : '\n' ∉ line) (rest : List Char) :
    skipComment (line ++ '\n' :: rest) = (true, rest) := by
  induction line with
  | nil => rfl
  | cons c line ih =>
    obtain ⟨hc, hline⟩ := not_or.1 (mt List.mem_cons.2 h)
    rw [List.cons_append, skipComment, if_neg (Ne.symm hc), ih hline]

theorem skipComment_of_not_mem {line : List Char} (h : '\n' ∉ line) :
    skipComment line = (false, []) := by
  induction line with
  | nil => rfl
  | cons c line ih =>
    obtain ⟨hc, hline⟩ := not_or.1 (mt List.mem_cons.2 h)
    rw [skipComment, if_neg (Ne.symm hc), ih hline]

/-! ## The grammar of scripts -/

/-- The pieces that a text consists of. -/
inductive Reads : List Char → List Piece → Prop where
  | done : Reads [] []
  | literal {body rest : List Char} {ps : List Piece} : scanBody (body ++ ['\'']) = some (body, []) →
      Reads rest ps → Reads ('\'' :: (body ++ '\'' :: rest)) (.literal ('\'' :: (body ++ ['\''])) :: ps)
  | unclosed {body : List Char} : scanBody body = none →
      Reads ('\'' :: body) [.literal ('\'' :: body)]
  | comment {line rest : List Char} {ps : List Piece} : '\n' ∉ line →
      Reads rest ps → Reads ('-' :: '-' :: (line ++ '\n' :: rest)) (.comment true :: ps)
  | lastComment {line : List Char} : '\n' ∉ line → Reads ('-' :: '-' :: line) [.comment false]
  | separator {rest : List Char} {ps : List Piece} : Reads rest ps →
      Reads (';' :: rest) (.separator :: ps)
  | char {c : Char} {rest : List Char} {ps : List Piece} : c ≠ '\'' → c ≠ ';' →
      (c = '-' → rest.head? ≠ some '-') → Reads rest ps → Reads (c :: rest) (.char c :: ps)

theorem nextPiece_quote (cs : List Char) :
    nextPiece '\'' cs = (.literal ('\'' :: (spanLiteral cs).1), (spanLiteral cs).2) := by
  simp [nextPiece]

theorem nextPiece_separator (cs : List Char) : nextPiece ';' cs = (.separator, cs) := by
  simp [nextPiece]

theorem nextPiece_dashes (cs : List Char) :
    nextPiece '-' ('-' :: cs) = (.comment (skipComment cs).1, (skipComment cs).2) := by
  simp [nextPiece]

theorem nextPiece_of_char {c : Char} {cs : List Char} (hquote : c ≠ '\'') (hsep : c ≠ ';')
    (hdash : c = '-' → cs.head? ≠ some '-') : nextPiece c cs = (.char c, cs) := by
  unfold nextPiece
  rw [if_neg hquote, if_neg hsep]
  split
  · exact absurd rfl (hdash rfl)
  · rfl

/-- A text has the pieces it reads as. -/
theorem Reads.pieces_eq {cs : List Char} {ps : List Piece} (h : Reads cs ps) : pieces cs = ps := by
  induction h with
  | done => exact pieces_nil
  | @literal body rest ps hbody _ ih =>
    have hspan := spanLiteral_of_scanBody (scanBody_of_scanBody hbody rest)
    rw [pieces_cons, nextPiece_quote, hspan, ih]
  | unclosed hbody =>
    rw [pieces_cons, nextPiece_quote, spanLiteral_of_unclosed hbody, pieces_nil]
  | @comment line rest ps hline _ ih =>
    rw [pieces_cons, nextPiece_dashes, skipComment_append_newline hline, ih]
  | lastComment hline =>
    rw [pieces_cons, nextPiece_dashes, skipComment_of_not_mem hline, pieces_nil]
  | separator _ ih => rw [pieces_cons, nextPiece_separator, ih]
  | char hquote hsep hdash _ ih => rw [pieces_cons, nextPiece_of_char hquote hsep hdash, ih]

/-- Every text reads as its pieces. -/
theorem reads_pieces (cs : List Char) : Reads cs (pieces cs) := by
  induction cs using pieces.induct with
  | case1 =>
    rw [pieces_nil]
    exact .done
  | case2 c cs ih =>
    rw [pieces_cons]
    by_cases hquote : c = '\''
    · subst hquote
      rw [nextPiece_quote] at ih ⊢
      cases hbody : scanBody cs with
      | none =>
        rw [spanLiteral_of_unclosed hbody, pieces_nil]
        exact .unclosed hbody
      | some closed =>
        obtain ⟨body, rest⟩ := closed
        rw [spanLiteral_of_scanBody hbody] at ih ⊢
        rw [eq_of_scanBody hbody]
        exact .literal (scanBody_of_scanBody hbody []) ih
    by_cases hsep : c = ';'
    · subst hsep
      rw [nextPiece_separator] at ih ⊢
      exact .separator ih
    by_cases hdashes : c = '-' ∧ cs.head? = some '-'
    · obtain ⟨rfl, hhead⟩ := hdashes
      obtain ⟨line, rfl⟩ := List.head?_eq_some_iff.1 hhead
      rw [nextPiece_dashes] at ih ⊢
      by_cases hline : '\n' ∈ line
      · obtain ⟨front, rest, rfl, hfront⟩ := List.eq_append_cons_of_mem hline
        rw [skipComment_append_newline hfront] at ih ⊢
        exact .comment hfront ih
      · rw [skipComment_of_not_mem hline, pieces_nil]
        exact .lastComment hline
    · have hdash : c = '-' → cs.head? ≠ some '-' := fun hc hhead => hdashes ⟨hc, hhead⟩
      rw [nextPiece_of_char hquote hsep hdash] at ih ⊢
      exact .char hquote hsep hdash ih

theorem reads_iff {cs : List Char} {ps : List Piece} : Reads cs ps ↔ pieces cs = ps :=
  ⟨Reads.pieces_eq, fun h => h ▸ reads_pieces cs⟩

/-! ## Texts that end outside of literals and comments -/

/-- Whether a piece has its end: a literal its closing quote, a comment its line break. -/
def Piece.Closed : Piece → Prop
  | .literal text => (scanBody text.tail).isSome
  | .comment ended => ended
  | .separator | .char _ => True

instance : (p : Piece) → Decidable p.Closed
  | .literal text => inferInstanceAs (Decidable ((scanBody text.tail).isSome = true))
  | .comment ended => inferInstanceAs (Decidable (ended = true))
  | .separator | .char _ => isTrue trivial

/-- Whether the end of a text is outside of literals and comments. -/
def Outside (cs : List Char) : Prop := ∀ p ∈ pieces cs, p.Closed

instance (cs : List Char) : Decidable (Outside cs) :=
  inferInstanceAs (Decidable (∀ p ∈ pieces cs, p.Closed))

/-- What follows a text that ends outside is read as if it stood alone. Only a dash could make a
comment with what is before it. -/
theorem Reads.append {cs rest : List Char} {ps qs : List Piece} (h : Reads cs ps)
    (hclosed : ∀ p ∈ ps, p.Closed) (hrest : Reads rest qs) (hdash : rest.head? ≠ some '-') :
    Reads (cs ++ rest) (ps ++ qs) := by
  induction h with
  | done => exact hrest
  | literal hbody _ ih =>
    simpa using Reads.literal hbody (ih (List.forall_mem_cons.1 hclosed).2)
  | @unclosed body hbody =>
    have hsome : (scanBody body).isSome := hclosed _ List.mem_cons_self
    rw [hbody] at hsome
    cases hsome
  | comment hline _ ih =>
    simpa using Reads.comment hline (ih (List.forall_mem_cons.1 hclosed).2)
  | lastComment => cases hclosed _ List.mem_cons_self
  | separator _ ih => exact .separator (ih (List.forall_mem_cons.1 hclosed).2)
  | @char c cs ps hquote hsep hnext _ ih =>
    refine .char hquote hsep (fun hc => ?_) (ih (List.forall_mem_cons.1 hclosed).2)
    cases cs with
    | nil => exact hdash
    | cons d cs => exact hnext hc

theorem pieces_append {cs rest : List Char} (h : Outside cs) (hdash : rest.head? ≠ some '-') :
    pieces (cs ++ rest) = pieces cs ++ pieces rest :=
  ((reads_pieces cs).append h (reads_pieces rest) hdash).pieces_eq

/-- A quoted value is one piece, whatever follows. -/
theorem pieces_quoteChars_append (cs rest : List Char) :
    pieces (quoteChars cs ++ rest) = .literal (quoteChars cs) :: pieces rest := by
  have hbody : scanBody (encode cs ++ ['\'']) = some (encode cs, []) := scanBody_encode cs []
  simpa [quoteChars] using (Reads.literal hbody (reads_pieces rest)).pieces_eq

/-! ## Statements -/

theorem groups_ne_nil (ps : List Piece) : groups ps ≠ [] := by
  unfold groups
  split
  · simp
  · simp
  · split <;> simp

theorem exists_groups_eq_append (ps : List Piece) : ∃ gs g, groups ps = gs ++ [g] :=
  ⟨_, _, (List.dropLast_concat_getLast (groups_ne_nil ps)).symm⟩

theorem groups_cons {p : Piece} (hp : p ≠ .separator) {ps g : List Piece} {gs : List (List Piece)}
    (h : groups ps = g :: gs) : groups (p :: ps) = (p :: g) :: gs := by
  rw [groups, h]
  exact hp

/-- The group at the end of the first pieces goes on with the group at the start of the others. -/
theorem groups_append {ps qs g h : List Piece} {front back : List (List Piece)}
    (hps : groups ps = front ++ [g]) (hqs : groups qs = h :: back) :
    groups (ps ++ qs) = front ++ (g ++ h) :: back := by
  induction ps generalizing front g with
  | nil =>
    cases front with
    | nil =>
      cases hps
      exact hqs
    | cons f front =>
      have htail : [] = front ++ [g] := (List.cons.inj hps).2
      simp at htail
  | cons p ps ih =>
    by_cases hp : p = .separator
    · subst hp
      cases front with
      | nil => exact absurd (List.cons.inj hps).2 (groups_ne_nil ps)
      | cons f front =>
        obtain ⟨rfl, htail⟩ := List.cons.inj hps
        exact congrArg ([] :: ·) (ih htail)
    · obtain ⟨k, gs, hk⟩ := List.exists_cons_of_ne_nil (groups_ne_nil ps)
      rw [groups_cons hp hk] at hps
      cases front with
      | nil =>
        obtain ⟨rfl, rfl⟩ := List.cons.inj hps
        have hlast : groups ps = [] ++ [k] := hk
        exact groups_cons hp (ih hlast)
      | cons f front =>
        obtain ⟨rfl, rfl⟩ := List.cons.inj hps
        have hrest : groups ps = (k :: front) ++ [g] := hk
        exact groups_cons hp (ih hrest)

/-- The statements among groups of pieces. -/
def statementsIn (gs : List (List Piece)) : List (List Char) :=
  (gs.filter fun g => g.any Piece.isCode).map statementText

theorem statementsOf_eq (ps : List Piece) : statementsOf ps = statementsIn (groups ps) := rfl

theorem statementsIn_cons_of_code {g : List Piece} (h : g.any Piece.isCode = true)
    (gs : List (List Piece)) : statementsIn (g :: gs) = statementText g :: statementsIn gs := by
  simp [statementsIn, h]

theorem statementsIn_append (gs hs : List (List Piece)) :
    statementsIn (gs ++ hs) = statementsIn gs ++ statementsIn hs := by
  simp [statementsIn]

/-! ## Quoted values -/

/-- A quoted value in a text is kept, whatever is trimmed around it. -/
theorem trimChars_append_quoteChars (front cs back : List Char) :
    trimChars (front ++ (quoteChars cs ++ back))
      = trimLeft front ++ (quoteChars cs ++ trimRight back) := by
  have hquote : isSpace '\'' = false := rfl
  have hleft : trimLeft (front ++ (quoteChars cs ++ back))
      = (trimLeft front ++ '\'' :: encode cs) ++ '\'' :: back := by
    simp [quoteChars, trimLeft, dropWhile_append_cons hquote]
  rw [trimChars, hleft, trimRight_append_cons hquote]
  simp [quoteChars]

theorem statementText_append_literal (g h : List Piece) (cs : List Char) :
    statementText (g ++ .literal (quoteChars cs) :: h)
      = trimLeft (g.flatMap Piece.text) ++ (quoteChars cs ++ trimRight (h.flatMap Piece.text)) := by
  rw [statementText, List.flatMap_append, List.flatMap_cons]
  exact trimChars_append_quoteChars _ cs _

/-- The statements of a script with a quoted value in it: only the one around the value has to do
with it. -/
theorem splitChars_append_quoteChars {front : List Char} (h : Outside front) (back : List Char) :
    ∃ before left right after, ∀ cs, splitChars (front ++ (quoteChars cs ++ back))
      = before ++ (left ++ (quoteChars cs ++ right)) :: after := by
  obtain ⟨gs, g, hg⟩ := exists_groups_eq_append (pieces front)
  obtain ⟨k, ks, hk⟩ := List.exists_cons_of_ne_nil (groups_ne_nil (pieces back))
  refine ⟨statementsIn gs, trimLeft (g.flatMap Piece.text), trimRight (k.flatMap Piece.text),
    statementsIn ks, fun cs => ?_⟩
  have hpieces : pieces (front ++ (quoteChars cs ++ back))
      = pieces front ++ .literal (quoteChars cs) :: pieces back := by
    rw [pieces_append h (by simp [quoteChars]), pieces_quoteChars_append]
  have hgroups := groups_append hg
    (groups_cons (p := .literal (quoteChars cs)) (by simp) hk)
  rw [splitChars, hpieces, statementsOf_eq, hgroups, statementsIn_append, statementsIn_cons_of_code,
    statementText_append_literal]
  simp [Piece.isCode]

/-- **A quoted value cannot change how a script is split.** Behind any text that ends outside of
literals and comments, a value has its quoted text, which is what the filter `sql_string` writes, in
one statement, and everything else is as it is around an empty value. -/
theorem split_quote {pre : String} (h : Outside pre.toList) (post : String) :
    ∃ before left right after,
      split (pre ++ "''" ++ post) = before ++ (left ++ "''" ++ right) :: after ∧
      ∀ value : String,
        split (pre ++ quote value ++ post) = before ++ (left ++ quote value ++ right) :: after ∧
        Template.applyFilter "sql_string" (.text value) [] = .ok (.text (quote value)) := by
  obtain ⟨before, left, right, after, hsplit⟩ := splitChars_append_quoteChars h post.toList
  have hvalue (value : String) : split (pre ++ quote value ++ post)
      = before.map .ofList ++ (.ofList left ++ quote value ++ .ofList right) :: after.map .ofList := by
    have hquote : String.ofList (quoteChars value.toList) = quote value := by
      rw [← toList_quote, String.ofList_toList]
    rw [split, String.toList_append, String.toList_append, toList_quote, List.append_assoc, hsplit]
    simp [String.ofList_append, hquote, String.append_assoc]
  exact ⟨before.map .ofList, .ofList left, .ofList right, after.map .ofList, hvalue "",
    fun value => ⟨hvalue value, rfl⟩⟩

/-- A value that would close its literal, end the statement and start a comment, behind a literal, a
comment with a quote and a lone dash. -/
theorem split_quote_hostile :
    Outside "INSERT INTO t VALUES ('a;', -- it's\n-".toList ∧
    ∃ before left right after,
      split ("INSERT INTO t VALUES ('a;', -- it's\n-" ++ "''" ++ "); SELECT 1")
        = before ++ (left ++ "''" ++ right) :: after ∧
      ∀ value : String,
        split ("INSERT INTO t VALUES ('a;', -- it's\n-" ++ quote value ++ "); SELECT 1")
          = before ++ (left ++ quote value ++ right) :: after ∧
        Template.applyFilter "sql_string" (.text value) [] = .ok (.text (quote value)) :=
  ⟨by decide +kernel, split_quote (by decide +kernel) _⟩

end Colonnade.Sql.Script
