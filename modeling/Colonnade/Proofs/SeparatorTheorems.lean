import Colonnade.Proofs.StatementTheorems

/-!
# Comments and separators

A script is cut at its separators, and what stands between two of them is a statement if there is
code in it. So a script whose first piece of code stands before any separator is one statement
exactly if no code stands behind one (`splitChars_append_iff`).

A line comment is one piece, whatever is in it, and splits nothing. What stands between `/*` and `*/`
is no piece: it is read like any other text, and the ends are code themselves. It splits a
statement at a semicolon outside of literals and line comments that has code behind it.
-/

namespace Colonnade.Sql.Script

open Text

/-! ## Texts without literals and line comments -/

/-- The piece that a character is outside of literals and comments. -/
def pieceOf (c : Char) : Piece := if c = ';' then .separator else .char c

theorem pieceOf_eq_separator_iff {c : Char} : pieceOf c = .separator ↔ c = ';' := by
  unfold pieceOf
  split <;> simp_all

theorem text_pieceOf {c : Char} (h : c ≠ ';') : (pieceOf c).text = [c] := by
  rw [pieceOf, if_neg h, Piece.text]

theorem isCode_pieceOf {c : Char} (h : c ≠ ';') : (pieceOf c).isCode = !isSpace c := by
  rw [pieceOf, if_neg h, Piece.isCode]

/-- Without quotes and dashes every character is a piece. -/
theorem pieces_append_of_bare {cs : List Char} (h : ∀ c ∈ cs, c ≠ '\'' ∧ c ≠ '-')
    (rest : List Char) : pieces (cs ++ rest) = cs.map pieceOf ++ pieces rest := by
  induction cs with
  | nil => rfl
  | cons c cs ih =>
    obtain ⟨⟨hquote, hdash⟩, hcs⟩ := List.forall_mem_cons.1 h
    have hnext : nextPiece c (cs ++ rest) = (pieceOf c, cs ++ rest) := by
      by_cases hsep : c = ';'
      · subst hsep
        exact nextPiece_separator _
      · rw [pieceOf, if_neg hsep]
        exact nextPiece_of_char hquote hsep fun hc => absurd hc hdash
    rw [List.cons_append, pieces_cons, hnext, ih hcs, List.map_cons, List.cons_append]

theorem pieces_of_bare {cs : List Char} (h : ∀ c ∈ cs, c ≠ '\'' ∧ c ≠ '-') :
    pieces cs = cs.map pieceOf := by
  have hpieces := pieces_append_of_bare h []
  rwa [List.append_nil, pieces_nil, List.append_nil] at hpieces

theorem flatMap_text_pieceOf {cs : List Char} (h : ';' ∉ cs) :
    (cs.map pieceOf).flatMap Piece.text = cs := by
  rw [List.flatMap_map]
  induction cs with
  | nil => rfl
  | cons c cs ih =>
    obtain ⟨hc, hcs⟩ := not_or.1 (mt List.mem_cons.2 h)
    rw [List.flatMap_cons, text_pieceOf (Ne.symm hc), ih hcs, List.singleton_append]

theorem separator_mem_map_pieceOf_iff {cs : List Char} :
    .separator ∈ cs.map pieceOf ↔ ';' ∈ cs := by
  simp [pieceOf_eq_separator_iff]

/-- A separator is a semicolon of the text. -/
theorem Reads.mem_of_separator {cs : List Char} {ps : List Piece} (h : Reads cs ps)
    (hsep : .separator ∈ ps) : ';' ∈ cs := by
  induction h with
  | done => cases hsep
  | literal _ _ ih =>
    have hrest := ih ((List.mem_cons.1 hsep).resolve_left Piece.noConfusion)
    simp [hrest]
  | unclosed => cases List.mem_singleton.1 hsep
  | comment _ _ ih =>
    have hrest := ih ((List.mem_cons.1 hsep).resolve_left Piece.noConfusion)
    simp [hrest]
  | lastComment => cases List.mem_singleton.1 hsep
  | separator => exact List.mem_cons_self
  | char _ _ _ _ ih =>
    exact List.mem_cons_of_mem _ (ih ((List.mem_cons.1 hsep).resolve_left Piece.noConfusion))

/-! ## Code behind a separator -/

/-- No code stands behind a separator. -/
def Whole (ps : List Piece) : Prop := ps.Pairwise fun p q => p = .separator → q.isCode = false

theorem whole_of_not_mem {ps : List Piece} (h : .separator ∉ ps) : Whole ps :=
  List.pairwise_of_forall_mem_list fun _ hp _ _ heq => absurd (heq ▸ hp) h

theorem statementsIn_eq_nil_iff (gs : List (List Piece)) :
    statementsIn gs = [] ↔ ∀ p ∈ gs.flatten, p.isCode = false := by
  simp only [statementsIn, List.map_eq_nil_iff, List.filter_eq_nil_iff, List.any_eq_true,
    List.mem_flatten, not_exists, not_and, Bool.not_eq_true]
  constructor
  · rintro h p ⟨g, hg, hp⟩
    exact h g hg p hp
  · intro h g hg p hp
    exact h p ⟨g, hg, hp⟩

theorem mem_flatten_groups {p : Piece} (hp : p ≠ .separator) (ps : List Piece) :
    p ∈ (groups ps).flatten ↔ p ∈ ps := by
  induction ps with
  | nil => simp [groups]
  | cons q ps ih =>
    by_cases hq : q = .separator
    · subst hq
      simp [groups, hp, ih]
    · obtain ⟨g, gs, hg⟩ := List.exists_cons_of_ne_nil (groups_ne_nil ps)
      rw [hg, List.flatten_cons] at ih
      rw [groups_cons hq hg, List.flatten_cons, List.cons_append, List.mem_cons, List.mem_cons, ih]

theorem statementsIn_groups_eq_nil_iff (ps : List Piece) :
    statementsIn (groups ps) = [] ↔ ∀ p ∈ ps, p.isCode = false := by
  rw [statementsIn_eq_nil_iff]
  refine forall_congr' fun p => ?_
  by_cases hp : p = .separator
  · subst hp
    exact iff_of_true (fun _ => rfl) (fun _ => rfl)
  · rw [mem_flatten_groups hp]

/-- Behind the first group there is no statement exactly if no code stands behind a separator. -/
theorem statementsIn_tail_groups_eq_nil_iff (ps : List Piece) :
    statementsIn (groups ps).tail = [] ↔ Whole ps := by
  induction ps with
  | nil => simp [groups, statementsIn, Whole]
  | cons p ps ih =>
    rw [Whole, List.pairwise_cons]
    by_cases hp : p = .separator
    · subst hp
      have hnone : (∀ q ∈ ps, Piece.separator = .separator → q.isCode = false) ↔
          ∀ q ∈ ps, q.isCode = false := by simp
      rw [groups, List.tail_cons, statementsIn_groups_eq_nil_iff, hnone, iff_self_and]
      exact fun h => List.pairwise_of_forall_mem_list fun _ _ q hq _ => h q hq
    · obtain ⟨g, gs, hg⟩ := List.exists_cons_of_ne_nil (groups_ne_nil ps)
      rw [hg, List.tail_cons] at ih
      rw [groups_cons hp hg, List.tail_cons, ih]
      exact (and_iff_right fun _ _ heq => absurd heq hp).symm

/-! ## Comments in plain texts -/

/-- Whether a character is itself outside of literals and comments, and separates nothing. -/
def IsPlain (c : Char) : Prop := c ≠ '\'' ∧ c ≠ '-' ∧ c ≠ ';'

instance (c : Char) : Decidable (IsPlain c) := inferInstanceAs (Decidable (_ ∧ _ ∧ _))

section Plain

variable {front : List Char}

theorem bare_of_plain (h : ∀ c ∈ front, IsPlain c) : ∀ c ∈ front, c ≠ '\'' ∧ c ≠ '-' :=
  fun c hc => ⟨(h c hc).1, (h c hc).2.1⟩

theorem not_mem_of_plain (h : ∀ c ∈ front, IsPlain c) : ';' ∉ front :=
  fun hmem => (h ';' hmem).2.2 rfl

theorem any_isCode_map_pieceOf (h : ';' ∉ front) :
    (front.map pieceOf).any Piece.isCode = front.any fun c => !isSpace c := by
  rw [Bool.eq_iff_iff, List.any_map, List.any_eq_true, List.any_eq_true]
  refine exists_congr fun c => and_congr_right fun hc => ?_
  rw [Function.comp_apply, isCode_pieceOf fun heq => h (heq ▸ hc)]

theorem groups_append_of_not_mem {ps qs g : List Piece} {gs : List (List Piece)}
    (hps : .separator ∉ ps) (hqs : groups qs = g :: gs) : groups (ps ++ qs) = (ps ++ g) :: gs := by
  have hone : groups ps = [] ++ [ps] := groups_of_not_mem hps
  exact groups_append hone hqs

/-- Behind a plain text with code in it, there is no other statement exactly if no code stands behind
a separator. -/
theorem splitChars_append_iff (hplain : ∀ c ∈ front, IsPlain c)
    (hcode : ∃ c ∈ front, isSpace c = false) (rest : List Char) :
    (∃ s, splitChars (front ++ rest) = [s]) ↔ Whole (pieces rest) := by
  obtain ⟨g, gs, hg⟩ := List.exists_cons_of_ne_nil (groups_ne_nil (pieces rest))
  have hsep := not_mem_of_plain hplain
  have hfirst : (front.map pieceOf ++ g).any Piece.isCode = true := by
    obtain ⟨c, hc, hspace⟩ := hcode
    rw [List.any_append, any_isCode_map_pieceOf hsep, Bool.or_eq_true]
    exact .inl (List.any_eq_true.2 ⟨c, hc, by simp [hspace]⟩)
  have hgroups := groups_append_of_not_mem (mt separator_mem_map_pieceOf_iff.1 hsep) hg
  rw [splitChars, statementsOf_eq, pieces_append_of_bare (bare_of_plain hplain), hgroups,
    statementsIn_cons_of_code hfirst, ← statementsIn_tail_groups_eq_nil_iff, hg, List.tail_cons]
  simp

/-- A line comment leaves its line break. -/
theorem splitChars_lineComment {back line : List Char} (hfront : ∀ c ∈ front, IsPlain c)
    (hback : ∀ c ∈ back, IsPlain c) (hcode : ∃ c ∈ front ++ back, isSpace c = false)
    (hline : '\n' ∉ line) :
    splitChars (front ++ '-' :: '-' :: (line ++ '\n' :: back))
      = [trimChars (front ++ '\n' :: back)] := by
  have hpieces : pieces (front ++ '-' :: '-' :: (line ++ '\n' :: back))
      = front.map pieceOf ++ .comment true :: back.map pieceOf := by
    rw [pieces_append_of_bare (bare_of_plain hfront), pieces_cons, nextPiece_dashes,
      skipComment_append_newline hline, pieces_of_bare (bare_of_plain hback)]
  have hsep : .separator ∉ front.map pieceOf ++ .comment true :: back.map pieceOf := by
    simp [pieceOf_eq_separator_iff, not_mem_of_plain hfront, not_mem_of_plain hback]
  have hany : (front.map pieceOf ++ .comment true :: back.map pieceOf).any Piece.isCode = true := by
    obtain ⟨c, hc, hspace⟩ := hcode
    have hall : (front ++ back).any (fun c => !isSpace c) = true :=
      List.any_eq_true.2 ⟨c, hc, by simp [hspace]⟩
    rw [List.any_append, List.any_cons, any_isCode_map_pieceOf (not_mem_of_plain hfront),
      any_isCode_map_pieceOf (not_mem_of_plain hback)]
    simpa [Piece.isCode] using hall
  have htext : (front.map pieceOf ++ .comment true :: back.map pieceOf).flatMap Piece.text
      = front ++ '\n' :: back := by
    rw [List.flatMap_append, List.flatMap_cons, flatMap_text_pieceOf (not_mem_of_plain hfront),
      flatMap_text_pieceOf (not_mem_of_plain hback)]
    rfl
  rw [splitChars, statementsOf_eq, hpieces, groups_of_not_mem hsep, statementsIn_cons_of_code hany,
    statementText, htext]
  rfl

/-- A body without quotes and dashes is cut at its semicolons. -/
theorem whole_body_iff {body : List Char} (hbody : ∀ c ∈ body, c ≠ '\'' ∧ c ≠ '-')
    {back : List Char} (hback : ∀ c ∈ back, IsPlain c) :
    Whole (pieces (body ++ '*' :: '/' :: back)) ↔ ';' ∉ body := by
  have hends : ∀ c ∈ '*' :: '/' :: back, IsPlain c :=
    List.forall_mem_cons.2 ⟨by decide, List.forall_mem_cons.2 ⟨by decide, hback⟩⟩
  rw [pieces_append_of_bare hbody, pieces_of_bare (bare_of_plain hends)]
  constructor
  · intro hwhole hmem
    have hcode : Piece.isCode (.char '*') = false :=
      (List.pairwise_append.1 hwhole).2.2 _ (separator_mem_map_pieceOf_iff.2 hmem) (.char '*')
        List.mem_cons_self rfl
    cases hcode
  · intro hmem
    refine whole_of_not_mem ?_
    rw [← List.map_append, separator_mem_map_pieceOf_iff, List.mem_append]
    exact not_or.2 ⟨hmem, not_mem_of_plain hends⟩

end Plain

/-! ## Comments between two texts -/

/-- What a comment between two texts does to their statement. -/
structure CommentBetween (before after : String) : Prop where
  /-- A line comment leaves one statement, whatever is in it. -/
  line : ∀ line : String, '\n' ∉ line.toList →
    split (before ++ "--" ++ line ++ "\n" ++ after) = [Text.trim (before ++ "\n" ++ after)]
  /-- A comment between `/*` and `*/` leaves one exactly if no code stands behind a separator in what
  follows its start. -/
  block : ∀ body : String, (∃ s, split (before ++ "/*" ++ body ++ "*/" ++ after) = [s]) ↔
    Whole (pieces (body ++ "*/" ++ after).toList)
  /-- It does so if there is no semicolon in it. -/
  block_of_not_mem : ∀ body : String, ';' ∉ body.toList →
    ∃ s, split (before ++ "/*" ++ body ++ "*/" ++ after) = [s]
  /-- It does not if there is one, and neither quotes nor dashes. -/
  block_of_mem : ∀ body : String, (∀ c ∈ body.toList, c ≠ '\'' ∧ c ≠ '-') → ';' ∈ body.toList →
    ∀ s, split (before ++ "/*" ++ body ++ "*/" ++ after) ≠ [s]

theorem split_eq_singleton_iff (script : String) :
    (∃ s, split script = [s]) ↔ ∃ s, splitChars script.toList = [s] := by
  simp only [split, List.map_eq_singleton_iff]
  constructor
  · rintro ⟨_, s, hs, -⟩
    exact ⟨s, hs⟩
  · rintro ⟨s, hs⟩
    exact ⟨_, s, hs, rfl⟩

/-- **A line comment never splits a statement**, and a block comment does so exactly if a semicolon
stands in it, outside of literals and line comments, that has code behind it. -/
theorem split_commentBetween {before after : String}
    (hplain : ∀ c ∈ (before ++ after).toList, IsPlain c)
    (hcode : ∃ c ∈ (before ++ after).toList, isSpace c = false) : CommentBetween before after := by
  rw [String.toList_append] at hplain hcode
  obtain ⟨hbefore, hafter⟩ := List.forall_mem_append.1 hplain
  have hblock (body : String) : (∃ s, split (before ++ "/*" ++ body ++ "*/" ++ after) = [s]) ↔
      Whole (pieces (body ++ "*/" ++ after).toList) := by
    have hfront : ∀ c ∈ before.toList ++ ['/', '*'], IsPlain c :=
      List.forall_mem_append.2 ⟨hbefore, by decide⟩
    have hstart : ∃ c ∈ before.toList ++ ['/', '*'], isSpace c = false :=
      ⟨'/', by simp, rfl⟩
    rw [split_eq_singleton_iff, ← splitChars_append_iff hfront hstart]
    simp
  have hrest (body : String) : (body ++ "*/" ++ after).toList
      = body.toList ++ '*' :: '/' :: after.toList := by simp
  refine ⟨fun line hline => ?_, hblock, fun body hbody => ?_, fun body hbody hmem s hsplit => ?_⟩
  · have hchars := splitChars_lineComment hbefore hafter hcode hline
    simp [split, Text.trim, hchars]
  · rw [hblock, hrest]
    refine whole_of_not_mem fun hsep => ?_
    have hsemicolon := (reads_pieces _).mem_of_separator hsep
    simp [hbody, not_mem_of_plain hafter] at hsemicolon
  · have hwhole := (hblock body).1 ⟨s, hsplit⟩
    rw [hrest, whole_body_iff hbody hafter] at hwhole
    exact hwhole hmem

/-- A statement that a comment with separators, quotes and dashes cuts into two lines, the first of
which is blank. -/
theorem split_commentBetween_blank :
    (∀ c ∈ (" \n" ++ "DROP TABLE b").toList, IsPlain c) ∧
    (∃ c ∈ (" \n" ++ "DROP TABLE b").toList, isSpace c = false) ∧
    CommentBetween " \n" "DROP TABLE b" ∧
    split (" \n" ++ "--" ++ "it's; -- /* '" ++ "\n" ++ "DROP TABLE b") = ["DROP TABLE b"] := by
  have hplain : ∀ c ∈ (" \n" ++ "DROP TABLE b").toList, IsPlain c := by decide +kernel
  have hcode : ∃ c ∈ (" \n" ++ "DROP TABLE b").toList, isSpace c = false :=
    ⟨'D', by decide +kernel, rfl⟩
  exact ⟨hplain, hcode, split_commentBetween hplain hcode, by decide +kernel⟩

/-- A semicolon in a block comment makes two statements, each with a half of the comment. -/
theorem split_cuts_block :
    (∀ c ∈ ("SELECT 1 " ++ "").toList, IsPlain c) ∧
    (∃ c ∈ ("SELECT 1 " ++ "").toList, isSpace c = false) ∧
    split ("SELECT 1 " ++ "/*" ++ " one; two " ++ "*/" ++ "") = ["SELECT 1 /* one", "two */"] ∧
    ¬ ∃ s, split ("SELECT 1 " ++ "/*" ++ " one; two " ++ "*/" ++ "") = [s] := by
  have hsplit : split ("SELECT 1 " ++ "/*" ++ " one; two " ++ "*/" ++ "")
      = ["SELECT 1 /* one", "two */"] := by decide +kernel
  refine ⟨by decide +kernel, ⟨'S', by decide +kernel, rfl⟩, hsplit, ?_⟩
  rintro ⟨s, hs⟩
  rw [hsplit] at hs
  cases hs

end Colonnade.Sql.Script
