import Colonnade.Proofs.ScriptTheorems

/-!
# Statements are scripts of their own

What a script is split into is split no further: a statement is a script of one statement, which is
itself, and statements with semicolons between them are a script of these statements
(`split_intercalate_split`).

A statement is not the text it was read from, for its comments are gone and white space at its ends
is. Neither changes what it is read as: a comment leaves a line break or the end (`Reads.group`), and
white space at the ends of a script belongs to no statement (`splitChars_trimChars`), also where it
ends inside of a literal or a comment (`Lengthens`).
-/

namespace Colonnade.Sql.Script

open Quoted Text

/-! ## White space before a script -/

theorem ne_of_isSpace {w c : Char} (hw : isSpace w = true) (hc : isSpace c = false) : w ≠ c := by
  rintro rfl
  rw [hw] at hc
  cases hc

theorem pieces_cons_space {w : Char} (hw : isSpace w = true) (cs : List Char) :
    pieces (w :: cs) = .char w :: pieces cs := by
  have hdash : w ≠ '-' := ne_of_isSpace hw rfl
  exact (Reads.char (ne_of_isSpace hw rfl) (ne_of_isSpace hw rfl) (fun h => absurd h hdash)
    (reads_pieces cs)).pieces_eq

theorem statementsIn_cons (g : List Piece) (gs : List (List Piece)) :
    statementsIn (g :: gs) = statementsIn [g] ++ statementsIn gs :=
  statementsIn_append [g] gs

theorem statementsIn_singleton_congr {g h : List Piece}
    (hcode : g.any Piece.isCode = h.any Piece.isCode) (htext : statementText g = statementText h) :
    statementsIn [g] = statementsIn [h] := by
  cases hh : h.any Piece.isCode <;> simp [statementsIn, hcode, htext, hh]

theorem splitChars_cons_space {w : Char} (hw : isSpace w = true) (cs : List Char) :
    splitChars (w :: cs) = splitChars cs := by
  obtain ⟨g, gs, hg⟩ := List.exists_cons_of_ne_nil (groups_ne_nil (pieces cs))
  rw [splitChars, splitChars, pieces_cons_space hw, statementsOf_eq, statementsOf_eq,
    groups_cons (by simp) hg, hg, statementsIn_cons, statementsIn_cons g]
  congr 1
  refine statementsIn_singleton_congr ?_ ?_
  · simp [Piece.isCode, hw]
  · simp [statementText, Piece.text, trimChars_cons_space hw]

/-! ## White space behind a script -/

/-- A piece without an end becomes another one when a character comes behind it. -/
inductive Lengthens (w : Char) : Piece → Piece → Prop where
  | literal {body : List Char} : scanBody (body ++ [w]) = none →
      Lengthens w (.literal ('\'' :: body)) (.literal ('\'' :: (body ++ [w])))
  | comment (ended : Bool) : Lengthens w (.comment false) (.comment ended)

theorem scanBody_concat_eq_none {w : Char} (hw : w ≠ '\'') {cs : List Char}
    (h : scanBody cs = none) : scanBody (cs ++ [w]) = none := by
  induction cs using scanBody.induct with
  | case1 =>
    by_cases hslash : w = '\\'
    · rw [hslash]
      rfl
    · exact scanBody_cons hw hslash []
  | case2 => cases h
  | case3 c cs ih =>
    have hcs := Option.map_eq_none_iff.1 h
    exact Option.map_eq_none_iff.2 (ih hcs)
  | case4 => rfl
  | case5 c cs hquote hpair hslash ih =>
    have hc := ne_slash_of_cases hpair hslash
    rw [scanBody_cons hquote hc] at h
    rw [List.cons_append, scanBody_cons hquote hc, ih (Option.map_eq_none_iff.1 h)]
    rfl

/-- Where a text ends inside of its last piece, one more character changes that piece only. -/
theorem Reads.lengthen {w : Char} (hw : w ≠ '\'') {cs : List Char} {ps : List Piece}
    (h : Reads cs ps) (hopen : ¬ ∀ p ∈ ps, p.Closed) :
    ∃ front p q, ps = front ++ [p] ∧ Lengthens w p q ∧ Reads (cs ++ [w]) (front ++ [q]) := by
  have htail {p : Piece} {ps : List Piece} (hopen : ¬ ∀ q ∈ p :: ps, q.Closed) (hp : p.Closed) :
      ¬ ∀ q ∈ ps, q.Closed := fun hps => hopen (List.forall_mem_cons.2 ⟨hp, hps⟩)
  induction h with
  | done => exact absurd (fun _ hp => absurd hp List.not_mem_nil) hopen
  | @literal body rest ps hbody _ ih =>
    have hclosed : (Piece.literal ('\'' :: (body ++ ['\'']))).Closed :=
      (congrArg Option.isSome hbody).trans rfl
    obtain ⟨front, p, q, rfl, hpq, hreads⟩ := ih (htail hopen hclosed)
    exact ⟨_ :: front, p, q, rfl, hpq, by simpa using Reads.literal hbody hreads⟩
  | unclosed hbody =>
    have hlonger := scanBody_concat_eq_none hw hbody
    exact ⟨[], _, _, rfl, .literal hlonger, .unclosed hlonger⟩
  | comment hline _ ih =>
    obtain ⟨front, p, q, rfl, hpq, hreads⟩ := ih (htail hopen rfl)
    exact ⟨_ :: front, p, q, rfl, hpq, by simpa using Reads.comment hline hreads⟩
  | @lastComment line hline =>
    by_cases hbreak : w = '\n'
    · subst hbreak
      exact ⟨[], _, _, rfl, .comment true, .comment hline .done⟩
    · have hlonger : '\n' ∉ line ++ [w] := by simp [hline, Ne.symm hbreak]
      exact ⟨[], _, _, rfl, .comment false, .lastComment hlonger⟩
  | separator _ ih =>
    obtain ⟨front, p, q, rfl, hpq, hreads⟩ := ih (htail hopen trivial)
    exact ⟨_ :: front, p, q, rfl, hpq, .separator hreads⟩
  | @char c rest ps hquote hsep hdash hrest ih =>
    obtain ⟨front, p, q, rfl, hpq, hreads⟩ := ih (htail hopen trivial)
    have hne : rest ≠ [] := by
      rintro rfl
      simpa using hrest.pieces_eq
    obtain ⟨d, ds, rfl⟩ := List.exists_cons_of_ne_nil hne
    exact ⟨_ :: front, p, q, rfl, hpq, .char hquote hsep hdash hreads⟩

/-- White space behind a text is a piece of its own, or lengthens the last piece. -/
theorem pieces_concat_space {w : Char} (hw : isSpace w = true) (cs : List Char) :
    (Outside cs ∧ pieces (cs ++ [w]) = pieces cs ++ [.char w]) ∨
      ∃ front p q, pieces cs = front ++ [p] ∧ Lengthens w p q ∧
        pieces (cs ++ [w]) = front ++ [q] := by
  have hquote : w ≠ '\'' := ne_of_isSpace hw rfl
  have hdash : w ≠ '-' := ne_of_isSpace hw rfl
  by_cases h : Outside cs
  · refine .inl ⟨h, ?_⟩
    rw [pieces_append h (by simpa using hdash), pieces_cons_space hw, pieces_nil]
  · obtain ⟨front, p, q, hps, hpq, hreads⟩ := (reads_pieces cs).lengthen hquote h
    exact .inr ⟨front, p, q, hps, hpq, hreads.pieces_eq⟩

theorem groups_concat {p : Piece} (hp : p ≠ .separator) {ps g : List Piece}
    {gs : List (List Piece)} (h : groups ps = gs ++ [g]) :
    groups (ps ++ [p]) = gs ++ [g ++ [p]] :=
  have hlast : groups [p] = [[p]] := groups_cons hp rfl
  groups_append h hlast

/-- A last group that makes the same statement makes the same statements. -/
theorem statementsOf_congr_last {ps qs g h : List Piece} {gs : List (List Piece)}
    (hps : groups ps = gs ++ [g]) (hqs : groups qs = gs ++ [h])
    (hcode : g.any Piece.isCode = h.any Piece.isCode) (htext : statementText g = statementText h) :
    statementsOf ps = statementsOf qs := by
  rw [statementsOf_eq, statementsOf_eq, hps, hqs, statementsIn_append, statementsIn_append,
    statementsIn_singleton_congr hcode htext]

/-- A piece that is lengthened by white space makes the same statements. -/
theorem Lengthens.statementsOf_eq {w : Char} (hw : isSpace w = true) {p q : Piece}
    (h : Lengthens w p q) (ps : List Piece) :
    statementsOf (ps ++ [q]) = statementsOf (ps ++ [p]) := by
  obtain ⟨gs, g, hg⟩ := exists_groups_eq_append ps
  cases h with
  | @literal body =>
    refine statementsOf_congr_last (groups_concat (by simp) hg) (groups_concat (by simp) hg) ?_ ?_
    · simp [Piece.isCode]
    · have htrim := trimChars_concat_space hw (g.flatMap Piece.text ++ '\'' :: body)
      simpa [statementText, Piece.text] using htrim
  | comment ended =>
    refine statementsOf_congr_last (groups_concat (by simp) hg) (groups_concat (by simp) hg) ?_ ?_
    · simp [Piece.isCode]
    · have hbreak : isSpace '\n' = true := rfl
      cases ended <;> simp [statementText, Piece.text, trimChars_concat_space hbreak]

theorem splitChars_concat_space {w : Char} (hw : isSpace w = true) (cs : List Char) :
    splitChars (cs ++ [w]) = splitChars cs := by
  rw [splitChars, splitChars]
  rcases pieces_concat_space hw cs with ⟨-, hpieces⟩ | ⟨front, p, q, hps, hpq, hpieces⟩
  · obtain ⟨gs, g, hg⟩ := exists_groups_eq_append (pieces cs)
    rw [hpieces]
    refine statementsOf_congr_last (groups_concat (by simp) hg) hg ?_ ?_
    · simp [Piece.isCode, hw]
    · simp [statementText, Piece.text, trimChars_concat_space hw]
  · rw [hpieces, hps, hpq.statementsOf_eq hw]

/-- White space at the ends of a script belongs to no statement. -/
theorem splitChars_trimChars (cs : List Char) : splitChars (trimChars cs) = splitChars cs := by
  refine trimChars_rec (P := fun ds => splitChars ds = splitChars cs) ?_ ?_ rfl
  · intro w ds hw hds
    rwa [splitChars_cons_space hw] at hds
  · intro w ds hw hds
    rwa [splitChars_concat_space hw] at hds

/-! ## Statements read again -/

/-- What a piece is where it is read in the text of its statement. -/
def Piece.kept : Piece → List Piece
  | .literal text => [.literal text]
  | .comment ended => if ended then [.char '\n'] else []
  | .separator => []
  | .char c => [.char c]

/-- What holds of the groups of some pieces holds of them with one more piece before the first. -/
theorem forall_mem_groups_cons {P : List Piece → Prop} {p : Piece} (hp : p ≠ .separator)
    {ps : List Piece} (h : ∀ g ∈ groups ps, P g)
    (hhead : ∀ g gs, groups ps = g :: gs → P g → P (p :: g)) : ∀ g ∈ groups (p :: ps), P g := by
  obtain ⟨g, gs, hg⟩ := List.exists_cons_of_ne_nil (groups_ne_nil ps)
  rw [hg] at h
  obtain ⟨hfirst, hothers⟩ := List.forall_mem_cons.1 h
  rw [groups_cons hp hg]
  exact List.forall_mem_cons.2 ⟨hhead g gs hg hfirst, hothers⟩

/-- A first group begins with a dash only where its script does. -/
theorem Reads.head?_of_groups {cs : List Char} {ps g : List Piece} {gs : List (List Piece)}
    (h : Reads cs ps) (hg : groups ps = g :: gs)
    (hdash : (g.flatMap Piece.text).head? = some '-') : cs.head? = some '-' := by
  have hfirst {p : Piece} {ps : List Piece} (hp : p ≠ .separator) (hg : groups (p :: ps) = g :: gs) :
      ∃ k, g = p :: k := by
    obtain ⟨k, ks, hk⟩ := List.exists_cons_of_ne_nil (groups_ne_nil ps)
    rw [groups_cons hp hk] at hg
    exact ⟨k, (List.cons.inj hg).1.symm⟩
  cases h with
  | done =>
    cases hg
    cases hdash
  | literal | unclosed =>
    obtain ⟨k, rfl⟩ := hfirst (by simp) hg
    exact absurd (Option.some.inj hdash) (by decide)
  | comment =>
    obtain ⟨k, rfl⟩ := hfirst (by simp) hg
    exact absurd (Option.some.inj hdash) (by decide)
  | lastComment | separator =>
    cases hg
    cases hdash
  | char =>
    obtain ⟨k, rfl⟩ := hfirst (by simp) hg
    exact hdash

/-- The text of a group is read as the group is, but for the comments. -/
theorem Reads.group {cs : List Char} {ps : List Piece} (h : Reads cs ps) :
    ∀ g ∈ groups ps, Reads (g.flatMap Piece.text) (g.flatMap Piece.kept) := by
  have hnil : ∀ g ∈ groups [], Reads (g.flatMap Piece.text) (g.flatMap Piece.kept) :=
    List.forall_mem_singleton.2 .done
  induction h with
  | done => exact hnil
  | literal hbody _ ih =>
    refine forall_mem_groups_cons (by simp) ih fun g gs _ hg => ?_
    simpa [Piece.text, Piece.kept] using Reads.literal hbody hg
  | @unclosed body hbody =>
    refine forall_mem_groups_cons (by simp) hnil fun g gs hg _ => ?_
    cases hg
    simpa [Piece.text, Piece.kept] using Reads.unclosed hbody
  | comment _ _ ih =>
    refine forall_mem_groups_cons (by simp) ih fun g gs _ hg => ?_
    exact .char (by decide) (by decide) (fun hdash => absurd hdash (by decide)) hg
  | lastComment =>
    exact forall_mem_groups_cons (by simp) hnil fun g gs _ hg => hg
  | separator _ ih => exact List.forall_mem_cons.2 ⟨.done, ih⟩
  | char hquote hsep hdash hrest ih =>
    refine forall_mem_groups_cons (by simp) ih fun g gs hg hreads => ?_
    exact .char hquote hsep (fun hc hnext => hdash hc (hrest.head?_of_groups hg hnext)) hreads

theorem flatMap_text_kept (g : List Piece) :
    (g.flatMap Piece.kept).flatMap Piece.text = g.flatMap Piece.text := by
  rw [List.flatMap_assoc]
  congr 1
  funext p
  cases p with
  | comment ended => cases ended <;> rfl
  | _ => simp [Piece.kept, Piece.text]

theorem any_isCode_kept (g : List Piece) :
    (g.flatMap Piece.kept).any Piece.isCode = g.any Piece.isCode := by
  rw [List.any_flatMap]
  congr 1
  funext p
  cases p with
  | comment ended => cases ended <;> rfl
  | _ => simp [Piece.kept, Piece.isCode]

theorem separator_not_mem_kept (g : List Piece) : .separator ∉ g.flatMap Piece.kept := by
  rw [List.mem_flatMap]
  rintro ⟨p, -, hp⟩
  cases p with
  | comment ended => cases ended <;> simp [Piece.kept] at hp
  | _ => simp [Piece.kept] at hp

theorem groups_of_not_mem {ps : List Piece} (h : .separator ∉ ps) : groups ps = [ps] := by
  induction ps with
  | nil => rfl
  | cons p ps ih =>
    obtain ⟨hp, hps⟩ := not_or.1 (mt List.mem_cons.2 h)
    exact groups_cons (Ne.symm hp) (ih hps)

/-- A statement is a script of one statement. -/
theorem splitChars_statementText {cs : List Char} {g : List Piece} (hg : g ∈ groups (pieces cs))
    (hcode : g.any Piece.isCode = true) : splitChars (statementText g) = [statementText g] := by
  have hpieces := ((reads_pieces cs).group g hg).pieces_eq
  rw [statementText, splitChars_trimChars, splitChars, hpieces, statementsOf_eq,
    groups_of_not_mem (separator_not_mem_kept g),
    statementsIn_cons_of_code ((any_isCode_kept g).trans hcode), statementText, flatMap_text_kept]
  rfl

/-! ## Statements before others -/

/-- Whether no piece of a text is a comment or lacks its end. -/
def Solid (cs : List Char) : Prop :=
  ∀ p ∈ pieces cs, p.Closed ∧ ∀ ended, p ≠ .comment ended

theorem Solid.of_cons_space {w : Char} (hw : isSpace w = true) {cs : List Char}
    (h : Solid (w :: cs)) : Solid cs := by
  rw [Solid, pieces_cons_space hw] at h
  exact (List.forall_mem_cons.1 h).2

theorem Solid.of_concat_space {w : Char} (hw : isSpace w = true) {cs : List Char}
    (h : Solid (cs ++ [w])) : Solid cs := by
  rcases pieces_concat_space hw cs with ⟨-, hpieces⟩ | ⟨front, p, q, -, hpq, hpieces⟩
  · rw [Solid, hpieces] at h
    exact fun p hp => h p (List.mem_append_left _ hp)
  · -- a piece that white space lengthens is still a comment or without its end
    obtain ⟨hclosed, hcomment⟩ := h q (by simp [hpieces])
    cases hpq with
    | literal hbody =>
      rw [Piece.Closed, List.tail_cons, hbody] at hclosed
      cases hclosed
    | comment ended => exact absurd rfl (hcomment ended)

theorem Solid.trimChars {cs : List Char} (h : Solid cs) : Solid (trimChars cs) :=
  trimChars_rec (fun _ _ hw => Solid.of_cons_space hw) (fun _ _ hw => Solid.of_concat_space hw) h

/-- Only the last group can have a piece without an end. -/
theorem Reads.closed_of_mem_dropLast {cs : List Char} {ps : List Piece} (h : Reads cs ps) :
    ∀ g ∈ (groups ps).dropLast, ∀ p ∈ g, p.Closed := by
  have hcons {p : Piece} {ps : List Piece} (hp : p ≠ .separator) (hclosed : p.Closed)
      (ih : ∀ g ∈ (groups ps).dropLast, ∀ q ∈ g, q.Closed) :
      ∀ g ∈ (groups (p :: ps)).dropLast, ∀ q ∈ g, q.Closed := by
    obtain ⟨k, ks, hk⟩ := List.exists_cons_of_ne_nil (groups_ne_nil ps)
    rw [hk] at ih
    rw [groups_cons hp hk]
    cases ks with
    | nil => exact fun _ hg => absurd hg List.not_mem_nil
    | cons l ks =>
      obtain ⟨hfirst, hothers⟩ := List.forall_mem_cons.1 ih
      exact List.forall_mem_cons.2 ⟨List.forall_mem_cons.2 ⟨hclosed, hfirst⟩, hothers⟩
  induction h with
  | done | unclosed | lastComment => exact fun _ hg => absurd hg List.not_mem_nil
  | literal hbody _ ih =>
    exact hcons (by simp) ((congrArg Option.isSome hbody).trans rfl) ih
  | comment _ _ ih => exact hcons (by simp) rfl ih
  | @separator rest ps _ ih =>
    obtain ⟨k, ks, hk⟩ := List.exists_cons_of_ne_nil (groups_ne_nil ps)
    rw [hk] at ih
    have hgroups : groups (.separator :: ps) = [] :: k :: ks := congrArg ([] :: ·) hk
    rw [hgroups]
    exact List.forall_mem_cons.2 ⟨fun _ hq => absurd hq List.not_mem_nil, ih⟩
  | char _ _ _ _ ih => exact hcons (by simp) trivial ih

theorem solid_statementText {cs : List Char} {g : List Piece} (hg : g ∈ groups (pieces cs))
    (hclosed : ∀ p ∈ g, p.Closed) : Solid (statementText g) := by
  refine Solid.trimChars ?_
  rw [Solid, ((reads_pieces cs).group g hg).pieces_eq]
  intro q hq
  obtain ⟨p, hp, hq⟩ := List.mem_flatMap.1 hq
  cases p with
  | literal text =>
    cases List.mem_singleton.1 hq
    exact ⟨hclosed _ hp, by simp⟩
  | comment ended => cases ended <;> simp_all [Piece.kept, Piece.Closed]
  | separator => cases hq
  | char c =>
    cases List.mem_singleton.1 hq
    exact ⟨trivial, by simp⟩

/-- Only the last statement can end inside of a literal. -/
theorem outside_of_mem_dropLast {cs s : List Char} (h : s ∈ (splitChars cs).dropLast) :
    Outside s := by
  obtain ⟨gs, g, hg⟩ := exists_groups_eq_append (pieces cs)
  have hmem : s ∈ statementsIn gs := by
    rw [splitChars, statementsOf_eq, hg, statementsIn_append] at h
    by_cases hcode : g.any Piece.isCode = true
    · have hone : statementsIn [g] = [statementText g] := statementsIn_cons_of_code hcode []
      rwa [hone, List.dropLast_concat] at h
    · have hnone : statementsIn [g] = [] := by simpa [statementsIn] using hcode
      rw [hnone, List.append_nil] at h
      exact (List.dropLast_sublist _).subset h
  obtain ⟨k, hk, rfl⟩ := List.mem_map.1 hmem
  have hkeep : k ∈ gs := (List.mem_filter.1 hk).1
  have hclosed : ∀ p ∈ k, p.Closed :=
    (reads_pieces cs).closed_of_mem_dropLast k (by rwa [hg, List.dropLast_concat])
  have hsolid := solid_statementText (hg ▸ List.mem_append_left [g] hkeep) hclosed
  exact fun p hp => (hsolid p hp).1

/-! ## Statements joined -/

/-- A separator behind a text that ends outside cuts the script in two. -/
theorem splitChars_append_separator {cs : List Char} (h : Outside cs) (rest : List Char) :
    splitChars (cs ++ ';' :: rest) = splitChars cs ++ splitChars rest := by
  obtain ⟨gs, g, hg⟩ := exists_groups_eq_append (pieces cs)
  have hpieces : pieces (cs ++ ';' :: rest) = pieces cs ++ .separator :: pieces rest := by
    rw [pieces_append h (by simp), (Reads.separator (reads_pieces rest)).pieces_eq]
  have hgroups : groups (pieces cs ++ .separator :: pieces rest)
      = groups (pieces cs) ++ groups (pieces rest) := by
    have hseparator : groups (.separator :: pieces rest) = [] :: groups (pieces rest) := rfl
    rw [groups_append hg hseparator, hg]
    simp
  rw [splitChars, hpieces, statementsOf_eq, hgroups, statementsIn_append]
  rfl

theorem splitChars_nil : splitChars [] = [] := by
  rw [splitChars, pieces_nil]
  rfl

theorem splitChars_intercalate {ss : List (List Char)} (h : ∀ s ∈ ss, splitChars s = [s])
    (houtside : ∀ s ∈ ss.dropLast, Outside s) : splitChars ([';'].intercalate ss) = ss := by
  induction ss with
  | nil => exact splitChars_nil
  | cons s ss ih =>
    obtain ⟨hs, hss⟩ := List.forall_mem_cons.1 h
    cases ss with
    | nil => simpa using hs
    | cons t ts =>
      obtain ⟨hout, houts⟩ := List.forall_mem_cons.1 houtside
      rw [List.intercalate_cons_cons, List.append_assoc, List.singleton_append,
        splitChars_append_separator hout, hs, ih hss houts]
      rfl

theorem splitChars_of_mem {cs s : List Char} (h : s ∈ splitChars cs) : splitChars s = [s] := by
  obtain ⟨g, hg, rfl⟩ := List.mem_map.1 h
  obtain ⟨hgroup, hcode⟩ := List.mem_filter.1 hg
  exact splitChars_statementText hgroup hcode

/-- **Splitting is stable under joining.** The statements of a script, joined by semicolons, are a
script of the same statements. None of them is empty or has white space at an end, and each is the
only statement of itself. -/
theorem split_intercalate_split (script : String) :
    split (";".intercalate (split script)) = split script ∧
    ∀ s ∈ split script, s ≠ "" ∧ (∀ c ∈ s.toList.head?, isSpace c = false) ∧
      (∀ c ∈ s.toList.getLast?, isSpace c = false) ∧ split s = [s] := by
  have hjoin : splitChars ([';'].intercalate (splitChars script.toList))
      = splitChars script.toList :=
    splitChars_intercalate (fun s => splitChars_of_mem) fun s => outside_of_mem_dropLast
  refine ⟨?_, fun s hs => ?_⟩
  · have hlist : (";".intercalate (split script)).toList
        = [';'].intercalate (splitChars script.toList) := by
      rw [String.toList_intercalate, split, List.map_map]
      simp [Function.comp_def]
    rw [split, hlist, hjoin, split]
  · obtain ⟨cs, hcs, rfl⟩ := List.mem_map.1 hs
    have hone := splitChars_of_mem hcs
    have hne : cs ≠ [] := by
      rintro rfl
      rw [splitChars_nil] at hone
      cases hone
    obtain ⟨g, -, rfl⟩ := List.mem_map.1 hcs
    rw [String.toList_ofList]
    refine ⟨fun hempty => hne ?_, isSpace_head?_trimChars _, isSpace_getLast?_trimChars _, ?_⟩
    · rw [← String.toList_ofList (l := statementText g), hempty]
      rfl
    · rw [split, String.toList_ofList, hone]
      rfl

/-- A statement with a comment in it, and a last one that ends inside of a literal, in white space
behind an escaped quote. -/
theorem split_intercalate_split_unclosed :
    "'it\\'s" ∈ split "DROP -- x;\n TABLE t ; ; -- y\n 'it\\'s  " ∧
      (";".intercalate (split "DROP -- x;\n TABLE t ; ; -- y\n 'it\\'s  ")
        = "DROP \n TABLE t;'it\\'s" ∧
      split (";".intercalate (split "DROP -- x;\n TABLE t ; ; -- y\n 'it\\'s  "))
        = split "DROP -- x;\n TABLE t ; ; -- y\n 'it\\'s  ") ∧
      split "'it\\'s" = ["'it\\'s"] := by
  have hmem : "'it\\'s" ∈ split "DROP -- x;\n TABLE t ; ; -- y\n 'it\\'s  " := by decide +kernel
  exact ⟨hmem, ⟨by decide +kernel, (split_intercalate_split _).1⟩,
    ((split_intercalate_split _).2 _ hmem).2.2.2⟩

end Colonnade.Sql.Script
