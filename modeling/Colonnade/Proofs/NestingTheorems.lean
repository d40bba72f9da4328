import Colonnade.Proofs.GroupTheorems

/-!
# Parentheses of groups

A text is balanced if it closes the parentheses that it opens and no others. A query cuts an entry
at its last alias mark, wherever that stands. Behind a mark outside of parentheses the alias of a
balanced entry is balanced; behind one inside of them, as in a cast without an alias, it closes
parentheses that it does not open (`balanced_alias_iff`), and so does the group that it becomes.
-/

namespace Colonnade.Text

/-! ## Open parentheses -/

/-- How many parentheses are open behind a character, unless it closes one that is not open. -/
def nest? (opened : Nat) (c : Char) : Option Nat :=
  if c = '(' then some (opened + 1)
  else if c = ')' then (if opened = 0 then none else some (opened - 1))
  else some opened

/-- How many parentheses are open behind a text, unless it closes one that is not open. -/
def openAfter? (opened : Nat) (cs : List Char) : Option Nat := cs.foldlM nest? opened

/-- Whether every parenthesis of a text is closed in it, and every closed one was opened in it. -/
def IsBalanced (s : String) : Prop := openAfter? 0 s.toList = some 0

instance (s : String) : Decidable (IsBalanced s) := inferInstanceAs (Decidable (_ = _))

theorem openAfter?_cons (opened : Nat) (c : Char) (cs : List Char) :
    openAfter? opened (c :: cs) = (nest? opened c).bind (openAfter? · cs) := rfl

theorem openAfter?_append (opened : Nat) (a b : List Char) :
    openAfter? opened (a ++ b) = (openAfter? opened a).bind (openAfter? · b) :=
  List.foldlM_append

theorem nest?_of_ne {c : Char} (hopen : c ≠ '(') (hclose : c ≠ ')') (opened : Nat) :
    nest? opened c = some opened := by
  rw [nest?, if_neg hopen, if_neg hclose]

theorem openAfter?_of_plain {cs : List Char} (h : ∀ c ∈ cs, c ≠ '(' ∧ c ≠ ')') (opened : Nat) :
    openAfter? opened cs = some opened := by
  induction cs with
  | nil => rfl
  | cons c cs ih =>
    obtain ⟨⟨hopen, hclose⟩, hcs⟩ := List.forall_mem_cons.1 h
    rw [openAfter?_cons, nest?_of_ne hopen hclose, Option.bind_some, ih hcs]

/-- Parentheses that are open before a text are open behind it. -/
theorem openAfter?_add {opened left : Nat} {cs : List Char} (h : openAfter? opened cs = some left)
    (more : Nat) : openAfter? (opened + more) cs = some (left + more) := by
  induction cs generalizing opened with
  | nil =>
    cases h
    rfl
  | cons c cs ih =>
    rw [openAfter?_cons, Option.bind_eq_some_iff] at h
    obtain ⟨next, hnext, hrest⟩ := h
    have hmore : nest? (opened + more) c = some (next + more) := by
      unfold nest? at hnext ⊢
      grind
    rw [openAfter?_cons, hmore, Option.bind_some, ih hrest]

/-- White space is no parenthesis. -/
theorem ne_of_isSpace_paren {c : Char} (h : isSpace c = true) : c ≠ '(' ∧ c ≠ ')' := by
  constructor
  all_goals
    rintro rfl
    cases h

theorem openAfter?_trimChars (opened : Nat) (cs : List Char) :
    openAfter? opened (trimChars cs) = openAfter? opened cs := by
  have hspace (c : Char) (hc : isSpace c = true) (n : Nat) : openAfter? n [c] = some n :=
    openAfter?_of_plain (List.forall_mem_singleton.2 (ne_of_isSpace_paren hc)) n
  refine trimChars_rec (P := fun ds => openAfter? opened ds = openAfter? opened cs) ?_ ?_ rfl
  · intro c ds hc h
    rw [← h, ← List.singleton_append, openAfter?_append, hspace c hc, Option.bind_some]
  · intro c ds hc h
    rw [← h, openAfter?_append]
    simp [hspace c hc]

end Colonnade.Text

namespace Colonnade.Report

open Text (IsBalanced openAfter? openAfter?_append openAfter?_of_plain openAfter?_add
  openAfter?_trimChars)

/-! ## Where an entry is cut -/

/-- An alias mark has no parenthesis. -/
theorem eq_of_afterAliasMark? {cs rest : List Char} (h : afterAliasMark? cs = some rest) :
    ∃ mark, cs = mark ++ rest ∧ ∀ c ∈ mark, c ≠ '(' ∧ c ≠ ')' := by
  have hletter {c l : Char} (hc : c.toLower = l) (hl : l ≠ '(' ∧ l ≠ ')') : c ≠ '(' ∧ c ≠ ')' := by
    constructor
    · rintro rfl
      exact hl.1 hc.symm
    · rintro rfl
      exact hl.2 hc.symm
  unfold afterAliasMark? at h
  split at h
  · next a s rest' =>
    split at h
    · next hmark =>
      cases h
      refine ⟨[' ', a, s, ' '], rfl, ?_⟩
      simpa using ⟨hletter hmark.1 (by decide), hletter hmark.2 (by decide)⟩
    · cases h
  · cases h

/-- An entry consists of what stands before its mark, the mark and what stands behind it. -/
theorem eq_of_cutAlias? {cs before after : List Char} (h : cutAlias? cs = some (before, after)) :
    ∃ mark, cs = before ++ (mark ++ after) ∧ ∀ c ∈ mark, c ≠ '(' ∧ c ≠ ')' := by
  induction cs generalizing before with
  | nil => cases h
  | cons c cs ih =>
    rw [cutAlias?] at h
    split at h
    · next front back hcut =>
      cases h
      obtain ⟨mark, hcs, hmark⟩ := ih hcut
      exact ⟨mark, by rw [hcs, List.cons_append], hmark⟩
    · obtain ⟨rest, hafter, heq⟩ := Option.map_eq_some_iff.1 h
      cases heq
      exact eq_of_afterAliasMark? hafter

/-- Whether no parenthesis is open where an entry is cut. -/
def CutOutside (entry : String) : Prop :=
  ∀ p ∈ cutAlias? entry.toList, openAfter? 0 p.1 = some 0

instance (entry : String) : Decidable (CutOutside entry) :=
  Option.decidableForallMem _

/-- The alias of a balanced entry is balanced exactly if the entry is cut outside of parentheses. -/
theorem balanced_alias_iff {entry expression name : String} (hentry : IsBalanced entry)
    (hsplit : splitAlias? entry = some (expression, name)) :
    IsBalanced name ↔ CutOutside entry := by
  obtain ⟨⟨before, after⟩, hcut, heq⟩ := Option.map_eq_some_iff.1 hsplit
  cases heq
  obtain ⟨mark, hparts, hmark⟩ := eq_of_cutAlias? hcut
  -- what is open before the mark is open behind it, and is closed behind that
  rw [IsBalanced, hparts, openAfter?_append, Option.bind_eq_some_iff] at hentry
  obtain ⟨opened, hbefore, hrest⟩ := hentry
  rw [openAfter?_append, openAfter?_of_plain hmark, Option.bind_some] at hrest
  have houtside : CutOutside entry ↔ opened = 0 := by
    simp [CutOutside, hcut, hbefore]
  rw [houtside, IsBalanced, String.toList_ofList, openAfter?_trimChars]
  constructor
  · intro hname
    have hshift := openAfter?_add hname opened
    rw [Nat.zero_add, hrest] at hshift
    simpa using hshift.symm
  · rintro rfl
    exact hrest

namespace Query

/-- With balanced entries and declared groups, a group that counts is balanced exactly if every
entry whose alias it is is cut outside of parentheses. -/
theorem balanced_effectiveGroups_iff (steps : List Step)
    (hselected : ∀ entry ∈ steps.flatMap Step.selected, IsBalanced entry)
    (hdeclared : ∀ g ∈ steps.flatMap Step.declared, IsBalanced g) :
    ∀ g ∈ (ofSteps steps).effectiveGroups, IsBalanced g ↔
      ∀ entry ∈ steps.flatMap Step.selected, ∀ expression,
        splitAlias? entry = some (expression, g) → CutOutside entry := by
  intro g hg
  constructor
  · intro hbalanced entry hentry expression hsplit
    exact (balanced_alias_iff (hselected entry hentry) hsplit).1 hbalanced
  · intro houtside
    rw [← groups_ofSteps] at hdeclared
    rw [← selects_ofSteps] at hselected houtside
    obtain ⟨names, hgroups, haliases⟩ := (inferred_effectiveGroups (ofSteps steps)).declared_first
    rw [hgroups, List.mem_append] at hg
    rcases hg with hg | hg
    · exact hdeclared g (List.mem_eraseDups.1 (List.mem_filter.1 hg).1)
    · obtain ⟨entry, hentry, expression, hsplit⟩ := haliases g hg
      exact (balanced_alias_iff (hselected entry hentry) hsplit).2
        (houtside entry hentry expression hsplit)

/-- An entry that is cut behind a cast, one that is cut inside of it, and one without a mark. -/
theorem balanced_effectiveGroups_iff_casts :
    let steps : List Step := [.select "CAST(gs.amount AS String) AS amount",
      .select "toDate(CAST(gs.at AS DateTime))", .aggregate "count()", .group "f(gs.id)"]
    ((∀ entry ∈ steps.flatMap Step.selected, IsBalanced entry) ∧
      ∀ g ∈ steps.flatMap Step.declared, IsBalanced g) ∧
    (ofSteps steps).effectiveGroups = ["f(gs.id)", "amount", "DateTime))"] ∧
    ∀ g ∈ (ofSteps steps).effectiveGroups, IsBalanced g ↔
      ∀ entry ∈ steps.flatMap Step.selected, ∀ expression,
        splitAlias? entry = some (expression, g) → CutOutside entry := by
  intro steps
  have hselected : ∀ entry ∈ steps.flatMap Step.selected, IsBalanced entry := by
    decide +kernel
  have hdeclared : ∀ g ∈ steps.flatMap Step.declared, IsBalanced g := by
    decide +kernel
  exact ⟨⟨hselected, hdeclared⟩, by decide +kernel,
    balanced_effectiveGroups_iff steps hselected hdeclared⟩

/-- A cast without an alias becomes a group: its type and the parenthesis behind it. -/
theorem effectiveGroups_not_balanced :
    let steps : List Step := [.source "t", .select "CAST(x AS String)", .group "g"]
    (∀ entry ∈ steps.flatMap Step.selected, IsBalanced entry) ∧
      (∀ g ∈ steps.flatMap Step.declared, IsBalanced g) ∧
      "String)" ∈ (ofSteps steps).effectiveGroups ∧ ¬ IsBalanced "String)" := by
  decide +kernel

end Query

end Colonnade.Report
