import Colonnade.Statement.Engine
import Mathlib.Data.List.DropRight

/-!
# Storage engines stay canonical

A raw configuration is cut at its first parenthesis: it is accepted if what stands before, white
space at its start left out, is a type of the family but for the case of its letters, and what is
kept of it is the type and what follows, white space at the end left out
(`canonicalConf?_append_eq_some_iff`). No two types of whatever families have the same letters
(`typeNames_apart`). So a configuration that was accepted is accepted again as it is, and by no other
family.

`Settled` is what every change of an engine keeps, and all that is read off an engine follows from
it.
-/

namespace Colonnade

namespace Text

variable {before after : List Char}

theorem trimChars_append_of_spaces (hbefore : ∀ c ∈ before, isSpace c = true)
    (hafter : ∀ c ∈ after, isSpace c = true) (cs : List Char) :
    trimChars (before ++ cs ++ after) = trimChars cs := by
  have hright : trimChars (before ++ cs ++ after) = trimChars (before ++ cs) := by
    induction after generalizing cs with
    | nil => rw [List.append_nil]
    | cons c after ih =>
      obtain ⟨hc, hafter⟩ := List.forall_mem_cons.1 hafter
      have hnext := ih hafter (cs ++ [c])
      simp only [← List.append_assoc] at hnext
      rw [List.append_cons, hnext, trimChars_concat_space hc]
  rw [hright, trimChars, trimLeft_append_of_spaces hbefore, trimChars]

theorem trimRight_trimRight (cs : List Char) : trimRight (trimRight cs) = trimRight cs := by
  rw [trimRight, trimRight, List.reverse_reverse, List.dropWhile_idempotent]

theorem mem_of_mem_trimChars {c : Char} {cs : List Char} (h : c ∈ trimChars cs) : c ∈ cs := by
  have hkept := trimRight_prefix (trimLeft cs)
  exact (List.dropWhile_suffix isSpace).subset (hkept.subset h)

theorem isSpace_of_visible {c : Char} (h : 33 ≤ c.toNat) (h' : c.toNat ≤ 126) :
    isSpace c = false := by
  unfold isSpace
  generalize c.toNat = n at h h'
  simp only [Bool.or_eq_false_iff, Bool.and_eq_false_iff, decide_eq_false_iff_not,
    beq_eq_false_iff_ne]
  omega

theorem toNat_toLower (c : Char) : c.toLower.toNat
    = if 65 ≤ c.toNat ∧ c.toNat ≤ 90 then c.toNat + 32 else c.toNat := by
  have hupper : (c.val ≥ 'A'.val ∧ c.val ≤ 'Z'.val) ↔ 65 ≤ c.toNat ∧ c.toNat ≤ 90 :=
    and_congr UInt32.le_iff_toNat_le UInt32.le_iff_toNat_le
  unfold Char.toLower
  split
  · next h =>
    have hsum : (c.val + ('a'.val - 'A'.val)).toNat = (c.toNat + 32) % 2 ^ 32 :=
      UInt32.toNat_add _ _
    rw [if_pos (hupper.1 h)]
    have hle := (hupper.1 h).2
    change (c.val + ('a'.val - 'A'.val)).toNat = _
    omega
  · next h => rw [if_neg (mt hupper.2 h)]

/-- White space has no case. -/
theorem isSpace_toLower (c : Char) : isSpace c.toLower = isSpace c := by
  have hlower := toNat_toLower c
  split at hlower
  · rw [isSpace_of_visible (c := c) (by omega) (by omega)]
    exact isSpace_of_visible (by omega) (by omega)
  · rw [Char.toNat_inj.1 hlower]

/-- Only letters have a case. -/
theorem eq_of_toLower_eq_parenthesis {c : Char} (h : c.toLower = '(') : c = '(' := by
  have hlower := toNat_toLower c
  have hparenthesis : '('.toNat = 40 := rfl
  rw [h, hparenthesis] at hlower
  split at hlower
  · omega
  · exact Char.toNat_inj.1 hlower.symm

end Text

namespace EngineFamily

open Text (trimChars trimLeft trimRight isSpace)

variable {f g : EngineFamily} {head head' rest raw raw' conf : List Char} {name : String}

/-! ## Texts with the same letters -/

theorem sameLetters_iff : sameLetters head head' = true ↔
    head.map Char.toLower = head'.map Char.toLower := by
  simp [sameLetters]

theorem sameLetters_trimLeft (h : sameLetters head head' = true) :
    sameLetters (trimLeft head) (trimLeft head') = true := by
  have hspace : isSpace ∘ Char.toLower = isSpace := funext Text.isSpace_toLower
  have htrim (cs : List Char) :
      (trimLeft cs).map Char.toLower = trimLeft (cs.map Char.toLower) := by
    rw [trimLeft, trimLeft, List.dropWhile_map, hspace]
  rw [sameLetters_iff] at h ⊢
  rw [htrim, htrim, h]

/-! ## The types of the families -/

theorem typeNames_plain (f : EngineFamily) : ∀ name ∈ f.typeNames,
    '(' ∉ name.toList ∧ ∀ c ∈ name.toList, isSpace c = false := by
  cases f <;> simp only [typeNames, typeName, subtypes] <;> decide +kernel

/-- Types with the same letters are one type of one family. -/
theorem typeNames_apart (f g : EngineFamily) : ∀ name ∈ f.typeNames, ∀ name' ∈ g.typeNames,
    sameLetters name.toList name'.toList = true → f.typeName = g.typeName ∧ name = name' := by
  cases f <;> cases g <;> simp only [typeNames, typeName, subtypes] <;> decide +kernel

theorem find?_typeNames_eq_some_iff :
    f.typeNames.find? (fun name => sameLetters name.toList head) = some name ↔
      name ∈ f.typeNames ∧ sameLetters name.toList head = true := by
  constructor
  · exact fun h => ⟨List.mem_of_find?_eq_some h, by simpa using List.find?_some h⟩
  · rintro ⟨hname, hhead⟩
    have hsome : (f.typeNames.find? fun name => sameLetters name.toList head).isSome = true :=
      List.find?_isSome.2 ⟨name, hname, by simpa using hhead⟩
    obtain ⟨name', hfound⟩ := Option.isSome_iff_exists.1 hsome
    have hhead' : sameLetters name'.toList head = true := by simpa using List.find?_some hfound
    have hsame : sameLetters name'.toList name.toList = true := by
      rw [sameLetters_iff] at hhead hhead' ⊢
      exact hhead'.trans hhead.symm
    rw [hfound, (typeNames_apart f f name' (List.mem_of_find?_eq_some hfound) name hname hsame).2]

/-! ## Which raw texts are accepted, and as what -/

theorem trimChars_append_parenthesis (head rest : List Char) :
    trimChars (head ++ '(' :: rest) = trimLeft head ++ '(' :: trimRight rest := by
  have hsolid : isSpace '(' = false := rfl
  rw [trimChars, trimLeft, Text.dropWhile_append_cons hsolid, Text.trimRight_append_cons hsolid,
    trimLeft]

theorem canonicalConf?_append (h : '(' ∉ head) : f.canonicalConf? (head ++ '(' :: rest)
    = (f.typeNames.find? fun name => sameLetters name.toList (trimLeft head)).map
      (·.toList ++ '(' :: trimRight rest) := by
  have hhead : ∀ c ∈ trimLeft head, (c != '(') = true := fun c hc =>
    bne_iff_ne.2 fun hparenthesis => h (hparenthesis ▸ (List.dropWhile_suffix isSpace).subset hc)
  have hstop : ∀ c ∈ ('(' :: trimRight rest).head?, (c != '(') = false := by
    intro c hc
    cases hc
    rfl
  obtain ⟨htake, hdrop⟩ := Text.cut_append hhead hstop
  simp only [canonicalConf?, trimChars_append_parenthesis, htake, hdrop]

/-- A text without a parenthesis is refused. -/
theorem canonicalConf?_of_not_mem (h : '(' ∉ raw) : f.canonicalConf? raw = none := by
  have hnone : (trimChars raw).dropWhile (· != '(') = [] :=
    List.dropWhile_eq_nil_iff.2 fun c hc =>
      bne_iff_ne.2 fun hparenthesis => h (hparenthesis ▸ Text.mem_of_mem_trimChars hc)
  simp only [canonicalConf?, hnone]

theorem canonicalConf?_append_eq_some_iff (h : '(' ∉ head) :
    f.canonicalConf? (head ++ '(' :: rest) = some conf ↔
      ∃ name ∈ f.typeNames, sameLetters name.toList (trimLeft head) = true ∧
        conf = name.toList ++ '(' :: trimRight rest := by
  rw [canonicalConf?_append h, Option.map_eq_some_iff]
  refine exists_congr fun name => ?_
  rw [find?_typeNames_eq_some_iff, and_assoc]
  exact and_congr Iff.rfl (and_congr Iff.rfl eq_comm)

/-- A text that is accepted has a parenthesis, and before it a type of the family. -/
theorem exists_of_canonicalConf? (h : f.canonicalConf? raw = some conf) :
    ∃ head rest, ∃ name ∈ f.typeNames, '(' ∉ head ∧ raw = head ++ '(' :: rest ∧
      sameLetters name.toList (trimLeft head) = true ∧
      conf = name.toList ++ '(' :: trimRight rest := by
  by_cases hraw : '(' ∈ raw
  · obtain ⟨head, rest, rfl, hhead⟩ := List.eq_append_cons_of_mem hraw
    obtain ⟨name, hname, hsame, hconf⟩ := (canonicalConf?_append_eq_some_iff hhead).1 h
    exact ⟨head, rest, name, hname, hhead, rfl, hsame, hconf⟩
  · rw [canonicalConf?_of_not_mem hraw] at h
    cases h

/-- What was accepted is accepted as it is. -/
theorem canonicalConf?_canonical (h : f.canonicalConf? raw = some conf) :
    f.canonicalConf? conf = some conf := by
  obtain ⟨_, rest, name, hname, -, -, -, rfl⟩ := exists_of_canonicalConf? h
  obtain ⟨hparenthesis, hsolid⟩ := typeNames_plain f name hname
  refine (canonicalConf?_append_eq_some_iff hparenthesis).2 ⟨name, hname, ?_, ?_⟩
  · rw [Text.trimLeft_of_forall hsolid]
    exact sameLetters_iff.2 rfl
  · rw [Text.trimRight_trimRight]

/-- No two families accept one text. -/
theorem typeName_eq_of_canonicalConf? {conf' : List Char} (h : f.canonicalConf? raw = some conf)
    (h' : g.canonicalConf? raw = some conf') : f.typeName = g.typeName := by
  obtain ⟨head, rest, name, hname, hhead, rfl, hsame, -⟩ := exists_of_canonicalConf? h
  obtain ⟨name', hname', hsame', -⟩ := (canonicalConf?_append_eq_some_iff hhead).1 h'
  rw [sameLetters_iff] at hsame hsame'
  exact (typeNames_apart f g name hname name' hname'
    (sameLetters_iff.2 (hsame.trans hsame'.symm))).1

/-- Two raw texts that differ at most in the case of ASCII letters before the first parenthesis and
in the white space around them. -/
inductive Alike : List Char → List Char → Prop
  | intro {before after before' after' head head' rest : List Char}
      (hbefore : ∀ c ∈ before, isSpace c = true) (hafter : ∀ c ∈ after, isSpace c = true)
      (hbefore' : ∀ c ∈ before', isSpace c = true) (hafter' : ∀ c ∈ after', isSpace c = true)
      (hhead : '(' ∉ head) (hsame : sameLetters head head' = true) :
      Alike (before ++ (head ++ rest) ++ after) (before' ++ (head' ++ rest) ++ after')

theorem canonicalConf?_congr (h : trimChars raw = trimChars raw') :
    f.canonicalConf? raw = f.canonicalConf? raw' := by
  rw [canonicalConf?, h, canonicalConf?]

theorem not_mem_of_sameLetters (h : '(' ∉ head) (hsame : sameLetters head head' = true) :
    '(' ∉ head' := by
  intro hmem
  have hlower : '('.toLower ∈ head.map Char.toLower := by
    rw [sameLetters_iff.1 hsame]
    exact List.mem_map_of_mem hmem
  obtain ⟨c, hc, hparenthesis⟩ := List.mem_map.1 hlower
  exact h (Text.eq_of_toLower_eq_parenthesis hparenthesis ▸ hc)

theorem canonicalConf?_append_congr (h : '(' ∉ head) (hsame : sameLetters head head' = true)
    (rest : List Char) : f.canonicalConf? (head ++ rest) = f.canonicalConf? (head' ++ rest) := by
  have h' := not_mem_of_sameLetters h hsame
  by_cases hrest : '(' ∈ rest
  · obtain ⟨front, back, rfl, hfront⟩ := List.eq_append_cons_of_mem hrest
    have hsame' : sameLetters (head ++ front) (head' ++ front) = true := by
      rw [sameLetters_iff] at hsame ⊢
      rw [List.map_append, List.map_append, hsame]
    have htrimmed := sameLetters_iff.1 (sameLetters_trimLeft hsame')
    rw [← List.append_assoc, ← List.append_assoc,
      canonicalConf?_append (List.not_mem_append h hfront),
      canonicalConf?_append (List.not_mem_append h' hfront)]
    simp only [sameLetters, htrimmed]
  · rw [canonicalConf?_of_not_mem (List.not_mem_append h hrest),
      canonicalConf?_of_not_mem (List.not_mem_append h' hrest)]

/-- Neither the case of the type nor white space around the text counts. -/
theorem Alike.canonicalConf?_eq (h : Alike raw raw') :
    f.canonicalConf? raw = f.canonicalConf? raw' := by
  obtain ⟨hbefore, hafter, hbefore', hafter', hhead, hsame⟩ := h
  rw [canonicalConf?_congr (Text.trimChars_append_of_spaces hbefore hafter _),
    canonicalConf?_congr (Text.trimChars_append_of_spaces hbefore' hafter' _)]
  exact canonicalConf?_append_congr hhead hsame _

/-- A type of the family, and then a text that starts with a parenthesis. -/
def IsCanonical (f : EngineFamily) (text : String) : Prop :=
  ∃ name ∈ f.typeNames, ∃ rest, text = name ++ "(" ++ rest

theorem isCanonical_of_canonicalConf? (h : f.canonicalConf? raw = some conf) :
    f.IsCanonical (.ofList conf) := by
  obtain ⟨_, rest, name, hname, -, -, -, rfl⟩ := exists_of_canonicalConf? h
  refine ⟨name, hname, .ofList (trimRight rest), ?_⟩
  rw [← String.toList_inj]
  simp

end EngineFamily

namespace Engine

open EngineFamily (IsCanonical Alike)

variable {e e' : Engine} {raw raw' conf : String}

/-! ## What changes keep -/

/-- An engine that nothing was given to. -/
inductive IsFresh : Engine → Prop
  | kafka : IsFresh .kafka
  | mergeTree : IsFresh .mergeTree
  | mySql (mode : MySqlMode) : IsFresh (.mySql mode)

/-- The engine after changes. Those that are refused leave it as it was. -/
def run (e : Engine) (steps : List Step) : Engine := steps.foldl (fun e s => (e.step s).2) e

theorem withConf_of_some {cs : List Char} (h : e.family.canonicalConf? raw.toList = some cs) :
    e.withConf raw = .ok { e with conf := some (.ofList cs) } := by
  simp only [withConf, h]

theorem withConf_of_none (h : e.family.canonicalConf? raw.toList = none) :
    ∃ err, e.withConf raw = .error err := by
  simp only [withConf, h, Except.error.injEq, exists_eq']

/-- What a change can do: nothing, or attach what the family makes of a raw text, or replace settings
where they are allowed, or change the connection of a MySQL engine. -/
theorem step_cases (e : Engine) (s : Step) : (e.step s).2 = e ∨
    (∃ raw conf, e.family.canonicalConf? raw = some conf ∧
      (e.step s).2 = { e with conf := some (.ofList conf) }) ∨
    (∃ settings, e.family.allowsSettings = true ∧ (e.step s).2 = { e with settings }) ∨
    ∃ p p', e.family = .mySql p ∧ (e.step s).2 = { e with family := .mySql p' } := by
  cases s with
  | conf raw =>
    cases hconf : e.family.canonicalConf? raw.toList with
    | none =>
      obtain ⟨err, herr⟩ := withConf_of_none hconf
      exact .inl (by simp only [step, herr])
    | some conf =>
      exact .inr (.inl ⟨raw.toList, conf, hconf, by simp only [step, withConf_of_some hconf]⟩)
  | settings settings =>
    by_cases hallowed : e.family.allowsSettings = true
    · exact .inr (.inr (.inl ⟨settings, hallowed, by
        simp only [step, withSettings, if_pos hallowed]⟩))
    · exact .inl (by simp only [step, withSettings, if_neg hallowed])
  | params change =>
    cases hfamily : e.family with
    | mySql p =>
      exact .inr (.inr (.inr ⟨p, change p, rfl, by simp only [step, modifyParams?, hfamily]⟩))
    | kafka | mergeTree => exact .inl (by simp only [step, modifyParams?, hfamily])

/-- What every change keeps: a raw configuration is one that the family makes of itself, and there
are settings only where the family allows them. -/
structure Settled (e : Engine) : Prop where
  conf : ∀ conf, e.conf = some conf → e.family.canonicalConf? conf.toList = some conf.toList
  settings : e.settings ≠ [] → e.family.allowsSettings = true

theorem IsFresh.settled (h : e.IsFresh) : e.Settled := by
  cases h with
  | kafka | mergeTree | mySql =>
    exact ⟨fun _ hconf => absurd hconf (Option.some_ne_none _).symm, fun hne => absurd rfl hne⟩

theorem Settled.step (h : e.Settled) (s : Step) : (e.step s).2.Settled := by
  rcases step_cases e s with heq | ⟨raw, conf, hconf, heq⟩ | ⟨settings, hallowed, heq⟩ |
    ⟨p, p', hfamily, heq⟩ <;> rw [heq]
  · exact h
  · refine ⟨fun conf' heq' => ?_, h.settings⟩
    obtain rfl : String.ofList conf = conf' := Option.some.inj heq'
    rw [String.toList_ofList]
    exact EngineFamily.canonicalConf?_canonical hconf
  · exact ⟨h.conf, fun _ => hallowed⟩
  · -- what a family accepts and allows does not depend on its connection
    obtain ⟨hconf, hsettings⟩ := h
    rw [hfamily] at hconf hsettings
    exact ⟨hconf, hsettings⟩

theorem Settled.run (h : e.Settled) (steps : List Step) : (e.run steps).Settled := by
  induction steps generalizing e with
  | nil => exact h
  | cons s steps ih => exact ih (h.step s)

/-- No change makes another family of an engine's. -/
theorem typeName_step (e : Engine) (s : Step) :
    (e.step s).2.family.typeName = e.family.typeName := by
  rcases step_cases e s with heq | ⟨_, _, -, heq⟩ | ⟨_, -, heq⟩ | ⟨p, p', hfamily, heq⟩ <;>
    rw [heq]
  rw [hfamily]
  rfl

theorem typeName_run (e : Engine) (steps : List Step) :
    (e.run steps).family.typeName = e.family.typeName := by
  induction steps generalizing e with
  | nil => rfl
  | cons s steps ih => exact (ih (e.step s).2).trans (typeName_step e s)

/-! ## What an engine shows -/

/-- What is read off an engine is canonical. -/
structure Canonical (e : Engine) : Prop where
  /-- A raw configuration is a type of the family in its own spelling, and then a text from a
  parenthesis on. -/
  conf : ∀ conf, e.conf = some conf → e.family.IsCanonical conf
  /-- To attach it again changes nothing. -/
  again : ∀ conf, e.conf = some conf → e.withConf conf = .ok e
  settings : e.settings ≠ [] → e.family.allowsSettings = true
  /-- So is the text after `ENGINE =`, where there is one. -/
  dsn : ∀ text, e.dsn = .ok text → e.family.IsCanonical text

theorem Settled.isCanonical (h : e.Settled) (hconf : e.conf = some conf) :
    e.family.IsCanonical conf := by
  have hcanonical := EngineFamily.isCanonical_of_canonicalConf? (h.conf conf hconf)
  rwa [String.ofList_toList] at hcanonical

theorem Settled.withConf_eq (h : e.Settled) (hconf : e.conf = some conf) :
    e.withConf conf = .ok e := by
  rw [withConf_of_some (h.conf conf hconf), String.ofList_toList, ← hconf]

theorem isCanonical_text {p : MySqlParams} {text : String} (h : p.text = .ok text) :
    (EngineFamily.mySql p).IsCanonical text := by
  unfold MySqlParams.text at h
  split at h
  · cases h
    exact ⟨"MySQL", List.mem_singleton_self _, ", ".intercalate (p.arguments.map Sql.Quoted.quote)
      ++ ")", String.append_assoc⟩
  · cases h

theorem Settled.isCanonical_dsn (h : e.Settled) {text : String} (hdsn : e.dsn = .ok text) :
    e.family.IsCanonical text := by
  unfold dsn at hdsn
  split at hdsn
  · next hfamily =>
    cases hdsn
    rw [hfamily]
    exact ⟨"Kafka", List.mem_singleton_self _, ")", rfl⟩
  · next hfamily =>
    cases hdsn
    cases hconf : e.conf with
    | none =>
      rw [hfamily]
      exact ⟨"MergeTree", List.mem_cons_self, ")", rfl⟩
    | some conf => exact h.isCanonical hconf
  · next hconf =>
    cases hdsn
    exact h.isCanonical hconf
  · next p hfamily _ =>
    rw [hfamily]
    exact isCanonical_text hdsn

theorem Settled.canonical (h : e.Settled) : e.Canonical where
  conf _ := h.isCanonical
  again _ := h.withConf_eq
  settings := h.settings
  dsn _ := h.isCanonical_dsn

/-- A raw text is accepted by engines of one family only. -/
theorem exists_of_withConf (h : e.withConf raw = .ok e') :
    ∃ cs, e.family.canonicalConf? raw.toList = some cs := by
  cases hconf : e.family.canonicalConf? raw.toList with
  | none =>
    obtain ⟨err, herr⟩ := withConf_of_none hconf
    rw [herr] at h
    cases h
  | some cs => exact ⟨cs, rfl⟩

/-- **Engines stay canonical.** Whatever is tried with a fresh engine, what can be read off it is
canonical. Neither the case of the type nor white space around a raw configuration counts, and none
is accepted by two families. -/
theorem engines_stay_canonical :
    (∀ e : Engine, e.IsFresh → ∀ steps,
      (e.run steps).family.typeName = e.family.typeName ∧ (e.run steps).Canonical) ∧
    (∀ (e : Engine) (raw raw' : String), Alike raw.toList raw'.toList →
      (∃ e', e.withConf raw = .ok e' ∧ e.withConf raw' = .ok e') ∨
      ∃ err err', e.withConf raw = .error err ∧ e.withConf raw' = .error err') ∧
    ∀ (e₁ e₂ e₁' e₂' : Engine) (raw : String), e₁.withConf raw = .ok e₁' →
      e₂.withConf raw = .ok e₂' → e₁.family.typeName = e₂.family.typeName := by
  refine ⟨?_, ?_, ?_⟩
  · intro e hfresh steps
    exact ⟨typeName_run e steps, (hfresh.settled.run steps).canonical⟩
  · intro e raw raw' halike
    have hsame : e.family.canonicalConf? raw.toList = e.family.canonicalConf? raw'.toList :=
      halike.canonicalConf?_eq
    cases hconf : e.family.canonicalConf? raw.toList with
    | none =>
      obtain ⟨err, herr⟩ := withConf_of_none hconf
      obtain ⟨err', herr'⟩ := withConf_of_none (hsame.symm.trans hconf)
      exact .inr ⟨err, err', herr, herr'⟩
    | some cs =>
      exact .inl ⟨_, withConf_of_some hconf, withConf_of_some (hsame.symm.trans hconf)⟩
  · intro e₁ e₂ e₁' e₂' raw h₁ h₂
    obtain ⟨_, hconf₁⟩ := exists_of_withConf h₁
    obtain ⟨_, hconf₂⟩ := exists_of_withConf h₂
    exact EngineFamily.typeName_eq_of_canonicalConf? hconf₁ hconf₂

/-- Changes that are refused among those that are not, a type that begins as another one does, a
parenthesis that is never closed, and white space of two kinds. -/
theorem engines_stay_canonical_mixed :
    let steps : List Step := [.conf " replicatedMERGETREE('/t (', '\x7br\x7d') \n", .conf "Log()",
      .conf "MergeTreeX()", .settings [("a", .int 1)], .params fun p => { p with host := some "h" },
      .conf "MergeTree"]
    let raw := "\u3000graphitemergetree( x\t"
    let raw' := "GraphiteMergeTree( x\n "
    mergeTree.IsFresh ∧ (mergeTree.run steps).Canonical ∧
      (mergeTree.run steps).conf = some "ReplicatedMergeTree('/t (', '\x7br\x7d')" ∧
      Alike raw.toList raw'.toList ∧
      mergeTree.withConf raw = .ok { mergeTree with conf := some "GraphiteMergeTree( x" } ∧
      mergeTree.withConf raw' = .ok { mergeTree with conf := some "GraphiteMergeTree( x" } ∧
      ∀ (mode : MySqlMode) (e : Engine), (mySql mode).withConf raw ≠ .ok e := by
  intro steps raw raw'
  have halike : Alike raw.toList raw'.toList := by
    have hraw : raw.toList
        = ['\u3000'] ++ ("graphitemergetree".toList ++ "( x".toList) ++ ['\t'] := by
      decide +kernel
    have hraw' : raw'.toList
        = [] ++ ("GraphiteMergeTree".toList ++ "( x".toList) ++ ['\n', ' '] := by
      decide +kernel
    rw [hraw, hraw']
    exact .intro (by decide) (by decide) (by decide) (by decide) (by decide +kernel)
      (by decide +kernel)
  obtain ⟨hrun, hsame, hapart⟩ := engines_stay_canonical
  have hconf : mergeTree.withConf raw
      = .ok { mergeTree with conf := some "GraphiteMergeTree( x" } := by
    decide +kernel
  refine ⟨.mergeTree, (hrun mergeTree .mergeTree steps).2, by decide +kernel, halike, hconf, ?_, ?_⟩
  · rcases hsame mergeTree raw raw' halike with ⟨e, he, he'⟩ | ⟨err, _, herr, _⟩
    · rw [← hconf, he, he']
    · rw [hconf] at herr
      cases herr
  · intro mode e he
    have hname : "MergeTree" = "MySQL" := hapart _ _ _ _ raw hconf he
    exact absurd hname (by decide)

end Engine

end Colonnade
