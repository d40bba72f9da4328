import Colonnade.Proofs.ConditionTheorems
import Mathlib.Data.List.Infix

/-!
# Patterns that look for a text

The pattern language of `LIKE`: `%` stands for any text, `_` for any one character, and a backslash
makes the character behind it stand for itself. A pattern is read as signs, and a text fits signs or
does not.

A filter looks for its value between two `%`. A value of plain characters is found wherever it
occurs, and nowhere else (`fits_plain_iff`). With any other character in it the value is a pattern of
its own: `sample` is a text that fits it and is too short to have the value in it, or is another text
of the same length (`sample_signs`). So the filter finds the texts with the value in them exactly if
the value is plain (`finds_containsPattern_iff`).
-/

namespace Colonnade.Report

/-! ## The pattern language -/

/-- A sign of a pattern. -/
inductive Sign where
  /-- Any text. -/
  | run
  /-- Any one character. -/
  | one
  /-- A character that stands for itself. -/
  | char (c : Char)
deriving DecidableEq, Repr

/-- The signs of a pattern. A backslash with nothing behind it stands for itself. -/
def signs : List Char → List Sign
  | [] => []
  | '\\' :: c :: cs => .char c :: signs cs
  | '%' :: cs => .run :: signs cs
  | '_' :: cs => .one :: signs cs
  | c :: cs => .char c :: signs cs

/-- Whether a text fits signs. -/
def fits : List Sign → List Char → Bool
  | [], cs => cs.isEmpty
  | .run :: p, cs => cs.tails.any fun rest => fits p rest
  | .one :: _, [] => false
  | .one :: p, _ :: cs => fits p cs
  | .char _ :: _, [] => false
  | .char c :: p, d :: cs => c == d && fits p cs

/-- Whether a text is like a pattern. -/
def likes (pattern text : String) : Bool := fits (signs pattern.toList) text.toList

/-- Whether a character stands for itself wherever it stands in a pattern. -/
def isPlain (c : Char) : Bool := c != '%' && c != '_' && c != '\\'

/-! ## Signs and what fits them -/

section Fits

variable {p : List Sign} {cs : List Char}

theorem isPlain_iff {c : Char} : isPlain c = true ↔ c ≠ '%' ∧ c ≠ '_' ∧ c ≠ '\\' := by
  simp [isPlain, and_assoc]

theorem signs_cons_of_plain {c : Char} (h : isPlain c = true) (cs : List Char) :
    signs (c :: cs) = .char c :: signs cs := by
  obtain ⟨hrun, hone, hslash⟩ := isPlain_iff.1 h
  rw [signs]
  · exact fun _ _ heq => absurd heq hslash
  · exact hrun
  · exact hone

/-- Something fits a run of any text if its rest fits what follows. -/
theorem fits_run_iff : fits (.run :: p) cs = true ↔ ∃ rest, rest <:+ cs ∧ fits p rest = true := by
  simp [fits]

theorem fits_chars_append_iff (text : List Char) :
    fits (text.map .char ++ p) cs = true ↔ ∃ rest, cs = text ++ rest ∧ fits p rest = true := by
  induction text generalizing cs with
  | nil => simp
  | cons c text ih =>
    cases cs with
    | nil => simp [fits]
    | cons d cs =>
      rw [List.map_cons, List.cons_append, fits, Bool.and_eq_true, beq_iff_eq, ih]
      constructor
      · rintro ⟨rfl, rest, rfl, hrest⟩
        exact ⟨rest, rfl, hrest⟩
      · rintro ⟨rest, heq, hrest⟩
        obtain ⟨rfl, rfl⟩ := List.cons.inj heq
        exact ⟨rfl, rest, rfl, hrest⟩

theorem signs_append_of_plain {text : List Char} (h : ∀ c ∈ text, isPlain c = true)
    (rest : List Char) : signs (text ++ rest) = text.map .char ++ signs rest := by
  induction text with
  | nil => rfl
  | cons c text ih =>
    obtain ⟨hc, htext⟩ := List.forall_mem_cons.1 h
    rw [List.cons_append, signs_cons_of_plain hc, ih htext, List.map_cons, List.cons_append]

end Fits

/-- The signs around a text that is looked for. -/
def around (text : List Char) : List Sign := signs ('%' :: (text ++ ['%']))

theorem around_eq (text : List Char) : around text = .run :: signs (text ++ ['%']) := rfl

theorem fits_run (cs : List Char) : fits (signs ['%']) cs = true :=
  fits_run_iff.2 ⟨[], List.nil_suffix, rfl⟩

/-! ## Plain texts -/

/-- What fits a plain text between two runs has the text in it. -/
theorem fits_plain_iff {text cs : List Char} (h : ∀ c ∈ text, isPlain c = true) :
    fits (around text) cs = true ↔ text <:+: cs := by
  have hrest (rest : List Char) : fits (signs (text ++ ['%'])) rest = true ↔ text <+: rest := by
    rw [signs_append_of_plain h, fits_chars_append_iff]
    simp [fits_run, List.prefix_iff_exists_append_eq, eq_comm]
  rw [around_eq, fits_run_iff, List.infix_iff_prefix_suffix]
  simp only [hrest, and_comm]

/-! ## Other texts -/

/-- A text that fits signs: nothing for a run, and for any character one that is no underscore. -/
def sample : List Sign → List Char
  | [] => []
  | .run :: p => sample p
  | .one :: p => '%' :: sample p
  | .char c :: p => c :: sample p

theorem fits_sample (p : List Sign) : fits p (sample p) = true := by
  induction p with
  | nil => rfl
  | cons sign p ih =>
    cases sign with
    | run => exact fits_run_iff.2 ⟨sample p, List.suffix_refl _, ih⟩
    | one => simpa [sample, fits] using ih
    | char c => simpa [sample, fits] using ih

/-- What fits a text read as signs is no longer than the text, and is the text only if that is plain:
a run and a backslash take a character away, an underscore is replaced, and a backslash at the end
makes a character of the sign behind the text. -/
theorem sample_signs (text : List Char) : (sample (signs (text ++ ['%']))).length ≤ text.length ∧
    (sample (signs (text ++ ['%'])) = text → ∀ c ∈ text, isPlain c = true) := by
  induction text using signs.induct with
  | case1 => exact ⟨Nat.le_refl _, by simp⟩
  | case2 c cs ih =>
    have hshort : (sample (signs ('\\' :: c :: cs ++ ['%']))).length ≤ cs.length + 1 :=
      Nat.succ_le_succ ih.1
    refine ⟨hshort.trans (Nat.le_succ _), fun heq => ?_⟩
    rw [heq] at hshort
    exact absurd hshort (by simp)
  | case3 cs ih =>
    have hshort : (sample (signs ('%' :: cs ++ ['%']))).length ≤ cs.length := ih.1
    refine ⟨hshort.trans (Nat.le_succ _), fun heq => ?_⟩
    rw [heq] at hshort
    exact absurd hshort (by simp)
  | case4 cs ih =>
    refine ⟨Nat.succ_le_succ ih.1, fun heq => ?_⟩
    cases (List.cons.inj heq).1
  | case5 c cs hpair hrun hone ih =>
    by_cases hslash : c = '\\'
    · -- a backslash with nothing behind it in the text
      subst hslash
      cases cs with
      | nil => exact ⟨Nat.le_refl _, fun heq => by cases (List.cons.inj heq).1⟩
      | cons d ds => exact absurd rfl (hpair d ds rfl)
    · have hc : isPlain c = true := isPlain_iff.2 ⟨hrun, hone, hslash⟩
      rw [List.cons_append, signs_cons_of_plain hc]
      refine ⟨Nat.succ_le_succ ih.1, fun heq => ?_⟩
      exact List.forall_mem_cons.2 ⟨hc, ih.2 (List.cons.inj heq).2⟩

/-- Something that fits between two runs has the text in it, whatever fits, only if that is plain. -/
theorem plain_of_fits {text : List Char}
    (h : ∀ cs, fits (around text) cs = true → text <:+: cs) : ∀ c ∈ text, isPlain c = true := by
  obtain ⟨hlength, hplain⟩ := sample_signs text
  have hfits : fits (around text) (sample (signs (text ++ ['%']))) = true :=
    fits_run_iff.2 ⟨_, List.suffix_refl _, fits_sample _⟩
  have hoccurs := h _ hfits
  exact hplain (hoccurs.eq_of_length_le hlength).symm

/-- Without a backslash a text fits itself. -/
theorem fits_self {text : List Char} (h : '\\' ∉ text) {p rest : List Char}
    (hrest : fits (signs p) rest = true) : fits (signs (text ++ p)) (text ++ rest) = true := by
  induction text with
  | nil => exact hrest
  | cons c text ih =>
    obtain ⟨hc, htext⟩ := not_or.1 (mt List.mem_cons.2 h)
    have hih := ih htext
    by_cases hrun : c = '%'
    · subst hrun
      exact fits_run_iff.2 ⟨_, List.suffix_cons _ _, hih⟩
    by_cases hone : c = '_'
    · subst hone
      exact hih
    · rw [List.cons_append, List.cons_append,
        signs_cons_of_plain (isPlain_iff.2 ⟨hrun, hone, Ne.symm hc⟩)]
      simpa [fits] using hih

/-- A text without a backslash that stands in another is found there. -/
theorem fits_around_of_infix {text cs : List Char} (h : '\\' ∉ text) (hoccurs : text <:+: cs) :
    fits (around text) cs = true := by
  obtain ⟨before, after, rfl⟩ := hoccurs
  refine fits_run_iff.2 ⟨text ++ after, ?_, fits_self h (fits_run after)⟩
  rw [List.append_assoc]
  exact List.suffix_append _ _

/-! ## Filters -/

/-- A pattern finds the texts in which a value occurs, and no others. -/
def Finds (pattern value : String) : Prop :=
  ∀ text : String, likes pattern text = true ↔ value.toList <:+: text.toList

theorem likes_containsPattern (value text : String) :
    likes (containsPattern value) text = fits (around value.toList) text.toList := by
  simp [likes, containsPattern, around]

theorem finds_containsPattern_iff (value : String) :
    Finds (containsPattern value) value ↔ ∀ c ∈ value.toList, isPlain c = true := by
  constructor
  · intro h
    refine plain_of_fits fun cs hcs => ?_
    have htext := (h (.ofList cs)).1
    rw [likes_containsPattern, String.toList_ofList] at htext
    exact htext hcs
  · intro hplain text
    rw [likes_containsPattern]
    exact fits_plain_iff hplain

theorem get?_compile_like (column : String) {f : FilterField} (seed : String)
    (hvalue : f.value ≠ "") : (compile column f true seed).placeholders.get? (seed ++ "_value")
      = some (.string (containsPattern f.value)) := by
  have hbound := get?_placeholders_compile column f true seed .value
  simpa [FilterField.inRole, Role.ending, hvalue] using hbound

/-- **A filter finds its value** in the texts in which it occurs, and in no others, exactly if all of
its characters are plain. If none of them is a backslash, it misses none of these texts, but may find
others. -/
theorem compile_like_finds_iff (column : String) (f : FilterField) (seed : String)
    (hvalue : f.value ≠ "") :
    ∃ pattern, (compile column f true seed).placeholders.get? (seed ++ "_value")
        = some (.string pattern) ∧
      (Finds pattern f.value ↔ ∀ c ∈ f.value.toList, isPlain c = true) ∧
      ('\\' ∉ f.value.toList → ∀ text : String, f.value.toList <:+: text.toList →
        likes pattern text = true) := by
  refine ⟨containsPattern f.value, get?_compile_like column seed hvalue,
    finds_containsPattern_iff f.value, fun hslash text hoccurs => ?_⟩
  rw [likes_containsPattern]
  exact fits_around_of_infix hslash hoccurs

/-- A value with quotes and spaces, which are plain. -/
theorem compile_like_finds_iff_quotes :
    let f : FilterField := { id := "note", value := "it's 5 '" }
    f.value ≠ "" ∧ (∀ c ∈ f.value.toList, isPlain c = true) ∧
    ∃ pattern, (compile "t.note" f true "note_1").placeholders.get? ("note_1" ++ "_value")
        = some (.string pattern) ∧
      (Finds pattern f.value ↔ ∀ c ∈ f.value.toList, isPlain c = true) ∧
      ('\\' ∉ f.value.toList → ∀ text : String, f.value.toList <:+: text.toList →
        likes pattern text = true) := by
  intro f
  have hvalue : f.value ≠ "" := by decide +kernel
  exact ⟨hvalue, by decide +kernel, compile_like_finds_iff "t.note" f "note_1" hvalue⟩

/-- A percent sign in a value stands for any text. -/
theorem compile_like_finds_other :
    let f : FilterField := { id := "discount", value := "50%" }
    (compile "t.discount" f true "discount_1").placeholders.get? "discount_1_value"
        = some (.string "%50%%") ∧
      likes "%50%%" "500" = true ∧ ¬ f.value.toList <:+: "500".toList ∧
      ¬ Finds "%50%%" f.value := by
  intro f
  have hlikes : likes "%50%%" "500" = true := by decide +kernel
  have habsent : ¬ f.value.toList <:+: "500".toList := by decide +kernel
  exact ⟨by decide +kernel, hlikes, habsent, fun hfinds => habsent ((hfinds "500").1 hlikes)⟩

end Colonnade.Report
