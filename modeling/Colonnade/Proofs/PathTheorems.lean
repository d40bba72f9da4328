import Colonnade.Statement.Expression
import Mathlib.Logic.Function.Basic
import Mathlib.Tactic.Conv
import Mathlib.Tactic.WLOG

/-!
# Extraction along paths

The calls of an extraction are opened one around the other, and closed with their keys one behind
the other: the text at the end of a path is a number of openings, the source, and a closing for each
key in the order of the path (`toList_foldl_extract`). A closing is cut where its quoted key ends, so
closings tell the keys, whatever these are (`closings_inj`).

Nothing is known of the source, which may itself look like an opening. What keeps a source from being
taken for openings is the comma that a closing starts with and that no opening has
(`append_cons_ne_append`).
-/

namespace Colonnade

namespace Text

/-- A text with a character behind it does not begin with itself behind a front that has not the
character. -/
theorem append_cons_ne_append {c : Char} {front : List Char} (hne : front ≠ []) (hc : c ∉ front)
    (text back back' : List Char) : text ++ c :: back ≠ front ++ (text ++ back') := by
  intro heq
  -- up to the first `c` there is no more than the text on the left, and on the right at least as
  -- much of it behind the front
  have hleft : ((text ++ c :: back).takeWhile (· != c)).length
      = (text.takeWhile (· != c)).length := by
    rw [List.takeWhile_append]
    split
    · next hall => simp [hall]
    · rfl
  have hright : (text.takeWhile (· != c)).length
      ≤ ((text ++ back').takeWhile (· != c)).length := by
    rw [List.takeWhile_append]
    split
    · next hall => simp [hall]
    · exact Nat.le_refl _
  have hfront : ∀ d ∈ front, (d != c) = true := fun d hd =>
    bne_iff_ne.2 fun hdc => hc (hdc ▸ hd)
  have hpos := List.length_pos_iff.2 hne
  rw [heq, List.takeWhile_append_of_pos hfront, List.length_append] at hleft
  omega

end Text

namespace Expression

open Sql.Quoted

/-! ## Nested calls -/

/-- What a call starts with. -/
def opening (function : String) : List Char := function.toList ++ ['(']

/-- What a call ends with, its key among it. -/
def closing (key : String) : List Char := ',' :: ' ' :: (quoteChars key.toList ++ [')'])

/-- The openings of calls of one function. -/
def openings (function : String) (n : Nat) : List Char :=
  (List.replicate n (opening function)).flatten

/-- The closings of calls along a path. -/
def closings (path : List String) : List Char := path.flatMap closing

theorem toList_extract (function source key : String) :
    (extract function source key).toList
      = opening function ++ (source.toList ++ closing key) := by
  simp [extract, opening, closing, toList_quote]

theorem openings_add (function : String) (m n : Nat) :
    openings function (m + n) = openings function m ++ openings function n := by
  rw [openings, ← List.replicate_append_replicate, List.flatten_append]
  rfl

theorem openings_succ (function : String) (n : Nat) :
    openings function (n + 1) = openings function n ++ opening function := by
  rw [openings_add]
  simp [openings]

theorem mem_openings {function : String} {n : Nat} {c : Char} (h : c ∈ openings function n) :
    c ∈ opening function := by
  obtain ⟨cs, hcs, hc⟩ := List.mem_flatten.1 h
  exact List.eq_of_mem_replicate hcs ▸ hc

/-- Each key of a path opens one more call on the outside and is written at the end. -/
theorem toList_foldl_extract (function source : String) (path : List String) :
    (path.foldl (extract function) source).toList
      = openings function path.length ++ (source.toList ++ closings path) := by
  induction path generalizing source with
  | nil => simp [openings, closings]
  | cons key path ih =>
    rw [List.foldl_cons, ih, toList_extract, List.length_cons, openings_succ, closings, closings,
      List.flatMap_cons]
    simp only [List.append_assoc]

/-! ## What a text tells of its path -/

/-- A key is cut where its quote is closed. -/
theorem closing_append_inj {key key' : String} {rest rest' : List Char}
    (h : closing key ++ rest = closing key' ++ rest') : key = key' ∧ rest = rest' := by
  have hbodies : encode key.toList ++ '\'' :: ')' :: rest
      = encode key'.toList ++ '\'' :: ')' :: rest' := by
    simpa [closing, quoteChars] using h
  have hscan := congrArg scanBody hbodies
  rw [scanBody_encode, scanBody_encode, Option.some.injEq, Prod.mk.injEq,
    List.cons.injEq] at hscan
  obtain ⟨hkey, -, hrest⟩ := hscan
  exact ⟨String.toList_inj.1 (encode_injective hkey), hrest⟩

theorem closings_inj {p q : List String} (h : closings p = closings q) : p = q := by
  induction p generalizing q with
  | nil =>
    cases q with
    | nil => rfl
    | cons key q => cases h
  | cons key p ih =>
    cases q with
    | nil => cases h
    | cons key' q =>
      obtain ⟨rfl, hrest⟩ := closing_append_inj h
      rw [ih hrest]

/-- Two texts around one source have as many openings, since neither source can be taken for more of
them, and then the closings tell the path. -/
theorem eq_of_nested {function : String} (hcomma : ',' ∉ opening function) {m n : Nat}
    {source : List Char} {p q : List String} (hp : p ≠ []) (hq : q ≠ [])
    (h : openings function m ++ (source ++ closings p)
      = openings function n ++ (source ++ closings q)) : p = q := by
  wlog hle : m ≤ n generalizing m n p q
  · exact (this hq hp h.symm (Nat.le_of_not_le hle)).symm
  obtain ⟨d, rfl⟩ := Nat.exists_eq_add_of_le hle
  rw [openings_add, List.append_assoc, List.append_cancel_left_eq] at h
  cases d with
  | zero =>
    have hsame : source ++ closings p = source ++ closings q := h
    exact closings_inj (List.append_cancel_left hsame)
  | succ d =>
    obtain ⟨key, p, rfl⟩ := List.exists_cons_of_ne_nil hp
    have hfront : openings function (d + 1) ≠ [] := by
      simp [openings_succ, opening]
    exact absurd h (Text.append_cons_ne_append hfront (fun hc => hcomma (mem_openings hc)) _ _ _)

/-! ## Extraction along a path -/

variable {source : String} {path : List String}

theorem rawByPath_of_ne_nil (h : path ≠ []) :
    rawByPath source path = .ok (path.foldl extractRaw source) := by
  cases path with
  | nil => exact absurd rfl h
  | cons key path => rfl

theorem stringByPath_of_ne_nil (h : path ≠ []) : stringByPath source path
    = .ok (extractString (path.dropLast.foldl extractRaw source) (path.getLast h)) := by
  rw [stringByPath, List.getLast?_eq_some_getLast h]

/-- Behind the outermost call, the text of a string is one of raw calls around the same source, with
the closings of the whole path. -/
theorem toList_extractString_foldl (h : path ≠ []) :
    (extractString (path.dropLast.foldl extractRaw source) (path.getLast h)).toList
      = opening "JSONExtractString" ++ (openings "JSONExtractRaw" path.dropLast.length
        ++ (source.toList ++ closings path)) := by
  have hclosings : closings path = closings path.dropLast ++ closing (path.getLast h) := by
    conv_lhs => rw [← List.dropLast_concat_getLast h]
    simp [closings]
  rw [extractString, toList_extract, extractRaw, toList_foldl_extract, hclosings]
  simp only [List.append_assoc]

/-- An extraction that refuses the empty path and else writes raw calls around one source, behind a
fixed front, writes no two paths alike. -/
theorem injective_of_nested {extraction : List String → Except StatementError String}
    (front : List Char) (depth : List String → Nat)
    (hnil : extraction [] = .error .emptyKeyChain)
    (hnested : ∀ path, path ≠ [] → ∃ text, extraction path = .ok text ∧ text.toList
      = front ++ (openings "JSONExtractRaw" (depth path) ++ (source.toList ++ closings path))) :
    Function.Injective extraction := by
  have hcomma : ',' ∉ opening "JSONExtractRaw" := by decide +kernel
  intro p q h
  by_cases hp : p = []
  · by_cases hq : q = []
    · rw [hp, hq]
    · obtain ⟨text, htext, -⟩ := hnested q hq
      rw [hp, hnil, htext] at h
      cases h
  · obtain ⟨text, htext, hchars⟩ := hnested p hp
    by_cases hq : q = []
    · rw [hq, hnil, htext] at h
      cases h
    · obtain ⟨text', htext', hchars'⟩ := hnested q hq
      rw [htext, htext', Except.ok.injEq, ← String.toList_inj, hchars, hchars'] at h
      exact eq_of_nested hcomma hp hq (List.append_cancel_left h)

theorem rawByPath_injective (source : String) : Function.Injective (rawByPath source) :=
  injective_of_nested [] List.length rfl fun path h =>
    ⟨path.foldl extractRaw source, rawByPath_of_ne_nil h, toList_foldl_extract _ source path⟩

theorem stringByPath_injective (source : String) : Function.Injective (stringByPath source) :=
  injective_of_nested (opening "JSONExtractString") (fun path => path.dropLast.length) rfl
    fun _ h => ⟨_, stringByPath_of_ne_nil h, toList_extractString_foldl h⟩

/-- **Paths compose and are told by their texts.** What is at the end of two paths laid end to end
is at the end of the second one in the JSON text at the end of the first, be it read as JSON or as a
string, and no two paths from one source are written alike. -/
theorem paths_compose (source : String) :
    (∀ p q : List String, p ≠ [] → q ≠ [] → ∃ inner raw string,
      rawByPath source p = .ok inner ∧
      rawByPath inner q = .ok raw ∧ rawByPath source (p ++ q) = .ok raw ∧
      stringByPath inner q = .ok string ∧ stringByPath source (p ++ q) = .ok string) ∧
    Function.Injective (rawByPath source) ∧ Function.Injective (stringByPath source) := by
  refine ⟨fun p q hp hq => ?_, rawByPath_injective source, stringByPath_injective source⟩
  have hpq : p ++ q ≠ [] := List.append_ne_nil_of_left_ne_nil hp q
  refine ⟨_, _, _, rawByPath_of_ne_nil hp, rawByPath_of_ne_nil hq, ?_,
    stringByPath_of_ne_nil hq, ?_⟩
  · rw [rawByPath_of_ne_nil hpq, List.foldl_append]
  · rw [stringByPath_of_ne_nil hpq, List.dropLast_append_of_ne_nil hq, List.foldl_append,
      List.getLast_append_of_ne_nil hpq hq]

/-- A source that looks like an opening, and keys that look like what closes a call and opens the
next one. -/
theorem paths_compose_hostile :
    let source := "JSONExtractRaw(x"
    let p := ["a'), 'b", "\\"]
    let q := ["JSONExtractRaw(", "", "')"]
    p ≠ [] ∧ q ≠ [] ∧ ∃ inner raw string, rawByPath source p = .ok inner ∧
      rawByPath inner q = .ok raw ∧ rawByPath source (p ++ q) = .ok raw ∧
      stringByPath inner q = .ok string ∧ stringByPath source (p ++ q) = .ok string ∧
      rawByPath source p ≠ rawByPath source ["a", "b", "\\"] := by
  intro source p q
  have hp : p ≠ [] := List.cons_ne_nil _ _
  have hq : q ≠ [] := List.cons_ne_nil _ _
  obtain ⟨happend, hraw, -⟩ := paths_compose source
  obtain ⟨inner, raw, string, hinner, hq', hpq, hs, hps⟩ := happend p q hp hq
  have hother : p ≠ ["a", "b", "\\"] := by decide +kernel
  exact ⟨hp, hq, inner, raw, string, hinner, hq', hpq, hs, hps, fun heq => hother (hraw heq)⟩

end Expression

end Colonnade
