import Colonnade.Proofs.FilterTheorems

/-!
# Placeholders of one query

Whatever the identifiers of the filters are, the conditions that one query compiles share no
placeholder. A name tells the number of its compilation (`placeholder_injective`), and a query
numbers its compilations upwards. So a condition can only be given names that the query has not
used yet (`number_of_mem_compilations`), and no later step writes over what an earlier one has
put into the parameters (`get?_parameters_foldl`).
-/

namespace Colonnade.Report

open Sql (Token)

/-! ## Numbered names -/

/-- The name is a placeholder of the compilation of a number. -/
def NumberedName (number : Nat) (name : String) : Prop :=
  ∃ id, ∃ r : Role, name = seedOf id number ++ r.ending

namespace NumberedName

variable {number number' : Nat} {name : String}

theorem inj (h : NumberedName number name) (h' : NumberedName number' name) :
    number = number' := by
  obtain ⟨id, r, rfl⟩ := h
  obtain ⟨id', r', heq⟩ := h'
  exact (placeholder_injective heq).1

/-- A placeholder is a letter or an underscore, and then letters, digits and underscores. -/
theorem readable (h : NumberedName number name) : (Token.placeholder name.toList).Readable := by
  obtain ⟨id, r, rfl⟩ := h
  exact readable_placeholder id number r

end NumberedName

/-- The names of a compiled condition have the number of its seed. -/
theorem numberedName_of_mem_compile {column : String} {f : FilterField} {like : Bool}
    {number : Nat} {name : String}
    (h : name ∈ (Report.compile column f like (seedOf f.id number)).placeholders.names) :
    NumberedName number name := by
  rw [Report.compile, NameMap.mem_names_ofList, List.map_map] at h
  obtain ⟨c, -, rfl⟩ := List.mem_map.1 h
  exact ⟨f.id, c.role, rfl⟩

namespace Query

/-! ## Compilations -/

/-- The condition that a step compiles. -/
def Step.condition? (q : Query) : Step → Option Condition
  | .filterPredicate column f like | .filterHaving column f like | .compile column f like =>
    some (q.compile column f like).1
  | _ => none

/-- Whether a step adds the condition that it compiles. -/
def Step.adds : Step → Bool
  | .filterPredicate .. | .filterHaving .. => true
  | _ => false

/-- The steps that compile a condition, each with the condition. -/
def compilations (q : Query) : List Step → List (Step × Condition)
  | [] => []
  | s :: rest => ((s.condition? q).map (s, ·)).toList ++ compilations (q.step s) rest

variable {q : Query} {s : Step} {c : Condition} {name : String} {v : Value}

theorem number_of_condition? (h : s.condition? q = some c) (hname : name ∈ c.placeholders.names) :
    NumberedName (q.compiled + 1) name := by
  cases s with
  | filterPredicate | filterHaving | compile =>
    cases h
    exact numberedName_of_mem_compile hname
  | _ => cases h

theorem length_condition? (q : Query) (s : Step) :
    (s.condition? q).toList.length = s.compiles := by
  cases s <;> rfl

theorem compiled_le_step (q : Query) (s : Step) : q.compiled ≤ (q.step s).compiled := by
  rw [compiled_step]
  exact Nat.le_add_right _ _

theorem compiled_step_of_condition? (h : s.condition? q = some c) :
    (q.step s).compiled = q.compiled + 1 := by
  rw [compiled_step, ← length_condition? q, h]
  rfl

/-- The names of the conditions that are compiled from a query on have numbers behind those it has
given. -/
theorem number_of_mem_compilations {steps : List Step} {e : Step × Condition}
    (h : e ∈ compilations q steps) (hname : name ∈ e.2.placeholders.names) :
    ∃ number, q.compiled < number ∧ NumberedName number name := by
  induction steps generalizing q with
  | nil => cases h
  | cons s steps ih =>
    rcases List.mem_append.1 h with hfirst | hlater
    · obtain ⟨c, hc, rfl⟩ := Option.map_eq_some_iff.1 (Option.mem_toList.1 hfirst)
      exact ⟨q.compiled + 1, Nat.lt_succ_self _, number_of_condition? hc hname⟩
    · obtain ⟨number, hnumber, hnamed⟩ := ih hlater
      exact ⟨number, Nat.lt_of_le_of_lt (compiled_le_step q s) hnumber, hnamed⟩

/-- As many conditions are compiled as the query counts. -/
theorem compiled_foldl (q : Query) (steps : List Step) :
    (steps.foldl step q).compiled = q.compiled + (compilations q steps).length := by
  induction steps generalizing q with
  | nil => rfl
  | cons s steps ih =>
    have hlength : ((s.condition? q).map (s, ·)).toList.length = s.compiles := by
      rw [← length_condition? q, Option.length_toList, Option.length_toList, Option.isSome_map]
    rw [List.foldl_cons, ih, compiled_step, compilations, List.length_append, hlength,
      Nat.add_assoc]

/-- The conditions that one query compiles have no placeholder in common. -/
theorem pairwise_compilations (q : Query) (steps : List Step) :
    (compilations q steps).Pairwise fun a b =>
      a.2.placeholders.names.Disjoint b.2.placeholders.names := by
  induction steps generalizing q with
  | nil => exact .nil
  | cons s steps ih =>
    rw [compilations]
    cases hs : s.condition? q with
    | none => exact ih (q.step s)
    | some c =>
      refine List.pairwise_cons.2 ⟨fun e he name hname hname' => ?_, ih (q.step s)⟩
      obtain ⟨number, hnumber, hnamed⟩ := number_of_mem_compilations he hname'
      have heq := (number_of_condition? hs hname).inj hnamed
      rw [compiled_step_of_condition? hs] at hnumber
      omega

/-! ## What the parameters hold -/

/-- A step that adds its condition gives the placeholders in it their values. -/
theorem get?_parameters_of_adds (hc : s.condition? q = some c) (hadds : s.adds = true)
    (hv : c.placeholders.get? name = some v) : (q.step s).parameters.get? name = some v := by
  have hnew : (q.parameters.overwriteWith c.placeholders).get? name = some v := by
    rw [NameMap.get?_overwriteWith, hv, Option.some_or]
  cases s with
  | filterPredicate | filterHaving =>
    cases hc
    exact hnew
  | _ => cases hadds

/-- What the parameters hold under a number that was given is not touched by a step, unless it
writes parameters itself. -/
theorem get?_parameters_step {number : Nat} (hnamed : NumberedName number name)
    (hnumber : number ≤ q.compiled) (hdirect : ∀ params, s ≠ .parameters params) :
    (q.step s).parameters.get? name = q.parameters.get? name := by
  have hnew (column : String) (f : FilterField) (like : Bool) :
      (q.parameters.overwriteWith (q.compile column f like).1.placeholders).get? name
        = q.parameters.get? name := by
    rw [NameMap.get?_overwriteWith]
    cases hget : (q.compile column f like).1.placeholders.get? name with
    | none => rfl
    | some v =>
      have heq := hnamed.inj (numberedName_of_mem_compile (NameMap.mem_names_of_get? hget))
      omega
  cases s with
  | filterPredicate column f like | filterHaving column f like => exact hnew column f like
  | parameters params => exact absurd rfl (hdirect params)
  | _ => rfl

theorem get?_parameters_foldl {number : Nat} (hnamed : NumberedName number name)
    (hnumber : number ≤ q.compiled) {steps : List Step}
    (hdirect : ∀ params, .parameters params ∉ steps) :
    (steps.foldl step q).parameters.get? name = q.parameters.get? name := by
  induction steps generalizing q with
  | nil => rfl
  | cons s steps ih =>
    have hs : ∀ params, s ≠ .parameters params := fun params heq =>
      hdirect params (heq ▸ List.mem_cons_self)
    rw [List.foldl_cons, ih (Nat.le_trans hnumber (compiled_le_step q s)) fun params hmem =>
      hdirect params (List.mem_cons_of_mem s hmem)]
    exact get?_parameters_step hnamed hnumber hs

/-- What was added stays in the parameters. -/
theorem get?_parameters_of_mem_compilations {steps : List Step}
    (hdirect : ∀ params, .parameters params ∉ steps) {e : Step × Condition}
    (he : e ∈ compilations q steps) (hadds : e.1.adds = true)
    (hv : e.2.placeholders.get? name = some v) :
    (steps.foldl step q).parameters.get? name = some v := by
  induction steps generalizing q with
  | nil => cases he
  | cons s steps ih =>
    have hdirect' : ∀ params, .parameters params ∉ steps := fun params hmem =>
      hdirect params (List.mem_cons_of_mem s hmem)
    rcases List.mem_append.1 he with hfirst | hlater
    · obtain ⟨c, hc, rfl⟩ := Option.map_eq_some_iff.1 (Option.mem_toList.1 hfirst)
      have hnamed := number_of_condition? hc (NameMap.mem_names_of_get? hv)
      have hnumber := Nat.le_of_eq (compiled_step_of_condition? hc).symm
      rw [List.foldl_cons, get?_parameters_foldl hnamed hnumber hdirect']
      exact get?_parameters_of_adds hc hadds hv
    · exact ih hdirect' hlater

/-- The placeholders that a query gives by steps are its own. -/
structure PlaceholdersUnique (q : Query) (steps : List Step) : Prop where
  /-- Two compilations have no placeholder in common. -/
  disjoint : (compilations q steps).Pairwise fun a b =>
    a.2.placeholders.names.Disjoint b.2.placeholders.names
  /-- Each of them is a letter or an underscore, and then letters, digits and underscores. -/
  names : ∀ e ∈ compilations q steps, ∀ name ∈ e.2.placeholders.names,
    (Token.placeholder name.toList).Readable
  /-- In the end the parameters hold the values of every condition that was added. -/
  kept : ∀ e ∈ compilations q steps, e.1.adds = true → ∀ name v,
    e.2.placeholders.get? name = some v → (steps.foldl step q).parameters.get? name = some v
  /-- The number of the last seed is the number of compilations. -/
  counted : (steps.foldl step q).compiled = q.compiled + (compilations q steps).length

/-- **Placeholders are unique to a query.** Filters of whatever identifiers are compiled to
conditions without a placeholder in common, and the parameters keep the values of all that were
added, as long as no other parameters are written. -/
theorem placeholders_unique (q : Query) (steps : List Step)
    (hdirect : ∀ params, .parameters params ∉ steps) : q.PlaceholdersUnique steps where
  disjoint := pairwise_compilations q steps
  names e he name hname := by
    obtain ⟨number, -, hnamed⟩ := number_of_mem_compilations he hname
    exact hnamed.readable
  kept _ he hadds _ _ hv := get?_parameters_of_mem_compilations hdirect he hadds hv
  counted := compiled_foldl q steps

/-- Identifiers that have the same stem, and one that ends as another does with its number. -/
theorem placeholders_unique_lookalikes :
    let steps : List Step := [.filterPredicate "a" { id := "x_1", value := "1" } false,
      .compile "a" { id := "x-1", values := ["2", "3"], equal := "4" } true, .limit 5,
      .filterHaving "b" { id := "x", value := "5", less := "6" } true,
      .filterPredicate "b" { id := "1_2_value", value := "7" } false,
      .filterPredicate "c" { id := "", great := "8" } false]
    (∀ params, .parameters params ∉ steps) ∧ empty.PlaceholdersUnique steps := by
  intro steps
  have hdirect : ∀ params, .parameters params ∉ steps := by
    simp [steps]
  exact ⟨hdirect, placeholders_unique empty steps hdirect⟩

end Query

end Colonnade.Report
