import Colonnade.Proofs.GroupTheorems

/-!
# Fragments given again

Fragments are kept as often as they are given, and what is read of a query has each of them once.
Queries are `Alike` if nothing that is read of them tells them apart; steps keep them so. A step
says what it adds to each list and which list it empties first (`list_step`), and of these steps
only the one that sets the sorts empties any. So a fragment stays where it was put, adding it again
is adding what is there, and the query is like the one without it (`Has.alike`), now and after
whatever is given to it later.
-/

namespace Colonnade.Report.Query

/-! ## What is read of a query -/

/-- The lists that a query keeps. -/
inductive Place where
  | selects | joins | predicates | groups | groupExclusions | havings | sorts

/-- A list of a query, with each fragment as often as it was given. -/
def list (q : Query) : Place → List String
  | .selects => q.selects
  | .joins => q.joins
  | .predicates => q.predicates
  | .groups => q.groups
  | .groupExclusions => q.groupExclusions
  | .havings => q.havings
  | .sorts => q.sorts

/-- Everything that is read of a query. -/
structure Reading where
  source : String
  /-- The texts of each list, each once. -/
  lists : Place → List String
  effectiveGroups : List String
  text : String
  parameters : Params
  limit : Nat
  offset : Nat

/-- What is read of a query. -/
def reading (q : Query) : Reading where
  source := q.source
  lists p := unique (q.list p)
  effectiveGroups := q.effectiveGroups
  text := q.text
  parameters := q.parameters
  limit := q.limit
  offset := q.offset

/-! ## What a step adds -/

/-- The texts that a step adds to a list, if so many filters were compiled before. -/
def Step.added (compiled : Nat) (s : Step) : Place → List String
  | .selects => s.selected
  | .groups => s.declared
  | .groupExclusions => s.excluded
  | .joins => match s with
    | .join text => [text]
    | _ => []
  | .predicates => match s with
    | .predicate text => [text]
    | .filterPredicate column f like =>
      (Report.compile column f like (seedOf f.id (compiled + 1))).expressions
    | _ => []
  | .havings => match s with
    | .having text => [text]
    | .filterHaving column f like =>
      (Report.compile column f like (seedOf f.id (compiled + 1))).expressions
    | _ => []
  | .sorts => match s with
    | .sort text => [text]
    | .sortList texts => texts
    | _ => []

/-- Whether a step empties a list before it adds to it. -/
def Step.empties : Step → Place → Bool
  | .sortList _, .sorts => true
  | _, _ => false

/-- Whether a step gives one fragment, as a text. -/
def Step.isFragment : Step → Bool
  | .select _ | .aggregate _ | .join _ | .predicate _ | .group _ | .groupExclusion _ | .having _
  | .sort _ => true
  | .source _ | .sortList _ | .parameters _ | .limit _ | .offset _ | .filterPredicate ..
  | .filterHaving .. | .compile .. => false

/-- What a step does to the lists. -/
theorem list_step (q : Query) (s : Step) (p : Place) : (q.step s).list p =
    (if s.empties p then [] else q.list p) ++ s.added q.compiled p := by
  cases p with
  | selects => simp [list, selects_step, Step.added, Step.empties]
  | groups => simp [list, groups_step, Step.added, Step.empties]
  | groupExclusions => simp [list, groupExclusions_step, Step.added, Step.empties]
  | joins | predicates | havings | sorts =>
    cases s <;> simp [list, step, compile, Step.added, Step.empties]

/-- Only setting the sorts empties a list. -/
theorem empties_iff {s : Step} {p : Place} :
    s.empties p ↔ p = .sorts ∧ ∃ texts, s = .sortList texts := by
  cases s <;> cases p <;> simp [Step.empties]

/-- A fragment empties no list. -/
theorem empties_of_isFragment {s : Step} (h : s.isFragment) (p : Place) : s.empties p = false := by
  rw [Bool.eq_false_iff]
  intro hempties
  obtain ⟨-, texts, rfl⟩ := empties_iff.1 hempties
  cases h

/-- A fragment changes the lists and nothing else. -/
theorem step_of_isFragment (q : Query) {s : Step} (h : s.isFragment) :
    (q.step s).source = q.source ∧ (q.step s).parameters = q.parameters ∧
      (q.step s).limit = q.limit ∧ (q.step s).offset = q.offset ∧
      (q.step s).compiled = q.compiled := by
  cases s with
  | select | aggregate | join | predicate | group | groupExclusion | having | sort =>
    exact ⟨rfl, rfl, rfl, rfl, rfl⟩
  | _ => cases h

/-- A fragment is the same however many filters were compiled. -/
theorem added_of_isFragment {s : Step} (h : s.isFragment) (m n : Nat) : s.added m = s.added n := by
  funext p
  cases s with
  | select | aggregate | join | predicate | group | groupExclusion | having | sort =>
    cases p <;> rfl
  | _ => cases h

/-- Of the fragments, only those made to sort are added to the sorts. -/
theorem exists_of_added_sorts {s : Step} (h : s.isFragment) {n : Nat} (hadded : s.added n .sorts ≠ []) :
    ∃ text, s = .sort text := by
  cases s with
  | sort text => exact ⟨text, rfl⟩
  | sortList => cases h
  | _ => exact absurd rfl hadded

/-! ## Texts read once -/

section Unique

variable {texts texts' : List String}

theorem mem_iff_of_unique_eq (h : unique texts = unique texts') (t : String) :
    t ∈ texts ↔ t ∈ texts' := by
  rw [← List.mem_eraseDups, ← List.mem_eraseDups (l := texts')]
  exact iff_of_eq (congrArg (t ∈ ·) h)

theorem eq_nil_iff_of_unique_eq (h : unique texts = unique texts') : texts = [] ↔ texts' = [] := by
  simp only [List.eq_nil_iff_forall_not_mem, mem_iff_of_unique_eq h]

/-- What texts add to a list as it is read is told by the list as it is read. -/
theorem unique_append_congr (h : unique texts = unique texts') (added : List String) :
    unique (texts ++ added) = unique (texts' ++ added) := by
  have hadded : added.removeAll texts = added.removeAll texts' :=
    List.filter_congr fun t _ => by simp [mem_iff_of_unique_eq h]
  rw [unique, unique, List.eraseDups_append, List.eraseDups_append, hadded]
  exact congrArg (· ++ _) h

/-- Texts that a list has already add nothing to it as it is read. -/
theorem unique_append_of_subset {added : List String} (h : added ⊆ texts) :
    unique (texts ++ added) = unique texts := by
  have hadded : added.removeAll texts = [] :=
    List.filter_eq_nil_iff.2 fun t ht => by simp [h ht]
  rw [unique, List.eraseDups_append, hadded, List.eraseDups_nil, List.append_nil, unique]

end Unique

/-! ## Queries that are alike -/

/-- Nothing read of two queries tells them apart, and filters compile to the same in both. -/
structure Alike (q q' : Query) : Prop where
  source : q.source = q'.source
  lists : ∀ p, unique (q.list p) = unique (q'.list p)
  parameters : q.parameters = q'.parameters
  limit : q.limit = q'.limit
  offset : q.offset = q'.offset
  compiled : q.compiled = q'.compiled

namespace Alike

variable {q q' : Query}

theorem effectiveGroups (h : q.Alike q') : q.effectiveGroups = q'.effectiveGroups := by
  have hgroups : unique q.groups = unique q'.groups := h.lists .groups
  have hselects : unique q.selects = unique q'.selects := h.lists .selects
  have hexcluded : ∀ g, g ∈ q.groupExclusions ↔ g ∈ q'.groupExclusions :=
    mem_iff_of_unique_eq (h.lists .groupExclusions)
  have hnone : q.groups = [] ↔ q'.groups = [] := eq_nil_iff_of_unique_eq hgroups
  by_cases h₀ : q.groups = []
  · rw [effectiveGroups_of_nil h₀, effectiveGroups_of_nil (hnone.1 h₀)]
  · rw [effectiveGroups_of_ne_nil h₀, effectiveGroups_of_ne_nil (mt hnone.2 h₀), hgroups, hselects]
    exact List.filter_congr fun g _ => by simp [hexcluded g]

theorem text (h : q.Alike q') : q.text = q'.text := by
  have hselects : unique q.selects = unique q'.selects := h.lists .selects
  have hjoins : unique q.joins = unique q'.joins := h.lists .joins
  have hpredicates : unique q.predicates = unique q'.predicates := h.lists .predicates
  have hhavings : unique q.havings = unique q'.havings := h.lists .havings
  have hsorts : unique q.sorts = unique q'.sorts := h.lists .sorts
  have hclauses : q.clauses = q'.clauses := by
    rw [clauses, clauses, hselects, hjoins, hpredicates, hhavings, hsorts, h.effectiveGroups,
      h.source, h.limit, h.offset]
  rw [Query.text, Query.text, hclauses, h.source]
  simp only [eq_nil_iff_of_unique_eq hselects]

/-- Of queries that are alike, the same is read. -/
theorem reading (h : q.Alike q') : q.reading = q'.reading := by
  rw [Query.reading, Query.reading, h.source, h.effectiveGroups, h.text, h.parameters, h.limit,
    h.offset, funext h.lists]

/-- Queries that are alike stay so under a step. -/
theorem step (h : q.Alike q') (s : Step) : (q.step s).Alike (q'.step s) where
  source := by cases s <;> simp [Query.step, compile, h.source]
  lists p := by
    rw [list_step, list_step, h.compiled]
    refine unique_append_congr ?_ _
    split
    · rfl
    · exact h.lists p
  parameters := by cases s <;> simp [Query.step, compile, h.parameters, h.compiled]
  limit := by cases s <;> simp [Query.step, compile, h.limit]
  offset := by cases s <;> simp [Query.step, compile, h.offset]
  compiled := by cases s <;> simp [Query.step, compile, h.compiled]

/-- Queries that are alike stay so under all steps. -/
theorem foldl (h : q.Alike q') (steps : List Step) :
    (steps.foldl Query.step q).Alike (steps.foldl Query.step q') := by
  induction steps generalizing q q' with
  | nil => exact h
  | cons s steps ih => exact ih (h.step s)

end Alike

/-! ## Fragments that are there -/

/-- A query has what a step adds. -/
def Has (q : Query) (s : Step) : Prop := ∀ p, s.added q.compiled p ⊆ q.list p

/-- A step empties no list to which another adds. -/
def Step.Spares (t s : Step) : Prop := ∀ p, t.empties p → ∀ n, s.added n p = []

theorem has_step (q : Query) {s : Step} (hs : s.isFragment) : (q.step s).Has s := by
  intro p
  rw [list_step, added_of_isFragment hs _ q.compiled]
  exact List.subset_append_right _ _

theorem Has.step {q : Query} {s t : Step} (h : q.Has s) (hs : s.isFragment) (ht : t.Spares s) :
    (q.step t).Has s := by
  intro p
  by_cases hempties : t.empties p
  · rw [ht p hempties]
    exact List.nil_subset _
  · rw [list_step, if_neg hempties, added_of_isFragment hs _ q.compiled]
    exact List.subset_append_of_subset_left _ (h p)

/-- What a fragment added stays, as long as no step empties its lists. -/
theorem Has.foldl {q : Query} {s : Step} {steps : List Step} (h : q.Has s) (hs : s.isFragment)
    (hspares : ∀ t ∈ steps, t.Spares s) : (steps.foldl Query.step q).Has s := by
  induction steps generalizing q with
  | nil => exact h
  | cons t steps ih =>
    obtain ⟨ht, hsteps⟩ := List.forall_mem_cons.1 hspares
    exact ih (h.step hs ht) hsteps

/-- A fragment that a query has leaves it as it is, to all that is read of it. -/
theorem Has.alike {q : Query} {s : Step} (h : q.Has s) (hs : s.isFragment) :
    (q.step s).Alike q := by
  obtain ⟨hsource, hparameters, hlimit, hoffset, hcompiled⟩ := step_of_isFragment q hs
  refine ⟨hsource, fun p => ?_, hparameters, hlimit, hoffset, hcompiled⟩
  rw [list_step, empties_of_isFragment hs, if_neg Bool.false_ne_true]
  exact unique_append_of_subset (h p)

/-- Setting the sorts is all that a fragment is not spared, and only if it is made to sort. -/
theorem spares_of_sorts {s : Step} (hs : s.isFragment) {steps : List Step}
    (hsorts : ∀ text, s = .sort text → ∀ texts, .sortList texts ∉ steps) :
    ∀ t ∈ steps, t.Spares s := by
  intro t ht p hempties n
  obtain ⟨rfl, texts, rfl⟩ := empties_iff.1 hempties
  by_contra hadded
  obtain ⟨text, rfl⟩ := exists_of_added_sorts hs hadded
  exact hsorts text rfl texts ht

/-- A fragment that is given again changes nothing that is read of a query, and never will, whatever
is given later. A sort counts as given only if the sorts were not set since. -/
theorem reading_ofSteps_repeat (before between later : List Step) {s : Step} (hs : s.isFragment)
    (hsorts : ∀ text, s = .sort text → ∀ texts, .sortList texts ∉ between) :
    (ofSteps (before ++ s :: between ++ s :: later)).reading
      = (ofSteps (before ++ s :: between ++ later)).reading := by
  have hgiven : (ofSteps (before ++ s :: between)).Has s := by
    rw [ofSteps, List.foldl_append, List.foldl_cons]
    exact (has_step _ hs).foldl hs (spares_of_sorts hs hsorts)
  have halike := (hgiven.alike hs).foldl later
  rw [ofSteps, ← List.foldl_cons, ← List.foldl_append, ← List.foldl_append] at halike
  exact halike.reading

/-- A sort that is given before and after an aggregate whose alias it names and a sort that the set
ones contain. -/
theorem reading_ofSteps_repeat_alias :
    let before : List Step := [.source "gs", .group "h.id", .sortList ["h.id", "h.name"]]
    let between : List Step := [.select "h.name as hall", .aggregate "max(t) AS z", .sort "h.id"]
    let later : List Step := [.select "h.id AS hallId", .limit 5]
    let s : Step := .sort "z DESC"
    s.isFragment ∧ (∀ text, s = .sort text → ∀ texts, .sortList texts ∉ between) ∧
    (ofSteps (before ++ s :: between ++ s :: later)).reading
      = (ofSteps (before ++ s :: between ++ later)).reading ∧
    (ofSteps (before ++ s :: between ++ s :: later)).text =
      "SELECT h.name as hall, max(t) AS z, h.id AS hallId FROM gs GROUP BY h.id, hall" ++
        " ORDER BY h.id, h.name, z DESC LIMIT 5 OFFSET 0" := by
  intro before between later s
  have hsorts : ∀ text, s = .sort text → ∀ texts, .sortList texts ∉ between := by
    intro text _ texts
    simp [between]
  exact ⟨rfl, hsorts, reading_ofSteps_repeat before between later rfl hsorts, by decide +kernel⟩

/-- A sort that was dropped is not there to be given again. -/
example : (ofSteps [.sort "a", .sortList ["b"], .sort "a"]).reading.lists .sorts = ["b", "a"] := by
  decide +kernel

end Colonnade.Report.Query
