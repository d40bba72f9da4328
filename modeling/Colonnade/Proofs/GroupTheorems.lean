import Colonnade.Report.Query
import Mathlib.Data.List.Nodup

/-!
# The groups that count

Of a query, the steps that made it tell the declared groups, the selected entries and the excluded
names (`groups_ofSteps`, `selects_ofSteps`, `groupExclusions_ofSteps`). The groups that count are
the declared ones and then aliases of entries, as far as they are not excluded. `Extended` is what
holds while the entries are gone through: an entry is passed over only if its expression or its
alias is a group already, so that one of the two is a group for every entry that has an alias.
-/

namespace Colonnade.Report.Query

/-! ## What steps declare, select and exclude -/

/-- The group that a step declares. -/
def Step.declared : Step → List String
  | .group text => [text]
  | _ => []

/-- The entry that a step selects. -/
def Step.selected : Step → List String
  | .select text | .aggregate text => [text]
  | _ => []

/-- The names that a step keeps from being groups. -/
def Step.excluded : Step → List String
  | .groupExclusion name => [name]
  | .aggregate text => aggregateAlias text
  | _ => []

theorem groups_step (q : Query) (s : Step) : (q.step s).groups = q.groups ++ s.declared := by
  cases s <;> simp [step, Step.declared, compile]

theorem selects_step (q : Query) (s : Step) : (q.step s).selects = q.selects ++ s.selected := by
  cases s <;> simp [step, Step.selected, compile]

theorem groupExclusions_step (q : Query) (s : Step) :
    (q.step s).groupExclusions = q.groupExclusions ++ s.excluded := by
  cases s <;> simp [step, Step.excluded, compile]

/-- A list to which every step adds is what all of them add. -/
theorem list_ofSteps {list : Query → List String} {added : Step → List String}
    (hempty : list empty = []) (hstep : ∀ q s, list (q.step s) = list q ++ added s)
    (steps : List Step) : list (ofSteps steps) = steps.flatMap added := by
  suffices h : ∀ q, list (steps.foldl step q) = list q ++ steps.flatMap added by
    rw [ofSteps, h, hempty, List.nil_append]
  induction steps with
  | nil => simp
  | cons s steps ih =>
    intro q
    rw [List.foldl_cons, ih, hstep, List.flatMap_cons, List.append_assoc]

theorem groups_ofSteps (steps : List Step) :
    (ofSteps steps).groups = steps.flatMap Step.declared :=
  list_ofSteps rfl groups_step steps

theorem selects_ofSteps (steps : List Step) :
    (ofSteps steps).selects = steps.flatMap Step.selected :=
  list_ofSteps rfl selects_step steps

theorem groupExclusions_ofSteps (steps : List Step) :
    (ofSteps steps).groupExclusions = steps.flatMap Step.excluded :=
  list_ofSteps rfl groupExclusions_step steps

/-! ## Going through the entries -/

theorem nodup_eraseDups (texts : List String) : texts.eraseDups.Nodup := by
  cases texts with
  | nil => simp
  | cons s texts =>
    -- what follows the first text has lost every other occurrence of it
    rw [List.eraseDups_cons, List.nodup_cons]
    exact ⟨by simp, nodup_eraseDups (texts.filter fun t => !t == s)⟩
termination_by texts.length
decreasing_by exact Nat.lt_succ_of_le (List.length_filter_le _ _)

/-- An entry adds its alias, or adds nothing, and then no alias of it is missing. -/
theorem extendGroups_cases (groups : List String) (entry : String) :
    (extendGroups groups entry = groups ∧
      ∀ expression name, splitAlias? entry = some (expression, name) →
        expression ∈ groups ∨ name ∈ groups) ∨
    ∃ expression name, splitAlias? entry = some (expression, name) ∧ name ∉ groups ∧
      extendGroups groups entry = groups ++ [name] := by
  unfold extendGroups
  cases hsplit : splitAlias? entry with
  | none => simp
  | some p =>
    obtain ⟨expression, name⟩ := p
    by_cases hgrouped : expression ∈ groups ∨ name ∈ groups
    · left
      simp only [Bool.or_eq_true, List.contains_iff_mem, if_pos hgrouped, true_and]
      intro expression' name' heq
      cases heq
      exact hgrouped
    · right
      simp only [Bool.or_eq_true, List.contains_iff_mem, if_neg hgrouped]
      exact ⟨expression, name, rfl, fun hname => hgrouped (.inr hname), rfl⟩

/-- What groups are after entries: those declared and then aliases of entries, each once. -/
structure Extended (declared entries groups : List String) : Prop where
  nodup : groups.Nodup
  inferred : ∃ names, groups = declared ++ names ∧
    ∀ name ∈ names, ∃ entry ∈ entries, ∃ expression, splitAlias? entry = some (expression, name)
  complete : ∀ entry ∈ entries, ∀ expression name, splitAlias? entry = some (expression, name) →
    expression ∈ groups ∨ name ∈ groups

theorem extended_nil {declared : List String} (h : declared.Nodup) :
    Extended declared [] declared where
  nodup := h
  inferred := ⟨[], by simp⟩
  complete := by simp

theorem Extended.step {declared entries groups : List String} (h : Extended declared entries groups)
    (entry : String) : Extended declared (entries ++ [entry]) (extendGroups groups entry) := by
  obtain ⟨names, hnames, hinferred⟩ := h.inferred
  have hkept : ∀ name ∈ names, ∃ entry' ∈ entries ++ [entry], ∃ expression,
      splitAlias? entry' = some (expression, name) := by
    intro name hname
    obtain ⟨entry', hentry, hsplit⟩ := hinferred name hname
    exact ⟨entry', List.mem_append_left _ hentry, hsplit⟩
  rcases extendGroups_cases groups entry with
    ⟨heq, hcomplete⟩ | ⟨expression, name, hsplit, hnew, heq⟩
  · rw [heq]
    refine ⟨h.nodup, ⟨names, hnames, hkept⟩, ?_⟩
    exact List.forall_mem_append.2 ⟨h.complete, List.forall_mem_singleton.2 hcomplete⟩
  · rw [heq]
    refine ⟨?_, ⟨names ++ [name], ?_, ?_⟩, ?_⟩
    · rw [List.nodup_append]
      refine ⟨h.nodup, List.nodup_singleton name, fun a ha b hb hab => hnew ?_⟩
      rwa [← List.mem_singleton.1 hb, ← hab]
    · rw [hnames, List.append_assoc]
    · refine List.forall_mem_append.2 ⟨hkept, List.forall_mem_singleton.2 ?_⟩
      exact ⟨entry, List.mem_append_right _ (List.mem_singleton_self entry), expression, hsplit⟩
    · refine List.forall_mem_append.2 ⟨fun entry' hentry expression' name' hsplit' => ?_, ?_⟩
      · exact (h.complete entry' hentry expression' name' hsplit').imp
          (List.mem_append_left _) (List.mem_append_left _)
      · refine List.forall_mem_singleton.2 fun expression' name' hsplit' => .inr ?_
        rw [hsplit] at hsplit'
        cases hsplit'
        exact List.mem_append_right _ (List.mem_singleton_self name)

theorem Extended.foldl {declared before groups : List String} (h : Extended declared before groups)
    (entries : List String) :
    Extended declared (before ++ entries) (entries.foldl extendGroups groups) := by
  induction entries generalizing before groups with
  | nil => simpa using h
  | cons entry entries ih => simpa using ih (h.step entry)

/-! ## The groups that count -/

/-- The groups that are inferred from declared ones, selected entries and excluded names. -/
structure Inferred (declared entries excluded groups : List String) : Prop where
  nodup : groups.Nodup
  /-- No excluded name is a group. -/
  not_excluded : ∀ g ∈ groups, g ∉ excluded
  /-- The declared groups come first, in the order in which they were declared. What follows them
  are aliases. -/
  declared_first : ∃ names, groups = (unique declared).filter (· ∉ excluded) ++ names ∧
    ∀ name ∈ names, ∃ entry ∈ entries, ∃ expression, splitAlias? entry = some (expression, name)
  /-- If there is a declared group, every entry with an alias is grouped, unless it is excluded. -/
  complete : declared ≠ [] → ∀ entry ∈ entries, ∀ expression name,
    splitAlias? entry = some (expression, name) → expression ∉ excluded → name ∉ excluded →
      expression ∈ groups ∨ name ∈ groups
  /-- Without a declared group there is none. -/
  none_declared : declared = [] → groups = []

theorem effectiveGroups_of_nil {q : Query} (h : q.groups = []) : q.effectiveGroups = [] := by
  simp [effectiveGroups, h, unique]

theorem effectiveGroups_of_ne_nil {q : Query} (h : q.groups ≠ []) : q.effectiveGroups =
    ((unique q.selects).foldl extendGroups (unique q.groups)).filter (· ∉ q.groupExclusions) := by
  unfold effectiveGroups
  split
  · next hnone =>
    obtain ⟨g, hg⟩ := List.exists_mem_of_ne_nil _ h
    have hunique : g ∈ unique q.groups := List.mem_eraseDups.2 hg
    rw [hnone] at hunique
    cases hunique
  · simp

/-- A query infers its groups from what its fragments declare, select and exclude. -/
theorem inferred_effectiveGroups (q : Query) :
    Inferred q.groups q.selects q.groupExclusions q.effectiveGroups := by
  by_cases hdeclared : q.groups = []
  · rw [effectiveGroups_of_nil hdeclared]
    refine ⟨List.nodup_nil, by simp, ⟨[], by simp [hdeclared, unique]⟩, ?_, fun _ => rfl⟩
    exact fun hne => absurd hdeclared hne
  · have hextended := (extended_nil (nodup_eraseDups q.groups)).foldl (unique q.selects)
    obtain ⟨names, hnames, hinferred⟩ := hextended.inferred
    rw [effectiveGroups_of_ne_nil hdeclared]
    refine ⟨hextended.nodup.filter _, ?_, ⟨names.filter (· ∉ q.groupExclusions), ?_, ?_⟩, ?_, ?_⟩
    · intro g hg
      simpa using (List.mem_filter.1 hg).2
    · rw [← List.filter_append]
      exact congrArg _ hnames
    · intro name hname
      obtain ⟨entry, hentry, hsplit⟩ := hinferred name (List.mem_filter.1 hname).1
      exact ⟨entry, List.mem_eraseDups.1 hentry, hsplit⟩
    · intro _ entry hentry expression name hsplit hexpression hname
      -- the one of the two that is a group is not excluded, so it stays
      have hgrouped := hextended.complete entry (List.mem_eraseDups.2 hentry) expression name hsplit
      refine hgrouped.imp (fun h => ?_) (fun h => ?_)
      · exact List.mem_filter.2 ⟨h, by simpa using hexpression⟩
      · exact List.mem_filter.2 ⟨h, by simpa using hname⟩
    · exact fun hnone => absurd hnone hdeclared

/-- Steps infer the groups that count from the groups they declare, the entries they select and the
names they exclude, be it as the aliases of aggregates. -/
theorem effectiveGroups_inferred (steps : List Step) :
    Inferred (steps.flatMap Step.declared) (steps.flatMap Step.selected)
      (steps.flatMap Step.excluded) (ofSteps steps).effectiveGroups := by
  rw [← groups_ofSteps, ← selects_ofSteps, ← groupExclusions_ofSteps]
  exact inferred_effectiveGroups (ofSteps steps)

/-- Groups that a declared group or an alias stands in for, an excluded one among them, and a group
declared twice. -/
example :
    (ofSteps [.select "h.id AS hallId", .select "a as b", .select "b AS c",
      .aggregate "max(t) AS z", .group "h.id", .group "y", .group "h.id",
      .groupExclusion "y"]).effectiveGroups = ["h.id", "b"] := by
  decide +kernel

end Colonnade.Report.Query
