import Colonnade.Proofs.Visits

/-!
# Walks

`Walk` puts visits together: each version is visited with the rows that the one before it left, up
to the first that fails. `walk_spec` finds the walk of a run in what is watched of it; all that a
run does to its ledger, and in which order, is then read off the walk.
-/

namespace Colonnade.Migration

variable {W : Type}

/-! ## Visits one after the other -/

/-- The calls of visits. -/
def logOf (way : Direction) (visits : List (String × Visit)) : List Event :=
  visits.flatMap fun v => v.2.events way v.1

theorem answered_of_logOf {way : Direction} {visits : List (String × Visit)}
    (h : ∀ event ∈ logOf way visits, event.refused = false) :
    ∀ v ∈ visits, v.2.answered = true :=
  fun v hv => Visit.answered_of_events fun event hevent =>
    h event (List.mem_flatMap.2 ⟨v, hv, hevent⟩)

/-- What visits end with: the outcome of the first one that fails. -/
def outcomeOf (way : Direction) : List (String × Visit) → Except MigrationError Unit
  | [] => .ok ()
  | (version, visit) :: rest =>
    match visit.outcome way version with
    | .ok () => outcomeOf way rest
    | .error e => .error e

/-- Migrations are visited in their order, each with the rows that the one before it left, up to
the first that fails. -/
inductive Walk (ledger : Ledger (StateM W)) (way : Direction) :
    List (String × Body (StateM W)) → List (String × Visit) → List Entry → List Entry → Prop where
  | nil (es : List Entry) : Walk ledger way [] [] es es
  | stop {version : String} {body : Body (StateM W)} {rest : List (String × Body (StateM W))}
      {visit : Visit} {es es' : List Entry} (fits : Fits ledger way version body es visit es')
      (fails : visit.fails = true) :
    Walk ledger way ((version, body) :: rest) [(version, visit)] es es'
  | step {version : String} {body : Body (StateM W)} {rest : List (String × Body (StateM W))}
      {visit : Visit} {visits : List (String × Visit)} {es es₁ es' : List Entry}
      (fits : Fits ledger way version body es visit es₁) (succeeds : visit.fails = false)
      (onward : Walk ledger way rest visits es₁ es') :
    Walk ledger way ((version, body) :: rest) ((version, visit) :: visits) es es'

/-- What is watched of migrations that go a way is a walk. -/
theorem walk_spec {ledger : Ledger (StateM W)} {entries : W → Option (List Entry)}
    (h : ledger.Sound entries) {say : String → StateM W Unit}
    (hsay : ∀ line, Keeps entries (say line)) (way : Direction)
    {migrations : List (String × Body (StateM W))}
    (hbodies : ∀ e ∈ migrations, Keeps entries (e.2.go way).run) {w : W} {es : List Entry}
    (hw : entries w = some es) (log : List Event) :
    ∃ visits w' es',
      perform (goAll way ledger.watched (unseenSay say)
          (migrations.map fun e => (e.1, e.2.watched e.1))) (w, log)
        = (outcomeOf way visits, (w', log ++ logOf way visits)) ∧
      entries w' = some es' ∧ Walk ledger way migrations visits es es' := by
  induction migrations generalizing w es log with
  | nil =>
    rw [List.map_nil, goAll_nil]
    exact ⟨[], w, es, by simp [logOf, outcomeOf], hw, .nil es⟩
  | cons e rest ih =>
    obtain ⟨version, body⟩ := e
    have hbody := hbodies (version, body) List.mem_cons_self
    obtain ⟨visit, w₁, es₁, hrun, hw₁, hfits⟩ := visit_spec h hsay way version hbody hw log
    rw [List.map_cons, goAll_cons, perform_bind, hrun]
    cases hfails : visit.fails with
    | true =>
      obtain ⟨e, he⟩ := Visit.outcome_of_fails way version hfails
      exact ⟨[(version, visit)], w₁, es₁, by simp [logOf, outcomeOf, he], hw₁, .stop hfits hfails⟩
    | false =>
      obtain ⟨visits, w', es', hrest, hw', hwalk⟩ :=
        ih (fun e he => hbodies e (List.mem_cons_of_mem _ he)) hw₁ (log ++ visit.events way version)
      have hok := Visit.outcome_of_not_fails way version hfails
      refine ⟨(version, visit) :: visits, w', es', ?_, hw', .step hfits hfails hwalk⟩
      simp only [hok, hrest, outcomeOf, logOf, List.flatMap_cons, List.append_assoc]

/-! ## What a walk changes -/

/-- The versions whose way is done and written down. -/
def doneOf (visits : List (String × Visit)) : List String :=
  (visits.filter (·.2.succeeds)).map (·.1)

@[simp] theorem doneOf_nil : doneOf [] = [] := rfl

@[simp] theorem doneOf_cons_done (version : String) (visits : List (String × Visit)) :
    doneOf ((version, .done) :: visits) = version :: doneOf visits := rfl

theorem doneOf_cons_of_not_succeeds (version : String) {visit : Visit}
    (h : visit.succeeds = false) (visits : List (String × Visit)) :
    doneOf ((version, visit) :: visits) = doneOf visits := by
  simp [doneOf, h]

/-- The calls of a way in a log, with what they came to. -/
def callsOf (way : Direction) (log : List Event) : List (String × Except MigrationError Bool) :=
  log.filterMap fun
    | .went way' version answer => if way' = way then some (version, answer) else none
    | .looked _ _ | .noted _ _ _ => none

theorem callsOf_append (way : Direction) (log more : List Event) :
    callsOf way (log ++ more) = callsOf way log ++ callsOf way more :=
  List.filterMap_append

/-- The versions that are called are those whose visits go the way. -/
theorem versions_callsOf_logOf (way : Direction) (visits : List (String × Visit)) :
    (callsOf way (logOf way visits)).map (·.1) = (visits.filter (·.2.goes)).map (·.1) := by
  induction visits with
  | nil => rfl
  | cons v rest ih =>
    obtain ⟨version, visit⟩ := v
    rw [logOf, List.flatMap_cons, callsOf_append, List.map_append]
    change _ ++ (callsOf way (logOf way rest)).map (·.1) = _
    rw [ih]
    cases visit <;> simp [callsOf, Visit.events, Visit.goes]

section Walk

variable {ledger : Ledger (StateM W)} {way : Direction}
  {migrations : List (String × Body (StateM W))} {visits : List (String × Visit)}
  {es es' : List Entry}

/-- Migrations are visited from the first one on. -/
theorem Walk.versions_prefix (h : Walk ledger way migrations visits es es') :
    visits.map (·.1) <+: migrations.map (·.1) := by
  induction h with
  | nil => exact List.prefix_rfl
  | stop => simp
  | step _ _ _ ih => simpa using ih

/-- Each visit is the visit of a migration, with the rows of its time. -/
theorem Walk.fits_of_mem (h : Walk ledger way migrations visits es es') {v : String × Visit}
    (hv : v ∈ visits) : ∃ body es₁ es₂,
      (v.1, body) ∈ migrations ∧ Fits ledger way v.1 body es₁ v.2 es₂ := by
  induction h with
  | nil => cases hv
  | stop fits =>
    cases List.mem_singleton.1 hv
    exact ⟨_, _, _, List.mem_cons_self, fits⟩
  | step fits _ _ ih =>
    cases hv with
    | head => exact ⟨_, _, _, List.mem_cons_self, fits⟩
    | tail _ hv =>
      obtain ⟨body, es₁, es₂, hmem, hfits⟩ := ih hv
      exact ⟨body, es₁, es₂, List.mem_cons_of_mem _ hmem, hfits⟩

/-- Without a failure all of them are visited. -/
theorem Walk.versions_eq (h : Walk ledger way migrations visits es es')
    (hall : ∀ v ∈ visits, v.2.fails = false) : visits.map (·.1) = migrations.map (·.1) := by
  induction h with
  | nil => rfl
  | stop _ hfails => simp [hfails] at hall
  | step _ _ _ ih => simpa using ih fun v hv => hall v (List.mem_cons_of_mem _ hv)

/-- Only the last visit fails, if one does. -/
theorem Walk.dropLast_succeeds (h : Walk ledger way migrations visits es es') :
    ∀ v ∈ visits.dropLast, v.2.fails = false := by
  induction h with
  | nil | stop => simp
  | @step _ _ _ visit visits _ _ _ _ hfails onward ih =>
    cases visits with
    | nil => simp
    | cons v rest =>
      rw [List.dropLast_cons_cons]
      exact List.forall_mem_cons.2 ⟨hfails, ih⟩

theorem outcomeOf_eq_ok (way : Direction) (h : ∀ v ∈ visits, v.2.fails = false) :
    outcomeOf way visits = .ok () := by
  induction visits with
  | nil => rfl
  | cons v rest ih =>
    obtain ⟨hv, hrest⟩ := List.forall_mem_cons.1 h
    rw [outcomeOf, Visit.outcome_of_not_fails way _ hv]
    exact ih hrest

/-- A visit that fails decides what the walk ends with. -/
theorem Walk.outcome_of_fails (h : Walk ledger way migrations visits es es') {v : String × Visit}
    (hv : v ∈ visits) (hfails : v.2.fails = true) : outcomeOf way visits = v.2.outcome way v.1 := by
  induction h with
  | nil => cases hv
  | stop _ hstop =>
    rw [List.mem_singleton] at hv
    subst hv
    obtain ⟨e, he⟩ := Visit.outcome_of_fails way _ hstop
    rw [outcomeOf, he]
  | step _ hsucceeds _ ih =>
    cases hv with
    | head => rw [hsucceeds] at hfails; cases hfails
    | tail _ hv =>
      rw [outcomeOf, Visit.outcome_of_not_fails way _ hsucceeds]
      exact ih hv

/-- A walk ends well exactly if no visit fails. -/
theorem Walk.outcome_ok_iff (h : Walk ledger way migrations visits es es') :
    outcomeOf way visits = .ok () ↔ ∀ v ∈ visits, v.2.fails = false := by
  refine ⟨fun hok v hv => ?_, outcomeOf_eq_ok way⟩
  cases hfails : v.2.fails with
  | false => rfl
  | true =>
    obtain ⟨e, he⟩ := Visit.outcome_of_fails way v.1 hfails
    rw [h.outcome_of_fails hv hfails, he] at hok
    cases hok

/-- A walk that ends with a failure names the version of the visit that fails. -/
theorem Walk.outcome_named {entries : W → Option (List Entry)} (hledger : ledger.Sound entries)
    (hbodies : ∀ e ∈ migrations, Unnamed (e.2.go way))
    (h : Walk ledger way migrations visits es es') {v : String × Visit} (hv : v ∈ visits)
    (hfails : v.2.fails = true) :
    ∃ reason, outcomeOf way visits = .error (.execution v.1 reason) := by
  obtain ⟨body, es₁, es₂, hmem, hfits⟩ := h.fits_of_mem hv
  rw [h.outcome_of_fails hv hfails]
  exact hfits.outcome_named hledger (hbodies _ hmem) hfails

/-- The rows that a walk starts from tell which of the versions go the way. -/
theorem Walk.goes_iff (h : Walk ledger way migrations visits es es')
    (distinct : (migrations.map (·.1)).Nodup) {v : String × Visit} (hv : v ∈ visits)
    (known : v.2.isKnown = true) : v.2.goes = true ↔ way.Due v.1 es := by
  induction h with
  | nil => cases hv
  | stop fits =>
    rw [List.mem_singleton] at hv
    subst hv
    exact fits.goes_iff known
  | step fits _ onward ih =>
    obtain ⟨hnew, distinct⟩ := List.nodup_cons.1 distinct
    cases hv with
    | head => exact fits.goes_iff known
    | tail _ hv =>
      have hmem : v.1 ∈ _ := onward.versions_prefix.subset (List.mem_map_of_mem hv)
      rw [ih distinct hv, fits.due_iff_of_ne (ne_of_mem_of_not_mem hmem hnew)]

/-- On the way up the rows of the versions that are done are appended. -/
theorem Walk.rows_up (h : Walk ledger .up migrations visits es es') :
    ∃ added, es' = es ++ added ∧ versionsOf added = doneOf visits := by
  induction h with
  | nil es => exact ⟨[], (List.append_nil es).symm, rfl⟩
  | @stop version _ _ _ es _ fits hfails =>
    cases fits with
    | done | skipped => cases hfails
    | unknown | failed | declined | unwritten => exact ⟨[], (List.append_nil es).symm, rfl⟩
  | @step version _ _ _ visits _ _ _ fits hsucceeds _ ih =>
    obtain ⟨added, rfl, hadded⟩ := ih
    cases fits with
    | unknown | failed | declined | unwritten => cases hsucceeds
    | skipped => exact ⟨added, rfl, hadded⟩
    | done _ hes =>
      obtain ⟨e, rfl, rfl⟩ := hes
      exact ⟨e :: added, List.append_assoc .., congrArg (e.version :: ·) hadded⟩

/-- On the way down the rows of the versions that are done are removed. -/
theorem Walk.rows_down (h : Walk ledger .down migrations visits es es') :
    es' = es.filter fun e => e.version ∉ doneOf visits := by
  induction h with
  | nil es => exact (List.filter_eq_self.2 (by simp)).symm
  | stop fits hfails =>
    cases fits with
    | done | skipped => cases hfails
    | unknown | failed | declined | unwritten =>
      rw [doneOf_cons_of_not_succeeds _ rfl]
      exact (List.filter_eq_self.2 (by simp)).symm
  | step fits hsucceeds _ ih =>
    cases fits with
    | unknown | failed | declined | unwritten => cases hsucceeds
    | skipped => rw [ih, doneOf_cons_of_not_succeeds _ rfl]
    | done _ hes =>
      cases hes
      rw [ih, without, List.filter_filter, doneOf_cons_done]
      refine List.filter_congr fun e _ => ?_
      simp [Bool.and_comm]

/-- A visit that does not fail takes its version off those that are due. -/
theorem Fits.filter_due_cons {version : String} {body : Body (StateM W)} {visit : Visit}
    (h : Fits ledger way version body es visit es') (succeeds : visit.fails = false)
    {names : List String} (hnew : version ∉ names) :
    (version :: names).filter (fun v => decide (way.Due v es))
      = doneOf [(version, visit)] ++ names.filter (fun v => decide (way.Due v es')) := by
  have hrest : names.filter (fun v => decide (way.Due v es))
      = names.filter (fun v => decide (way.Due v es')) := by
    refine List.filter_congr fun v hv => decide_eq_decide.2 ?_
    exact (h.due_iff_of_ne (ne_of_mem_of_not_mem hv hnew)).symm
  rw [← hrest]
  cases h with
  | unknown | failed | declined | unwritten => cases succeeds
  | skipped hdue => rw [List.filter_cons_of_neg (by simpa using hdue)]; rfl
  | done hdue => rw [List.filter_cons_of_pos (by simpa using hdue)]; rfl

theorem callsOf_events_of_not_fails (way : Direction) (version : String) {visit : Visit}
    (h : visit.fails = false) : callsOf way (visit.events way version)
      = (doneOf [(version, visit)]).map fun v => (v, .ok true) := by
  cases visit with
  | unknown | failed | declined | unwritten => cases h
  | skipped => rfl
  | done => simp [callsOf, Visit.events]

theorem callsOf_logOf_cons (way : Direction) (version : String) (visit : Visit)
    (visits : List (String × Visit)) : callsOf way (logOf way ((version, visit) :: visits))
      = callsOf way (visit.events way version) ++ callsOf way (logOf way visits) :=
  callsOf_append way _ _

theorem doneOf_cons (v : String × Visit) (visits : List (String × Visit)) :
    doneOf (v :: visits) = doneOf [v] ++ doneOf visits := by
  simp [doneOf, List.filter_cons]
  split <;> simp

/-- Without a failure the versions that are due are all called, in their order, and are done. -/
theorem Walk.calls_of_succeeds (h : Walk ledger way migrations visits es es')
    (distinct : (migrations.map (·.1)).Nodup) (hall : ∀ v ∈ visits, v.2.fails = false) :
    (migrations.map (·.1)).filter (fun v => decide (way.Due v es)) = doneOf visits ∧
      callsOf way (logOf way visits) = (doneOf visits).map fun v => (v, .ok true) := by
  induction h with
  | nil => exact ⟨rfl, rfl⟩
  | stop _ hfails => simp [hfails] at hall
  | @step version _ _ visit visits _ _ _ fits succeeds _ ih =>
    obtain ⟨hnew, distinct⟩ := List.nodup_cons.1 distinct
    obtain ⟨hdue, hcalls⟩ := ih distinct fun v hv => hall v (List.mem_cons_of_mem _ hv)
    rw [doneOf_cons (version, visit) visits]
    constructor
    · rw [List.map_cons, fits.filter_due_cons succeeds hnew, hdue]
    · rw [callsOf_logOf_cons, callsOf_events_of_not_fails way _ succeeds, hcalls, List.map_append]

/-- Up to a failure the versions that are due are called, in their order, and are done. -/
theorem Walk.calls_of_fails (h : Walk ledger way migrations visits es es')
    (distinct : (migrations.map (·.1)).Nodup) (answered : ∀ v ∈ visits, v.2.answered = true)
    {version : String} {visit : Visit} (hv : (version, visit) ∈ visits)
    (hfails : visit.fails = true) :
    ∃ later answer, answer ≠ .ok true ∧
      (migrations.map (·.1)).filter (fun v => decide (way.Due v es))
        = doneOf visits ++ version :: later ∧
      callsOf way (logOf way visits)
        = (doneOf visits).map (fun v => (v, .ok true)) ++ [(version, answer)] := by
  induction h with
  | nil => cases hv
  | @stop u body rest _ es _ fits _ =>
    cases List.mem_singleton.1 hv
    have hanswered := answered _ List.mem_cons_self
    cases fits with
    | done | skipped => cases hfails
    | unknown | unwritten => cases hanswered
    | @failed _ e hdue =>
      refine ⟨_, .error e, by simp, List.filter_cons_of_pos (by simpa using hdue), ?_⟩
      simp [logOf, callsOf, Visit.events, doneOf, Visit.succeeds]
    | declined hdue =>
      refine ⟨_, .ok false, by simp, List.filter_cons_of_pos (by simpa using hdue), ?_⟩
      simp [logOf, callsOf, Visit.events, doneOf, Visit.succeeds]
  | @step u _ _ first visits _ _ _ fits succeeds _ ih =>
    obtain ⟨hnew, distinct⟩ := List.nodup_cons.1 distinct
    cases hv with
    | head => rw [succeeds] at hfails; cases hfails
    | tail _ hv =>
      obtain ⟨later, answer, hanswer, hdue, hcalls⟩ :=
        ih distinct (fun v hv => answered v (List.mem_cons_of_mem _ hv)) hv
      rw [doneOf_cons (u, first) visits]
      refine ⟨later, answer, hanswer, ?_, ?_⟩
      · rw [List.map_cons, fits.filter_due_cons succeeds hnew, hdue, List.append_assoc]
      · rw [callsOf_logOf_cons, callsOf_events_of_not_fails way _ succeeds, hcalls, List.map_append,
          List.append_assoc]

end Walk

end Colonnade.Migration
