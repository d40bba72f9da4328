import Colonnade.Proofs.MemoryLedger
import Colonnade.Proofs.Walks

/-!
# Runs are exact

What a whole run does, under any failure of the store: which versions it visits, which ways it
goes, which rows it leaves and what it ends with. `RunsUp` and `RunsDown` put it together; the rest
is read off the walk that a run is (`runUp_spec`, `runDown_spec`).
-/

namespace Colonnade.Migration

open Store (Interruption Memory)

variable {W : Type}

/-! ## Runs as walks -/

section Runs

variable {ledger : Ledger (StateM W)} {entries : W → Option (List Entry)}
  {say : String → StateM W Unit}

theorem mem_of_mem_fromVersion {migrations : NameMap (Body (StateM W))} {target : String}
    {e : String × Body (StateM W)} (h : e ∈ fromVersion target migrations) :
    e ∈ migrations.entries :=
  List.mem_reverse.1 (List.mem_of_mem_filter h)

/-- Once the ledger is ready, a run up is a walk over all migrations. -/
theorem runUp_spec (h : ledger.Sound entries) (hsay : ∀ line, Keeps entries (say line))
    {migrations : NameMap (Body (StateM W))}
    (hbodies : ∀ e ∈ migrations.entries, Keeps entries e.2.up.run) {w : W} {es : List Entry}
    (hw : entries w = some es) (hready : (perform ledger.ensureReady w).1 = .ok ())
    (log : List Event) :
    ∃ visits w' es',
      perform (runUp ledger.watched (unseenSay say) (watchedAll migrations)) (w, log)
        = (outcomeOf .up visits, (w', log ++ logOf .up visits)) ∧
      entries w' = some es' ∧ Walk ledger .up migrations.entries visits es es' := by
  have hw₁ := h.ensureReady w es hw
  have hrun : runUp ledger.watched (unseenSay say) (watchedAll migrations)
      = unseen ledger.ensureReady >>= fun _ => goAll .up ledger.watched (unseenSay say)
          (migrations.entries.map fun e => (e.1, e.2.watched e.1)) := rfl
  rw [hrun, perform_bind, perform_unseen, hready]
  exact walk_spec h hsay .up hbodies hw₁ log

/-- A version without a name or a migration is no target; of others the ledger tells. -/
theorem perform_isTarget_watched (migrations : NameMap (Body (StateM W))) (target : String) (w : W)
    (log : List Event) :
    perform (isTarget ledger.watched (watchedAll migrations) target) (w, log) =
      if target.isEmpty || !migrations.contains target then (.ok false, (w, log))
      else ((perform (ledger.isApplied target) w).1, ((perform (ledger.isApplied target) w).2,
        log ++ [.looked target (perform (ledger.isApplied target) w).1])) := by
  rw [isTarget, contains_watchedAll, isApplied_watched]
  split
  · rfl
  · rfl

/-- From a version that is applied on, rolling back is a walk over the migrations from it on. -/
theorem downTo_spec (h : ledger.Sound entries) (hsay : ∀ line, Keeps entries (say line))
    {migrations : NameMap (Body (StateM W))}
    (hbodies : ∀ e ∈ migrations.entries, Keeps entries e.2.down.run) {w : W} {es : List Entry}
    (hw : entries w = some es) {target : String}
    (hnamed : (target.isEmpty || !migrations.contains target) = false)
    (happlied : (perform (ledger.isApplied target) w).1 = .ok true) (log : List Event) :
    ∃ visits w' es',
      perform (downTo ledger.watched (unseenSay say) (watchedAll migrations) target) (w, log)
        = (outcomeOf .down visits, (w', log ++ .looked target (.ok true) :: logOf .down visits)) ∧
      entries w' = some es' ∧
      Walk ledger .down (fromVersion target migrations) visits es es' := by
  have hw₁ : entries (perform (ledger.isApplied target) w).2 = some es :=
    h.isApplied target w es hw
  have htarget : perform (isTarget ledger.watched (watchedAll migrations) target) (w, log)
      = (.ok true, ((perform (ledger.isApplied target) w).2,
        log ++ [.looked target (.ok true)])) := by
    rw [perform_isTarget_watched, hnamed, happlied]
    rfl
  have hfrom : ∀ e ∈ fromVersion target migrations, Keeps entries (e.2.go .down).run :=
    fun e he => hbodies e (mem_of_mem_fromVersion he)
  obtain ⟨visits, w', es', hrun, hw', hwalk⟩ :=
    walk_spec h hsay .down hfrom hw₁ (log ++ [.looked target (.ok true)])
  rw [List.append_assoc] at hrun
  rw [downTo, perform_bind, htarget]
  change ∃ visits w' es', perform (goAll .down ledger.watched (unseenSay say)
      (fromVersion target (watchedAll migrations)) >>= fun _ => liftM (unseenSay say _))
    ((perform (ledger.isApplied target) w).2, log ++ [.looked target (.ok true)]) = _ ∧ _
  rw [fromVersion_watchedAll, perform_bind, hrun]
  cases hok : outcomeOf .down visits with
  | error e => exact ⟨visits, w', es', by rw [hok]; rfl, hw', hwalk⟩
  | ok _ => exact ⟨visits, _, es', by rw [hok]; rfl, hsay _ w' es' hw', hwalk⟩

theorem perform_runDown_some (migrations : NameMap (Body (StateM W))) (target : String) {w : W}
    (hready : (perform ledger.ensureReady w).1 = .ok ()) (log : List Event) :
    perform (runDown ledger.watched (unseenSay say) (watchedAll migrations) (some target)) (w, log)
      = perform (downTo ledger.watched (unseenSay say) (watchedAll migrations) target)
          ((perform ledger.ensureReady w).2, log) := by
  have hunseen : ledger.watched.ensureReady = unseen ledger.ensureReady := rfl
  rw [runDown_some, perform_bind, hunseen, perform_unseen, hready]

/-- Once the ledger is ready and answers, a run down to a version that is applied is a walk. -/
theorem runDown_spec (h : ledger.Sound entries) (hsay : ∀ line, Keeps entries (say line))
    {migrations : NameMap (Body (StateM W))}
    (hbodies : ∀ e ∈ migrations.entries, Keeps entries e.2.down.run) {w : W} {es : List Entry}
    (hw : entries w = some es) (hready : (perform ledger.ensureReady w).1 = .ok ())
    {target : String} (hname : target ≠ "") (hregistered : target ∈ migrations.names)
    (happlied : target ∈ versionsOf es)
    (hanswers : ∀ event ∈ (perform (runDown ledger.watched (unseenSay say)
      (watchedAll migrations) (some target)) (w, [])).2.2, event.refused = false) :
    ∃ visits w' es',
      perform (runDown ledger.watched (unseenSay say) (watchedAll migrations) (some target)) (w, [])
        = (outcomeOf .down visits, (w', .looked target (.ok true) :: logOf .down visits)) ∧
      entries w' = some es' ∧
      Walk ledger .down (fromVersion target migrations) visits es es' := by
  have hw₁ : entries (perform ledger.ensureReady w).2 = some es := h.ensureReady w es hw
  have hnamed : (target.isEmpty || !migrations.contains target) = false := by
    rw [NameMap.contains_iff_mem_names.2 hregistered, Bool.not_true, Bool.or_false]
    simpa using hname
  rw [perform_runDown_some migrations target hready] at hanswers ⊢
  refine downTo_spec h hsay hbodies hw₁ hnamed ?_ []
  cases hfound : (perform (ledger.isApplied target) (perform ledger.ensureReady w).2).1 with
  | ok found => rw [h.isApplied_eq hw₁ hfound, decide_eq_true happlied]
  | error e =>
    -- a lookup that fails is in the log
    rw [downTo, perform_bind, perform_isTarget_watched, hnamed, hfound] at hanswers
    exact absurd (hanswers _ List.mem_cons_self) (by simp [Event.refused])

end Runs

/-- A migration that changes nothing and tells what it is given to tell. -/
def Body.telling {m : Type → Type} [Monad m] (up down : Bool) : Body m := ⟨pure up, pure down⟩

/-- Migrations that tell what they are given to tell. -/
def telling {m : Type → Type} [Monad m] (answers : NameMap (Bool × Bool)) : NameMap (Body m) :=
  answers.map fun a => .telling a.1 a.2

theorem keeps_telling {entries : W → Option (List Entry)} {answers : NameMap (Bool × Bool)}
    (way : Direction) : ∀ e ∈ (telling answers).entries, Keeps entries (e.2.go way).run := by
  intro e he
  obtain ⟨a, -, rfl⟩ := List.mem_map.1 he
  cases way <;> exact keeps_pure _

theorem unnamed_telling {answers : NameMap (Bool × Bool)} (way : Direction) :
    ∀ e ∈ (telling (m := StateM W) answers).entries, Unnamed (e.2.go way) := by
  intro e he
  obtain ⟨a, -, rfl⟩ := List.mem_map.1 he
  cases way <;> exact fun _ _ _ h => nomatch h

/-! ## Up -/

/-- What a run up does: the visits it makes, the rows it adds, the world it leaves. -/
structure RunsUp (ledger : Ledger (StateM W)) (say : String → StateM W Unit)
    (entries : W → Option (List Entry)) (migrations : NameMap (Body (StateM W))) (w : W)
    (es : List Entry) (visits : List (String × Visit)) (added : List Entry) (w' : W) : Prop where
  /-- The visits decide what the run ends with. -/
  run : perform (runUp ledger say migrations) w = (outcomeOf .up visits, w')
  /-- The calls of the run are those of its visits. -/
  watched : perform (runUp ledger.watched (unseenSay say) (watchedAll migrations)) (w, [])
    = (outcomeOf .up visits, (w', logOf .up visits))
  /-- Versions are visited from the first on, ascending. -/
  inOrder : visits.map (·.1) <+: migrations.names ∧ (visits.map (·.1)).Pairwise (· < ·)
  /-- Of the versions visited those go up, each once, that the ledger tells not to hold. -/
  called : (callsOf .up (logOf .up visits)).map (·.1)
    = (visits.filter fun v => v.2.isKnown && decide (v.1 ∉ versionsOf es)).map (·.1)
  /-- Nothing comes after a failure. -/
  stops : ∀ v ∈ visits.dropLast, v.2.fails = false
  /-- Without a failure every version is visited. -/
  complete : (∀ v ∈ visits, v.2.fails = false) → visits.map (·.1) = migrations.names
  /-- The ledger keeps its rows and gets those of the versions that are done and recorded. -/
  rows : entries w' = some (es ++ added) ∧ versionsOf added = doneOf visits
  /-- The run ends well exactly if no visit fails. -/
  ok_iff : outcomeOf .up visits = .ok () ↔ ∀ v ∈ visits, v.2.fails = false
  /-- Otherwise it names the version of the visit that fails. -/
  named : ∀ v ∈ visits, v.2.fails = true →
    ∃ reason, outcomeOf .up visits = .error (.execution v.1 reason)

theorem Walk.called_up {ledger : Ledger (StateM W)} {migrations : List (String × Body (StateM W))}
    {visits : List (String × Visit)} {es es' : List Entry}
    (h : Walk ledger .up migrations visits es es') (distinct : (migrations.map (·.1)).Nodup) :
    (callsOf .up (logOf .up visits)).map (·.1)
      = (visits.filter fun v => v.2.isKnown && decide (v.1 ∉ versionsOf es)).map (·.1) := by
  rw [versions_callsOf_logOf]
  refine congrArg (List.map _) (List.filter_congr fun v hv => ?_)
  cases hknown : v.2.isKnown with
  | false =>
    cases hvisit : v.2 with
    | unknown e => rfl
    | _ => rw [hvisit] at hknown; cases hknown
  | true =>
    rw [Bool.true_and, Bool.eq_iff_iff, h.goes_iff distinct hv hknown, decide_eq_true_eq]
    exact decide_eq_false_iff_not

/-- A run up is exact, whichever calls to the ledger fail and whatever the ways up do. -/
theorem runUp_exact {client : Client (StateM W)} {stamp : Stamp (StateM W)}
    {entries : W → Option (List Entry)} {say : String → StateM W Unit}
    (hclient : KeepsLedger client entries) (hstamp : stamp.Keeps entries)
    (hsay : ∀ line, Keeps entries (say line)) (migrations : NameMap (Body (StateM W)))
    (hkeeps : ∀ e ∈ migrations.entries, Keeps entries e.2.up.run)
    (hunnamed : ∀ e ∈ migrations.entries, Unnamed e.2.up) {w : W} {es : List Entry}
    (hw : entries w = some es) (hready : (perform (Ledger.makeReady client) w).1 = .ok ()) :
    ∃ visits added w',
      RunsUp (.ofClient client stamp) say entries migrations w es visits added w' := by
  have hledger := hclient.sound hstamp
  obtain ⟨visits, w', es', hrun, hw', hwalk⟩ := runUp_spec hledger hsay hkeeps hw hready []
  obtain ⟨added, rfl, hadded⟩ := hwalk.rows_up
  obtain ⟨events, hshadow⟩ := shadows_runUp (.ofClient client stamp) say migrations w []
  rw [List.nil_append] at hrun
  rw [hrun] at hshadow
  obtain ⟨houtcome, hworld, -⟩ := by simpa only [Prod.mk.injEq] using hshadow
  exact ⟨visits, added, w', {
    run := Prod.ext houtcome.symm hworld.symm
    watched := hrun
    inOrder := ⟨hwalk.versions_prefix,
      (List.pairwise_map.2 migrations.ascending).sublist hwalk.versions_prefix.sublist⟩
    called := hwalk.called_up (migrations.names_nodup)
    stops := hwalk.dropLast_succeeds
    complete := hwalk.versions_eq
    rows := ⟨hw', hadded⟩
    ok_iff := hwalk.outcome_ok_iff
    named := fun _ hv hfails => hwalk.outcome_named hledger hunnamed hv hfails }⟩

/-- One of four versions is recorded. The third is not done, or else the insert of the second is
made to fail, or its lookup. -/
theorem runUp_exact_interrupted :
    let say := Rehearsal.context.say
    let migrations : NameMap (Body Rehearsal.Play) := telling (.ofList
      [("V1", true, true), ("V2", true, true), ("V3", false, true), ("V4", true, true)])
    let es : List Entry := [⟨"a", 900, "V1"⟩]
    let lost := StoreError.connection "closed"
    let world (waiting : List Interruption) : Rehearsal :=
      { memory := Memory.ofEntries es, interruptions := waiting }
    let Ready (w : Rehearsal) := w.entries = some es ∧
      (perform (Ledger.makeReady Rehearsal.client) w).1 = .ok ()
    let Fails (w : Rehearsal) (version reason : String) := Ready w ∧
      (perform (runUp Rehearsal.ledger say migrations) w).1 = .error (.execution version reason) ∧
      ∃ visits added w',
        RunsUp Rehearsal.ledger say Rehearsal.entries migrations w es visits added w'
    Fails (world []) "V3" "up() reported failure" ∧
      Fails (world [⟨.insert, 0, .failure lost⟩]) "V2" (storeFailure lost).message ∧
      Fails (world [⟨.select, 1, .failure lost⟩]) "V2" (storeFailure lost).message := by
  intro say migrations es lost world Ready Fails
  let stamp : Stamp Rehearsal.Play := ⟨return (← get).identifier, return (← get).now⟩
  have hstamp : stamp.Keeps Rehearsal.entries := ⟨fun _ _ h => h, fun _ _ h => h⟩
  have hsay : ∀ line, Keeps Rehearsal.entries (say line) := fun _ _ _ h => h
  have hexact {w : Rehearsal} (hw : Ready w) : ∃ visits added w',
      RunsUp Rehearsal.ledger say Rehearsal.entries migrations w es visits added w' :=
    runUp_exact Rehearsal.keepsLedger_client hstamp hsay migrations (keeps_telling .up)
      (unnamed_telling .up) hw.1 hw.2
  have hdeclined : Ready (world []) := by decide +kernel
  have hinsert : Ready (world [⟨.insert, 0, .failure lost⟩]) := by decide +kernel
  have hlookup : Ready (world [⟨.select, 1, .failure lost⟩]) := by decide +kernel
  exact ⟨⟨hdeclined, by decide +kernel, hexact hdeclined⟩,
    ⟨hinsert, by decide +kernel, hexact hinsert⟩, hlookup, by decide +kernel, hexact hlookup⟩

/-! ## Down -/

/-- The versions that a rollback to a version is about: registered, applied and not before it, the
last one first. -/
def rollback {α : Type} (migrations : NameMap α) (es : List Entry) (target : String) :
    List String :=
  (migrations.names.filter fun v => decide (target ≤ v) && decide (v ∈ versionsOf es)).reverse

theorem filter_due_fromVersion (migrations : NameMap (Body (StateM W))) (es : List Entry)
    (target : String) :
    ((fromVersion target migrations).map (·.1)).filter (fun v => decide (Direction.down.Due v es))
      = rollback migrations es target := by
  have hnames : (fromVersion target migrations).map (·.1)
      = migrations.names.reverse.filter fun v => decide (target ≤ v) := by
    rw [fromVersion, NameMap.names, ← List.map_reverse, List.filter_map]
    rfl
  rw [hnames, List.filter_filter, rollback, ← List.filter_reverse]
  refine List.filter_congr fun v _ => ?_
  rw [Bool.and_comm]
  simp [Direction.Due, Direction.found]

theorem fromVersion_nodup (migrations : NameMap (Body (StateM W))) (target : String) :
    ((fromVersion target migrations).map (·.1)).Nodup := by
  have hsub : (fromVersion target migrations).map (·.1) |>.Sublist migrations.names.reverse := by
    rw [NameMap.names, ← List.map_reverse]
    exact List.filter_sublist.map _
  exact (List.pairwise_reverse.2 ((migrations.names_nodup).imp Ne.symm)).sublist hsub

theorem rollback_descending {α : Type} (migrations : NameMap α) (es : List Entry)
    (target : String) : (rollback migrations es target).Pairwise fun a b => b < a := by
  rw [rollback, List.pairwise_reverse]
  exact (List.pairwise_map.2 migrations.ascending).filter _

/-- How calls of versions end: all of them are done and all is well; or the next one is called and
is not done, and the failure names it. -/
def Ended (done rest : List String) (outcome : Except MigrationError Unit)
    (calls : List (String × Except MigrationError Bool)) : Prop :=
  (rest = [] ∧ outcome = .ok () ∧ calls = done.map fun v => (v, .ok true)) ∨
    ∃ version later answer reason, rest = version :: later ∧ answer ≠ .ok true ∧
      outcome = .error (.execution version reason) ∧
      calls = done.map (fun v => (v, .ok true)) ++ [(version, answer)]

/-- A rollback whose calls to the ledger are answered calls the versions that are due until one is
not done. -/
theorem Walk.ended {ledger : Ledger (StateM W)} {entries : W → Option (List Entry)}
    (hledger : ledger.Sound entries) {migrations : List (String × Body (StateM W))}
    (hunnamed : ∀ e ∈ migrations, Unnamed e.2.down) (distinct : (migrations.map (·.1)).Nodup)
    {visits : List (String × Visit)} {es es' : List Entry}
    (h : Walk ledger .down migrations visits es es')
    (answered : ∀ v ∈ visits, v.2.answered = true) : ∃ rest,
      (migrations.map (·.1)).filter (fun v => decide (Direction.down.Due v es))
        = doneOf visits ++ rest ∧
      Ended (doneOf visits) rest (outcomeOf .down visits) (callsOf .down (logOf .down visits)) := by
  cases hfails : visits.find? (·.2.fails) with
  | none =>
    have hall : ∀ v ∈ visits, v.2.fails = false := fun v hv => by
      simpa using List.find?_eq_none.1 hfails v hv
    obtain ⟨hdue, hcalls⟩ := h.calls_of_succeeds distinct hall
    exact ⟨[], by rw [hdue, List.append_nil], .inl ⟨rfl, outcomeOf_eq_ok .down hall, hcalls⟩⟩
  | some v =>
    have hv := List.mem_of_find?_eq_some hfails
    have hv' : v.2.fails = true := by simpa using List.find?_some hfails
    obtain ⟨later, answer, hanswer, hdue, hcalls⟩ := h.calls_of_fails distinct answered hv hv'
    obtain ⟨reason, houtcome⟩ := h.outcome_named hledger hunnamed hv hv'
    exact ⟨v.1 :: later, hdue, .inr ⟨v.1, later, answer, reason, rfl, hanswer, houtcome, hcalls⟩⟩

/-- What a run down to a version does: the versions it rolls back, those it does not come to, what
it ends with, the world it leaves and its calls. -/
structure RunsDown (ledger : Ledger (StateM W)) (say : String → StateM W Unit)
    (entries : W → Option (List Entry)) (migrations : NameMap (Body (StateM W))) (w : W)
    (es : List Entry) (target : String) (done rest : List String)
    (outcome : Except MigrationError Unit) (w' : W) (log : List Event) : Prop where
  run : perform (runDown ledger say migrations (some target)) w = (outcome, w')
  watched : perform (runDown ledger.watched (unseenSay say) (watchedAll migrations) (some target))
    (w, []) = (outcome, (w', log))
  due : rollback migrations es target = done ++ rest
  called : Ended done rest outcome (callsOf .down log)
  /-- The ledger loses the rows of the versions that are done. -/
  rows : entries w' = some (es.filter fun e => e.version ∉ done)
  /-- The rows that are safe: of versions that are not registered, before the target, or not after
  the one that fails. -/
  kept : ∀ e ∈ es, (e.version ∉ migrations.names ∨ e.version < target ∨
      ∃ version, rest.head? = some version ∧ e.version ≤ version) →
    e ∈ es.filter fun e => e.version ∉ done

theorem not_mem_of_rollback {α : Type} {migrations : NameMap α} {es : List Entry}
    {target v : String} {done rest : List String}
    (hdue : rollback migrations es target = done ++ rest)
    (h : v ∉ migrations.names ∨ v < target ∨ ∃ version, rest.head? = some version ∧ v ≤ version) :
    v ∉ done := by
  intro hv
  have hmem : v ∈ rollback migrations es target := hdue ▸ List.mem_append_left _ hv
  rw [rollback, List.mem_reverse, List.mem_filter, Bool.and_eq_true, decide_eq_true_eq] at hmem
  obtain ⟨hregistered, htarget, -⟩ := hmem
  rcases h with hnot | hbefore | ⟨version, hhead, hle⟩
  · exact hnot hregistered
  · exact String.not_lt.2 htarget hbefore
  · have hdescending := rollback_descending migrations es target
    rw [hdue, List.pairwise_append] at hdescending
    have hafter := hdescending.2.2 v hv version (List.mem_of_mem_head? hhead)
    exact String.not_lt.2 hle hafter

/-- A run down to a version is exact, whatever the ways down do. -/
theorem runDown_exact {client : Client (StateM W)} {stamp : Stamp (StateM W)}
    {entries : W → Option (List Entry)} {say : String → StateM W Unit}
    (hclient : KeepsLedger client entries) (hstamp : stamp.Keeps entries)
    (hsay : ∀ line, Keeps entries (say line)) (migrations : NameMap (Body (StateM W)))
    (hkeeps : ∀ e ∈ migrations.entries, Keeps entries e.2.down.run)
    (hunnamed : ∀ e ∈ migrations.entries, Unnamed e.2.down) {w : W} {es : List Entry}
    (hw : entries w = some es) (hready : (perform (Ledger.makeReady client) w).1 = .ok ())
    {target : String} (hname : target ≠ "") (hregistered : target ∈ migrations.names)
    (happlied : target ∈ versionsOf es)
    (hanswers : ∀ event ∈ (perform (runDown (Ledger.ofClient client stamp).watched (unseenSay say)
      (watchedAll migrations) (some target)) (w, [])).2.2, event.refused = false) :
    ∃ done rest outcome w' log, RunsDown (.ofClient client stamp) say entries migrations w es
      target done rest outcome w' log := by
  have hledger := hclient.sound hstamp
  obtain ⟨visits, w', es', hrun, hw', hwalk⟩ :=
    runDown_spec hledger hsay hkeeps hw hready hname hregistered happlied hanswers
  obtain ⟨events, hshadow⟩ :=
    shadows_runDown (.ofClient client stamp) say migrations (some target) w []
  rw [hrun] at hshadow hanswers
  obtain ⟨houtcome, hworld, -⟩ := by simpa only [Prod.mk.injEq] using hshadow
  have hanswered := answered_of_logOf fun event hevent =>
    hanswers event (List.mem_cons_of_mem _ hevent)
  have hrows := hwalk.rows_down
  obtain ⟨rest, hdue, hcalled⟩ := hwalk.ended hledger
    (fun e he => hunnamed e (mem_of_mem_fromVersion he))
    (fromVersion_nodup migrations target) hanswered
  rw [filter_due_fromVersion] at hdue
  exact ⟨doneOf visits, rest, outcomeOf .down visits, w', _, {
    run := Prod.ext houtcome.symm hworld.symm
    watched := hrun
    due := hdue
    called := hcalled
    rows := hrows ▸ hw'
    kept := fun e he hsafe =>
      List.mem_filter.2 ⟨he, decide_eq_true (not_mem_of_rollback hdue hsafe)⟩ }⟩

/-- Of four versions recorded one is before the target and one is not registered; of the others the
later one is done and the target is not. -/
theorem runDown_exact_declined :
    let stamp : Stamp (StateM Memory) := ⟨pure "id", pure 1000⟩
    let say : String → StateM Memory Unit := fun _ => pure ()
    let migrations : NameMap (Body (StateM Memory)) := telling (.ofList
      [("V1", true, true), ("V2", true, false), ("V3", true, true)])
    let es : List Entry := [⟨"a", 1, "V1"⟩, ⟨"b", 2, "V2"⟩, ⟨"c", 3, "V3"⟩, ⟨"d", 4, "V4"⟩]
    let ledger := Ledger.ofClient Memory.client stamp
    (perform (Ledger.makeReady Memory.client) (Memory.ofEntries es)).1 = .ok () ∧
      "V2" ∈ migrations.names ∧ "V2" ∈ versionsOf es ∧
      (∀ event ∈ (perform (runDown ledger.watched (unseenSay say) (watchedAll migrations)
        (some "V2")) (Memory.ofEntries es, [])).2.2, event.refused = false) ∧
      ∃ done rest outcome w' log, RunsDown ledger say Memory.entries migrations
        (Memory.ofEntries es) es "V2" done rest outcome w' log := by
  intro stamp say migrations es ledger
  have hready : (perform (Ledger.makeReady Memory.client) (Memory.ofEntries es)).1 = .ok () :=
    Memory.makeReady_clientOf (fun _ _ => rfl) _
  have hstamp : stamp.Keeps Memory.entries := ⟨fun _ _ h => h, fun _ _ h => h⟩
  have hsay : ∀ line, Keeps Memory.entries (say line) := fun _ _ _ h => h
  have hregistered : "V2" ∈ migrations.names := by decide +kernel
  have happlied : "V2" ∈ versionsOf es := by decide
  have hanswers : ∀ event ∈ (perform (runDown ledger.watched (unseenSay say)
      (watchedAll migrations) (some "V2")) (Memory.ofEntries es, [])).2.2,
      event.refused = false := by
    decide +kernel
  exact ⟨hready, hregistered, happlied, hanswers,
    runDown_exact Memory.keepsLedger_client hstamp hsay migrations (keeps_telling .down)
      (unnamed_telling .down) (Memory.entries_ofEntries es) hready (by decide) hregistered happlied
      hanswers⟩

end Colonnade.Migration
