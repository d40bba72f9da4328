import Colonnade.Proofs.RunTheorems

/-!
# Histories

Runs up and down in any order, each with migrations of its own. What a history leaves in the ledger
is told by the ways that were done in it: `Tallies` relates the two, every visit preserves it
(`Fits.tallies`), and so do walks, runs and histories. A version is recorded at most once, and
exactly if the way that was done last is the way up.
-/

namespace Colonnade.Migration

open Store (Memory)

variable {W : Type}

/-! ## Ways that were done -/

/-- The ways of a version that were done, in their order. -/
def doneWays (version : String) (log : List Event) : List Direction :=
  log.filterMap fun
    | .went way v (.ok true) => if v = version then some way else none
    | _ => none

/-- The other way. -/
def Direction.other : Direction → Direction
  | .up => .down
  | .down => .up

/-- The ways alternate, the given one first. -/
def Alternates (first : Direction) : List Direction → Prop
  | [] => True
  | way :: ways => way = first ∧ Alternates first.other ways

theorem doneWays_append (version : String) (log more : List Event) :
    doneWays version (log ++ more) = doneWays version log ++ doneWays version more :=
  List.filterMap_append

/-- A way may follow another one, or be the first. -/
theorem Alternates.concat {first way : Direction} {ways : List Direction}
    (h : Alternates first ways) (hlast : ways.getLast?.getD first.other = way.other) :
    Alternates first (ways ++ [way]) := by
  induction ways generalizing first with
  | nil =>
    cases first <;> cases way <;> first | exact ⟨rfl, trivial⟩ | cases hlast
  | cons w ways ih =>
    obtain ⟨rfl, h⟩ := h
    refine ⟨rfl, ih h ?_⟩
    cases ways with
    | nil => cases w <;> exact hlast
    | cons v ways => exact hlast

/-! ## The ledger tells the ways that were done -/

/-- No version is recorded twice; a version is recorded if the way done last is the way up; and the
ways that were done alternate, the way up first. -/
structure Tallies (es : List Entry) (log : List Event) : Prop where
  nodup : (versionsOf es).Nodup
  recorded_iff : ∀ v, v ∈ versionsOf es ↔ (doneWays v log).getLast? = some .up
  alternates : ∀ v, Alternates .up (doneWays v log)

theorem tallies_nil : Tallies [] [] where
  nodup := List.nodup_nil
  recorded_iff _ := by simp [versionsOf, doneWays]
  alternates _ := trivial

/-- What was done last of a version that is to go a way is the other way, or nothing yet. -/
theorem Tallies.last_of_due {es : List Entry} {log : List Event} (h : Tallies es log)
    {way : Direction} {version : String} (hdue : way.Due version es) :
    (doneWays version log).getLast?.getD .down = way.other := by
  have hrecorded := h.recorded_iff version
  cases way with
  | up =>
    have hnot : version ∉ versionsOf es := by simpa [Direction.Due, Direction.found] using hdue
    cases hlast : (doneWays version log).getLast? with
    | none => rfl
    | some w =>
      cases w with
      | up => exact absurd (hrecorded.2 hlast) hnot
      | down => rfl
  | down =>
    have hin : version ∈ versionsOf es := by simpa [Direction.Due, Direction.found] using hdue
    rw [hrecorded.1 hin]
    rfl

theorem doneWays_events_of_ne {way : Direction} {version v : String} (visit : Visit)
    (hne : v ≠ version) : doneWays v (visit.events way version) = [] := by
  cases visit <;> simp [doneWays, Visit.events, Ne.symm hne]

/-- Events in which nothing is done change nothing. -/
theorem Tallies.append_quiet {es : List Entry} {log more : List Event} (h : Tallies es log)
    (hquiet : ∀ v, doneWays v more = []) : Tallies es (log ++ more) where
  nodup := h.nodup
  recorded_iff v := by rw [doneWays_append, hquiet, List.append_nil, h.recorded_iff]
  alternates v := by
    rw [doneWays_append, hquiet, List.append_nil]
    exact h.alternates v

theorem nodup_of_writes {way : Direction} {version : String} {es es' : List Entry}
    (h : (versionsOf es).Nodup) (hdue : way.Due version es) (hwrites : way.Writes version es es') :
    (versionsOf es').Nodup := by
  cases way with
  | up =>
    obtain ⟨e, rfl, rfl⟩ := hwrites
    have hnot : e.version ∉ versionsOf es := by simpa [Direction.Due, Direction.found] using hdue
    rw [versionsOf, List.map_append]
    exact List.nodup_append.2 ⟨h, List.pairwise_singleton _ _, fun v hv u hu => by
      rw [List.mem_singleton.1 hu]
      exact ne_of_mem_of_not_mem hv hnot⟩
  | down =>
    cases hwrites
    exact h.sublist (List.filter_sublist.map _)

theorem mem_of_writes {way : Direction} {version : String} {es es' : List Entry}
    (hwrites : way.Writes version es es') : version ∈ versionsOf es' ↔ way = .up := by
  cases way with
  | up =>
    obtain ⟨e, rfl, rfl⟩ := hwrites
    simp [versionsOf]
  | down =>
    cases hwrites
    simp [mem_versionsOf_without]

/-- A visit whose calls to the ledger are answered keeps the ledger telling the ways. -/
theorem Fits.tallies {ledger : Ledger (StateM W)} {way : Direction} {version : String}
    {body : Body (StateM W)} {visit : Visit} {es es' : List Entry} {log : List Event}
    (h : Fits ledger way version body es visit es') (hanswered : visit.answered = true)
    (htallies : Tallies es log) : Tallies es' (log ++ visit.events way version) := by
  cases h with
  | unwritten => cases hanswered
  | unknown | skipped | failed | declined =>
    exact htallies.append_quiet fun v => by simp [doneWays, Visit.events]
  | done hdue hwrites =>
    have hdone : doneWays version (Visit.done.events way version) = [way] := by
      simp [doneWays, Visit.events]
    refine ⟨nodup_of_writes htallies.nodup hdue hwrites, fun v => ?_, fun v => ?_⟩
    · rw [doneWays_append]
      by_cases hv : v = version
      · subst hv
        rw [hdone, List.getLast?_concat, Option.some_inj]
        exact mem_of_writes hwrites
      · rw [doneWays_events_of_ne .done hv, List.append_nil, hwrites.mem_iff_of_ne hv]
        exact htallies.recorded_iff v
    · rw [doneWays_append]
      by_cases hv : v = version
      · subst hv
        rw [hdone]
        exact (htallies.alternates v).concat (htallies.last_of_due hdue)
      · rw [doneWays_events_of_ne .done hv, List.append_nil]
        exact htallies.alternates v

/-- Walks keep the ledger telling the ways. -/
theorem Walk.tallies {ledger : Ledger (StateM W)} {way : Direction}
    {migrations : List (String × Body (StateM W))} {visits : List (String × Visit)}
    {es es' : List Entry} {log : List Event} (h : Walk ledger way migrations visits es es')
    (hanswered : ∀ v ∈ visits, v.2.answered = true) (htallies : Tallies es log) :
    Tallies es' (log ++ logOf way visits) := by
  induction h generalizing log with
  | nil es => simpa [logOf] using htallies
  | stop fits =>
    have h := fits.tallies (hanswered _ List.mem_cons_self) htallies
    simpa [logOf] using h
  | step fits _ _ ih =>
    have h := fits.tallies (hanswered _ List.mem_cons_self) htallies
    have h' := ih (fun v hv => hanswered v (List.mem_cons_of_mem _ hv)) h
    simpa [logOf] using h'

/-! ## Runs keep the tally -/

/-- Whatever the action writes down, and whether it fails: if all calls to the ledger are answered,
the ledger goes on telling the ways that were done. -/
def Accounts {α : Type} (entries : W → Option (List Entry))
    (x : ExceptT MigrationError (StateM (W × List Event)) α) : Prop :=
  ∀ w es log, entries w = some es → ∃ w' es' events,
    (perform x (w, log)).2 = (w', log ++ events) ∧ entries w' = some es' ∧
    ((∀ event ∈ events, event.refused = false) → Tallies es log → Tallies es' (log ++ events))

section Accounts

variable {entries : W → Option (List Entry)} {α β : Type}

theorem accounts_unseen {x : ExceptT MigrationError (StateM W) α} (h : Keeps entries x.run) :
    Accounts entries (unseen x) := by
  intro w es log hw
  exact ⟨(perform x w).2, es, [], by rw [perform_unseen, List.append_nil], h w es hw,
    fun _ htallies => by rwa [List.append_nil]⟩

theorem accounts_pure (a : α) :
    Accounts entries (pure a : ExceptT MigrationError (StateM (W × List Event)) α) :=
  accounts_unseen (keeps_pure a)

theorem accounts_throw (e : MigrationError) :
    Accounts entries (throw e : ExceptT MigrationError (StateM (W × List Event)) α) :=
  accounts_unseen (keeps_throw e)

theorem accounts_say {say : String → StateM W Unit} (hsay : ∀ line, Keeps entries (say line))
    (line : String) : Accounts entries
      (liftM (unseenSay say line) : ExceptT MigrationError (StateM (W × List Event)) Unit) :=
  accounts_unseen (x := liftM (say line)) (hsay line)

/-- Asking the ledger does nothing. -/
theorem accounts_looked {x : ExceptT MigrationError (StateM W) Bool} (h : Keeps entries x.run)
    (version : String) : Accounts entries (seen (.looked version) x) := by
  intro w es log hw
  exact ⟨(perform x w).2, es, [.looked version (perform x w).1], by rw [perform_seen], h w es hw,
    fun _ htallies => htallies.append_quiet fun v => rfl⟩

theorem Accounts.bind {x : ExceptT MigrationError (StateM (W × List Event)) α}
    {f : α → ExceptT MigrationError (StateM (W × List Event)) β} (hx : Accounts entries x)
    (hf : ∀ a, Accounts entries (f a)) : Accounts entries (x >>= f) := by
  intro w es log hw
  obtain ⟨w₁, es₁, events, hrun, hw₁, htallies⟩ := hx w es log hw
  rw [perform_bind, hrun]
  cases (perform x (w, log)).1 with
  | error e => exact ⟨w₁, es₁, events, rfl, hw₁, htallies⟩
  | ok a =>
    obtain ⟨w', es', more, hmore, hw', htallies'⟩ := hf a w₁ es₁ (log ++ events) hw₁
    rw [List.append_assoc] at hmore htallies'
    refine ⟨w', es', events ++ more, hmore, hw', fun hanswers h => ?_⟩
    rw [List.forall_mem_append] at hanswers
    exact htallies' hanswers.2 (htallies hanswers.1 h)

variable {ledger : Ledger (StateM W)} {say : String → StateM W Unit}

theorem accounts_goAll (hledger : ledger.Sound entries) (hsay : ∀ line, Keeps entries (say line))
    (way : Direction) {migrations : List (String × Body (StateM W))}
    (hbodies : ∀ e ∈ migrations, Keeps entries (e.2.go way).run) :
    Accounts entries (goAll way ledger.watched (unseenSay say)
      (migrations.map fun e => (e.1, e.2.watched e.1))) := by
  intro w es log hw
  obtain ⟨visits, w', es', hrun, hw', hwalk⟩ := walk_spec hledger hsay way hbodies hw log
  exact ⟨w', es', logOf way visits, congrArg Prod.snd hrun, hw', fun hanswers htallies =>
    hwalk.tallies (answered_of_logOf hanswers) htallies⟩

theorem accounts_runUp (hledger : ledger.Sound entries) (hsay : ∀ line, Keeps entries (say line))
    {migrations : NameMap (Body (StateM W))}
    (hbodies : ∀ e ∈ migrations.entries, Keeps entries (e.2.go .up).run) :
    Accounts entries (runUp ledger.watched (unseenSay say) (watchedAll migrations)) :=
  (accounts_unseen hledger.ensureReady).bind fun _ => accounts_goAll hledger hsay .up hbodies

theorem accounts_downTo (hledger : ledger.Sound entries) (hsay : ∀ line, Keeps entries (say line))
    {migrations : NameMap (Body (StateM W))}
    (hbodies : ∀ e ∈ migrations.entries, Keeps entries (e.2.go .down).run) (target : String) :
    Accounts entries (downTo ledger.watched (unseenSay say) (watchedAll migrations) target) := by
  have hasked : Accounts entries (isTarget ledger.watched (watchedAll migrations) target) := by
    unfold isTarget
    split
    · exact accounts_pure false
    · exact accounts_looked (hledger.isApplied target) target
  refine hasked.bind fun found => ?_
  cases found with
  | true =>
    rw [fromVersion_watchedAll]
    exact (accounts_goAll hledger hsay .down fun e he =>
      hbodies e (mem_of_mem_fromVersion he)).bind fun _ => accounts_say hsay _
  | false => exact accounts_throw _

theorem accounts_runDown (hledger : ledger.Sound entries) (hsay : ∀ line, Keeps entries (say line))
    {migrations : NameMap (Body (StateM W))}
    (hbodies : ∀ e ∈ migrations.entries, Keeps entries (e.2.go .down).run)
    (target : Option String) :
    Accounts entries (runDown ledger.watched (unseenSay say) (watchedAll migrations) target) := by
  cases target with
  | some version =>
    rw [runDown_some]
    exact (accounts_unseen hledger.ensureReady).bind fun _ =>
      accounts_downTo hledger hsay hbodies version
  | none =>
    rw [runDown_none]
    exact (accounts_unseen hledger.ensureReady).bind fun _ =>
      (accounts_unseen hledger.lastVersion).bind fun _ => accounts_downTo hledger hsay hbodies _

end Accounts

/-! ## Histories -/

/-- A run, up or down, with the migrations that are registered at its time. -/
inductive Invocation (W : Type) where
  | up (migrations : NameMap (Body (StateM W)))
  | down (migrations : NameMap (Body (StateM W))) (target : Option String)

namespace Invocation

/-- The migrations that are registered. -/
def migrations : Invocation W → NameMap (Body (StateM W))
  | up migrations | down migrations _ => migrations

/-- The run. -/
def run (ledger : Ledger (StateM W)) (say : String → StateM W Unit) :
    Invocation W → ExceptT MigrationError (StateM W) Unit
  | up migrations => runUp ledger say migrations
  | down migrations target => runDown ledger say migrations target

/-- The run with its calls written down. -/
def watched (ledger : Ledger (StateM W)) (say : String → StateM W Unit) :
    Invocation W → ExceptT MigrationError (StateM (W × List Event)) Unit
  | up migrations => runUp ledger.watched (unseenSay say) (watchedAll migrations)
  | down migrations target => runDown ledger.watched (unseenSay say) (watchedAll migrations) target

theorem shadows (ledger : Ledger (StateM W)) (say : String → StateM W Unit)
    (invocation : Invocation W) :
    Shadows (invocation.watched ledger say) (invocation.run ledger say) := by
  cases invocation with
  | up migrations => exact shadows_runUp ledger say migrations
  | down migrations target => exact shadows_runDown ledger say migrations target

end Invocation

/-- What a history of runs leaves, with the calls it made; a run that fails ends itself only. -/
def history (ledger : Ledger (StateM W)) (say : String → StateM W Unit) :
    List (Invocation W) → W × List Event → W × List Event
  | [], s => s
  | invocation :: rest, s =>
    history ledger say rest (perform (invocation.watched ledger say) s).2

/-- A history adds its calls to those before it. -/
theorem prefix_history (ledger : Ledger (StateM W)) (say : String → StateM W Unit)
    (invocations : List (Invocation W)) (s : W × List Event) :
    s.2 <+: (history ledger say invocations s).2 := by
  induction invocations generalizing s with
  | nil => exact List.prefix_rfl
  | cons invocation rest ih =>
    obtain ⟨events, hrun⟩ := invocation.shadows ledger say s.1 s.2
    refine List.IsPrefix.trans ?_ (ih _)
    rw [hrun]
    exact List.prefix_append _ _

/-- What a history of runs leaves. -/
def reached (ledger : Ledger (StateM W)) (say : String → StateM W Unit)
    (invocations : List (Invocation W)) (w : W) : W :=
  invocations.foldl (fun w invocation => (perform (invocation.run ledger say) w).2) w

theorem history_fst (ledger : Ledger (StateM W)) (say : String → StateM W Unit)
    (invocations : List (Invocation W)) (w : W) (log : List Event) :
    (history ledger say invocations (w, log)).1 = reached ledger say invocations w := by
  induction invocations generalizing w log with
  | nil => rfl
  | cons invocation rest ih =>
    obtain ⟨events, hrun⟩ := invocation.shadows ledger say w log
    rw [history, hrun]
    exact ih _ _

theorem tallies_history {ledger : Ledger (StateM W)} {entries : W → Option (List Entry)}
    {say : String → StateM W Unit} (hledger : ledger.Sound entries)
    (hsay : ∀ line, Keeps entries (say line)) {invocations : List (Invocation W)}
    (hbodies : ∀ invocation ∈ invocations, ∀ e ∈ invocation.migrations.entries, ∀ way,
      Keeps entries (e.2.go way).run) {w : W} {es : List Entry} {log : List Event}
    (hw : entries w = some es) (htallies : Tallies es log)
    (hanswers : ∀ event ∈ (history ledger say invocations (w, log)).2, event.refused = false) :
    ∃ es', entries (history ledger say invocations (w, log)).1 = some es' ∧
      Tallies es' (history ledger say invocations (w, log)).2 := by
  induction invocations generalizing w es log with
  | nil => exact ⟨es, hw, htallies⟩
  | cons invocation rest ih =>
    have hkeeps := hbodies invocation List.mem_cons_self
    have haccounts : Accounts entries (invocation.watched ledger say) := by
      cases invocation with
      | up migrations => exact accounts_runUp hledger hsay fun e he => hkeeps e he .up
      | down migrations target =>
        exact accounts_runDown hledger hsay (fun e he => hkeeps e he .down) target
    obtain ⟨w', es', events, hrun, hw', hnext⟩ := haccounts w es log hw
    rw [history, hrun] at hanswers ⊢
    have hearlier := prefix_history ledger say rest (w', log ++ events)
    refine ih (fun i hi => hbodies i (List.mem_cons_of_mem _ hi)) hw' (hnext ?_ htallies) hanswers
    exact fun event hevent =>
      hanswers event (hearlier.subset (List.mem_append_right log hevent))

/-- After every history that starts without rows and whose calls to the ledger are answered, every
version has at most one row, has one exactly if the way that was done last is the way up, and has
gone its ways alternately, up first. -/
theorem history_alternates {client : Client (StateM W)} {stamp : Stamp (StateM W)}
    {entries : W → Option (List Entry)} {say : String → StateM W Unit}
    (hclient : KeepsLedger client entries) (hstamp : stamp.Keeps entries)
    (hsay : ∀ line, Keeps entries (say line)) (invocations : List (Invocation W))
    (hbodies : ∀ invocation ∈ invocations, ∀ e ∈ invocation.migrations.entries, ∀ way,
      Keeps entries (e.2.go way).run) {w : W} (hw : entries w = some [])
    (hanswers : ∀ event ∈ (history (.ofClient client stamp) say invocations (w, [])).2,
      event.refused = false) :
    ∃ es, entries (reached (.ofClient client stamp) say invocations w) = some es ∧
      (versionsOf es).Nodup ∧
      ∀ v, let ways := doneWays v (history (.ofClient client stamp) say invocations (w, [])).2
        (v ∈ versionsOf es ↔ ways.getLast? = some .up) ∧ Alternates .up ways := by
  obtain ⟨es, hes, htallies⟩ :=
    tallies_history (hclient.sound hstamp) hsay hbodies hw tallies_nil hanswers
  rw [history_fst] at hes
  exact ⟨es, hes, htallies.nodup, fun v => ⟨htallies.recorded_iff v, htallies.alternates v⟩⟩

/-- A version goes up, and down again when it is registered alone; the other one is not done. -/
theorem history_alternates_declined :
    let stamp : Stamp (StateM Memory) := ⟨pure "id", pure 1000⟩
    let say : String → StateM Memory Unit := fun _ => pure ()
    let ledger := Ledger.ofClient Memory.client stamp
    let invocations := [.up (telling (.ofList [("V1", true, true), ("V2", false, true)])),
      .down (telling (.ofList [("V1", true, true)])) (some "V1")]
    let w := Memory.ofEntries []
    (∀ event ∈ (history ledger say invocations (w, [])).2, event.refused = false) ∧
      ∃ es, (reached ledger say invocations w).entries = some es ∧ (versionsOf es).Nodup ∧
        ∀ v, let ways := doneWays v (history ledger say invocations (w, [])).2
          (v ∈ versionsOf es ↔ ways.getLast? = some .up) ∧ Alternates .up ways := by
  intro stamp say ledger invocations w
  have hstamp : stamp.Keeps Memory.entries := ⟨fun _ _ h => h, fun _ _ h => h⟩
  have hsay : ∀ line, Keeps Memory.entries (say line) := fun _ _ _ h => h
  have hanswers : ∀ event ∈ (history ledger say invocations (w, [])).2,
      event.refused = false := by
    decide +kernel
  have hbodies : ∀ invocation ∈ invocations, ∀ e ∈ invocation.migrations.entries, ∀ way,
      Keeps Memory.entries (e.2.go way).run := by
    intro invocation h e he way
    simp only [invocations, List.mem_cons, List.not_mem_nil, or_false] at h
    rcases h with rfl | rfl <;> exact keeps_telling way e he
  exact ⟨hanswers, history_alternates Memory.keepsLedger_client hstamp hsay invocations hbodies
    (Memory.entries_ofEntries []) hanswers⟩

end Colonnade.Migration
