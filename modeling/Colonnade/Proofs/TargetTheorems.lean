import Colonnade.Proofs.DiscoveryTheorems
import Colonnade.Proofs.RunTheorems

/-!
# Targets of a rollback

A run down to a version refuses it exactly if it has no name, is not registered or is not applied.
A version without a name is one that a file `.up.sql` makes: it goes up like any other, and there is
no way back.

A refusal is where a run down stops before it has begun: no migration is called, and the world is
the one in which the ledger is ready, but for the lookup of the version.
-/

namespace Colonnade.Migration

open Store (Memory)

variable {W : Type}

/-! ## Versions of files -/

/-- The versions of a directory are what stands before the ending of a file with a way up. -/
theorem mem_versions_migrationsAmong {directory version : String} {files : List String} :
    version ∈ (migrationsAmong directory files).map (·.version) ↔ version ++ upEnding ∈ files := by
  have hversion : (fun f : SqlFile => f.version) ∘ SqlFile.ofVersion directory files = id := rfl
  rw [migrationsAmong_eq, List.map_map, hversion, List.map_id, mem_names_filesEnding]

/-! ## Refusals -/

theorem MigrationError.within_ne_rollbackTarget (version target : String) (e : MigrationError) :
    e.within version ≠ .rollbackTarget target := by
  intro h
  cases e <;> cases h

section Refusals

variable {ledger : Ledger (StateM W)} {say : String → StateM W Unit}

/-- A migration that is not done names its version: no target is refused for it. -/
theorem goAll_ne_rollbackTarget (way : Direction) (migrations : List (String × Body (StateM W)))
    (target : String) (w : W) :
    (perform (goAll way ledger say migrations) w).1 ≠ .error (.rollbackTarget target) := by
  induction migrations generalizing w with
  | nil =>
    rw [goAll_nil]
    intro h
    cases h
  | cons e rest ih =>
    rw [goAll_cons, perform_bind, perform_naming]
    cases (perform (goOne way ledger say e.1 e.2) w).1 with
    | ok _ => exact ih _
    | error err =>
      exact fun h => MigrationError.within_ne_rollbackTarget e.1 target err (Except.error.inj h)

/-- A version that is no target is refused, in the world in which that is known. -/
theorem perform_downTo_of_not_target {migrations : NameMap (Body (StateM W))} {target : String}
    {w w' : W} (h : perform (isTarget ledger migrations target) w = (.ok false, w')) :
    perform (downTo ledger say migrations target) w = (.error (.rollbackTarget target), w') := by
  rw [downTo, perform_bind, h]
  rfl

/-- A version that is a target is not refused, however the rollback ends. -/
theorem downTo_ne_rollbackTarget {migrations : NameMap (Body (StateM W))} {target : String} {w : W}
    (h : (perform (isTarget ledger migrations target) w).1 = .ok true) (version : String) :
    (perform (downTo ledger say migrations target) w).1 ≠ .error (.rollbackTarget version) := by
  rw [downTo, perform_bind, h]
  change (perform (goAll .down ledger say (fromVersion target migrations)
    >>= fun _ => liftM (say _)) (perform (isTarget ledger migrations target) w).2).1 ≠ _
  generalize (perform (isTarget ledger migrations target) w).2 = w'
  have hne : (perform (goAll .down ledger say (fromVersion target migrations)) w').1
      ≠ .error (.rollbackTarget version) := goAll_ne_rollbackTarget _ _ _ _
  rw [perform_bind]
  cases hdone : (perform (goAll .down ledger say (fromVersion target migrations)) w').1 with
  | ok _ =>
    intro h
    cases h
  | error e =>
    rw [hdone] at hne
    exact hne

/-- Where the ledger answers, the lookup of a target that is registered and named succeeds. -/
theorem exists_found_of_answered {migrations : NameMap (Body (StateM W))} {target : String} {w : W}
    (hnamed : (target.isEmpty || !migrations.contains target) = false)
    (hanswers : ∀ event ∈ (perform (downTo ledger.watched (unseenSay say)
      (watchedAll migrations) target) (w, [])).2.2, event.refused = false) :
    ∃ found, (perform (ledger.isApplied target) w).1 = .ok found := by
  cases hfound : (perform (ledger.isApplied target) w).1 with
  | ok found => exact ⟨found, rfl⟩
  | error e =>
    -- a lookup that fails is in the log
    rw [downTo, perform_bind, perform_isTarget_watched, hnamed, hfound] at hanswers
    exact absurd (hanswers _ List.mem_cons_self) (by simp [Event.refused])

end Refusals

/-! ## Refused targets -/

/-- A part of the world that is not changed by what is asked of the store. -/
structure Unread {S : Type} (client : Client (StateM W)) (store : W → S) : Prop where
  select : ∀ sql params w, store (perform (client.select sql params) w).2 = store w
  showTables : ∀ w, store (perform client.showTables w).2 = store w

/-- What a run down that refuses its target leaves: its calls, and the world after it. -/
structure LeavesAlone (client : Client (StateM W)) (entries : W → Option (List Entry)) (w : W)
    (es : List Entry) (w' : W) (log : List Event) : Prop where
  /-- No migration is called. -/
  silent : ∀ way, callsOf way log = []
  /-- The ledger keeps its rows. -/
  rows : entries w' = some es
  /-- The store is as it is when the ledger is ready. -/
  store : ∀ {S : Type} {store : W → S}, Unread client store →
    store w' = store (perform (Ledger.makeReady client) w).2
  /-- If there is a ledger, the store is as it was. -/
  unchanged : ∀ {S : Type} {store : W → S} {tables : List String}, Unread client store →
    (perform client.showTables w).1 = .ok tables → ledgerTable ∈ tables → store w' = store w

section Runs

variable {client : Client (StateM W)} {stamp : Stamp (StateM W)}
  {entries : W → Option (List Entry)} {say : String → StateM W Unit}
  {migrations : NameMap (Body (StateM W))} {w : W} {es : List Entry} {target : String}

/-- Where the ledger is ready and was asked for the target at most, nothing has changed. -/
theorem leavesAlone_of_lookup (hclient : KeepsLedger client entries) (hw : entries w = some es)
    (target : String) {w' : W} {log : List Event}
    (h : w' = (perform (Ledger.makeReady client) w).2 ∧ log = [] ∨
      w' = (perform (client.select lookupText (lookupParams target))
        (perform (Ledger.makeReady client) w).2).2 ∧ log = [.looked target (.ok false)]) :
    LeavesAlone client entries w es w' log := by
  have hready : entries (perform (Ledger.makeReady client) w).2 = some es :=
    hclient.keeps_makeReady w es hw
  have hstore {S : Type} {store : W → S} (hunread : Unread client store) :
      store w' = store (perform (Ledger.makeReady client) w).2 := by
    rcases h with ⟨rfl, -⟩ | ⟨rfl, -⟩
    · rfl
    · exact hunread.select _ _ _
  refine ⟨?_, ?_, hstore, ?_⟩
  · intro way
    rcases h with ⟨-, rfl⟩ | ⟨-, rfl⟩ <;> rfl
  · rcases h with ⟨rfl, -⟩ | ⟨rfl, -⟩
    · exact hready
    · exact hclient.select _ _ _ _ hready
  · intro S store tables hunread htables hlisted
    rw [hstore hunread, makeReady_of_contains htables (List.contains_iff_mem.2 hlisted)]
    exact hunread.showTables w

/-- A watched run down to a version refuses it and leaves all alone, or does not refuse it. -/
theorem watched_runDown_cases (hclient : KeepsLedger client entries) (hw : entries w = some es)
    (hready : (perform (Ledger.makeReady client) w).1 = .ok ())
    (hanswers : ∀ event ∈ (perform (runDown (Ledger.ofClient client stamp).watched (unseenSay say)
      (watchedAll migrations) (some target)) (w, [])).2.2, event.refused = false) :
    ((target = "" ∨ target ∉ migrations.names ∨ target ∉ versionsOf es) ∧
      ∃ w' log, perform (runDown (Ledger.ofClient client stamp).watched (unseenSay say)
          (watchedAll migrations) (some target)) (w, [])
            = (.error (.rollbackTarget target), (w', log)) ∧
        LeavesAlone client entries w es w' log) ∨
    ¬(target = "" ∨ target ∉ migrations.names ∨ target ∉ versionsOf es) ∧
      ∀ version, (perform (runDown (Ledger.ofClient client stamp).watched (unseenSay say)
        (watchedAll migrations) (some target)) (w, [])).1 ≠ .error (.rollbackTarget version) := by
  have hw₁ : entries (perform (Ledger.makeReady client) w).2 = some es :=
    hclient.keeps_makeReady w es hw
  have hnamed : (target.isEmpty || !migrations.contains target) = true
      ↔ target = "" ∨ target ∉ migrations.names := by
    rw [Bool.or_eq_true, String.isEmpty_iff, Bool.not_eq_true', Bool.eq_false_iff, ne_eq,
      NameMap.contains_iff_mem_names]
  have htarget : perform (isTarget (Ledger.ofClient client stamp).watched (watchedAll migrations)
      target) ((perform (Ledger.makeReady client) w).2, []) = _ :=
    perform_isTarget_watched migrations target (perform (Ledger.makeReady client) w).2 []
  have hrun : perform (runDown (Ledger.ofClient client stamp).watched (unseenSay say)
      (watchedAll migrations) (some target)) (w, [])
        = perform (downTo (Ledger.ofClient client stamp).watched (unseenSay say)
          (watchedAll migrations) target) ((perform (Ledger.makeReady client) w).2, []) :=
    perform_runDown_some migrations target hready []
  rw [hrun] at hanswers ⊢
  cases hname : target.isEmpty || !migrations.contains target with
  | true =>
    rw [hname, if_pos rfl] at htarget
    refine .inl ⟨(hnamed.1 hname).imp_right .inl, _, _, perform_downTo_of_not_target htarget, ?_⟩
    exact leavesAlone_of_lookup hclient hw target (.inl ⟨rfl, rfl⟩)
  | false =>
    obtain ⟨found, hfound⟩ := exists_found_of_answered hname hanswers
    have happlied := hclient.isApplied_eq hw₁ hfound
    rw [hname, if_neg Bool.false_ne_true, hfound, perform_isApplied] at htarget
    cases found with
    | false =>
      have hmissing : target ∉ versionsOf es := of_decide_eq_false happlied.symm
      refine .inl ⟨.inr (.inr hmissing), _, _, perform_downTo_of_not_target htarget, ?_⟩
      exact leavesAlone_of_lookup hclient hw target (.inr ⟨rfl, rfl⟩)
    | true =>
      have hrow : target ∈ versionsOf es := of_decide_eq_true happlied.symm
      refine .inr ⟨?_, downTo_ne_rollbackTarget (congrArg Prod.fst htarget)⟩
      rintro (hempty | hregistered | hmissing)
      · rw [hnamed.2 (.inl hempty)] at hname
        cases hname
      · rw [hnamed.2 (.inr hregistered)] at hname
        cases hname
      · exact hmissing hrow

/-- A run down to a version refuses it exactly if it has no name, no migration or no row; a refusal
calls no migration and changes neither the ledger nor the store. Of the versions that a directory
gives and a ledger has, only the one of the file that is nothing but the ending is refused. -/
theorem runDown_refuses_iff (hclient : KeepsLedger client entries) (hw : entries w = some es)
    (hready : (perform (Ledger.makeReady client) w).1 = .ok ())
    (hanswers : ∀ event ∈ (perform (runDown (Ledger.ofClient client stamp).watched (unseenSay say)
      (watchedAll migrations) (some target)) (w, [])).2.2, event.refused = false) :
    let run := perform (runDown (Ledger.ofClient client stamp) say migrations (some target)) w
    let log := (perform (runDown (Ledger.ofClient client stamp).watched (unseenSay say)
      (watchedAll migrations) (some target)) (w, [])).2.2
    (run.1 = .error (.rollbackTarget target) ↔
      target = "" ∨ target ∉ migrations.names ∨ target ∉ versionsOf es) ∧
    (∀ version, run.1 = .error (.rollbackTarget version) →
      version = target ∧ LeavesAlone client entries w es run.2 log) ∧
    ∀ directory files, migrations.names = (migrationsAmong directory files).map (·.version) →
      target ++ upEnding ∈ files → target ∈ versionsOf es →
      (run.1 = .error (.rollbackTarget target) ↔ target = "") := by
  intro run log
  obtain ⟨events, hshadow⟩ :=
    shadows_runDown (.ofClient client stamp) say migrations (some target) w []
  have hcases : (target = "" ∨ target ∉ migrations.names ∨ target ∉ versionsOf es) ∧
        run.1 = .error (.rollbackTarget target) ∧ LeavesAlone client entries w es run.2 log ∨
      ¬(target = "" ∨ target ∉ migrations.names ∨ target ∉ versionsOf es) ∧
        ∀ version, run.1 ≠ .error (.rollbackTarget version) := by
    have hlog : log = [] ++ events := congrArg (·.2.2) hshadow
    rcases watched_runDown_cases hclient hw hready hanswers with
      ⟨hrefused, w', log', hrun, hleaves⟩ | ⟨htaken, hne⟩
    · rw [hshadow, ← hlog, Prod.mk.injEq, Prod.mk.injEq] at hrun
      obtain ⟨houtcome, rfl, rfl⟩ := hrun
      exact .inl ⟨hrefused, houtcome, hleaves⟩
    · rw [hshadow] at hne
      exact .inr ⟨htaken, hne⟩
  have hiff : run.1 = .error (.rollbackTarget target) ↔
      target = "" ∨ target ∉ migrations.names ∨ target ∉ versionsOf es := by
    rcases hcases with ⟨hrefused, houtcome, -⟩ | ⟨htaken, hne⟩
    · exact iff_of_true houtcome hrefused
    · exact iff_of_false (hne target) htaken
  refine ⟨hiff, ?_, ?_⟩
  · intro version hversion
    rcases hcases with ⟨-, houtcome, hleaves⟩ | ⟨-, hne⟩
    · rw [hversion, Except.error.injEq, MigrationError.rollbackTarget.injEq] at houtcome
      exact ⟨houtcome, hleaves⟩
    · exact absurd hversion (hne version)
  · intro directory files hnames hfile hrow
    rw [hiff, hnames, mem_versions_migrationsAmong]
    simp [hfile, hrow]

end Runs

/-- No query of a store in memory changes an object. -/
theorem unread_objects : Unread Memory.client Memory.objects where
  select := by
    intro sql params m
    have hselect : perform (Memory.client.select sql params) m
        = ((m.select sql params).1, (m.select sql params).2) := Memory.perform_select sql params m
    rw [hselect, Memory.select]
    split <;> rfl
  showTables := fun _ => rfl

/-- A version that is recorded but not registered is refused, and the store is as it was. -/
theorem runDown_refuses_iff_unregistered :
    let stamp : Stamp (StateM Memory) := ⟨pure "id", pure 1000⟩
    let say : String → StateM Memory Unit := fun _ => pure ()
    let migrations : NameMap (Body (StateM Memory)) := telling (.ofList
      [("V1", true, true), ("V2", true, true)])
    let es : List Entry := [⟨"a", 1, "V1"⟩, ⟨"b", 2, "V3"⟩]
    let m := Memory.ofEntries es
    let run := perform (runDown (.ofClient Memory.client stamp) say migrations (some "V3")) m
    run.1 = .error (.rollbackTarget "V3") ∧ run.2.objects = m.objects := by
  intro stamp say migrations es m run
  have hready : (perform (Ledger.makeReady Memory.client) m).1 = .ok () :=
    Memory.makeReady_clientOf (fun _ _ => rfl) _
  have hunregistered : "V3" ∉ migrations.names := by decide +kernel
  have hanswers : ∀ event ∈ (perform (runDown (Ledger.ofClient Memory.client stamp).watched
      (unseenSay say) (watchedAll migrations) (some "V3")) (m, [])).2.2,
      event.refused = false := by
    decide +kernel
  obtain ⟨hiff, hleaves, -⟩ := runDown_refuses_iff Memory.keepsLedger_client
    (Memory.entries_ofEntries es) hready hanswers
  have hrefused := hiff.2 (.inr (.inl hunregistered))
  exact ⟨hrefused, (hleaves _ hrefused).2.unchanged unread_objects rfl (by decide +kernel)⟩

/-- The version of a file that is nothing but the ending goes up and is recorded, and is refused as
a target. -/
theorem runDown_refuses_discovered :
    let stamp : Stamp (StateM Memory) := ⟨pure "id", pure 1000⟩
    let say : String → StateM Memory Unit := fun _ => pure ()
    let files := migrationsAmong "migrations" [".down.sql", ".up.sql"]
    let migrations : NameMap (Body (StateM Memory)) :=
      telling (.ofList (files.map fun file => (file.version, true, true)))
    let ledger := Ledger.ofClient Memory.client stamp
    let up := perform (runUp ledger say migrations) Memory.empty
    migrations.names = [""] ∧ up.1 = .ok () ∧ up.2.entries = some [⟨"id", 1000, ""⟩] ∧
      (perform (runDown ledger say migrations (some "")) up.2).1
        = .error (.rollbackTarget "") := by
  decide +kernel

end Colonnade.Migration
