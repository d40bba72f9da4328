import Colonnade.Migration.Run

/-!
# Watching a run of migrations

What a run does to its world is seen in the state it leaves. Which calls it made on the way is not:
here the world is joined by a list of events, and the ledger and the ways of the migrations write
down each of their calls with its outcome. `Shadows` says that watching changes nothing else;
`shadows_runUp` and `shadows_runDown` say it of whole runs.
-/

namespace Colonnade.Migration

variable {W ε α β : Type}

/-! ## Performing an action -/

/-- What an action comes to in a world, and the world after it. -/
def perform (x : ExceptT ε (StateM W) α) (w : W) : Except ε α × W := x.run.run w

@[simp] theorem perform_pure (a : α) (w : W) :
    perform (pure a : ExceptT ε (StateM W) α) w = (.ok a, w) := rfl

@[simp] theorem perform_throw (e : ε) (w : W) :
    perform (throw e : ExceptT ε (StateM W) α) w = (.error e, w) := rfl

@[simp] theorem perform_liftM (x : StateM W α) (w : W) :
    perform (liftM x : ExceptT ε (StateM W) α) w = (.ok (x.run w).1, (x.run w).2) := rfl

/-- What follows an action is performed in the world that the action leaves, unless it failed. -/
theorem perform_bind (x : ExceptT ε (StateM W) α) (f : α → ExceptT ε (StateM W) β) (w : W) :
    perform (x >>= f) w =
      match (perform x w).1 with
      | .ok a => perform (f a) (perform x w).2
      | .error e => (.error e, (perform x w).2) := by
  unfold perform
  rw [ExceptT.run_bind, StateT.run_bind]
  rcases x.run.run w with ⟨_ | _, _⟩ <;> rfl

/-- A failure is named by the version; all else stays. -/
theorem perform_naming (version : String) (x : ExceptT MigrationError (StateM W) Unit) (w : W) :
    perform (naming version x) w =
      ((perform x w).1.mapError (·.within version), (perform x w).2) := by
  unfold perform naming
  rw [ExceptT.run_mk, StateT.run_bind]
  rcases x.run.run w with ⟨_ | _, _⟩ <;> rfl

/-! ## Events -/

/-- The two ways of a migration. -/
inductive Direction where
  | up
  | down
deriving DecidableEq, Repr

/-- A call that a run makes, with what it came to. -/
inductive Event where
  /-- The ledger is asked for a version. -/
  | looked (version : String) (outcome : Except MigrationError Bool)
  /-- A migration goes one of its ways. -/
  | went (way : Direction) (version : String) (outcome : Except MigrationError Bool)
  /-- The ledger is told that a version has gone a way. -/
  | noted (way : Direction) (version : String) (outcome : Except MigrationError Unit)

/-- Whether a call to the ledger failed. -/
def Event.refused : Event → Bool
  | .looked _ (.error _) | .noted _ _ (.error _) => true
  | _ => false

/-! ## Watched actions -/

/-- The action in the world with events; it writes none. -/
def unseen (x : ExceptT ε (StateM W) α) : ExceptT ε (StateM (W × List Event)) α :=
  ExceptT.mk fun s => ((perform x s.1).1, ((perform x s.1).2, s.2))

/-- The action in the world with events, its outcome written down. -/
def seen (event : Except ε α → Event) (x : ExceptT ε (StateM W) α) :
    ExceptT ε (StateM (W × List Event)) α :=
  ExceptT.mk fun s =>
    ((perform x s.1).1, ((perform x s.1).2, s.2 ++ [event (perform x s.1).1]))

/-- Showing a line in the world with events. -/
def unseenSay (say : String → StateM W Unit) (line : String) : StateM (W × List Event) Unit :=
  fun s => ((), (((say line).run s.1).2, s.2))

@[simp] theorem perform_unseen (x : ExceptT ε (StateM W) α) (w : W) (log : List Event) :
    perform (unseen x) (w, log) = ((perform x w).1, ((perform x w).2, log)) := rfl

@[simp] theorem perform_seen (event : Except ε α → Event) (x : ExceptT ε (StateM W) α) (w : W)
    (log : List Event) :
    perform (seen event x) (w, log)
      = ((perform x w).1, ((perform x w).2, log ++ [event (perform x w).1])) := rfl

@[simp] theorem run_unseenSay (say : String → StateM W Unit) (line : String) (w : W)
    (log : List Event) :
    (unseenSay say line).run (w, log) = ((), (((say line).run w).2, log)) := rfl

/-- The ledger with its answers and changes written down. -/
def Ledger.watched (ledger : Ledger (StateM W)) : Ledger (StateM (W × List Event)) where
  ensureReady := unseen ledger.ensureReady
  isApplied version := seen (.looked version) (ledger.isApplied version)
  record version := seen (.noted .up version) (ledger.record version)
  remove version := seen (.noted .down version) (ledger.remove version)
  lastVersion := unseen ledger.lastVersion

/-- The ways of a migration, written down when they are gone. -/
def Body.watched (version : String) (body : Body (StateM W)) : Body (StateM (W × List Event)) where
  up := seen (.went .up version) body.up
  down := seen (.went .down version) body.down

/-- Migrations with their ways written down. -/
def watchedAll (migrations : NameMap (Body (StateM W))) :
    NameMap (Body (StateM (W × List Event))) where
  entries := migrations.entries.map fun e => (e.1, e.2.watched e.1)
  ascending := List.pairwise_map.2 migrations.ascending

/-! ## Both ways at once -/

section Ways

variable {m : Type → Type} [Monad m]

/-- A migration going one of its ways, with the ledger. -/
def goOne (way : Direction) (ledger : Ledger m) (say : String → m Unit) (version : String)
    (body : Body m) : ExceptT MigrationError m Unit :=
  match way with
  | .up => applyOne ledger say version body
  | .down => revertOne ledger say version body

/-- Migrations going one of their ways, in their order. -/
def goAll (way : Direction) (ledger : Ledger m) (say : String → m Unit)
    (migrations : List (String × Body m)) : ExceptT MigrationError m Unit :=
  match way with
  | .up => applyAll ledger say migrations
  | .down => revertAll ledger say migrations

theorem goAll_nil (way : Direction) (ledger : Ledger m) (say : String → m Unit) :
    goAll way ledger say [] = pure () := by
  cases way <;> rfl

theorem goAll_cons (way : Direction) (ledger : Ledger m) (say : String → m Unit)
    (e : String × Body m) (rest : List (String × Body m)) :
    goAll way ledger say (e :: rest) =
      naming e.1 (goOne way ledger say e.1 e.2) >>= fun _ => goAll way ledger say rest := by
  cases way <;> rfl

end Ways

/-! ## Watching changes nothing -/

/-- The first action does in the world with events what the second does in the world, and writes
events down at most. -/
def Shadows (y : ExceptT ε (StateM (W × List Event)) α) (x : ExceptT ε (StateM W) α) : Prop :=
  ∀ w log, ∃ events, perform y (w, log) = ((perform x w).1, ((perform x w).2, log ++ events))

theorem shadows_pure (a : α) :
    Shadows (pure a) (pure a : ExceptT ε (StateM W) α) :=
  fun _ _ => ⟨[], by simp⟩

theorem shadows_throw (e : ε) :
    Shadows (throw e) (throw e : ExceptT ε (StateM W) α) :=
  fun _ _ => ⟨[], by simp⟩

theorem shadows_unseen (x : ExceptT ε (StateM W) α) : Shadows (unseen x) x :=
  fun _ _ => ⟨[], by simp⟩

theorem shadows_seen (event : Except ε α → Event) (x : ExceptT ε (StateM W) α) :
    Shadows (seen event x) x :=
  fun w _ => ⟨[event (perform x w).1], rfl⟩

theorem shadows_say (say : String → StateM W Unit) (line : String) :
    Shadows (liftM (unseenSay say line) : ExceptT ε (StateM (W × List Event)) Unit)
      (liftM (say line) : ExceptT ε (StateM W) Unit) :=
  fun _ _ => ⟨[], by simp⟩

theorem Shadows.bind {y : ExceptT ε (StateM (W × List Event)) α} {x : ExceptT ε (StateM W) α}
    {g : α → ExceptT ε (StateM (W × List Event)) β} {f : α → ExceptT ε (StateM W) β}
    (h : Shadows y x) (hg : ∀ a, Shadows (g a) (f a)) : Shadows (y >>= g) (x >>= f) := by
  intro w log
  obtain ⟨events, hy⟩ := h w log
  rw [perform_bind, perform_bind, hy]
  cases (perform x w).1 with
  | error e => exact ⟨events, rfl⟩
  | ok a =>
    obtain ⟨more, hmore⟩ := hg a (perform x w).2 (log ++ events)
    exact ⟨events ++ more, by simpa using hmore⟩

theorem Shadows.naming {y : ExceptT MigrationError (StateM (W × List Event)) Unit}
    {x : ExceptT MigrationError (StateM W) Unit} (h : Shadows y x) (version : String) :
    Shadows (Migration.naming version y) (Migration.naming version x) := by
  intro w log
  obtain ⟨events, hy⟩ := h w log
  exact ⟨events, by rw [perform_naming, perform_naming, hy]⟩

section Runs

variable (ledger : Ledger (StateM W)) (say : String → StateM W Unit)

theorem shadows_goOne (way : Direction) (version : String) (body : Body (StateM W)) :
    Shadows (goOne way ledger.watched (unseenSay say) version (body.watched version))
      (goOne way ledger say version body) := by
  cases way with
  | up =>
    refine (shadows_seen _ _).bind fun applied => ?_
    cases applied with
    | true => exact shadows_say say _
    | false =>
      refine (shadows_seen _ _).bind fun done => ?_
      cases done with
      | true => exact (shadows_seen _ _).bind fun _ => shadows_say say _
      | false => exact (shadows_say say _).bind fun _ => shadows_throw _
  | down =>
    refine (shadows_seen _ _).bind fun applied => ?_
    cases applied with
    | false => exact shadows_pure _
    | true =>
      refine (shadows_seen _ _).bind fun done => ?_
      cases done with
      | true => exact (shadows_seen _ _).bind fun _ => shadows_say say _
      | false => exact (shadows_say say _).bind fun _ => shadows_throw _

theorem shadows_goAll (way : Direction) (migrations : List (String × Body (StateM W))) :
    Shadows (goAll way ledger.watched (unseenSay say)
        (migrations.map fun e => (e.1, e.2.watched e.1)))
      (goAll way ledger say migrations) := by
  induction migrations with
  | nil =>
    rw [List.map_nil, goAll_nil, goAll_nil]
    exact shadows_pure ()
  | cons e rest ih =>
    rw [List.map_cons, goAll_cons, goAll_cons]
    exact ((shadows_goOne ledger say way e.1 e.2).naming e.1).bind fun _ => ih

/-- A watched run up does what the run does. -/
theorem shadows_runUp (migrations : NameMap (Body (StateM W))) :
    Shadows (runUp ledger.watched (unseenSay say) (watchedAll migrations))
      (runUp ledger say migrations) :=
  (shadows_unseen _).bind fun _ => shadows_goAll ledger say .up migrations.entries

theorem contains_watchedAll (migrations : NameMap (Body (StateM W))) (version : String) :
    (watchedAll migrations).contains version = migrations.contains version := by
  simp only [NameMap.contains, NameMap.get?, watchedAll]
  rw [NameMap.lookup_map fun name (body : Body (StateM W)) => body.watched name]
  cases migrations.entries.lookup version <;> rfl

theorem fromVersion_watchedAll (migrations : NameMap (Body (StateM W))) (target : String) :
    fromVersion target (watchedAll migrations)
      = (fromVersion target migrations).map fun e => (e.1, e.2.watched e.1) := by
  simp only [fromVersion, watchedAll, ← List.map_reverse, List.filter_map]
  rfl

theorem shadows_isTarget (migrations : NameMap (Body (StateM W))) (version : String) :
    Shadows (isTarget ledger.watched (watchedAll migrations) version)
      (isTarget ledger migrations version) := by
  unfold isTarget
  rw [contains_watchedAll]
  split
  · exact shadows_pure _
  · exact shadows_seen _ _

/-- Rolling back to a version, once it is known which. -/
def downTo {m : Type → Type} [Monad m] (ledger : Ledger m) (say : String → m Unit)
    (migrations : NameMap (Body m)) (target : String) : ExceptT MigrationError m Unit := do
  if ← isTarget ledger migrations target then
    revertAll ledger say (fromVersion target migrations)
    say ("Rolled back to version: " ++ target)
  else throw (.rollbackTarget target)

theorem runDown_some {m : Type → Type} [Monad m] [LawfulMonad m] (ledger : Ledger m)
    (say : String → m Unit) (migrations : NameMap (Body m)) (target : String) :
    runDown ledger say migrations (some target)
      = ledger.ensureReady >>= fun _ => downTo ledger say migrations target := by
  simp [runDown, downTo]

theorem runDown_none {m : Type → Type} [Monad m] [LawfulMonad m] (ledger : Ledger m)
    (say : String → m Unit) (migrations : NameMap (Body m)) :
    runDown ledger say migrations none
      = ledger.ensureReady >>= fun _ => ledger.lastVersion >>= fun last =>
          downTo ledger say migrations (last.getD "") := by
  simp [runDown, downTo]

theorem shadows_downTo (migrations : NameMap (Body (StateM W))) (target : String) :
    Shadows (downTo ledger.watched (unseenSay say) (watchedAll migrations) target)
      (downTo ledger say migrations target) := by
  refine (shadows_isTarget ledger migrations target).bind fun found => ?_
  cases found with
  | true =>
    rw [fromVersion_watchedAll]
    exact (shadows_goAll ledger say .down _).bind fun _ => shadows_say say _
  | false => exact shadows_throw _

/-- A watched run down does what the run does. -/
theorem shadows_runDown (migrations : NameMap (Body (StateM W))) (target : Option String) :
    Shadows (runDown ledger.watched (unseenSay say) (watchedAll migrations) target)
      (runDown ledger say migrations target) := by
  cases target with
  | some version =>
    rw [runDown_some, runDown_some]
    exact (shadows_unseen _).bind fun _ => shadows_downTo ledger say migrations version
  | none =>
    rw [runDown_none, runDown_none]
    exact (shadows_unseen _).bind fun _ => (shadows_unseen _).bind fun _ =>
      shadows_downTo ledger say migrations _

end Runs

end Colonnade.Migration
