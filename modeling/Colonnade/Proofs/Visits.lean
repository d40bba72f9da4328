import Colonnade.Proofs.LedgerTheorems

/-!
# Visits

A run visits versions one after the other. `Visit` is what becomes of one, for either way; it tells
the calls that are made and what they end with. `Fits` says which rows a visit starts from and which
it leaves. `visit_spec` finds the visit of a migration in what is watched of it.
-/

namespace Colonnade.Migration

variable {W : Type}

/-! ## The two ways -/

section Ways

variable {m : Type → Type} [Monad m]

/-- The way of a migration. -/
def Body.go (body : Body m) : Direction → ExceptT MigrationError m Bool
  | .up => body.up
  | .down => body.down

/-- The ledger is told that a version has gone a way. -/
def Ledger.note (ledger : Ledger m) : Direction → String → ExceptT MigrationError m Unit
  | .up => ledger.record
  | .down => ledger.remove

namespace Direction

/-- What the ledger tells of the versions that are to go the way. -/
def found : Direction → Bool
  | .up => false
  | .down => true

/-- Whether a version is to go the way. -/
def Due (way : Direction) (version : String) (es : List Entry) : Prop :=
  decide (version ∈ versionsOf es) = way.found

instance (way : Direction) (version : String) (es : List Entry) :
    Decidable (way.Due version es) :=
  inferInstanceAs (Decidable (_ = _))

/-- What the ledger becomes once a version has gone the way. -/
def Writes (way : Direction) (version : String) (es es' : List Entry) : Prop :=
  match way with
  | .up => ∃ e : Entry, e.version = version ∧ es' = es ++ [e]
  | .down => es' = without version es

/-- Why a run stops at a version whose way tells that it is not done. -/
def refusal : Direction → String
  | .up => "up() reported failure"
  | .down => "down() reported failure"

end Direction

end Ways

/-! ## What becomes of a version -/

/-- What becomes of a version that is visited. -/
inductive Visit where
  /-- The ledger does not tell whether the version is applied. -/
  | unknown (e : MigrationError)
  /-- The version is not to go the way. -/
  | skipped
  /-- The way fails. -/
  | failed (e : MigrationError)
  /-- The way tells that it is not done. -/
  | declined
  /-- The way is done, but the ledger fails to write it down. -/
  | unwritten (e : MigrationError)
  /-- The way is done and written down. -/
  | done

namespace Visit

/-- The calls of a visit. -/
def events (way : Direction) (version : String) : Visit → List Event
  | unknown e => [.looked version (.error e)]
  | skipped => [.looked version (.ok !way.found)]
  | failed e => [.looked version (.ok way.found), .went way version (.error e)]
  | declined => [.looked version (.ok way.found), .went way version (.ok false)]
  | unwritten e =>
    [.looked version (.ok way.found), .went way version (.ok true), .noted way version (.error e)]
  | done =>
    [.looked version (.ok way.found), .went way version (.ok true), .noted way version (.ok ())]

/-- What a visit raises. -/
def raised (way : Direction) (version : String) : Visit → Except MigrationError Unit
  | unknown e | failed e | unwritten e => .error e
  | declined => .error (.execution version way.refusal)
  | skipped | done => .ok ()

/-- What a visit ends with: what it raises, under its version. -/
def outcome (way : Direction) (version : String) (visit : Visit) : Except MigrationError Unit :=
  (visit.raised way version).mapError (·.within version)

/-- Whether a visit ends the run. -/
def fails : Visit → Bool
  | unknown _ | failed _ | declined | unwritten _ => true
  | skipped | done => false

/-- Whether the way is gone, done or not. -/
def goes : Visit → Bool
  | failed _ | declined | unwritten _ | done => true
  | unknown _ | skipped => false

/-- Whether the way is done and written down. -/
def succeeds : Visit → Bool
  | done => true
  | _ => false

/-- Whether the ledger tells of the version. -/
def isKnown : Visit → Bool
  | unknown _ => false
  | _ => true

/-- Whether no call to the ledger failed. -/
def answered : Visit → Bool
  | unknown _ | unwritten _ => false
  | skipped | failed _ | declined | done => true

theorem outcome_of_fails (way : Direction) (version : String) {visit : Visit}
    (h : visit.fails = true) : ∃ e, visit.outcome way version = .error e := by
  cases visit <;> first | exact ⟨_, rfl⟩ | cases h

theorem answered_of_events {way : Direction} {version : String} {visit : Visit}
    (h : ∀ event ∈ visit.events way version, event.refused = false) : visit.answered = true := by
  cases visit <;> simp_all [events, Event.refused, answered]

theorem outcome_of_not_fails (way : Direction) (version : String) {visit : Visit}
    (h : visit.fails = false) : visit.outcome way version = .ok () := by
  cases visit <;> first | rfl | cases h

end Visit

/-- What a visit shows. -/
def shown {m : Type → Type} [Monad m] (way : Direction) (say : String → m Unit)
    (version : String) : Visit → m Unit
  | .skipped =>
    match way with
    | .up => say ("Migration " ++ version ++ " is already applied")
    | .down => pure ()
  | .declined =>
    match way with
    | .up => say ("Migration " ++ version ++ " did not complete; not recorded")
    | .down => say ("Migration " ++ version ++ " was not rolled back; ledger unchanged")
  | .done =>
    match way with
    | .up => say ("Migrated up to version: " ++ version)
    | .down => say ("Migration " ++ version ++ " is rolled back")
  | .unknown _ | .failed _ | .unwritten _ => pure ()

/-- A version that is due goes the way. -/
def goDue {m : Type → Type} [Monad m] (way : Direction) (ledger : Ledger m)
    (say : String → m Unit) (version : String) (body : Body m) :
    ExceptT MigrationError m Unit := do
  if ← body.go way then
    ledger.note way version
    liftM (shown way say version .done)
  else
    liftM (shown way say version .declined)
    throw (.execution version way.refusal)

/-- The two ways differ in what they look for and what they note. -/
theorem goOne_eq {m : Type → Type} [Monad m] [LawfulMonad m] (way : Direction) (ledger : Ledger m)
    (say : String → m Unit) (version : String) (body : Body m) :
    goOne way ledger say version body = ledger.isApplied version >>= fun found =>
      if found = way.found then goDue way ledger say version body
      else liftM (shown way say version .skipped) := by
  cases way with
  | up =>
    refine congrArg (ledger.isApplied version >>= ·) (funext fun found => ?_)
    cases found <;> rfl
  | down =>
    refine congrArg (ledger.isApplied version >>= ·) (funext fun found => ?_)
    cases found with
    | true => rfl
    | false => exact (liftM_pure ()).symm

/-! ## One visit -/

section One

variable {ledger : Ledger (StateM W)} {entries : W → Option (List Entry)}

/-- What a visit finds in the ledger, and the rows that it leaves. A failure of the visit is one
that a call of it came to. -/
inductive Fits (ledger : Ledger (StateM W)) (way : Direction) (version : String)
    (body : Body (StateM W)) (es : List Entry) : Visit → List Entry → Prop where
  | unknown {w : W} {e : MigrationError}
      (he : (perform (ledger.isApplied version) w).1 = .error e) :
    Fits ledger way version body es (.unknown e) es
  | skipped (h : ¬ way.Due version es) : Fits ledger way version body es .skipped es
  | failed {w : W} {e : MigrationError} (h : way.Due version es)
      (he : (perform (body.go way) w).1 = .error e) :
    Fits ledger way version body es (.failed e) es
  | declined (h : way.Due version es) : Fits ledger way version body es .declined es
  | unwritten {w : W} {e : MigrationError} (h : way.Due version es)
      (he : (perform (ledger.note way version) w).1 = .error e) :
    Fits ledger way version body es (.unwritten e) es
  | done {es' : List Entry} (h : way.Due version es) (hes : way.Writes version es es') :
    Fits ledger way version body es .done es'

theorem Ledger.Sound.keeps_note (h : ledger.Sound entries) (way : Direction) (version : String)
    {w : W} {es : List Entry} (hw : entries w = some es) :
    ∃ es', way.Writes version es es' ∧ entries (perform (ledger.note way version) w).2
      = some (ifDone (perform (ledger.note way version) w).1 es' es) := by
  cases way with
  | up =>
    obtain ⟨e, he, hnote⟩ := h.record version hw
    exact ⟨es ++ [e], ⟨e, he, rfl⟩, hnote⟩
  | down => exact ⟨without version es, rfl, h.remove version hw⟩

theorem go_watched (body : Body (StateM W)) (way : Direction) (version : String) :
    (body.watched version).go way = seen (.went way version) (body.go way) := by
  cases way <;> rfl

theorem isApplied_watched (ledger : Ledger (StateM W)) (version : String) :
    ledger.watched.isApplied version = seen (.looked version) (ledger.isApplied version) := rfl

theorem note_watched (ledger : Ledger (StateM W)) (way : Direction) (version : String) :
    ledger.watched.note way version = seen (.noted way version) (ledger.note way version) := by
  cases way <;> rfl

theorem run_shown_unseenSay (way : Direction) (say : String → StateM W Unit) (version : String)
    (visit : Visit) (w : W) (log : List Event) :
    (shown way (unseenSay say) version visit).run (w, log)
      = ((), (((shown way say version visit).run w).2, log)) := by
  cases way <;> cases visit <;> rfl

theorem keeps_shown {say : String → StateM W Unit} (hsay : ∀ line, Keeps entries (say line))
    (way : Direction) (version : String) (visit : Visit) :
    Keeps entries (shown way say version visit) := by
  cases way <;> cases visit <;> first | exact hsay _ | exact fun _ _ h => h

/-- A version that is due goes the way, or fails to. -/
theorem goDue_spec (h : ledger.Sound entries) {say : String → StateM W Unit}
    (hsay : ∀ line, Keeps entries (say line)) {way : Direction} {version : String}
    {body : Body (StateM W)} (hbody : Keeps entries (body.go way).run) {w : W} {es : List Entry}
    (hw : entries w = some es) (hdue : way.Due version es) (log : List Event) :
    ∃ visit w' es',
      perform (goDue way ledger.watched (unseenSay say) version (body.watched version))
          (w, log ++ [.looked version (.ok way.found)])
        = (visit.raised way version, (w', log ++ visit.events way version)) ∧
      entries w' = some es' ∧ Fits ledger way version body es visit es' := by
  have hgone : entries (perform (body.go way) w).2 = some es := hbody w es hw
  rw [goDue, go_watched, note_watched, perform_bind, perform_seen]
  cases hdone : (perform (body.go way) w).1 with
  | error e =>
    exact ⟨.failed e, _, es, by simp [Visit.events, Visit.raised], hgone, .failed hdue hdone⟩
  | ok done =>
    generalize (perform (body.go way) w).2 = w₁ at hgone
    cases done with
    | false =>
      refine ⟨.declined, _, es, ?_, keeps_shown hsay way version .declined w₁ es hgone,
        .declined hdue⟩
      simp [perform_bind, run_shown_unseenSay, Visit.events, Visit.raised]
    | true =>
      obtain ⟨es', hwrites, hnoted⟩ := h.keeps_note way version hgone
      simp only [if_true, perform_bind, perform_seen]
      cases hnote : (perform (ledger.note way version) w₁).1 with
      | error e =>
        rw [hnote] at hnoted
        exact ⟨.unwritten e, _, es, by simp [Visit.events, Visit.raised], hnoted,
          .unwritten hdue hnote⟩
      | ok _ =>
        rw [hnote] at hnoted
        refine ⟨.done, _, es', ?_, keeps_shown hsay way version .done _ es' hnoted,
          .done hdue hwrites⟩
        simp [run_shown_unseenSay, Visit.events, Visit.raised]

/-- A migration that is visited makes the calls of a visit, ends with its outcome and leaves its
rows. -/
theorem visit_spec (h : ledger.Sound entries) {say : String → StateM W Unit}
    (hsay : ∀ line, Keeps entries (say line)) (way : Direction) (version : String)
    {body : Body (StateM W)} (hbody : Keeps entries (body.go way).run) {w : W} {es : List Entry}
    (hw : entries w = some es) (log : List Event) :
    ∃ visit w' es',
      perform (naming version (goOne way ledger.watched (unseenSay say) version
          (body.watched version))) (w, log)
        = (visit.outcome way version, (w', log ++ visit.events way version)) ∧
      entries w' = some es' ∧ Fits ledger way version body es visit es' := by
  have hasked : entries (perform (ledger.isApplied version) w).2 = some es :=
    h.isApplied version w es hw
  suffices hraised : ∃ visit w' es',
      perform (goOne way ledger.watched (unseenSay say) version (body.watched version)) (w, log)
        = (visit.raised way version, (w', log ++ visit.events way version)) ∧
      entries w' = some es' ∧ Fits ledger way version body es visit es' by
    obtain ⟨visit, w', es', hgo, hw', hfits⟩ := hraised
    exact ⟨visit, w', es', by rw [perform_naming, hgo, Visit.outcome], hw', hfits⟩
  rw [goOne_eq, isApplied_watched, perform_bind, perform_seen]
  cases hfound : (perform (ledger.isApplied version) w).1 with
  | error e => exact ⟨.unknown e, _, es, rfl, hasked, .unknown hfound⟩
  | ok found =>
    have hdue : way.Due version es ↔ found = way.found := by
      rw [Direction.Due, h.isApplied_eq hw hfound]
    by_cases hway : found = way.found
    · simp only [if_pos hway]
      rw [hway]
      exact goDue_spec h hsay hbody hasked (hdue.2 hway) log
    · have hother : found = !way.found := by
        revert hway
        cases found <;> cases way.found <;> decide
      refine ⟨.skipped, _, es, ?_, keeps_shown hsay way version .skipped _ es hasked,
        .skipped (mt hdue.1 hway)⟩
      simp only [if_neg hway, perform_liftM, run_shown_unseenSay]
      rw [hother]
      rfl

end One

/-! ## What a visit changes -/

section Fits

variable {ledger : Ledger (StateM W)} {way : Direction} {version : String}
  {body : Body (StateM W)} {es es' : List Entry} {visit : Visit}

theorem Direction.Writes.mem_iff_of_ne (h : way.Writes version es es') {v : String}
    (hne : v ≠ version) : v ∈ versionsOf es' ↔ v ∈ versionsOf es := by
  cases way with
  | up =>
    obtain ⟨e, rfl, rfl⟩ := h
    simp [versionsOf, hne]
  | down =>
    cases h
    simp [mem_versionsOf_without, hne]

/-- A visit concerns no other version. -/
theorem Fits.due_iff_of_ne (h : Fits ledger way version body es visit es') {v : String}
    (hne : v ≠ version) : way.Due v es' ↔ way.Due v es := by
  cases h with
  | done _ hes => simp only [Direction.Due, hes.mem_iff_of_ne hne]
  | unknown | skipped | failed | declined | unwritten => exact Iff.rfl

theorem Fits.goes_iff (h : Fits ledger way version body es visit es')
    (known : visit.isKnown = true) : visit.goes = true ↔ way.Due version es := by
  cases h with
  | unknown => cases known
  | skipped h => simp [Visit.goes, h]
  | failed h | declined h | unwritten h | done h => simp [Visit.goes, h]

/-- A failure that names no version is named by the one that it is under. -/
theorem Unnamed.within {α : Type} {x : ExceptT MigrationError (StateM W) α} (h : Unnamed x) {w : W}
    {e : MigrationError} (he : (perform x w).1 = .error e) (v : String) :
    e.within v = .execution v e.message := by
  cases e with
  | execution u reason => exact absurd he (h w u reason)
  | _ => rfl

theorem Ledger.Sound.note_unnamed {entries : W → Option (List Entry)}
    (h : ledger.Sound entries) (way : Direction) (v : String) : Unnamed (ledger.note way v) := by
  cases way with
  | up => exact h.record_unnamed v
  | down => exact h.remove_unnamed v

/-- A visit that fails ends with a failure of its version. -/
theorem Fits.outcome_named {entries : W → Option (List Entry)} (hledger : ledger.Sound entries)
    (hbody : Unnamed (body.go way)) (h : Fits ledger way version body es visit es')
    (hfails : visit.fails = true) :
    ∃ reason, visit.outcome way version = .error (.execution version reason) := by
  cases h with
  | unknown he => exact ⟨_, congrArg Except.error ((hledger.isApplied_unnamed version).within he _)⟩
  | failed _ he => exact ⟨_, congrArg Except.error (hbody.within he _)⟩
  | unwritten _ he =>
    exact ⟨_, congrArg Except.error ((hledger.note_unnamed way version).within he _)⟩
  | declined => exact ⟨way.refusal, rfl⟩
  | skipped | done => cases hfails

end Fits

end Colonnade.Migration
