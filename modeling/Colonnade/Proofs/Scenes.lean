import Colonnade.Proofs.RunTheorems
import Mathlib.Data.List.Induction

/-!
# Scenes

Of a world in which migrations run a `Scene` shows which versions are applied and what else the
store holds; the identifiers and times of the rows, the statements received and the lines shown are
left out. `Scene.ledger` is the ledger of a scene: a list of versions, whose calls all succeed. An
action mirrors one on scenes if it comes to the same and changes what is seen as that one does
(`View.Mirrors`).

If a store serves the ledger (`View.Serves`), whole runs mirror the runs on scenes, which are plain
functions; `Scene.resume` and `Scene.unwind` are their two laws.
-/

namespace Colonnade.Migration

variable {W S ε α β : Type}

/-! ## Runs on scenes -/

/-- The applied versions in the order of their rows, and the rest of a store. -/
structure Scene (S : Type) where
  versions : List String
  rest : S
deriving DecidableEq

/-- What the applied versions become once a version has gone a way. -/
def Direction.written (way : Direction) (version : String) (versions : List String) :
    List String :=
  match way with
  | .up => versions ++ [version]
  | .down => versions.filter (· ≠ version)

/-- An action on the rest of a scene. -/
def onRest (x : ExceptT ε (StateM S) α) : ExceptT ε (StateM (Scene S)) α :=
  ExceptT.mk fun c => ((perform x c.rest).1, { c with rest := (perform x c.rest).2 })

/-- A migration that changes the rest of a scene. -/
def Body.onRest (body : Body (StateM S)) : Body (StateM (Scene S)) :=
  ⟨Migration.onRest body.up, Migration.onRest body.down⟩

theorem go_onRest (body : Body (StateM S)) (way : Direction) :
    body.onRest.go way = onRest (body.go way) := by
  cases way <;> rfl

@[simp] theorem perform_onRest (x : ExceptT ε (StateM S) α) (c : Scene S) :
    perform (onRest x) c = ((perform x c.rest).1, { c with rest := (perform x c.rest).2 }) := rfl

/-- A migration whose ways are done and change a store as the functions do. -/
def Body.done (up down : S → S) : Body (StateM S) where
  up := do modify up; return true
  down := do modify down; return true

namespace Scene

/-- The ledger of a scene. -/
def ledger : Ledger (StateM (Scene S)) where
  ensureReady := pure ()
  isApplied version := return decide (version ∈ (← get).versions)
  record version := modify fun c => { c with versions := Direction.up.written version c.versions }
  remove version := modify fun c => { c with versions := Direction.down.written version c.versions }
  lastVersion := return (← get).versions.getLast?

/-- Nothing is shown. -/
def silent (_ : String) : StateM (Scene S) Unit := pure ()

theorem perform_isApplied (version : String) (c : Scene S) :
    perform (ledger.isApplied version) c = (.ok (decide (version ∈ c.versions)), c) := rfl

theorem perform_note (way : Direction) (version : String) (c : Scene S) :
    perform (ledger.note way version) c
      = (.ok (), { c with versions := way.written version c.versions }) := by
  cases way <;> rfl

/-- One version goes a way. -/
def visit (way : Direction) (version : String) (body : Body (StateM S)) :
    ExceptT MigrationError (StateM (Scene S)) Unit :=
  naming version (goOne way ledger silent version body.onRest)

/-- Versions go a way, in their order. -/
def pass (way : Direction) (bodies : String → Body (StateM S)) (versions : List String) :
    ExceptT MigrationError (StateM (Scene S)) Unit :=
  goAll way ledger silent (versions.map fun v => (v, (bodies v).onRest))

section Steps

variable {way : Direction} {version : String} {body : Body (StateM S)} {c : Scene S}

theorem perform_shown (way : Direction) (version : String) (visit : Visit) (c : Scene S) :
    perform (liftM (shown way (silent (S := S)) version visit) :
      ExceptT MigrationError (StateM (Scene S)) Unit) c = (.ok (), c) := by
  cases way <;> cases visit <;> rfl

/-- A version that is not to go the way is passed by. -/
theorem visit_of_not_due (h : decide (version ∈ c.versions) ≠ way.found) :
    perform (visit way version body) c = (.ok (), c) := by
  rw [visit, perform_naming, goOne_eq, perform_bind, perform_isApplied]
  simp only [if_neg h, perform_shown]
  rfl

theorem visit_of_due (h : decide (version ∈ c.versions) = way.found) :
    perform (visit way version body) c
      = perform (naming version (goDue way ledger silent version body.onRest)) c := by
  rw [visit, perform_naming, perform_naming, goOne_eq, perform_bind, perform_isApplied]
  simp only [if_pos h]

/-- A version whose way is done is written down. -/
theorem visit_of_done (h : decide (version ∈ c.versions) = way.found) {s : S}
    (hdone : perform (body.go way) c.rest = (.ok true, s)) :
    perform (visit way version body) c = (.ok (), ⟨way.written version c.versions, s⟩) := by
  rw [visit_of_due h, perform_naming, goDue, go_onRest, perform_bind, perform_onRest, hdone]
  simp only [if_true, perform_bind, perform_note, perform_shown]
  rfl

/-- A version whose way is not done ends the run, and is not written down. -/
theorem visit_of_not_done (h : decide (version ∈ c.versions) = way.found)
    (hdone : (perform (body.go way) c.rest).1 ≠ .ok true) :
    ∃ e, perform (visit way version body) c
      = (.error e, { c with rest := (perform (body.go way) c.rest).2 }) := by
  rw [visit_of_due h, perform_naming, goDue, go_onRest, perform_bind, perform_onRest]
  rcases hcame : (perform (body.go way) c.rest).1 with e | _ | _
  · exact ⟨_, rfl⟩
  · simp only [Bool.false_eq_true, if_false, perform_bind, perform_shown, perform_throw]
    exact ⟨_, rfl⟩
  · exact absurd hcame hdone

theorem pass_nil (way : Direction) (bodies : String → Body (StateM S)) (c : Scene S) :
    perform (pass way bodies []) c = (.ok (), c) := by
  rw [pass, List.map_nil, goAll_nil]
  rfl

theorem pass_cons (way : Direction) (bodies : String → Body (StateM S)) (v : String)
    (vs : List String) :
    pass way bodies (v :: vs) = visit way v (bodies v) >>= fun _ => pass way bodies vs := by
  rw [pass, List.map_cons, goAll_cons]
  rfl

/-- After a version that is passed by or done come the others. -/
theorem pass_of_visit_ok {bodies : String → Body (StateM S)} {v : String} {vs : List String}
    {c c' : Scene S} (h : perform (visit way v (bodies v)) c = (.ok (), c')) :
    perform (pass way bodies (v :: vs)) c = perform (pass way bodies vs) c' := by
  rw [pass_cons, perform_bind, h]

/-- After a version that is not done nothing comes. -/
theorem pass_of_visit_error {bodies : String → Body (StateM S)} {v : String} {vs : List String}
    {c c' : Scene S} {e : MigrationError}
    (h : perform (visit way v (bodies v)) c = (.error e, c')) :
    perform (pass way bodies (v :: vs)) c = (.error e, c') := by
  rw [pass_cons, perform_bind, h]

end Steps

/-- Nothing is seen of a line that is shown at the end. -/
theorem perform_bind_silent (x : ExceptT MigrationError (StateM (Scene S)) Unit) (line : String)
    (c : Scene S) : perform (x >>= fun _ => liftM (silent (S := S) line)) c = perform x c := by
  rw [perform_bind]
  rcases perform x c with ⟨_ | _, _⟩ <;> rfl

/-! ## The two laws -/

/-- A way up that is not done leaves the store as it was. -/
def Harmless (body : Body (StateM S)) : Prop :=
  ∀ s, (perform body.up s).1 ≠ .ok true → (perform body.up s).2 = s

/-- A way up that is never done. -/
def Broken (body : Body (StateM S)) : Prop := ∀ s, (perform body.up s).1 ≠ .ok true

/-- A visit on the way up leaves the version applied, or fails and leaves all as it was. -/
theorem visit_up {body : Body (StateM S)} (hbody : Harmless body) (version : String)
    (c : Scene S) :
    (∃ c', perform (visit .up version body) c = (.ok (), c') ∧ version ∈ c'.versions ∧
      c.versions ⊆ c'.versions) ∨ ∃ e, perform (visit .up version body) c = (.error e, c) := by
  by_cases happlied : version ∈ c.versions
  · exact .inl ⟨c, visit_of_not_due (by simp [happlied, Direction.found]), happlied,
      List.Subset.refl _⟩
  have hdue : decide (version ∈ c.versions) = Direction.up.found := decide_eq_false happlied
  by_cases hdone : (perform (body.go .up) c.rest).1 = .ok true
  · refine .inl ⟨_, visit_of_done hdue (Prod.ext hdone rfl), ?_, ?_⟩
    · simp [Direction.written]
    · exact List.subset_append_left _ _
  · obtain ⟨e, he⟩ := visit_of_not_done hdue hdone
    rw [show (perform (body.go .up) c.rest).2 = c.rest from hbody c.rest hdone] at he
    exact .inr ⟨e, he⟩

/-- Versions that are applied stay applied on the way up. -/
theorem pass_up_grows {bodies : String → Body (StateM S)} {vs : List String}
    (hbodies : ∀ v ∈ vs, Harmless (bodies v)) (c : Scene S) :
    c.versions ⊆ (perform (pass .up bodies vs) c).2.versions := by
  induction vs generalizing c with
  | nil =>
    rw [pass_nil]
    exact List.Subset.refl _
  | cons v vs ih =>
    rcases visit_up (hbodies v List.mem_cons_self) v c with
      ⟨c', hvisit, -, hsub⟩ | ⟨e, hvisit⟩
    · rw [pass_of_visit_ok hvisit]
      exact List.Subset.trans hsub (ih (fun u hu => hbodies u (List.mem_cons_of_mem _ hu)) c')
    · rw [pass_of_visit_error hvisit]
      exact List.Subset.refl _

/-- A pass up that was made before with some of the ways broken goes on where that one stopped, and
ends as if it were the first. -/
theorem resume {bodies tried : String → Body (StateM S)} {vs : List String}
    (hbodies : ∀ v ∈ vs, Harmless (bodies v)) (htried : ∀ v ∈ vs, Harmless (tried v))
    (hsame : ∀ v ∈ vs, tried v = bodies v ∨ Broken (tried v)) (c : Scene S) :
    perform (pass .up bodies vs) (perform (pass .up tried vs) c).2
      = perform (pass .up bodies vs) c := by
  induction vs generalizing c with
  | nil => simp only [pass_nil]
  | cons v vs ih =>
    have ih' := ih (fun u hu => hbodies u (List.mem_cons_of_mem _ hu))
      (fun u hu => htried u (List.mem_cons_of_mem _ hu))
      (fun u hu => hsame u (List.mem_cons_of_mem _ hu))
    rcases visit_up (htried v List.mem_cons_self) v c with
      ⟨c', hvisit, happlied, -⟩ | ⟨e, hvisit⟩
    · -- the version is applied now, so that the second pass leaves it out
      have hgrown := pass_up_grows (fun u hu => htried u (List.mem_cons_of_mem _ hu)) c'
      rw [pass_of_visit_ok hvisit, pass_of_visit_ok
        (visit_of_not_due (by simp [hgrown happlied, Direction.found])), ih' c']
      refine (pass_of_visit_ok ?_).symm
      rcases hsame v List.mem_cons_self with heq | hbroken
      · rwa [← heq]
      · by_cases hbefore : v ∈ c.versions
        · have hskip : ∀ body : Body (StateM S), perform (visit .up v body) c = (.ok (), c) :=
            fun body => visit_of_not_due (by simp [hbefore, Direction.found])
          rw [hskip] at hvisit ⊢
          exact hvisit
        · have hdue : decide (v ∈ c.versions) = Direction.up.found := decide_eq_false hbefore
          obtain ⟨e, he⟩ := visit_of_not_done hdue (hbroken c.rest)
          rw [he] at hvisit
          cases hvisit
    · rw [pass_of_visit_error hvisit]

/-- Migrations whose ways are always done and change a store as the functions do. -/
def always (up down : String → S → S) (version : String) : Body (StateM S) :=
  .done (up version) (down version)

/-- Versions that are not applied all go up. -/
theorem pass_up_always {up down : String → S → S} {vs applied : List String}
    (hnodup : (applied ++ vs).Nodup) (s : S) :
    perform (pass .up (always up down) vs) ⟨applied, s⟩
      = (.ok (), ⟨applied ++ vs, vs.foldl (fun s v => up v s) s⟩) := by
  induction vs generalizing applied s with
  | nil => rw [pass_nil, List.append_nil, List.foldl_nil]
  | cons v vs ih =>
    have hfresh : v ∉ applied := fun hmem =>
      (List.nodup_append.1 hnodup).2.2 v hmem v List.mem_cons_self rfl
    have hvisit : perform (visit .up v (always up down v)) ⟨applied, s⟩
        = (.ok (), ⟨applied ++ [v], up v s⟩) := visit_of_done (decide_eq_false hfresh) rfl
    rw [List.append_cons] at hnodup
    rw [pass_of_visit_ok hvisit, ih hnodup, List.append_assoc, List.singleton_append,
      List.foldl_cons]

/-- Versions that have gone up are taken back in reverse, if each way down undoes its way up. -/
theorem unwind {up down : String → S → S} {vs : List String} (hnodup : vs.Nodup)
    (hundo : ∀ v ∈ vs, ∀ s, down v (up v s) = s) (s : S) :
    perform (pass .down (always up down) vs.reverse)
      ⟨vs, vs.foldl (fun s v => up v s) s⟩ = (.ok (), ⟨[], s⟩) := by
  induction vs using List.reverseRecOn with
  | nil => rw [List.reverse_nil, pass_nil, List.foldl_nil]
  | append_singleton vs v ih =>
    obtain ⟨hvs, -, hfresh⟩ := List.nodup_append.1 hnodup
    have hkept : Direction.down.written v (vs ++ [v]) = vs := by
      have hne : ∀ u ∈ vs, u ≠ v := fun u hu => hfresh u hu v (List.mem_singleton_self v)
      simpa [Direction.written] using hne
    have hlast : v ∈ vs ++ [v] := List.mem_append_right _ (List.mem_singleton_self v)
    have hvisit : perform (visit .down v (always up down v))
        ⟨vs ++ [v], up v (vs.foldl (fun s v => up v s) s)⟩ = _ :=
      visit_of_done (decide_eq_true hlast) rfl
    rw [hkept, hundo v hlast] at hvisit
    rw [List.reverse_append, List.reverse_singleton, List.singleton_append, List.foldl_append,
      List.foldl_cons, List.foldl_nil, pass_of_visit_ok hvisit]
    exact ih hvs fun u hu => hundo u (List.mem_append_left _ hu)

end Scene

/-! ## What is seen of a world -/

/-- What is seen of a world, if all is well with its ledger. -/
structure View (W S : Type) where
  scene : W → Option (Scene S)
  /-- There is a ledger that can be asked. -/
  Ready : W → Prop

namespace View

variable (view : View W S)

/-- There is a ledger, and this is what is seen. -/
structure Shows (w : W) (c : Scene S) : Prop where
  scene : view.scene w = some c
  ready : view.Ready w

/-- The first action comes to what the second one comes to in the scene of its world, and changes
the scene as that one does. -/
def Mirrors (x : ExceptT ε (StateM W) α) (y : ExceptT ε (StateM (Scene S)) α) : Prop :=
  ∀ w c, view.Shows w c →
    (perform x w).1 = (perform y c).1 ∧ view.Shows (perform x w).2 (perform y c).2

variable {view}

theorem mirrors_pure (a : α) :
    view.Mirrors (pure a : ExceptT ε (StateM W) α) (pure a) :=
  fun _ _ h => ⟨rfl, h⟩

theorem mirrors_throw (e : ε) :
    view.Mirrors (throw e : ExceptT ε (StateM W) α) (throw e) :=
  fun _ _ h => ⟨rfl, h⟩

theorem Mirrors.bind {x : ExceptT ε (StateM W) α} {y : ExceptT ε (StateM (Scene S)) α}
    {f : α → ExceptT ε (StateM W) β} {g : α → ExceptT ε (StateM (Scene S)) β}
    (h : view.Mirrors x y) (hf : ∀ a, view.Mirrors (f a) (g a)) :
    view.Mirrors (x >>= f) (y >>= g) := by
  intro w c hw
  obtain ⟨houtcome, hworld⟩ := h w c hw
  rw [perform_bind, perform_bind, houtcome]
  cases (perform y c).1 with
  | error e => exact ⟨rfl, hworld⟩
  | ok a => exact hf a _ _ hworld

theorem Mirrors.naming {x : ExceptT MigrationError (StateM W) Unit}
    {y : ExceptT MigrationError (StateM (Scene S)) Unit} (h : view.Mirrors x y)
    (version : String) :
    view.Mirrors (Migration.naming version x) (Migration.naming version y) := by
  intro w c hw
  obtain ⟨houtcome, hworld⟩ := h w c hw
  rw [perform_naming, perform_naming, houtcome]
  exact ⟨rfl, hworld⟩

variable (view) in
/-- Showing lines changes nothing that is seen. -/
def Ignores (say : String → StateM W Unit) : Prop :=
  ∀ line {w c}, view.Shows w c → view.Shows ((say line).run w).2 c

theorem Ignores.mirrors {say : String → StateM W Unit} (h : view.Ignores say) (line : String) :
    view.Mirrors (liftM (say line) : ExceptT ε (StateM W) Unit)
      (liftM (Scene.silent (S := S) line)) :=
  fun _ _ hw => ⟨rfl, h line hw⟩

/-! ## Stores that serve the ledger -/

variable (view) in
/-- What a run of migrations relies on of a store that never fails: about some versions the store
does what the ledger asks, and leaves the rest as it is. -/
structure Serves (client : Client (StateM W)) (versions : List String) : Prop where
  ready : ∀ {w c}, view.scene w = some c → (perform (Ledger.makeReady client) w).1 = .ok () ∧
    view.Shows (perform (Ledger.makeReady client) w).2 c
  lookup : ∀ {v w c}, v ∈ versions → view.Shows w c →
    ∃ r w', perform (client.select lookupText (lookupParams v)) w = (.ok r, w') ∧
      r.isEmpty = decide (v ∉ c.versions) ∧ view.Shows w' c
  insert : ∀ {e : Entry} {w c}, e.version ∈ versions → view.Shows w c →
    ∃ w', perform (client.insert ledgerTable [e.cells] ledgerColumns) w = (.ok (), w') ∧
      view.Shows w' { c with versions := c.versions ++ [e.version] }
  delete : ∀ {v w c}, v ∈ versions → view.Shows w c →
    ∃ w', perform (client.write (removalText v)) w = (.ok (), w') ∧
      view.Shows w' { c with versions := c.versions.filter (· ≠ v) }

variable (view) in
/-- What a row takes from outside changes nothing that is seen. -/
structure Overlooks (stamp : Stamp (StateM W)) : Prop where
  identifier : ∀ {w c}, view.Shows w c → view.Shows (stamp.identifier.run w).2 c
  now : ∀ {w c}, view.Shows w c → view.Shows (stamp.now.run w).2 c

section Calls

variable {client : Client (StateM W)} {stamp : Stamp (StateM W)} {versions : List String}
  {version : String}

theorem Serves.isApplied (h : view.Serves client versions) (stamp : Stamp (StateM W))
    (hv : version ∈ versions) :
    view.Mirrors ((Ledger.ofClient client stamp).isApplied version)
      (Scene.ledger.isApplied version) := by
  intro w c hw
  obtain ⟨r, w', hselect, hfound, hw'⟩ := h.lookup hv hw
  rw [perform_isApplied, hselect]
  refine ⟨?_, hw'⟩
  simp [Except.map, Except.mapError, hfound, Scene.perform_isApplied]

theorem Serves.note (h : view.Serves client versions) (hstamp : view.Overlooks stamp)
    (way : Direction) (hv : version ∈ versions) :
    view.Mirrors ((Ledger.ofClient client stamp).note way version)
      (Scene.ledger.note way version) := by
  intro w c hw
  rw [Scene.perform_note]
  cases way with
  | up =>
    have hstamped := hstamp.now (hstamp.identifier hw)
    obtain ⟨w', hinsert, hw'⟩ := h.insert (e := rowFor stamp version w) hv hstamped
    rw [Ledger.note, perform_record, hinsert]
    exact ⟨rfl, hw'⟩
  | down =>
    obtain ⟨w', hdelete, hw'⟩ := h.delete hv hw
    rw [Ledger.note, perform_remove, hdelete]
    exact ⟨rfl, hw'⟩

end Calls

/-! ## Runs mirror runs on scenes -/

section Runs

variable {client : Client (StateM W)} {stamp : Stamp (StateM W)} {say : String → StateM W Unit}
  {versions : List String} {bodies : String → Body (StateM S)}

theorem mirrors_shown (hsay : view.Ignores say) (way : Direction) (version : String)
    (visit : Visit) :
    view.Mirrors (liftM (shown way say version visit) : ExceptT ε (StateM W) Unit)
      (liftM (shown way (Scene.silent (S := S)) version visit)) := by
  cases way <;> cases visit <;> first | exact hsay.mirrors _ | exact mirrors_pure ()

theorem Serves.mirrors_goOne (h : view.Serves client versions) (hstamp : view.Overlooks stamp)
    (hsay : view.Ignores say) (way : Direction) {version : String} (hv : version ∈ versions)
    {body : Body (StateM W)} {seen : Body (StateM S)}
    (hbody : view.Mirrors (body.go way) (onRest (seen.go way))) :
    view.Mirrors (goOne way (Ledger.ofClient client stamp) say version body)
      (goOne way Scene.ledger Scene.silent version seen.onRest) := by
  rw [goOne_eq, goOne_eq]
  refine (h.isApplied stamp hv).bind fun found => ?_
  split
  · rw [goDue, goDue, go_onRest]
    refine hbody.bind fun done => ?_
    cases done with
    | true => exact (h.note hstamp way hv).bind fun _ => mirrors_shown hsay way version .done
    | false => exact (mirrors_shown hsay way version .declined).bind fun _ => mirrors_throw _
  · exact mirrors_shown hsay way version .skipped

/-- Migrations that mirror bodies, one after the other, mirror a pass. -/
theorem Serves.mirrors_goAll (h : view.Serves client versions) (hstamp : view.Overlooks stamp)
    (hsay : view.Ignores say) (way : Direction) {migrations : List (String × Body (StateM W))}
    (hversions : ∀ e ∈ migrations, e.1 ∈ versions)
    (hbodies : ∀ e ∈ migrations, view.Mirrors (e.2.go way) (onRest ((bodies e.1).go way))) :
    view.Mirrors (goAll way (Ledger.ofClient client stamp) say migrations)
      (Scene.pass way bodies (migrations.map (·.1))) := by
  induction migrations with
  | nil =>
    rw [List.map_nil, Scene.pass, List.map_nil, goAll_nil, goAll_nil]
    exact mirrors_pure ()
  | cons e rest ih =>
    rw [List.map_cons, Scene.pass_cons, goAll_cons]
    have hone := h.mirrors_goOne hstamp hsay way (hversions e List.mem_cons_self)
      (hbodies e List.mem_cons_self)
    exact (hone.naming e.1).bind fun _ =>
      ih (fun e he => hversions e (List.mem_cons_of_mem _ he))
        (fun e he => hbodies e (List.mem_cons_of_mem _ he))

/-- A run up makes the ledger ready, and mirrors a pass from there. -/
theorem Serves.runUp (h : view.Serves client versions) (hstamp : view.Overlooks stamp)
    (hsay : view.Ignores say) {migrations : NameMap (Body (StateM W))}
    (hversions : ∀ v ∈ migrations.names, v ∈ versions)
    (hbodies : ∀ e ∈ migrations.entries, view.Mirrors e.2.up (onRest (bodies e.1).up)) {w : W}
    {c : Scene S} (hw : view.scene w = some c) :
    (perform (runUp (Ledger.ofClient client stamp) say migrations) w).1
        = (perform (Scene.pass .up bodies migrations.names) c).1 ∧
      view.Shows (perform (runUp (Ledger.ofClient client stamp) say migrations) w).2
        (perform (Scene.pass .up bodies migrations.names) c).2 := by
  obtain ⟨hready, hw₁⟩ := h.ready hw
  have hrun : Migration.runUp (Ledger.ofClient client stamp) say migrations
      = Ledger.makeReady client >>= fun _ =>
          goAll .up (Ledger.ofClient client stamp) say migrations.entries := rfl
  rw [hrun, perform_bind, hready]
  exact h.mirrors_goAll hstamp hsay .up
    (fun e he => hversions e.1 (List.mem_map_of_mem he)) hbodies _ _ hw₁

/-- A run down to an applied version makes the ledger ready, and mirrors a pass from there. -/
theorem Serves.runDown (h : view.Serves client versions) (hstamp : view.Overlooks stamp)
    (hsay : view.Ignores say) {migrations : NameMap (Body (StateM W))}
    (hversions : ∀ v ∈ migrations.names, v ∈ versions)
    (hbodies : ∀ e ∈ migrations.entries, view.Mirrors e.2.down (onRest (bodies e.1).down))
    {target : String} (hname : target ≠ "") (hregistered : target ∈ migrations.names) {w : W}
    {c : Scene S} (hw : view.scene w = some c) (happlied : target ∈ c.versions) :
    (perform (runDown (Ledger.ofClient client stamp) say migrations (some target)) w).1
        = (perform (Scene.pass .down bodies ((fromVersion target migrations).map (·.1))) c).1 ∧
      view.Shows (perform (runDown (Ledger.ofClient client stamp) say migrations (some target)) w).2
        (perform (Scene.pass .down bodies ((fromVersion target migrations).map (·.1))) c).2 := by
  obtain ⟨hready, hw₁⟩ := h.ready hw
  have hnamed : (target.isEmpty || !migrations.contains target) = false := by
    rw [NameMap.contains_iff_mem_names.2 hregistered, Bool.not_true, Bool.or_false]
    simpa using hname
  have hensure : (Ledger.ofClient client stamp).ensureReady = Ledger.makeReady client := rfl
  obtain ⟨hfound, hw₂⟩ := h.isApplied stamp (hversions target hregistered) _ _ hw₁
  rw [Scene.perform_isApplied, decide_eq_true happlied] at hfound
  rw [Scene.perform_isApplied] at hw₂
  have hpass : view.Mirrors
      (goAll .down (Ledger.ofClient client stamp) say (fromVersion target migrations))
      (Scene.pass .down bodies ((fromVersion target migrations).map (·.1))) :=
    h.mirrors_goAll hstamp hsay .down
      (fun e he => hversions e.1 (List.mem_map_of_mem (mem_of_mem_fromVersion he)))
      fun e he => hbodies e (mem_of_mem_fromVersion he)
  -- what follows the way down is a line that is shown
  have hback := hpass.bind fun _ => hsay.mirrors ("Rolled back to version: " ++ target)
  obtain ⟨houtcome, hw₃⟩ := hback _ _ hw₂
  rw [Scene.perform_bind_silent] at houtcome hw₃
  rw [runDown_some, perform_bind, hensure, hready]
  simp only [downTo, isTarget, hnamed, Bool.false_eq_true, if_false]
  rw [perform_bind, hfound]
  exact ⟨houtcome, hw₃⟩

end Runs

end View

end Colonnade.Migration
