import Colonnade.Proofs.MemoryScenes

/-!
# Runs after runs

What a run does to a store that another run has left. A run up that is stopped by a failure can be
made again and ends as if it had never been stopped; a run up that is made twice does nothing the
second time. A run down from the least version takes back all that a run up has done.
-/

namespace Colonnade.Migration

open Store (Memory)

variable {W S : Type} {view : View W S} {client : Client (StateM W)} {stamp : Stamp (StateM W)}
  {say : String → StateM W Unit} {migrations : NameMap (Body (StateM W))}
  {bodies : String → Body (StateM S)}

/-! ## Up after up -/

/-- A run up with one migration in place of another mirrors a pass with one body in place of
another. -/
theorem View.Serves.runUp_insert (hserves : view.Serves client migrations.names)
    (hstamp : view.Overlooks stamp) (hsay : view.Ignores say)
    (hbodies : ∀ e ∈ migrations.entries, view.Mirrors e.2.up (onRest (bodies e.1).up))
    {version : String} (hregistered : version ∈ migrations.names) {broken : Body (StateM W)}
    {failing : Body (StateM S)} (hbroken : view.Mirrors broken.up (onRest failing.up)) {w : W}
    {c : Scene S} (hw : view.scene w = some c) :
    view.Shows
      (perform (Migration.runUp (.ofClient client stamp) say
        (migrations.insert version broken)) w).2
      (perform (Scene.pass .up (Function.update bodies version failing) migrations.names) c).2 := by
  have hnames := NameMap.names_insert broken hregistered
  have hreplaced : ∀ e ∈ (migrations.insert version broken).entries,
      view.Mirrors e.2.up (onRest (Function.update bodies version failing e.1).up) := by
    intro e he
    rcases NameMap.mem_entries_insert he with rfl | ⟨hmem, hne⟩
    · rwa [Function.update_self]
    · rw [Function.update_of_ne hne]
      exact hbodies e hmem
  have hrun := hserves.runUp hstamp hsay (fun v hv => hnames ▸ hv) hreplaced hw
  rw [hnames] at hrun
  exact hrun.2

/-- What a run does in a world where another one was tried before: no less and no more than it does
alone. -/
structure Resumes (view : View W S) (tried run : W → Except MigrationError Unit × W) (w : W) :
    Prop where
  /-- All is well with the ledger in the end. -/
  seen : (view.scene (run w).2).isSome
  /-- The run ends with what it ends with alone. -/
  outcome : (run (tried w).2).1 = (run w).1
  /-- It leaves the versions and the store that it leaves alone. -/
  scene : view.scene (run (tried w).2).2 = view.scene (run w).2

/-- Migrations as they are tried: as they are meant, or one registered version with a way up that
fails and changes nothing. -/
inductive View.Tries (view : View W S) (migrations : NameMap (Body (StateM W))) :
    NameMap (Body (StateM W)) → Prop where
  | meant : view.Tries migrations migrations
  | broken {version : String} (registered : version ∈ migrations.names) {body : Body (StateM W)}
      {failing : Body (StateM S)} (mirrors : view.Mirrors body.up (onRest failing.up))
      (fails : Scene.Broken failing) (harmless : Scene.Harmless failing) :
    view.Tries migrations (migrations.insert version body)

/-- A tried run up mirrors a pass with bodies that are as they are meant or fail. -/
theorem View.Tries.exists_pass {tried : NameMap (Body (StateM W))}
    (htries : view.Tries migrations tried) (hserves : view.Serves client migrations.names)
    (hstamp : view.Overlooks stamp) (hsay : view.Ignores say)
    (hbodies : ∀ e ∈ migrations.entries, view.Mirrors e.2.up (onRest (bodies e.1).up))
    (hharmless : ∀ v ∈ migrations.names, Scene.Harmless (bodies v)) {w : W} {c : Scene S}
    (hw : view.scene w = some c) :
    ∃ triedBodies : String → Body (StateM S),
      (∀ v ∈ migrations.names, Scene.Harmless (triedBodies v)) ∧
      (∀ v ∈ migrations.names, triedBodies v = bodies v ∨ Scene.Broken (triedBodies v)) ∧
      view.Shows (perform (runUp (.ofClient client stamp) say tried) w).2
        (perform (Scene.pass .up triedBodies migrations.names) c).2 := by
  cases htries with
  | meant =>
    obtain ⟨-, hshown⟩ := hserves.runUp hstamp hsay (fun _ hv => hv) hbodies hw
    exact ⟨bodies, hharmless, fun _ _ => .inl rfl, hshown⟩
  | @broken version hregistered body failing hbroken hfails hfailing =>
    refine ⟨Function.update bodies version failing, fun v hv => ?_, fun v _ => ?_,
      hserves.runUp_insert hstamp hsay hbodies hregistered hbroken hw⟩
    · by_cases h : v = version
      · rwa [h, Function.update_self]
      · rw [Function.update_of_ne h]
        exact hharmless v hv
    · by_cases h : v = version
      · exact .inr (by rwa [h, Function.update_self])
      · exact .inl (Function.update_of_ne h ..)

/-- A run up that was stopped by a version whose way up fails is resumed by a run up with the
migrations as they were meant; made once more it changes nothing. -/
theorem runUp_resumes (hserves : view.Serves client migrations.names)
    (hstamp : view.Overlooks stamp) (hsay : view.Ignores say)
    (hbodies : ∀ e ∈ migrations.entries, view.Mirrors e.2.up (onRest (bodies e.1).up))
    (hharmless : ∀ v ∈ migrations.names, Scene.Harmless (bodies v))
    {tried : NameMap (Body (StateM W))} (htries : view.Tries migrations tried) {w : W}
    {c : Scene S} (hw : view.scene w = some c) :
    Resumes view (perform (runUp (.ofClient client stamp) say tried))
      (perform (runUp (.ofClient client stamp) say migrations)) w := by
  have hrun : ∀ {w c}, view.scene w = some c → _ ∧ _ :=
    hserves.runUp hstamp hsay (fun _ hv => hv) hbodies
  obtain ⟨honce, hshown⟩ := hrun hw
  obtain ⟨triedBodies, htried, hsame, hstopped⟩ :=
    htries.exists_pass hserves hstamp hsay hbodies hharmless hw
  obtain ⟨hresumed, hresumedScene⟩ := hrun hstopped.scene
  rw [Scene.resume hharmless htried hsame] at hresumed hresumedScene
  exact {
    seen := Option.isSome_of_mem hshown.scene
    outcome := hresumed.trans honce.symm
    scene := hresumedScene.scene.trans hshown.scene.symm }

/-! ## Worlds with a store in memory and something beside it -/

section Beside

variable {A T ε α : Type}

/-- An action on the second part of a pair. -/
def beside (x : ExceptT ε (StateM T) α) : ExceptT ε (StateM (A × T)) α :=
  ExceptT.mk fun s => ((perform x s.2).1, (s.1, (perform x s.2).2))

/-- A migration that changes the second part of a pair. -/
def Body.beside (body : Body (StateM T)) : Body (StateM (A × T)) :=
  ⟨Migration.beside body.up, Migration.beside body.down⟩

/-- What is done beside a store in memory is seen as done beside its scene. -/
theorem mirrors_beside (x : ExceptT ε (StateM T) α) :
    (Memory.view Prod.fst Prod.snd).Mirrors (beside x : ExceptT ε (StateM (Memory × T)) α)
      (onRest (beside x)) := by
  intro w c hw
  obtain ⟨es, hes, rfl⟩ := Memory.shows_view_iff.1 hw
  exact ⟨rfl, Memory.shows_view_iff.2 ⟨es, hes, rfl⟩⟩

/-- The migration of a version. -/
def bodyOf (bodies : NameMap (Body (StateM T))) (version : String) : Body (StateM T) :=
  (bodies.get? version).getD ⟨pure true, pure true⟩

theorem bodyOf_eq {bodies : NameMap (Body (StateM T))} {e : String × Body (StateM T)}
    (h : e ∈ bodies.entries) : bodyOf bodies e.1 = e.2 := by
  have hget : bodies.get? e.1 = some e.2 := (NameMap.lookup_eq_some_iff_mem bodies.names_nodup).2 h
  rw [bodyOf, hget, Option.getD_some]

theorem mirrors_bodyOf (bodies : NameMap (Body (StateM T))) (way : Direction) :
    ∀ e ∈ (bodies.map Body.beside).entries, (Memory.view Prod.fst Prod.snd).Mirrors
      (e.2.go way : ExceptT MigrationError (StateM (Memory × T)) Bool)
      (onRest ((bodyOf bodies e.1).beside.go way)) := by
  intro e he
  obtain ⟨b, hb, rfl⟩ := List.mem_map.1 he
  rw [bodyOf_eq hb]
  cases way <;> exact mirrors_beside _

theorem harmless_bodyOf {bodies : NameMap (Body (StateM T))}
    (h : ∀ e ∈ bodies.entries, Scene.Harmless e.2) :
    ∀ v ∈ bodies.names, Scene.Harmless ((bodyOf bodies v).beside : Body (StateM (A × T))) := by
  intro v hv s hdone
  obtain ⟨e, he, rfl⟩ := List.mem_map.1 hv
  rw [bodyOf_eq he] at hdone ⊢
  exact Prod.ext rfl (h e he s.2 hdone)

/-- The client of a store in memory with something beside it. -/
def besideClient : Client (StateM (Memory × T)) :=
  Memory.clientOf Prod.fst fun m w => (m, w.2)

/-- A store in memory serves the ledger, whatever is beside it. -/
theorem serves_beside {versions : List String}
    (h : ∀ v ∈ versions, Store.readsAsOrder v.toList = false) :
    (Memory.view Prod.fst Prod.snd).Serves (besideClient (T := T)) versions := by
  unfold besideClient
  refine Memory.serves_view ?_ ?_ h
  · exact fun _ _ => rfl
  · exact fun _ _ => rfl

end Beside

/-- Of three versions the first adds one to a number and the second doubles it; the third declines
odd numbers. They are tried as they are meant, and with the second one broken. -/
theorem runUp_resumes_doubling :
    let stamp : Stamp (StateM (Memory × Int)) := ⟨pure "id", pure 1000⟩
    let say : String → StateM (Memory × Int) Unit := fun _ => pure ()
    let bodies : NameMap (Body (StateM Int)) := .ofList
      [("V1", .done (· + 1) (· - 1)), ("V2", .done (· * 2) (· / 2)),
        ("V3", ⟨do return (← get) % 2 = 0, pure true⟩)]
    let migrations : NameMap (Body (StateM (Memory × Int))) := bodies.map Body.beside
    let broken : Body (StateM Int) := ⟨throw (.irreversible "V2"), pure true⟩
    let view := Memory.view (Prod.fst : Memory × Int → Memory) Prod.snd
    let ledger := Ledger.ofClient besideClient stamp
    "V2" ∈ migrations.names ∧
      ∀ tried ∈ [migrations, migrations.insert "V2" broken.beside], Resumes view
        (perform (runUp ledger say tried)) (perform (runUp ledger say migrations))
        (Memory.empty, 4) := by
  intro stamp say bodies migrations broken view ledger
  have hnames : migrations.names = ["V1", "V2", "V3"] := by decide +kernel
  have hregistered : "V2" ∈ migrations.names := by rw [hnames]; decide
  have horders : ∀ v ∈ migrations.names, Store.readsAsOrder v.toList = false := by
    rw [hnames]
    decide +kernel
  have hserves : view.Serves besideClient migrations.names := serves_beside horders
  have hbare : ∀ e ∈ bodies.entries, Scene.Harmless e.2 := by
    intro e he
    rw [NameMap.mem_entries_ofList (by decide)] at he
    simp only [List.mem_cons, List.not_mem_nil, or_false] at he
    rcases he with rfl | rfl | rfl
    · exact fun s h => absurd rfl h
    · exact fun s h => absurd rfl h
    · exact fun _ _ => rfl
  have hbodies : bodies.names = migrations.names := by
    simp [NameMap.names, migrations, NameMap.map]
  let seen (v : String) : Body (StateM (Memory.Rest × Int)) := (bodyOf bodies v).beside
  have hmirrors : ∀ e ∈ migrations.entries, view.Mirrors e.2.up (onRest (seen e.1).up) :=
    mirrors_bodyOf bodies .up
  have hharmless : ∀ v ∈ migrations.names, Scene.Harmless (seen v) :=
    hbodies ▸ harmless_bodyOf hbare
  have hstamp : view.Overlooks stamp := ⟨fun h => h, fun h => h⟩
  have hsay : view.Ignores say := fun _ _ _ h => h
  let failing : Body (StateM (Memory.Rest × Int)) := broken.beside
  have hbroken : view.Mirrors broken.beside.up (onRest failing.up) := mirrors_beside broken.up
  have hfails : Scene.Broken failing := by
    intro s h
    cases h
  have hfailing : Scene.Harmless failing := fun _ _ => rfl
  have hw : view.scene (Memory.empty, 4) = some ⟨[], (Memory.empty.aside, 4)⟩ := rfl
  refine ⟨hregistered, fun tried htried => ?_⟩
  have htries : view.Tries migrations tried := by
    rcases List.mem_pair.1 htried with rfl | rfl
    · exact .meant
    · exact .broken hregistered hbroken hfails hfailing
  exact runUp_resumes hserves hstamp hsay hmirrors hharmless htries hw

/-! ## Down after up -/

/-- Two runs, one after the other, succeed, and the second one takes back what the first one did. -/
structure TakesBack (view : View W S) (first second : W → Except MigrationError Unit × W) (w : W)
    (c : Scene S) : Prop where
  first_ok : (first w).1 = .ok ()
  second_ok : (second (first w).2).1 = .ok ()
  /-- In the end there is to be seen what was to be seen before. -/
  scene : view.scene w = some c ∧ view.scene (second (first w).2).2 = some c

/-- A run down from the least version takes back what a run up has done, if every migration is done
and its way down undoes its way up. -/
theorem View.Serves.runDown_runUp (hserves : view.Serves client migrations.names)
    (hstamp : view.Overlooks stamp) (hsay : view.Ignores say) {up down : String → S → S}
    (hup : ∀ e ∈ migrations.entries,
      view.Mirrors e.2.up (onRest (Scene.always up down e.1).up))
    (hdown : ∀ e ∈ migrations.entries,
      view.Mirrors e.2.down (onRest (Scene.always up down e.1).down))
    (hundo : ∀ v ∈ migrations.names, ∀ s, down v (up v s) = s) {least : String}
    (hname : least ≠ "") (hregistered : least ∈ migrations.names)
    (hleast : ∀ v ∈ migrations.names, least ≤ v) {w : W} {s : S}
    (hw : view.scene w = some ⟨[], s⟩) :
    TakesBack view (perform (Migration.runUp (.ofClient client stamp) say migrations))
      (perform (Migration.runDown (.ofClient client stamp) say migrations (some least))) w
      ⟨[], s⟩ := by
  obtain ⟨hfirst, hup'⟩ := hserves.runUp hstamp hsay (fun _ hv => hv) hup hw
  rw [Scene.pass_up_always (by rw [List.nil_append]; exact migrations.names_nodup),
    List.nil_append] at hfirst hup'
  have hreversed : (fromVersion least migrations).map (·.1) = migrations.names.reverse := by
    rw [fromVersion, List.filter_eq_self.2, List.map_reverse, NameMap.names]
    exact fun e he => decide_eq_true (hleast _ (List.mem_map_of_mem (List.mem_reverse.1 he)))
  obtain ⟨hsecond, hdown'⟩ :=
    hserves.runDown hstamp hsay (fun _ hv => hv) hdown hname hregistered hup'.scene hregistered
  rw [hreversed, Scene.unwind migrations.names_nodup hundo] at hsecond hdown'
  exact ⟨hfirst, hsecond, hw, hdown'.scene⟩

/-- In a world with a store in memory a run up and a run down from the least version both succeed
and leave what was there before, with an empty ledger, if every migration is done, its way down
undoes its way up, and no version reads as an order. -/
theorem runDown_undoes_runUp {T : Type} {read : W → Memory} {update : Memory → W → W}
    {other : W → T} (hread : ∀ m w, read (update m w) = m)
    (hother : ∀ m w, other (update m w) = other w)
    (hstamp : (Memory.view read other).Overlooks stamp)
    (hsay : (Memory.view read other).Ignores say)
    {up down : String → Memory.Rest × T → Memory.Rest × T}
    (hup : ∀ e ∈ migrations.entries,
      (Memory.view read other).Mirrors e.2.up (onRest (Scene.always up down e.1).up))
    (hdown : ∀ e ∈ migrations.entries,
      (Memory.view read other).Mirrors e.2.down (onRest (Scene.always up down e.1).down))
    (hundo : ∀ v ∈ migrations.names, ∀ s, down v (up v s) = s)
    (horders : ∀ v ∈ migrations.names, Store.readsAsOrder v.toList = false) {least : String}
    (hname : least ≠ "") (hregistered : least ∈ migrations.names)
    (hleast : ∀ v ∈ migrations.names, least ≤ v) {w : W} {s : Memory.Rest × T}
    (hw : (Memory.view read other).scene w = some ⟨[], s⟩) :
    TakesBack (Memory.view read other)
      (perform (runUp (.ofClient (Memory.clientOf read update) stamp) say migrations))
      (perform (runDown (.ofClient (Memory.clientOf read update) stamp) say migrations
        (some least))) w ⟨[], s⟩ :=
  (Memory.serves_view hread hother horders).runDown_runUp hstamp hsay hup hdown hundo hname
    hregistered hleast hw

/-- Of two migrations the first adds one to a number and the second doubles it. -/
theorem runDown_undoes_runUp_doubling :
    let stamp : Stamp (StateM (Memory × Int)) := ⟨pure "id", pure 1000⟩
    let say : String → StateM (Memory × Int) Unit := fun _ => pure ()
    let bodies : NameMap (Body (StateM Int)) := .ofList
      [("V1", .done (· + 1) (· - 1)), ("V2", .done (· * 2) (· / 2))]
    let migrations : NameMap (Body (StateM (Memory × Int))) := bodies.map Body.beside
    let view := Memory.view (Prod.fst : Memory × Int → Memory) Prod.snd
    let ledger := Ledger.ofClient besideClient stamp
    TakesBack view (perform (runUp ledger say migrations))
      (perform (runDown ledger say migrations (some "V1"))) (Memory.empty, 4)
      ⟨[], (Memory.empty.aside, 4)⟩ := by
  intro stamp say bodies migrations view ledger
  have hnames : migrations.names = ["V1", "V2"] := by decide +kernel
  have horders : ∀ v ∈ migrations.names, Store.readsAsOrder v.toList = false := by
    rw [hnames]
    decide +kernel
  let up (v : String) (s : Memory.Rest × Int) : Memory.Rest × Int :=
    (s.1, if v = "V1" then s.2 + 1 else s.2 * 2)
  let down (v : String) (s : Memory.Rest × Int) : Memory.Rest × Int :=
    (s.1, if v = "V1" then s.2 - 1 else s.2 / 2)
  have hundo : ∀ v ∈ migrations.names, ∀ s, down v (up v s) = s := by
    rw [hnames]
    intro v hv s
    rcases List.mem_pair.1 hv with rfl | rfl <;> simp [up, down]
  have hgo : ∀ way, ∀ e ∈ migrations.entries,
      view.Mirrors (e.2.go way) (onRest ((Scene.always up down e.1).go way)) := by
    intro way e he
    obtain ⟨b, hb, rfl⟩ := List.mem_map.1 he
    rw [NameMap.mem_entries_ofList (by decide)] at hb
    rcases List.mem_pair.1 hb with rfl | rfl <;> cases way <;> exact mirrors_beside _
  have hregistered : "V1" ∈ migrations.names := by rw [hnames]; decide
  have hleast : ∀ v ∈ migrations.names, "V1" ≤ v := by rw [hnames]; decide
  have hstamp : view.Overlooks stamp := ⟨fun h => h, fun h => h⟩
  have hsay : view.Ignores say := fun _ _ _ h => h
  have hname : "V1" ≠ "" := by decide
  have hw : view.scene (Memory.empty, 4) = some ⟨[], (Memory.empty.aside, 4)⟩ := rfl
  have hread : ∀ (m : Memory) (w : Memory × Int), Prod.fst (m, w.2) = m := fun _ _ => rfl
  have hother : ∀ (m : Memory) (w : Memory × Int), Prod.snd (m, w.2) = w.2 := fun _ _ => rfl
  exact runDown_undoes_runUp hread hother hstamp hsay (hgo .up) (hgo .down) hundo horders hname
    hregistered hleast hw

/-- A version of which the ledger does not tell whether it is applied ends the run. -/
theorem goAll_of_unknown (way : Direction) (ledger : Ledger (StateM W))
    (say : String → StateM W Unit) {version : String} (body : Body (StateM W))
    (rest : List (String × Body (StateM W))) {w : W} {e : MigrationError}
    (h : (perform (ledger.isApplied version) w).1 = .error e) :
    (perform (goAll way ledger say ((version, body) :: rest)) w).1 = .error (e.within version) := by
  rw [goAll_cons, perform_bind, perform_naming, goOne_eq, perform_bind, h]
  rfl

/-- Migrations that are done and change nothing cannot go up if a version reads as an order. -/
theorem runUp_refuses_order :
    let stamp : Stamp (StateM Memory) := ⟨pure "id", pure 1000⟩
    let say : String → StateM Memory Unit := fun _ => pure ()
    let migrations : NameMap (Body (StateM Memory)) :=
      telling (.ofList [("x ORDER BY y", true, true)])
    let view := Memory.view (id : Memory → Memory) fun _ => ()
    let ledger := Ledger.ofClient Memory.client stamp
    (∀ e ∈ migrations.entries, view.Mirrors e.2.up (onRest (Body.done id id).up) ∧
        view.Mirrors e.2.down (onRest (Body.done id id).down)) ∧
      migrations.names = ["x ORDER BY y"] ∧
      view.scene Memory.empty = some ⟨[], (Memory.empty.aside, ())⟩ ∧
      ∃ reason, (perform (runUp ledger say migrations) Memory.empty).1
        = .error (.execution "x ORDER BY y" reason) := by
  intro stamp say migrations view ledger
  have hnames : migrations.names = ["x ORDER BY y"] := by decide +kernel
  refine ⟨?_, hnames, rfl, ?_⟩
  · intro e he
    obtain ⟨a, ha, rfl⟩ := List.mem_map.1 he
    rw [NameMap.mem_entries_ofList (by decide)] at ha
    rw [List.mem_singleton.1 ha]
    exact ⟨fun _ _ h => ⟨rfl, h⟩, fun _ _ h => ⟨rfl, h⟩⟩
  · obtain ⟨⟨version, body⟩, hentries, hversion⟩ := List.map_eq_singleton_iff.1 hnames
    dsimp only at hversion
    have hrun : runUp ledger say migrations
        = Ledger.makeReady Memory.client >>= fun _ => goAll .up ledger say [(version, body)] := by
      rw [← hentries]
      rfl
    have hready : (perform (Ledger.makeReady Memory.client) Memory.empty).1 = .ok () :=
      Memory.makeReady_clientOf (fun _ _ => rfl) _
    have hholds : (perform (Ledger.makeReady Memory.client) Memory.empty).2.Holds [] :=
      Memory.holds_makeReady rfl
    have horder : Store.readsAsOrder version.toList = true := by
      rw [hversion]
      decide +kernel
    have hunknown := hholds.isApplied stamp version
    rw [horder, if_pos rfl] at hunknown
    have hended := goAll_of_unknown .up ledger say body [] hunknown
    rw [hrun, perform_bind, hready]
    rw [hversion] at hended ⊢
    exact ⟨_, hended⟩

end Colonnade.Migration
