import Colonnade.Proofs.RunTheorems

/-!
# Rolling back the version applied last

Without a target a run down goes back to the version that was applied last, which the store finds by
the times of the rows and, among rows of one time, by their versions (`Entry.IsLatest`,
`Memory.tellsLatest_clientOf`). What is then rolled back is chosen by the versions alone. The two
orders differ where a version is registered after a greater one was applied, so it takes a condition
for the version applied last to be the only one (`RollsBackLatest.alone_iff`).
-/

namespace Colonnade.Migration

variable {W : Type}

/-! ## The version applied last -/

/-- Whether an entry was made no later than another one; at one time the smaller version counts as
the earlier. -/
def Entry.NotAfter (a b : Entry) : Prop :=
  a.time.toInt < b.time.toInt ∨ a.time = b.time ∧ a.version ≤ b.version

instance (a b : Entry) : Decidable (a.NotAfter b) := inferInstanceAs (Decidable (_ ∨ _))

theorem Entry.NotAfter.trans {a b c : Entry} (hab : a.NotAfter b) (hbc : b.NotAfter c) :
    a.NotAfter c := by
  rcases hab with hab | ⟨hab, hversions⟩
  · rcases hbc with hbc | ⟨hbc, -⟩
    · exact .inl (Int.lt_trans hab hbc)
    · exact .inl (hbc ▸ hab)
  · rcases hbc with hbc | ⟨hbc, hversions'⟩
    · exact .inl (hab ▸ hbc)
    · exact .inr ⟨hab.trans hbc, String.le_trans hversions hversions'⟩

/-- Of the rows none is after the entry, which is one of them. -/
def Entry.IsLatest (e : Entry) (es : List Entry) : Prop := e ∈ es ∧ ∀ e' ∈ es, e'.NotAfter e

instance (e : Entry) (es : List Entry) : Decidable (e.IsLatest es) :=
  inferInstanceAs (Decidable (_ ∧ _))

/-- The text that finds the version applied last. -/
def latestText : String :=
  "SELECT version AS version FROM migrations ORDER BY timestamp DESC, version DESC LIMIT 1"

theorem execute_latest (client : Client (StateM W)) : latest.execute client = (do
    return .selected (← StatementError.ofStore (client.select latestText .empty))) := by
  have hrender : latest.render = .ok latestText := by
    decide +kernel
  rw [Statement.execute, hrender]
  rfl

/-- The version that a result names. -/
def namedBy (r : SelectResult) : Option String := (r.first? "version").bind Value.asString?

/-- The store tells which version was applied last. -/
def TellsLatest (client : Client (StateM W)) (entries : W → Option (List Entry)) : Prop :=
  ∀ w es r, entries w = some es → (perform (client.select latestText .empty) w).1 = .ok r →
    (namedBy r = none ∧ es = []) ∨ ∃ e : Entry, e.IsLatest es ∧ namedBy r = some e.version

theorem perform_lastVersion (client : Client (StateM W)) (stamp : Stamp (StateM W)) (w : W) :
    perform (Ledger.ofClient client stamp).lastVersion w
      = (((perform (client.select latestText .empty) w).1.map namedBy).mapError storeFailure,
        (perform (client.select latestText .empty) w).2) := by
  simp only [Ledger.ofClient, Ledger.rows, execute_latest, perform_bind, perform_ofStatement,
    perform_statement_ofStore]
  rcases (perform (client.select latestText .empty) w).1 <;> rfl

end Colonnade.Migration

namespace Colonnade.Store

open Migration Text

/-! ## A store in memory -/

/-- How the select of the version applied last is sorted. -/
def latestKeys : List SortKey := [⟨"timestamp", true⟩, ⟨"version", true⟩]

/-- Whether a row comes before another one in that order: both are rows of the ledger, and the
second is not after the first. -/
def Precedes (a b : Row) : Prop :=
  ∃ e e', entryOf? a = some e ∧ entryOf? b = some e' ∧ e'.NotAfter e

theorem compare_string_eq_gt_iff {a b : String} : compare a b = .gt ↔ b < a := by
  change compareOfLessAndEq a b = .gt ↔ b < a
  unfold compareOfLessAndEq
  split
  · next hlt => simp [String.lt_asymm hlt]
  · next hlt =>
    split
    · next heq => exact iff_of_false (by decide) (heq ▸ String.lt_irrefl a)
    · next hne => simp [NameMap.lt_of_not_lt_of_ne hlt hne]

theorem cells_of_entryOf? {row : Row} {e : Entry} (h : entryOf? row = some e) :
    row.get? "timestamp" = some (.int e.time) ∧ row.get? "version" = some (.string e.version) := by
  unfold entryOf? at h
  split at h
  · next htime hversion =>
    cases h
    exact ⟨htime, hversion⟩
  · cases h

theorem compareRows_latestKeys {a b : Row} {e e' : Entry} (ha : entryOf? a = some e)
    (hb : entryOf? b = some e') : compareRows latestKeys a b
      = (compare e.time.toInt e'.time.toInt).swap.then (compare e.version e'.version).swap := by
  obtain ⟨htime, hversion⟩ := cells_of_entryOf? ha
  obtain ⟨htime', hversion'⟩ := cells_of_entryOf? hb
  simp only [latestKeys, compareRows, htime, htime', hversion, hversion', compareCells,
    comparePresent_string, if_true, Ordering.then_eq]
  rfl

/-- A row comes first exactly if it was made later. -/
theorem compareRows_latestKeys_eq_lt {a b : Row} {e e' : Entry} (ha : entryOf? a = some e)
    (hb : entryOf? b = some e') : compareRows latestKeys a b = .lt
      ↔ e'.time.toInt < e.time.toInt ∨ e.time = e'.time ∧ e'.version < e.version := by
  rw [compareRows_latestKeys ha hb, Ordering.then_eq_lt, Ordering.swap_eq_lt, Ordering.swap_eq_lt,
    Ordering.swap_eq_eq, Std.compare_eq_gt, compare_string_eq_gt_iff,
    Std.LawfulEqOrd.compare_eq_iff_eq, Int64.toInt_inj]

theorem sorts_latest :
    Sorts (compareRows latestKeys) (fun row => (entryOf? row).isSome) Precedes where
  trans := by
    rintro a b c ⟨e, e', ha, hb, hab⟩ ⟨f, f', hb', hc, hbc⟩
    rw [hb] at hb'
    cases hb'
    exact ⟨e, f', ha, hc, hbc.trans hab⟩
  below := by
    intro a b ha hb hlt
    obtain ⟨e, ha⟩ := Option.isSome_iff_exists.1 ha
    obtain ⟨e', hb⟩ := Option.isSome_iff_exists.1 hb
    rw [compareRows_latestKeys_eq_lt ha hb] at hlt
    exact ⟨e, e', ha, hb, hlt.imp_right fun ⟨htime, hversion⟩ =>
      ⟨htime.symm, String.not_lt.1 (String.lt_asymm hversion)⟩⟩
  notBelow := by
    intro a b ha hb hlt
    obtain ⟨e, ha⟩ := Option.isSome_iff_exists.1 ha
    obtain ⟨e', hb⟩ := Option.isSome_iff_exists.1 hb
    rw [ne_eq, compareRows_latestKeys_eq_lt ha hb, not_or, not_and, String.not_lt] at hlt
    obtain ⟨htime, hversion⟩ := hlt
    rcases Int.lt_or_eq_of_le (Int.not_lt.1 htime) with hbefore | hsame
    · exact ⟨e', e, hb, ha, .inl hbefore⟩
    · have hsame := Int64.toInt_inj.1 hsame
      exact ⟨e', e, hb, ha, .inr ⟨hsame, hversion hsame⟩⟩

/-- What the select shows. -/
def latestProjection : List Char := "version AS version".toList

/-- What the select is sorted by. -/
def latestOrder : List Char := "timestamp DESC, version DESC".toList

theorem selectShape?_latest : selectShape? latestText.toList = some ⟨latestProjection,
    "migrations".toList, ⟨none, some latestOrder, some ['1'], none⟩⟩ := by
  decide +kernel

theorem normalSql_latest : Memory.normalSql (Sql.bind latestText .empty) = latestText := by
  decide +kernel

theorem sortKeys_latest : sortKeys latestOrder = latestKeys := by
  decide +kernel

theorem map_entryOf?_of_mapM {rows : List Row} {es : List Entry}
    (h : rows.mapM entryOf? = some es) : rows.map entryOf? = es.map some := by
  induction rows generalizing es with
  | nil =>
    cases h
    rfl
  | cons row rows ih =>
    rw [List.mapM_cons] at h
    cases hrow : entryOf? row with
    | none => rw [hrow] at h; cases h
    | some e =>
      cases hrows : rows.mapM entryOf? with
      | none => rw [hrow, hrows] at h; cases h
      | some rest =>
        rw [hrow, hrows] at h
        cases h
        rw [List.map_cons, List.map_cons, hrow, ih hrows]

/-- The first row in the order of the select is that of the latest entry. -/
theorem isLatest_of_head? {rows : List Row} {es : List Entry} (h : rows.mapM entryOf? = some es)
    {row : Row} (hhead : (sortBy (compareRows latestKeys) rows).head? = some row) :
    ∃ e : Entry, entryOf? row = some e ∧ e.IsLatest es := by
  have hmap := map_entryOf?_of_mapM h
  have hentry {row : Row} (hrow : row ∈ rows) : ∃ e ∈ es, entryOf? row = some e := by
    have hmem := List.mem_map_of_mem (f := entryOf?) hrow
    rw [hmap] at hmem
    obtain ⟨e, he, heq⟩ := List.mem_map.1 hmem
    exact ⟨e, he, heq.symm⟩
  have hcomparable : ∀ row ∈ rows, (entryOf? row).isSome := fun row hrow => by
    obtain ⟨e, -, he⟩ := hentry hrow
    simp [he]
  obtain ⟨hmem, hfirst⟩ := sorts_latest.head?_sortBy hcomparable hhead
  obtain ⟨e, he, hrow⟩ := hentry hmem
  refine ⟨e, hrow, he, fun e' he' => ?_⟩
  have hmem' : some e' ∈ rows.map entryOf? := hmap ▸ List.mem_map_of_mem he'
  obtain ⟨row', hrow', hentry'⟩ := List.mem_map.1 hmem'
  rcases hfirst row' hrow' with rfl | ⟨f, f', hf, hf', hnotAfter⟩
  · rw [hrow] at hentry'
    cases hentry'
    exact .inr ⟨rfl, String.le_refl _⟩
  · rw [hrow] at hf
    rw [hentry'] at hf'
    cases hf
    cases hf'
    exact hnotAfter

namespace Memory

/-- A store in memory that tells the version applied last reads it off the first row. -/
theorem rows_of_answer_latest {m : Memory} {r : SelectResult} (h : m.answer latestText = .ok r) :
    ∃ o, m.objects.get? "migrations" = some o ∧
      r.rows = ((sortBy (compareRows latestKeys) o.rows).take 1).map
        (projectRow [("version", "version")]) := by
  have hall : trimChars latestProjection ≠ ['*'] := by decide +kernel
  have hprojection : projection? (trimChars latestProjection)
      = some [("version", "version")] := by
    decide +kernel
  have hone : rowCount? ['1'] = some 1 := by decide +kernel
  rw [answer, selectShape?_latest] at h
  simp only [bareName_ledger] at h
  cases hobject : m.objects.get? "migrations" with
  | none => rw [hobject] at h; cases h
  | some o =>
    simp only [hobject, filterOf, if_neg hall, hprojection, page, sortKeys_latest, hone,
      Option.bind_some, Option.bind_none, Option.getD_none, List.drop_zero] at h
    cases h
    exact ⟨o, rfl, rfl⟩

theorem namedBy_of_projectRow {row : Row} {version : String} {r : SelectResult}
    (hrow : row.get? "version" = some (.string version))
    (hrows : r.rows.head? = some (projectRow [("version", "version")] row)) :
    namedBy r = some version := by
  simp [namedBy, SelectResult.first?, hrows, projectRow, hrow, NameMap.ofList, Value.asString?]

/-- A store in memory tells which version was applied last. -/
theorem tellsLatest_clientOf {W : Type} {read : W → Memory} {update : Memory → W → W} :
    TellsLatest (clientOf read update) (fun w => (read w).entries) := by
  intro w es r hw hr
  rw [perform_select] at hr
  obtain ⟨hqueued, hrows⟩ := entries_eq_some_iff.1 hw
  simp only [select_of_queued hqueued, normalSql_latest] at hr
  obtain ⟨o, hobject, hfound⟩ := rows_of_answer_latest hr
  simp only [hobject] at hrows
  have hsorted := sortBy_perm (compareRows latestKeys) o.rows
  cases hhead : sortBy (compareRows latestKeys) o.rows with
  | nil =>
    rw [hhead] at hsorted hfound
    rw [hsorted.nil_eq.symm] at hrows
    cases hrows
    exact .inl ⟨by simp [namedBy, SelectResult.first?, hfound], rfl⟩
  | cons row rest =>
    obtain ⟨e, hrow, hlatest⟩ := isLatest_of_head? hrows (congrArg List.head? hhead)
    rw [hhead] at hfound
    exact .inr ⟨e, hlatest,
      namedBy_of_projectRow (cells_of_entryOf? hrow).2 (congrArg List.head? hfound)⟩

theorem tellsLatest_client : TellsLatest client entries := tellsLatest_clientOf

end Memory

end Colonnade.Store

namespace Colonnade.Migration

open Store (Memory)

variable {W : Type}

/-! ## Rolling back without a target -/

/-- A rollback to a version that is registered and applied is about that version only if no later
version is. -/
theorem rollback_eq_singleton_iff {α : Type} {migrations : NameMap α} {es : List Entry}
    {target : String} (hregistered : target ∈ migrations.names)
    (happlied : target ∈ versionsOf es) : rollback migrations es target = [target]
      ↔ ∀ v ∈ migrations.names, v ∈ versionsOf es → v ≤ target := by
  have hmem (v : String) : v ∈ rollback migrations es target
      ↔ v ∈ migrations.names ∧ target ≤ v ∧ v ∈ versionsOf es := by
    rw [rollback, List.mem_reverse, List.mem_filter, Bool.and_eq_true, decide_eq_true_eq,
      decide_eq_true_eq]
  constructor
  · intro hone v hv hv'
    by_contra hnot
    have hin := (hmem v).2 ⟨hv, String.not_lt.1 (String.lt_asymm (String.not_le.1 hnot)), hv'⟩
    rw [hone, List.mem_singleton] at hin
    exact hnot (hin ▸ String.le_refl v)
  · intro hlast
    have hall : ∀ v ∈ rollback migrations es target, v = target := fun v hv => by
      obtain ⟨hv, hle, hv'⟩ := (hmem v).1 hv
      exact String.le_antisymm (hlast v hv hv') hle
    have hdescending := rollback_descending migrations es target
    have htarget := (hmem target).2 ⟨hregistered, String.le_refl target, happlied⟩
    generalize rollback migrations es target = l at hall hdescending htarget
    rcases l with _ | ⟨v, _ | ⟨u, l⟩⟩
    · cases htarget
    · rw [hall v List.mem_cons_self]
    · have hlt := (List.pairwise_cons.1 hdescending).1 u List.mem_cons_self
      rw [hall v List.mem_cons_self, hall u (List.mem_cons_of_mem v List.mem_cons_self)] at hlt
      exact absurd hlt (String.lt_irrefl target)

/-- What a successful run down without a target does. -/
structure RollsBackLatest (ledger : Ledger (StateM W)) (say : String → StateM W Unit)
    (entries : W → Option (List Entry)) (migrations : NameMap (Body (StateM W))) (w : W)
    (es : List Entry) (latest : Entry) (log : List Event) (w' : W) : Prop where
  isLatest : latest.IsLatest es
  registered : latest.version ∈ migrations.names
  run : perform (runDown ledger say migrations none) w = (.ok (), w')
  watched : perform (runDown ledger.watched (unseenSay say) (watchedAll migrations) none) (w, [])
    = (.ok (), (w', log))
  /-- It calls the ways down of the versions from the latest on, and of no others. -/
  called : callsOf .down log
    = (rollback migrations es latest.version).map fun v => (v, .ok true)
  /-- Their rows are removed, and no others. -/
  rows : entries w' = some (es.filter fun e => e.version ∉ rollback migrations es latest.version)
  /-- That is the latest version alone exactly if it is the greatest of those that are registered
  and applied. -/
  alone_iff : rollback migrations es latest.version = [latest.version]
    ↔ ∀ v ∈ migrations.names, v ∈ versionsOf es → v ≤ latest.version

section Runs

variable {ledger : Ledger (StateM W)} {entries : W → Option (List Entry)}
  {say : String → StateM W Unit} {migrations : NameMap (Body (StateM W))}

/-- What is rolled back to without a failure is a target, and applied. -/
theorem isTarget_of_downTo_ok {target : String} {w : W} {log : List Event}
    (h : (perform (downTo ledger.watched (unseenSay say) (watchedAll migrations) target)
      (w, log)).1 = .ok ()) :
    (target.isEmpty || !migrations.contains target) = false ∧
      (perform (ledger.isApplied target) w).1 = .ok true := by
  rw [downTo, perform_bind, perform_isTarget_watched] at h
  cases hnamed : target.isEmpty || !migrations.contains target with
  | true =>
    rw [hnamed] at h
    cases h
  | false =>
    simp only [hnamed, Bool.false_eq_true, if_false] at h
    refine ⟨rfl, ?_⟩
    cases happlied : (perform (ledger.isApplied target) w).1 with
    | error e =>
      rw [happlied] at h
      cases h
    | ok found =>
      cases found with
      | true => rfl
      | false =>
        rw [happlied] at h
        cases h

/-- A run down without a target that succeeds has learned the version that was applied last, and
rolls back to it. -/
theorem downTo_of_runDown_none_ok {w : W}
    (h : (perform (runDown ledger.watched (unseenSay say) (watchedAll migrations) none)
      (w, [])).1 = .ok ()) :
    ∃ last, (perform ledger.lastVersion (perform ledger.ensureReady w).2).1 = .ok last ∧
      perform (runDown ledger.watched (unseenSay say) (watchedAll migrations) none) (w, [])
        = perform (downTo ledger.watched (unseenSay say) (watchedAll migrations) (last.getD ""))
            ((perform ledger.lastVersion (perform ledger.ensureReady w).2).2, []) := by
  have hready : ledger.watched.ensureReady = unseen ledger.ensureReady := rfl
  have hlast : ledger.watched.lastVersion = unseen ledger.lastVersion := rfl
  rw [runDown_none, perform_bind, hready, hlast, perform_unseen] at h ⊢
  cases hok : (perform ledger.ensureReady w).1 with
  | error e => rw [hok] at h; cases h
  | ok _ =>
    simp only [hok, perform_bind, perform_unseen] at h ⊢
    cases htold : (perform ledger.lastVersion (perform ledger.ensureReady w).2).1 with
    | error e => rw [htold] at h; cases h
    | ok last => exact ⟨last, rfl, rfl⟩

end Runs

/-- A run down without a target that succeeds rolls back from the version on that was applied last,
whatever the ways down do. -/
theorem runDown_none_exact {client : Client (StateM W)} {stamp : Stamp (StateM W)}
    {entries : W → Option (List Entry)} {say : String → StateM W Unit}
    (hclient : KeepsLedger client entries) (htells : TellsLatest client entries)
    (hstamp : stamp.Keeps entries) (hsay : ∀ line, Keeps entries (say line))
    (migrations : NameMap (Body (StateM W)))
    (hkeeps : ∀ e ∈ migrations.entries, Keeps entries e.2.down.run) {w : W} {es : List Entry}
    (hw : entries w = some es)
    (hdone : (perform (runDown (.ofClient client stamp) say migrations none) w).1 = .ok ()) :
    ∃ latest log w', RollsBackLatest (.ofClient client stamp) say entries migrations w es latest
      log w' := by
  have hledger := hclient.sound hstamp
  obtain ⟨events, hshadow⟩ := shadows_runDown (.ofClient client stamp) say migrations none w []
  rw [hdone] at hshadow
  have hready := hledger.ensureReady w es hw
  have hasked := hledger.lastVersion _ es hready
  obtain ⟨last, hlast, hrun⟩ := downTo_of_runDown_none_ok (congrArg Prod.fst hshadow)
  have hdown := hshadow
  rw [hrun] at hdown
  obtain ⟨hnamed, happlied⟩ := isTarget_of_downTo_ok (congrArg Prod.fst hdown)
  obtain ⟨visits, w', es', hwalked, hw', hwalk⟩ :=
    downTo_spec hledger hsay hkeeps hasked hnamed happlied []
  have hregistered : last.getD "" ∈ migrations.names := by
    rw [Bool.or_eq_false_iff, Bool.not_eq_false'] at hnamed
    exact NameMap.contains_iff_mem_names.1 hnamed.2
  obtain ⟨latest, hlatest, hversion⟩ : ∃ e : Entry, e.IsLatest es ∧ last.getD "" = e.version := by
    rw [perform_lastVersion] at hlast
    cases hanswer : (perform (client.select latestText .empty)
        (perform (Ledger.ofClient client stamp).ensureReady w).2).1 with
    | error e => rw [hanswer] at hlast; cases hlast
    | ok r =>
      rw [hanswer] at hlast
      cases hlast
      rcases htells _ _ _ hready hanswer with ⟨hnone, -⟩ | ⟨e, he, hsome⟩
      · -- the empty text is no target
        rw [hnone] at hnamed
        cases hnamed
      · exact ⟨e, he, by rw [hsome, Option.getD_some]⟩
  have hversions : latest.version ∈ versionsOf es := List.mem_map_of_mem hlatest.1
  have hend := hdown.symm.trans hwalked
  obtain ⟨houtcome, hworld, -⟩ := by simpa only [Prod.mk.injEq] using hend
  obtain ⟨hdue, hcalls⟩ := hwalk.calls_of_succeeds (fromVersion_nodup migrations _)
    (hwalk.outcome_ok_iff.1 houtcome.symm)
  rw [filter_due_fromVersion, hversion] at hdue
  rw [hwalk.rows_down, ← hdue] at hw'
  rw [← hdue] at hcalls
  rw [hversion] at hregistered
  exact ⟨latest, .looked (last.getD "") (.ok true) :: logOf .down visits, w', {
    isLatest := hlatest
    registered := hregistered
    run := Prod.ext hdone hworld
    watched := hrun.trans (hwalked.trans (by rw [← houtcome]; rfl))
    called := hcalls
    rows := hw'
    alone_iff := rollback_eq_singleton_iff hregistered hversions }⟩

/-- Of two versions applied last the greater one is rolled back. -/
theorem runDown_none_exact_tie :
    let stamp : Stamp (StateM Memory) := ⟨pure "id", pure 1000⟩
    let say : String → StateM Memory Unit := fun _ => pure ()
    let migrations : NameMap (Body (StateM Memory)) := telling (.ofList
      [("V1", true, true), ("V2", true, true)])
    let es : List Entry := [⟨"a", 1, "V0"⟩, ⟨"b", 2, "V2"⟩, ⟨"c", 2, "V1"⟩]
    let ledger := Ledger.ofClient Memory.client stamp
    (perform (runDown ledger say migrations none) (Memory.ofEntries es)).1 = .ok () ∧
      ∃ latest log w', RollsBackLatest ledger say Memory.entries migrations (Memory.ofEntries es)
        es latest log w' := by
  intro stamp say migrations es ledger
  have hstamp : stamp.Keeps Memory.entries := ⟨fun _ _ h => h, fun _ _ h => h⟩
  have hsay : ∀ line, Keeps Memory.entries (say line) := fun _ _ _ h => h
  have hdone : (perform (runDown ledger say migrations none) (Memory.ofEntries es)).1 = .ok () := by
    decide +kernel
  exact ⟨hdone, runDown_none_exact Memory.keepsLedger_client Memory.tellsLatest_client hstamp hsay
    migrations (keeps_telling .down) (Memory.entries_ofEntries es) hdone⟩

/-- A version that is registered after a greater one was applied is applied last; the run down takes
the greater one with it. -/
theorem runDown_none_takes_greater :
    let client : Client (StateM (Memory × Int64)) := Memory.clientOf Prod.fst fun m w => (m, w.2)
    let stamp : Stamp (StateM (Memory × Int64)) := ⟨pure "id", fun w => (w.2, (w.1, w.2 + 1))⟩
    let ledger := Ledger.ofClient client stamp
    let say : String → StateM (Memory × Int64) Unit := fun _ => pure ()
    let first := telling (.ofList [("V2", true, true)])
    let both := telling (.ofList [("V1", true, true), ("V2", true, true)])
    let applied := (perform (runUp ledger say both)
      (perform (runUp ledger say first) (Memory.ofEntries [], 1000)).2).2
    let es : List Entry := [⟨"id", 1000, "V2"⟩, ⟨"id", 1001, "V1"⟩]
    applied.1.entries = some es ∧ Entry.IsLatest ⟨"id", 1001, "V1"⟩ es ∧ "V1" ∈ both.names ∧
      (perform (runDown ledger say both none) applied).1 = .ok () ∧
      (perform (runDown ledger say both none) applied).2.1.entries ≠ some (without "V1" es) := by
  decide +kernel

end Colonnade.Migration
