import Colonnade.Migration.Rehearsal
import Colonnade.Proofs.ShapeTheorems

/-!
# A store in memory keeps the ledger

The rows of the ledger in a store in memory, and that its calls treat them as `KeepsLedger` asks. A
version may be any text: its lookup is exact or refused, and its deletion is exact. A client whose
calls are made to fail keeps the ledger as well (`keepsLedger_interruptedClient`), and so does that
of a rehearsal as long as no interruption makes a lookup find nothing.
-/

namespace Colonnade.Store

open Migration

/-! ## Rows of the ledger -/

/-- The entry that a row stands for, if it is a row of the ledger. -/
def entryOf? (row : Row) : Option Entry :=
  match row.get? "uuid", row.get? "timestamp", row.get? "version" with
  | some (.string identifier), some (.int time), some (.string version) =>
    some ⟨identifier, time, version⟩
  | _, _, _ => none

theorem entryOf?_cells (e : Entry) : entryOf? (.ofList (ledgerColumns.zip e.cells)) = some e := by
  simp [ledgerColumns, Entry.cells, NameMap.ofList, entryOf?]

/-- A row is found by the version of its entry. -/
theorem matchesCell_eq {row : Row} {e : Entry} (h : entryOf? row = some e) (version : String) :
    matchesCell "version" (.string version) row = decide (e.version = version) := by
  unfold entryOf? at h
  split at h
  · next hversion =>
    cases h
    rw [matchesCell, hversion, Bool.eq_iff_iff]
    simp only [compareCells, comparePresent_string, beq_iff_eq, Std.LawfulEqOrd.compare_eq_iff_eq,
      decide_eq_true_eq]
  · cases h

/-- What is kept of the rows is kept of their entries. -/
theorem mapM_entryOf?_filter {p : Row → Bool} {q : Entry → Bool}
    (hpq : ∀ row e, entryOf? row = some e → p row = q e) {rows : List Row} {es : List Entry}
    (h : rows.mapM entryOf? = some es) : (rows.filter p).mapM entryOf? = some (es.filter q) := by
  induction rows generalizing es with
  | nil =>
    cases h
    rfl
  | cons row rows ih =>
    rw [List.mapM_cons] at h
    cases hrow : entryOf? row with
    | none => rw [hrow] at h; cases h
    | some e =>
      cases hrows : rows.mapM entryOf? with
      | none => rw [hrow, hrows] at h; cases h
      | some rest =>
        rw [hrow, hrows] at h
        cases h
        rw [List.filter_cons, List.filter_cons, hpq row e hrow]
        split
        · rw [List.mapM_cons, hrow, ih hrows]; rfl
        · exact ih hrows

theorem isEmpty_of_mapM_entryOf? {rows : List Row} {es : List Entry}
    (h : rows.mapM entryOf? = some es) : rows.isEmpty = es.isEmpty := by
  cases rows with
  | nil =>
    cases h
    rfl
  | cons row rows =>
    rw [List.mapM_cons] at h
    cases hrow : entryOf? row with
    | none => rw [hrow] at h; cases h
    | some e =>
      cases hrows : rows.mapM entryOf? with
      | none => rw [hrow, hrows] at h; cases h
      | some rest => rw [hrow, hrows] at h; cases h; rfl

/-- The rows of the ledger in a store in memory; without the table there are none. Nothing is said
of a store with results queued, which answers selects with them, or with other rows in the table. -/
def Memory.entries (m : Memory) : Option (List Entry) :=
  if m.queued.isEmpty then
    match m.objects.get? "migrations" with
    | none => some []
    | some o => o.rows.mapM entryOf?
  else none

/-! ## What the calls do to the rows -/

namespace Memory

variable {m : Memory} {es : List Entry}

theorem entries_eq_some_iff : m.entries = some es ↔ m.queued = [] ∧
    match m.objects.get? "migrations" with
    | none => es = []
    | some o => o.rows.mapM entryOf? = some es := by
  simp only [entries, List.isEmpty_iff]
  split
  · next hqueued =>
    cases m.objects.get? "migrations" <;> simp [hqueued, eq_comm]
  · next hqueued => simp [hqueued]

/-- A store in memory with the given rows in its ledger. -/
def ofEntries (es : List Entry) : Memory where
  objects := NameMap.empty.insert "migrations"
    ⟨.table, creationText, es.map fun e => .ofList (ledgerColumns.zip e.cells)⟩
  executed := []
  queued := []

/-- Every ledger is the ledger of a store in memory. -/
theorem entries_ofEntries (es : List Entry) : (ofEntries es).entries = some es := by
  refine entries_eq_some_iff.2 ⟨rfl, ?_⟩
  rw [ofEntries, NameMap.get?_insert, if_pos rfl]
  change (es.map _).mapM entryOf? = some es
  induction es with
  | nil => rfl
  | cons e es ih => rw [List.map_cons, List.mapM_cons, entryOf?_cells, ih]; rfl

/-- Without queued results a query is answered from the objects. -/
theorem select_of_queued (hqueued : m.queued = []) (sql : String) (params : Params) :
    m.select sql params
      = (m.answer (normalSql (Sql.bind sql params)), m.log (normalSql (Sql.bind sql params))) := by
  have hanswer : ∀ sql' received, (m.log received).answer sql' = m.answer sql' := fun _ _ => rfl
  have hnone : ∀ received, (m.log received).queued = [] := fun _ => hqueued
  simp only [select, hanswer, hnone]
  cases m.answer (normalSql (Sql.bind sql params)) <;> rfl

theorem entries_select (h : m.entries = some es) (sql : String) (params : Params) :
    (m.select sql params).2.entries = some es := by
  rw [select_of_queued (entries_eq_some_iff.1 h).1]
  exact h

/-- A lookup that is answered tells whether the version has a row. -/
theorem isEmpty_select_lookup (h : m.entries = some es) {version : String} {r : SelectResult}
    (hr : (m.select lookupText (lookupParams version)).1 = .ok r) :
    r.isEmpty = decide (version ∉ versionsOf es) := by
  obtain ⟨hqueued, hrows⟩ := entries_eq_some_iff.1 h
  simp only [select_of_queued hqueued] at hr
  obtain ⟨o, hobject, hfound⟩ := rows_of_answer_lookup hr
  rw [hobject] at hrows
  have hkept := mapM_entryOf?_filter (fun row e he => matchesCell_eq he version) hrows
  have hempty := isEmpty_of_mapM_entryOf? hkept
  have hone : r.isEmpty = (o.rows.filter (matchesCell "version" (.string version))).isEmpty := by
    rw [SelectResult.isEmpty, hfound, Bool.eq_iff_iff]
    simp
  rw [hone, hempty, Bool.eq_iff_iff, List.isEmpty_iff, decide_eq_true_eq]
  simp [versionsOf]

theorem entries_setRows {o : StoredObject} (hqueued : m.queued = [])
    (hobject : m.objects.get? "migrations" = some o) {rows : List Row}
    (hrows : rows.mapM entryOf? = some es) : (m.setRows "migrations" rows).entries = some es := by
  refine entries_eq_some_iff.2 ⟨hqueued, ?_⟩
  rw [setRows, NameMap.get?_modify, hobject]
  exact hrows

/-- An insert appends its row, or fails without a table. -/
theorem entries_insert (h : m.entries = some es) (e : Entry) :
    (m.insert ledgerTable [e.cells] ledgerColumns).2.entries
      = some (ifDone (m.insert ledgerTable [e.cells] ledgerColumns).1 (es ++ [e]) es) := by
  obtain ⟨hqueued, hrows⟩ := entries_eq_some_iff.1 h
  have hname : bareName ledgerTable.toList = "migrations" := bareName_ledger
  simp only [insert, hname]
  cases hobject : m.objects.get? "migrations" with
  | none =>
    simp only [log, hobject]
    exact h
  | some o =>
    rw [hobject] at hrows
    simp only [log, hobject]
    have happend : appendRows "migrations" ledgerColumns o.rows [e.cells]
        = (.ok (), o.rows ++ [.ofList (ledgerColumns.zip e.cells)]) := rfl
    have hrow : [NameMap.ofList (ledgerColumns.zip e.cells)].mapM entryOf? = some [e] := by
      rw [List.mapM_cons, entryOf?_cells]
      rfl
    refine entries_setRows hqueued hobject ?_
    rw [happend, List.mapM_append, hrows, hrow]
    rfl

/-- A deletion removes the rows of its version, or fails without a table. -/
theorem entries_delete (h : m.entries = some es) (version : String) :
    (m.write (removalText version)).2.entries
      = some (ifDone (m.write (removalText version)).1 (without version es) es) := by
  obtain ⟨hqueued, hrows⟩ := entries_eq_some_iff.1 h
  rw [write_removal]
  cases hobject : m.objects.get? "migrations" with
  | none => exact h
  | some o =>
    rw [hobject] at hrows
    refine entries_setRows hqueued hobject (mapM_entryOf?_filter (fun row e he => ?_) hrows)
    simp [matchesCell_eq he]

/-- Creating the ledger leaves the rows that it has. -/
theorem entries_create (h : m.entries = some es) : (m.write creationText).2.entries = some es := by
  obtain ⟨hqueued, hrows⟩ := entries_eq_some_iff.1 h
  rw [write_creationText]
  split
  · exact h
  · next hnone =>
    rw [NameMap.contains, Bool.not_eq_true, Option.isSome_eq_false_iff, Option.isNone_iff_eq_none]
      at hnone
    rw [hnone] at hrows
    refine entries_eq_some_iff.2 ⟨hqueued, ?_⟩
    rw [NameMap.get?_insert, if_pos rfl, hrows]
    rfl

/-! ## The client -/

section Client

variable {W : Type} {read : W → Memory} {update : Memory → W → W}

theorem perform_write (sql : String) (w : W) : perform ((clientOf read update).write sql) w
    = (((read w).write sql).1, update ((read w).write sql).2 w) := by
  simp only [clientOf]
  rfl

theorem perform_select (sql : String) (params : Params) (w : W) :
    perform ((clientOf read update).select sql params) w
      = (((read w).select sql params).1, update ((read w).select sql params).2 w) := by
  simp only [clientOf]
  rfl

theorem perform_insert (table : String) (rows : List (List Value)) (columns : List String) (w : W) :
    perform ((clientOf read update).insert table rows columns) w
      = (((read w).insert table rows columns).1,
        update ((read w).insert table rows columns).2 w) := by
  simp only [clientOf]
  rfl

/-- The rows of the ledger, in the states in which they count. -/
def entriesWhere (read : W → Memory) (counts : W → Prop) [DecidablePred counts] (w : W) :
    Option (List Entry) :=
  if counts w then (read w).entries else none

theorem entriesWhere_eq_some_iff {counts : W → Prop} [DecidablePred counts] {w : W}
    {es : List Entry} :
    entriesWhere read counts w = some es ↔ counts w ∧ (read w).entries = some es :=
  Option.ite_none_right_eq_some

/-- The client of a store in memory that is part of a larger state keeps the ledger. The store does
not decide in which states it counts. -/
theorem keepsLedger_clientOf {counts : W → Prop} [DecidablePred counts]
    (hread : ∀ m w, read (update m w) = m) (hcounts : ∀ m w, counts (update m w) ↔ counts w) :
    KeepsLedger (clientOf read update) (entriesWhere read counts) := by
  have hupdated {m : Memory} {w : W} {es : List Entry} (hw : counts w) (hm : m.entries = some es) :
      entriesWhere read counts (update m w) = some es :=
    entriesWhere_eq_some_iff.2 ⟨(hcounts m w).2 hw, by rw [hread, hm]⟩
  exact {
    select := by
      intro sql params w es hw
      obtain ⟨hw, hes⟩ := entriesWhere_eq_some_iff.1 hw
      change entriesWhere read counts (perform ((clientOf read update).select sql params) w).2 = _
      rw [perform_select]
      exact hupdated hw (entries_select hes sql params)
    showTables := fun _ _ h => h
    showCreate := fun _ _ _ h => h
    create := by
      intro w es hw
      obtain ⟨hw, hes⟩ := entriesWhere_eq_some_iff.1 hw
      change entriesWhere read counts (perform ((clientOf read update).write creationText) w).2 = _
      rw [perform_write]
      exact hupdated hw (entries_create hes)
    lookup := by
      intro w es version r hw hr
      simp only [perform_select] at hr
      exact isEmpty_select_lookup (entriesWhere_eq_some_iff.1 hw).2 hr
    insert := by
      intro w es e hw
      obtain ⟨hw, hes⟩ := entriesWhere_eq_some_iff.1 hw
      simp only [perform_insert]
      exact hupdated hw (entries_insert hes e)
    delete := by
      intro w es version hw
      obtain ⟨hw, hes⟩ := entriesWhere_eq_some_iff.1 hw
      simp only [perform_write]
      exact hupdated hw (entries_delete hes version) }

theorem write_creationText_ok (m : Memory) : (m.write creationText).1 = .ok () := by
  rw [write_creationText]
  split <;> rfl

/-- A ledger that is created is known. -/
theorem showCreate_write_creationText {m : Memory}
    (h : m.objects.contains "migrations" = false) :
    (m.write creationText).2.showCreate ledgerTable = creationText := by
  have hname : bareName ledgerTable.toList = "migrations" := bareName_ledger
  rw [write_creationText, h, showCreate, hname]
  simp

/-- Making the ledger of a store in memory ready creates it, if there is none. -/
theorem perform_makeReady (hread : ∀ m w, read (update m w) = m) (w : W) :
    perform (Ledger.makeReady (clientOf read update)) w
      = (.ok (), if (read w).objects.contains "migrations" then w
          else update ((read w).write creationText).2 w) := by
  have htables : perform (clientOf read update).showTables w = (.ok (read w).showTables, w) := rfl
  cases hcontains : (read w).objects.contains "migrations" with
  | true =>
    have hlisted : (read w).showTables.contains ledgerTable = true :=
      List.contains_iff_mem.2 (NameMap.contains_iff_mem_names.1 hcontains)
    rw [makeReady_of_contains (congrArg Prod.fst htables) hlisted, htables, if_pos rfl]
  | false =>
    have hlisted : (read w).showTables.contains ledgerTable = false := by
      rw [Bool.eq_false_iff] at hcontains ⊢
      intro h
      exact hcontains (NameMap.contains_iff_mem_names.2 (List.contains_iff_mem.1 h))
    have hcreated : perform ((clientOf read update).write creationText) w = _ :=
      perform_write creationText w
    rw [write_creationText_ok] at hcreated
    have hshow : ∀ w, perform ((clientOf read update).showCreate ledgerTable) w
        = (.ok ((read w).showCreate ledgerTable), w) := fun _ => rfl
    have hknown := hshow (update ((read w).write creationText).2 w)
    rw [hread, showCreate_write_creationText hcontains] at hknown
    have hsql : creationText.isEmpty = false := by
      unfold creationText
      simp
    rw [makeReady_of_created htables hlisted hcreated (congrArg Prod.fst hknown) hsql, hknown,
      if_neg Bool.false_ne_true]

/-- The ledger of a store in memory can always be made ready. -/
theorem makeReady_clientOf (hread : ∀ m w, read (update m w) = m) (w : W) :
    (perform (Ledger.makeReady (clientOf read update)) w).1 = .ok () := by
  rw [perform_makeReady hread]

/-- The client of a store in memory keeps the ledger. -/
theorem keepsLedger_client : KeepsLedger client entries := by
  have hentries : entriesWhere id (fun _ => True) = entries := funext fun _ => if_pos trivial
  exact hentries ▸ keepsLedger_clientOf (fun _ _ => rfl) fun _ _ => Iff.rfl

end Client

end Memory

/-! ## Interruptions -/

section Interruptions

variable {W : Type} {client : Client (StateM W)} {entries : W → Option (List Entry)}
  {struck : Operation → StateM W (Option Outcome)}

/-- What an interrupted call does: it fails in the world that the interruption leaves, or is made
there. -/
theorem perform_interrupted {α : Type} (struck : StateM W (Option Outcome))
    (nothing call : ExceptT StoreError (StateM W) α) (w : W) :
    perform (interrupted struck nothing call) w =
      match (struck.run w).1 with
      | none => perform call (struck.run w).2
      | some .nothing => perform nothing (struck.run w).2
      | some (.failure e) => (.error e, (struck.run w).2) := by
  unfold interrupted
  rw [perform_bind, perform_liftM]
  rcases (struck.run w).1 with _ | ⟨e⟩ | _ <;> rfl

theorem keeps_interrupted {α : Type} {struck : StateM W (Option Outcome)}
    {nothing call : ExceptT StoreError (StateM W) α} (hstruck : Keeps entries struck)
    (hnothing : Keeps entries nothing.run) (hcall : Keeps entries call.run) :
    Keeps entries (interrupted struck nothing call).run := by
  intro w es hw
  have hw₁ := hstruck w es hw
  change entries (perform (interrupted struck nothing call) w).2 = some es
  rw [perform_interrupted]
  rcases (struck.run w).1 with _ | ⟨e⟩ | _
  · exact hcall _ es hw₁
  · exact hw₁
  · exact hnothing _ es hw₁

/-- A change that is made to fail is not made. -/
theorem changes_interrupted {α : Type} {struck : StateM W (Option Outcome)}
    {call : ExceptT StoreError (StateM W) α} (hstruck : Keeps entries struck) {es es' : List Entry}
    (hcall : ∀ w, entries w = some es →
      entries (perform call w).2 = some (ifDone (perform call w).1 es' es)) {w : W}
    (hw : entries w = some es) :
    entries (perform (interrupted struck call call) w).2
      = some (ifDone (perform (interrupted struck call call) w).1 es' es) := by
  have hw₁ := hstruck w es hw
  rw [perform_interrupted]
  rcases (struck.run w).1 with _ | ⟨e⟩ | _
  · exact hcall _ hw₁
  · exact hw₁
  · exact hcall _ hw₁

/-- A client that keeps the ledger keeps it also if its calls are made to fail, at any time. No
lookup may be made to answer that there is nothing. -/
theorem keepsLedger_interruptedClient (h : KeepsLedger client entries)
    (hstruck : ∀ operation, Keeps entries (struck operation))
    (hselect : ∀ w es, entries w = some es → ((struck .select).run w).1 ≠ some .nothing) :
    KeepsLedger (interruptedClient client struck) entries where
  select sql params :=
    keeps_interrupted (hstruck .select) (keeps_pure _) (h.select sql params)
  showTables := keeps_interrupted (hstruck .showTables) (keeps_pure _) h.showTables
  showCreate name := keeps_interrupted (hstruck .showCreate) (keeps_pure _) (h.showCreate name)
  create := keeps_interrupted (hstruck .write) h.create h.create
  lookup := by
    intro w es version r hw hr
    have hw₁ := hstruck .select w es hw
    have hstruck' := hselect w es hw
    simp only [interruptedClient, perform_interrupted] at hr
    cases hoperation : ((struck .select).run w).1 with
    | none =>
      rw [hoperation] at hr
      exact h.lookup version hw₁ hr
    | some outcome =>
      rw [hoperation] at hr hstruck'
      cases outcome with
      | nothing => exact absurd rfl hstruck'
      | failure e => cases hr
  insert e hw := changes_interrupted (hstruck .insert) (fun _ => h.insert e) hw
  delete version hw := changes_interrupted (hstruck .write) (fun _ => h.delete version) hw

end Interruptions

/-- A select that is interrupted fails. It is not made to answer that there is nothing. -/
def Interruption.Honest (i : Interruption) : Prop := i.operation = .select → i.outcome ≠ .nothing

instance (i : Interruption) : Decidable i.Honest :=
  inferInstanceAs (Decidable (i.operation = .select → i.outcome ≠ .nothing))

/-- What strikes is as honest as what was waiting, and so is what is left. -/
theorem strike_honest {waiting : List Interruption} (h : ∀ i ∈ waiting, i.Honest)
    (operation : Operation) :
    (operation = .select → (strike operation waiting).1 ≠ some .nothing) ∧
      ∀ i ∈ (strike operation waiting).2, i.Honest := by
  induction waiting with
  | nil => exact ⟨by simp [strike], h⟩
  | cons i waiting ih =>
    obtain ⟨hi, hwaiting⟩ := List.forall_mem_cons.1 h
    obtain ⟨houtcome, hleft⟩ := ih hwaiting
    rw [strike]
    split
    · next hoperation =>
      split
      · exact ⟨fun hselect hnothing =>
          hi (hoperation.trans hselect) (Option.some.inj hnothing), hwaiting⟩
      · exact ⟨by simp, List.forall_mem_cons.2 ⟨hi, hwaiting⟩⟩
    · exact ⟨houtcome, List.forall_mem_cons.2 ⟨hi, hleft⟩⟩

end Colonnade.Store

namespace Colonnade.Migration.Rehearsal

open Store

/-- The rows of the ledger, as long as it is told of honestly. -/
def entries : Rehearsal → Option (List Entry) :=
  Memory.entriesWhere memory fun w => ∀ i ∈ w.interruptions, i.Honest

/-- The client of a rehearsal keeps the ledger, whatever is made to fail. -/
theorem keepsLedger_client : KeepsLedger client entries := by
  refine keepsLedger_interruptedClient
    (Memory.keepsLedger_clientOf (fun _ _ => rfl) fun _ _ => Iff.rfl) ?_ ?_
  · intro operation w es hw
    obtain ⟨hhonest, hes⟩ := Memory.entriesWhere_eq_some_iff.1 hw
    exact Memory.entriesWhere_eq_some_iff.2 ⟨(strike_honest hhonest operation).2, hes⟩
  · intro w es hw
    obtain ⟨hhonest, -⟩ := Memory.entriesWhere_eq_some_iff.1 hw
    exact (strike_honest hhonest .select).1 rfl

end Colonnade.Migration.Rehearsal
