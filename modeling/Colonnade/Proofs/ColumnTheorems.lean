import Colonnade.Statement.Basic
import Mathlib.Data.List.Nodup

/-!
# The columns of a statement

A column takes the place of the first one of its name, or stands at the end. `Upserted` is what this
keeps of all the columns that were added: each name once, in the order of the names' first addition,
with the column that was added last under it. No other step changes a column (`columns_step`), so
it holds of the columns of every statement that steps make (`upserted_columns`).
-/

namespace Colonnade.Statement

/-! ## One column put in -/

section Upsert

variable (column : Column) (columns : List Column)

/-- Only a name that is not there yet is put at the end. -/
theorem map_name_upsertColumn : (upsertColumn column columns).map (·.name)
    = if column.name ∈ columns.map (·.name) then columns.map (·.name)
      else columns.map (·.name) ++ [column.name] := by
  induction columns with
  | nil => simp [upsertColumn]
  | cons c cs ih =>
    by_cases hname : c.name = column.name
    · simp [upsertColumn, hname]
    · have hmem : column.name ∈ (c :: cs).map (·.name) ↔ column.name ∈ cs.map (·.name) := by
        simp [Ne.symm hname]
      rw [upsertColumn, if_neg hname, List.map_cons, ih]
      simp only [hmem]
      split <;> rfl

variable {column columns}

/-- A column is the one put in or one of another name, if no name is there twice. -/
theorem mem_upsertColumn {c : Column} (hnodup : (columns.map (·.name)).Nodup)
    (h : c ∈ upsertColumn column columns) : c = column ∨ c ∈ columns ∧ c.name ≠ column.name := by
  induction columns with
  | nil => exact .inl (List.mem_singleton.1 h)
  | cons d ds ih =>
    obtain ⟨hd, hds⟩ := List.nodup_cons.1 hnodup
    rw [upsertColumn] at h
    split at h
    · next hname =>
      rcases List.mem_cons.1 h with rfl | hc
      · exact .inl rfl
      · refine .inr ⟨List.mem_cons_of_mem _ hc, fun heq => hd ?_⟩
        exact List.mem_map.2 ⟨c, hc, heq.trans hname.symm⟩
    · next hname =>
      rcases List.mem_cons.1 h with rfl | hc
      · exact .inr ⟨List.mem_cons_self, hname⟩
      · exact (ih hds hc).imp_right (And.imp_left (List.mem_cons_of_mem _))

end Upsert

/-! ## All columns put in -/

theorem eraseDups_concat (names : List String) (name : String) : (names ++ [name]).eraseDups
    = if name ∈ names then names.eraseDups else names.eraseDups ++ [name] := by
  rw [List.eraseDups_append, List.removeAll, List.filter_singleton]
  by_cases hname : name ∈ names <;> simp [hname, List.eraseDups_cons]

/-- What the columns are after columns were added, one after the other. -/
structure Upserted (added columns : List Column) : Prop where
  /-- No two columns have one name. -/
  nodup : (columns.map (·.name)).Nodup
  /-- Their names stand in the order in which each was added for the first time. -/
  names : columns.map (·.name) = (added.map (·.name)).eraseDups
  /-- Each is the last one that was added under its name. -/
  last : ∀ c ∈ columns, ∃ before after, added = before ++ c :: after ∧ ∀ d ∈ after, d.name ≠ c.name

namespace Upserted

variable {added columns : List Column}

theorem nil : Upserted [] [] := ⟨List.nodup_nil, rfl, by simp⟩

theorem mem_names_iff (h : Upserted added columns) (name : String) :
    name ∈ columns.map (·.name) ↔ name ∈ added.map (·.name) := by
  rw [h.names, List.mem_eraseDups]

/-- One more column is put in. -/
theorem upsert (h : Upserted added columns) (column : Column) :
    Upserted (added ++ [column]) (upsertColumn column columns) where
  nodup := by
    rw [map_name_upsertColumn]
    split
    · exact h.nodup
    · next hnew =>
      refine List.nodup_append.2 ⟨h.nodup, List.nodup_singleton _, ?_⟩
      rintro name hname _ hcolumn rfl
      exact hnew (List.mem_singleton.1 hcolumn ▸ hname)
  names := by
    have hadded := h.mem_names_iff column.name
    rw [map_name_upsertColumn, List.map_append, List.map_singleton, eraseDups_concat, ← h.names]
    exact if_congr hadded rfl rfl
  last := by
    intro c hc
    rcases mem_upsertColumn h.nodup hc with rfl | ⟨hold, hne⟩
    · exact ⟨added, [], rfl, by simp⟩
    · obtain ⟨before, after, rfl, hafter⟩ := h.last c hold
      refine ⟨before, after ++ [column], by simp, ?_⟩
      exact List.forall_mem_append.2 ⟨hafter, List.forall_mem_singleton.2 (Ne.symm hne)⟩

end Upserted

/-! ## Steps -/

/-- The column that a step adds. -/
def Step.column? : Step → Option Column
  | .addColumn name type flags => some ⟨name, type, flags⟩
  | _ => none

/-- A step puts its column in, and no other step changes the columns. -/
theorem columns_step (s : Statement) (step : Step) : (s.step step).columns
    = match step.column? with
      | some column => upsertColumn column s.columns
      | none => s.columns := by
  cases step <;> rfl

theorem Upserted.step {added : List Column} {s : Statement} (h : Upserted added s.columns)
    (step : Step) : Upserted (added ++ step.column?.toList) (s.step step).columns := by
  rw [columns_step]
  cases step.column? with
  | none => simpa using h
  | some column => exact h.upsert column

theorem Upserted.foldl {added : List Column} {s : Statement} (h : Upserted added s.columns)
    (steps : List Step) : Upserted (added ++ steps.filterMap Step.column?)
      (steps.foldl Statement.step s).columns := by
  induction steps generalizing added s with
  | nil => simpa using h
  | cons step steps ih =>
    have hsteps : (step :: steps).filterMap Step.column?
        = step.column?.toList ++ steps.filterMap Step.column? := by
      rw [List.filterMap_cons]
      cases step.column? <;> rfl
    rw [hsteps, ← List.append_assoc]
    exact ih (h.step step)

/-- **A statement has one column per name.** Whatever steps make it, its columns have different
names, which stand in the order in which each was added first, and the type and the flags that were
added last under the name. -/
theorem upserted_columns (steps : List Step) :
    Upserted (steps.filterMap Step.column?) (ofSteps steps).columns :=
  Upserted.foldl (s := empty) .nil steps

/-- A name that is added again, between steps that add nothing. -/
example : (ofSteps [.createTable "t" .none, .addUuid "id" .none, .addString "name" .none,
      .engine .mergeTree, .addSigned "id" { nullable := true } 64]).columns.map Column.definition
    = ["id Nullable(Int64)", "name String"] := by
  decide +kernel

end Colonnade.Statement
