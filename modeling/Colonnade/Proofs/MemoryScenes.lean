import Colonnade.Proofs.LookupTheorems
import Colonnade.Proofs.Scenes

/-!
# Scenes of a store in memory

A store in memory serves the ledger for all versions that do not read as orders. Beside the ledger
its scene shows the other objects, the results that are queued, and what else there is in a world
that the store is part of; lookups that are understood leave the queue alone.
-/

namespace Colonnade.Store.Memory

open Migration

/-! ## The queue and the other objects -/

/-- The store with other results queued. -/
def withQueue (m : Memory) (queued : List SelectResult) : Memory := { m with queued }

variable {m : Memory} {es : List Entry}

/-- The queue has no part in the answer of the objects. -/
theorem answer_withQueue (queued : List SelectResult) (sql : String) :
    (m.withQueue queued).answer sql = m.answer sql := rfl

/-- A select that the objects answer leaves the queue alone. -/
theorem select_of_answer {sql : String} {params : Params} {r : SelectResult}
    (h : m.answer (normalSql (Sql.bind sql params)) = .ok r) :
    m.select sql params = (.ok r, m.log (normalSql (Sql.bind sql params))) := by
  have hanswer : ∀ sql' received, (m.log received).answer sql' = m.answer sql' := fun _ _ => rfl
  simp only [select, hanswer, h]

/-- The queue has no part in an insert. -/
theorem insert_withQueue (queued : List SelectResult) (table : String) (rows : List (List Value))
    (columns : List String) : (m.withQueue queued).insert table rows columns
      = ((m.insert table rows columns).1, (m.insert table rows columns).2.withQueue queued) := by
  simp only [insert, log, withQueue]
  cases m.objects.get? (bareName table.toList) <;> rfl

/-- The queue has no part in a deletion from the ledger. -/
theorem write_removalText_withQueue (queued : List SelectResult) (version : String) :
    (m.withQueue queued).write (removalText version)
      = ((m.write (removalText version)).1,
        (m.write (removalText version)).2.withQueue queued) := by
  have hobjects : (m.withQueue queued).objects = m.objects := rfl
  rw [write_removal, write_removal, hobjects]
  cases m.objects.get? "migrations" <;> rfl

/-- The queue has no part in the creation of the ledger. -/
theorem write_creationText_withQueue (queued : List SelectResult) :
    (m.withQueue queued).write creationText
      = ((m.write creationText).1, (m.write creationText).2.withQueue queued) := by
  rw [write_creationText, write_creationText]
  change (if m.objects.contains "migrations" then _ else _) = _
  split <;> rfl

/-- A store without its ledger and the statements received. -/
abbrev Rest : Type := NameMap StoredObject × List SelectResult

/-- What there is in a store beside the ledger and the statements received. -/
def aside (m : Memory) : Rest := (m.objects.erase "migrations", m.queued)

theorem aside_insert (e : Entry) :
    (m.insert ledgerTable [e.cells] ledgerColumns).2.aside = m.aside := by
  have hname : bareName ledgerTable.toList = "migrations" := bareName_ledger
  simp only [insert, hname, log]
  cases m.objects.get? "migrations" with
  | none => rfl
  | some o => simp only [aside, setRows, NameMap.erase_modify]

theorem aside_write_removalText (version : String) :
    (m.write (removalText version)).2.aside = m.aside := by
  rw [write_removal]
  cases m.objects.get? "migrations" with
  | none => rfl
  | some o => simp only [aside, setRows, log, NameMap.erase_modify]

theorem aside_write_creationText : (m.write creationText).2.aside = m.aside := by
  rw [write_creationText]
  split
  · rfl
  · simp only [aside, log, NameMap.erase_insert]

/-! ## A store in a larger world -/

section View

variable {W T : Type} {read : W → Memory} {update : Memory → W → W} {other : W → T}

/-- What is seen of a world with a store in memory. -/
def view (read : W → Memory) (other : W → T) : View W (Rest × T) where
  scene w := ((read w).withQueue []).entries.map fun es =>
    ⟨versionsOf es, ((read w).aside, other w)⟩
  Ready w := (read w).objects.contains "migrations"

theorem shows_view_iff {w : W} {c : Scene (Rest × T)} :
    (view read other).Shows w c ↔ ∃ es, ((read w).withQueue []).Holds es ∧
      c = ⟨versionsOf es, ((read w).aside, other w)⟩ := by
  constructor
  · rintro ⟨hscene, hready⟩
    obtain ⟨es, hes, rfl⟩ := Option.map_eq_some_iff.1 hscene
    exact ⟨es, ⟨hes, hready⟩, rfl⟩
  · rintro ⟨es, hes, rfl⟩
    exact ⟨Option.map_eq_some_iff.2 ⟨es, hes.entries, rfl⟩, hes.exists_ledger⟩

/-- A world is seen as its store is, if the rest stays. -/
theorem shows_view_update (hread : ∀ m w, read (update m w) = m)
    (hother : ∀ m w, other (update m w) = other w) {w : W} {m : Memory} {es : List Entry}
    (hes : (m.withQueue []).Holds es) (haside : m.aside = (read w).aside) :
    (view read other).Shows (update m w) ⟨versionsOf es, ((read w).aside, other w)⟩ := by
  refine shows_view_iff.2 ⟨es, ?_, ?_⟩
  · rwa [hread]
  · rw [hread, hother, haside]

/-- A store in memory serves the ledger for versions that do not read as orders. -/
theorem serves_view (hread : ∀ m w, read (update m w) = m)
    (hother : ∀ m w, other (update m w) = other w) {versions : List String}
    (hversions : ∀ v ∈ versions, readsAsOrder v.toList = false) :
    (view read other).Serves (clientOf read update) versions where
  ready := by
    intro w c hw
    obtain ⟨es, hes, rfl⟩ := Option.map_eq_some_iff.1 hw
    rw [perform_makeReady hread]
    refine ⟨rfl, ?_⟩
    split
    · next hcontains => exact ⟨hw, hcontains⟩
    · refine shows_view_update hread hother ?_ aside_write_creationText
      have hcreated := holds_write_creationText hes
      rwa [write_creationText_withQueue] at hcreated
  lookup := by
    intro v w c hv hw
    obtain ⟨es, hes, rfl⟩ := shows_view_iff.1 hw
    obtain ⟨-, o, ho, -⟩ := hes.get?
    have hanswer := answer_lookup ho v
    rw [hversions v hv, if_neg Bool.false_ne_true] at hanswer
    have hempty := isEmpty_select_lookup hes.entries
      (congrArg Prod.fst (select_of_answer hanswer))
    rw [answer_withQueue] at hanswer
    rw [perform_select, select_of_answer hanswer]
    exact ⟨_, _, rfl, hempty, shows_view_update hread hother (hes.congr rfl rfl) rfl⟩
  insert := by
    intro e w c _ hw
    obtain ⟨es, hes, rfl⟩ := shows_view_iff.1 hw
    obtain ⟨hok, hinserted⟩ := hes.insert e
    rw [insert_withQueue] at hok hinserted
    dsimp only at hok hinserted
    rw [perform_insert, hok]
    refine ⟨_, rfl, ?_⟩
    have hshown := shows_view_update hread hother hinserted (aside_insert e)
    simpa [versionsOf] using hshown
  delete := by
    intro v w c _ hw
    obtain ⟨es, hes, rfl⟩ := shows_view_iff.1 hw
    obtain ⟨hok, hdeleted⟩ := hes.delete v
    rw [write_removalText_withQueue] at hok hdeleted
    dsimp only at hok hdeleted
    rw [perform_write, hok]
    refine ⟨_, rfl, ?_⟩
    have hshown := shows_view_update hread hother hdeleted (aside_write_removalText v)
    rwa [versionsOf_without] at hshown

end View

end Colonnade.Store.Memory
