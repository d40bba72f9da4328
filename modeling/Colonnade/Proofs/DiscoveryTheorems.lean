import Colonnade.Files.Tree
import Colonnade.Migration.SqlFile
import Colonnade.Proofs.Watching
import Mathlib.Data.List.Nodup
import Mathlib.Data.List.Perm.Basic

/-!
# Discovery of migrations

The files of a directory come in any order. Of the migrations among them a version needs to be known
and nothing else: its file with the way up is there, and its file with the way down may be there or
not (`migrationsAmong_eq`). So the names of the files count for nothing but being there
(`migrationsAmong_congr`), and what is found does not depend on how the directory is gone through.
-/

namespace Colonnade

namespace NameMap

variable {α : Type}

/-- Entries whose values are told by their names make the map that says which names there are. -/
theorem get?_ofList_of_forall (value : String → α) {l : List (String × α)}
    (h : ∀ e ∈ l, e.2 = value e.1) (n : String) :
    (ofList l).get? n = if n ∈ l.map (·.1) then some (value n) else none := by
  have hfold (m : NameMap α) : (l.foldl (fun m e => m.insert e.1 e.2) m).get? n
      = if n ∈ l.map (·.1) then some (value n) else m.get? n := by
    induction l generalizing m with
    | nil => simp
    | cons e l ih =>
      obtain ⟨he, hl⟩ := List.forall_mem_cons.1 h
      rw [List.foldl_cons, ih hl, get?_insert, he, List.map_cons]
      by_cases hn : n = e.1
      · simp [hn]
      · rw [if_neg hn]
        exact if_congr (by rw [List.mem_cons, or_iff_right hn]) rfl rfl
  rw [ofList, hfold, get?_empty]

/-- Maps with the same names have them in the same order. -/
theorem names_eq_of_mem_iff {m m' : NameMap α} (h : ∀ n, n ∈ m.names ↔ n ∈ m'.names) :
    m.names = m'.names := by
  have hperm : m.names.Perm m'.names :=
    (List.perm_ext_iff_of_nodup m.names_nodup m'.names_nodup).2 h
  have hsorted (m : NameMap α) : m.names.Pairwise (· < ·) := List.pairwise_map.2 m.ascending
  refine hperm.eq_of_pairwise (fun a b _ _ hab hba => ?_) (hsorted m) (hsorted m')
  exact absurd (String.lt_trans hab hba) (String.lt_irrefl a)

end NameMap

namespace Migration

open Files (DirectoryEntry)

variable {directory version ending : String} {names names' : List String}

/-! ## Files by their endings -/

theorem mem_names_filesEnding :
    version ∈ (filesEnding ending names).names ↔ version ++ ending ∈ names := by
  rw [filesEnding, NameMap.mem_names_ofList]
  simp [Text.dropEnd?_eq_some_iff]

theorem get?_filesEnding (ending version : String) (names : List String) :
    (filesEnding ending names).get? version
      = if version ++ ending ∈ names then some (version ++ ending) else none := by
  rw [filesEnding, NameMap.get?_ofList_of_forall (· ++ ending)]
  · simp [Text.dropEnd?_eq_some_iff]
  · intro e he
    simp only [List.mem_filterMap, Option.map_eq_some_iff] at he
    obtain ⟨name, -, front, hfront, rfl⟩ := he
    exact Text.dropEnd?_eq_some_iff.1 hfront

/-! ## The migrations of a directory -/

/-- The migration of a version among files. -/
def SqlFile.ofVersion (directory : String) (names : List String) (version : String) : SqlFile where
  version
  directory
  up := version ++ upEnding
  down := if version ++ downEnding ∈ names then some (version ++ downEnding) else none

/-- The migrations are those of the versions with a way up. -/
theorem migrationsAmong_eq (directory : String) (names : List String) :
    migrationsAmong directory names
      = (filesEnding upEnding names).names.map (SqlFile.ofVersion directory names) := by
  rw [migrationsAmong, NameMap.names, List.map_map]
  refine List.map_congr_left fun e he => ?_
  obtain ⟨version, up⟩ := e
  have hup : (filesEnding upEnding names).get? version = some up :=
    (NameMap.lookup_eq_some_iff_mem (filesEnding upEnding names).names_nodup).2 he
  rw [get?_filesEnding] at hup
  split at hup
  · cases hup
    simp only [get?_filesEnding]
    rfl
  · cases hup

theorem mem_migrationsAmong_iff {f : SqlFile} : f ∈ migrationsAmong directory names ↔
    f.version ++ upEnding ∈ names ∧ f = .ofVersion directory names f.version := by
  rw [migrationsAmong_eq, List.mem_map]
  constructor
  · rintro ⟨version, hversion, rfl⟩
    exact ⟨mem_names_filesEnding.1 hversion, rfl⟩
  · rintro ⟨hup, heq⟩
    exact ⟨f.version, mem_names_filesEnding.2 hup, heq.symm⟩

theorem ascending_migrationsAmong (directory : String) (names : List String) :
    (migrationsAmong directory names).Pairwise fun a b => a.version < b.version := by
  rw [migrationsAmong_eq, List.pairwise_map]
  exact List.pairwise_map.2 (filesEnding upEnding names).ascending

/-- Nothing of the files counts but which versions have a way up, and which of these have a way
down. -/
theorem migrationsAmong_congr
    (hup : ∀ version, version ++ upEnding ∈ names ↔ version ++ upEnding ∈ names')
    (hdown : ∀ version, version ++ upEnding ∈ names →
      (version ++ downEnding ∈ names ↔ version ++ downEnding ∈ names')) :
    migrationsAmong directory names = migrationsAmong directory names' := by
  have hversions : (filesEnding upEnding names).names = (filesEnding upEnding names').names := by
    refine NameMap.names_eq_of_mem_iff fun version => ?_
    rw [mem_names_filesEnding, mem_names_filesEnding, hup]
  rw [migrationsAmong_eq, migrationsAmong_eq, ← hversions]
  refine List.map_congr_left fun version hversion => ?_
  simp only [SqlFile.ofVersion, hdown version (mem_names_filesEnding.1 hversion)]

/-- What is discovered among files: one migration for each version with a way up. -/
structure Discovered (directory : String) (names : List String) (migrations : List SqlFile) :
    Prop where
  /-- They come in the order of their versions. -/
  ascending : migrations.Pairwise fun a b => a.version < b.version
  /-- Each file with a way up makes a migration, and only one. -/
  one_each : ∀ version, version ++ upEnding ∈ names →
    ∃! f, f ∈ migrations ∧ f.up = version ++ upEnding
  /-- Each migration is made by a file with a way up, and its way down is the file of that name if
  there is one. -/
  files : ∀ f ∈ migrations, f.version ++ upEnding ∈ names ∧ f.directory = directory ∧
    f.up = f.version ++ upEnding ∧
    f.down = if f.version ++ downEnding ∈ names then some (f.version ++ downEnding) else none
  /-- Other files, a way down without a way up among them, make no difference. -/
  others : ∀ others : List String, (∀ name ∈ others, ∀ version, name ≠ version ++ upEnding ∧
    (version ++ upEnding ∈ names → name ≠ version ++ downEnding)) →
    migrationsAmong directory (names ++ others) = migrations
  /-- They may be gone through in any order if they are sorted then. -/
  sorted : ∀ walked : List SqlFile, walked.Perm migrations →
    walked.mergeSort (fun a b => decide (a.version ≤ b.version)) = migrations

theorem eq_mergeSort_migrationsAmong {walked : List SqlFile}
    (h : walked.Perm (migrationsAmong directory names)) :
    walked.mergeSort (fun a b => decide (a.version ≤ b.version))
      = migrationsAmong directory names := by
  have htrans (a b c : SqlFile) (hab : decide (a.version ≤ b.version) = true)
      (hbc : decide (b.version ≤ c.version) = true) : decide (a.version ≤ c.version) = true :=
    decide_eq_true (String.le_trans (of_decide_eq_true hab) (of_decide_eq_true hbc))
  have htotal (a b : SqlFile) :
      (decide (a.version ≤ b.version) || decide (b.version ≤ a.version)) = true := by
    simpa using String.le_total a.version b.version
  have hsorted := (List.pairwise_mergeSort htrans htotal walked).imp of_decide_eq_true
  have hperm := (List.mergeSort_perm walked
    fun a b => decide (a.version ≤ b.version)).trans h
  refine hperm.eq_of_pairwise (fun a b ha hb hab hba => ?_) hsorted
    ((ascending_migrationsAmong directory names).imp Std.le_of_lt)
  -- a version has one migration
  have hfile := (mem_migrationsAmong_iff.1 (hperm.mem_iff.1 ha)).2
  rw [hfile, String.le_antisymm hab hba]
  exact (mem_migrationsAmong_iff.1 hb).2.symm

theorem discovered_migrationsAmong (directory : String) (names : List String) :
    Discovered directory names (migrationsAmong directory names) where
  ascending := ascending_migrationsAmong directory names
  one_each := by
    intro version hup
    refine ⟨.ofVersion directory names version, ⟨mem_migrationsAmong_iff.2 ⟨hup, rfl⟩, rfl⟩, ?_⟩
    rintro f ⟨hf, hfup⟩
    have heq := (mem_migrationsAmong_iff.1 hf).2
    rw [heq] at hfup
    rw [heq, (String.append_left_inj upEnding).1 hfup]
  files := by
    intro f hf
    obtain ⟨hup, heq⟩ := mem_migrationsAmong_iff.1 hf
    refine ⟨hup, ?_⟩
    rw [heq]
    exact ⟨rfl, rfl, rfl⟩
  others := by
    intro others hothers
    refine (migrationsAmong_congr (fun version => ?_) fun version hup => ?_).symm
    · rw [List.mem_append]
      exact ⟨.inl, fun h => h.resolve_right fun hname => (hothers _ hname version).1 rfl⟩
    · rw [List.mem_append]
      exact ⟨.inl, fun h => h.resolve_right fun hname => (hothers _ hname version).2 hup rfl⟩
  sorted _ h := eq_mergeSort_migrationsAmong h

/-! ## Reading a directory -/

/-- The names of the regular files in a directory. -/
def fileNames (entries : List DirectoryEntry) : List String :=
  (entries.filter (·.isFile)).map (·.name)

variable {W : Type} {files : Files.Access (StateM W)}

theorem perform_discover {w v : W} {entries : List DirectoryEntry}
    (h : perform (files.list directory) w = (.ok entries, v)) :
    perform (discover files directory) w
      = (.ok (migrationsAmong directory (fileNames entries)), v) := by
  have hrun : (files.list directory).run.run w = (.ok entries, v) := h
  rw [perform, discover, ExceptT.run_mk, StateT.run_bind, hrun]
  rfl

/-- **Discovery does not depend on the order of a directory.** Wherever a directory lists the same
files, in whatever order, the same migrations are discovered: one for each version with a way up. -/
theorem discover_order_independent {w w' v v' : W} {entries entries' : List DirectoryEntry}
    (hlist : perform (files.list directory) w = (.ok entries, v))
    (hlist' : perform (files.list directory) w' = (.ok entries', v'))
    (hperm : entries.Perm entries') :
    ∃ migrations, perform (discover files directory) w = (.ok migrations, v) ∧
      perform (discover files directory) w' = (.ok migrations, v') ∧
      Discovered directory (fileNames entries) migrations := by
  have hnames : (fileNames entries).Perm (fileNames entries') := (hperm.filter _).map _
  have hsame : migrationsAmong directory (fileNames entries')
      = migrationsAmong directory (fileNames entries) :=
    migrationsAmong_congr (fun _ => hnames.mem_iff.symm) fun _ _ => hnames.mem_iff.symm
  refine ⟨_, perform_discover hlist, ?_, discovered_migrationsAmong directory _⟩
  rw [perform_discover hlist', hsame]

/-- Names with both endings, names that are nothing but an ending, a way down without a way up, files
of another kind and a directory, made in two orders. -/
theorem discover_order_independent_mixed :
    let files : Files.Access (StateM Files.Tree) := Files.Tree.access get
    let names := ["b.up.sql", "a.down.sql.up.sql", "README.md", "a.up.sql.down.sql", ".up.sql",
      "B.up.sql", "b.down.sql", "c.down.sql", "a.up.sqlx", ".down.sql"]
    let tree (names : List String) : Files.Tree :=
      names.foldl (fun t name => t.put ["sql", name] .empty) ({ : Files.Tree }.makeDirectory
        ["sql", "d.up.sql"])
    let entries (names : List String) : List DirectoryEntry :=
      names.map (⟨·, true⟩) ++ [⟨"d.up.sql", false⟩]
    let found : List SqlFile := [⟨"", "sql", ".up.sql", some ".down.sql"⟩,
      ⟨"B", "sql", "B.up.sql", none⟩, ⟨"a.down.sql", "sql", "a.down.sql.up.sql", none⟩,
      ⟨"b", "sql", "b.up.sql", some "b.down.sql"⟩]
    perform (files.list "sql") (tree names) = (.ok (entries names.reverse), tree names) ∧
      perform (files.list "sql") (tree names.reverse)
        = (.ok (entries names), tree names.reverse) ∧
      (entries names.reverse).Perm (entries names) ∧
      perform (discover files "sql") (tree names) = (.ok found, tree names) ∧
      perform (discover files "sql") (tree names.reverse) = (.ok found, tree names.reverse) ∧
      Discovered "sql" (fileNames (entries names.reverse)) found := by
  intro files names tree entries found
  have hlist : perform (files.list "sql") (tree names)
      = (.ok (entries names.reverse), tree names) :=
    Prod.ext (by decide +kernel) rfl
  have hlist' : perform (files.list "sql") (tree names.reverse)
      = (.ok (entries names), tree names.reverse) :=
    Prod.ext (by decide +kernel) rfl
  have hperm : (entries names.reverse).Perm (entries names) :=
    (names.reverse_perm.map _).append_right _
  obtain ⟨migrations, hfound, hfound', hdiscovered⟩ :=
    discover_order_independent hlist hlist' hperm
  have hexact : (perform (discover files "sql") (tree names)).1 = .ok found := by
    decide +kernel
  rw [hfound] at hexact
  obtain rfl : migrations = found := Except.ok.inj hexact
  exact ⟨hlist, hlist', hperm, hfound, hfound', hdiscovered⟩

end Migration

end Colonnade
