import Colonnade.Proofs.LedgerTheorems
import Colonnade.Store.Memory
import Mathlib.Data.List.Infix

/-!
# How the statements of the ledger are understood

A store in memory understands a statement by its shape. A free piece ends as early as the rest can
be recognised, so it ends where it was meant to, or earlier (`firstCut?_spec`). Of a predicate that
compares the version with a literal nothing but the whole is understood (`equality?_of_prefix`).
Together: the lookup of a version is understood as it was meant, or refused; it is never taken for
the lookup of another version (`answer_lookup`).
-/

namespace Colonnade.Store

open Sql.Quoted Text

/-! ## Free pieces -/

section Free

variable {α : Type} (rest? : List Char → Option α)

/-- The first cut of a piece whose rest is recognised. -/
def firstCut? (cs : List Char) : Option (List Char × α) :=
  (cuts cs).findSome? fun cut => (rest? cut.2).map fun a => (cut.1, a)

theorem firstCut?_cons (c : Char) (cs : List Char) : firstCut? rest? (c :: cs) =
    ((rest? cs).map fun a => ([c], a)).or ((firstCut? rest? cs).map fun p => (c :: p.1, p.2)) := by
  rw [firstCut?, firstCut?, cuts, List.findSome?_cons, List.findSome?_map, List.map_findSome?]
  simp only [Function.comp_def, Option.map_map]
  cases rest? cs <;> rfl

/-- The first cut that is recognised stands at or before one that is. -/
theorem firstCut?_spec {rest? : List Char → Option α} {piece rest : List Char} {a : α}
    (hpiece : piece ≠ []) (h : rest? rest = some a) :
    ∃ front back b, piece = front ++ back ∧ rest? (back ++ rest) = some b ∧
      firstCut? rest? (piece ++ rest) = some (front, b) := by
  induction piece with
  | nil => exact absurd rfl hpiece
  | cons c cs ih =>
    rw [List.cons_append, firstCut?_cons]
    cases hcut : rest? (cs ++ rest) with
    | some b => exact ⟨[c], cs, b, rfl, hcut, rfl⟩
    | none =>
      have hcs : cs ≠ [] := by
        rintro rfl
        rw [List.nil_append, h] at hcut
        cases hcut
      obtain ⟨front, back, b, rfl, hb, hfirst⟩ := ih hcs
      exact ⟨c :: front, back, b, rfl, hb, by rw [hfirst]; rfl⟩

/-- One space before a free piece is cut off, and nothing else can be. -/
theorem freePiece?_space {cs : List Char} (h : spaceCuts cs = []) :
    freePiece? rest? (' ' :: cs) = firstCut? rest? cs := by
  have hspace : isSpace ' ' = true := rfl
  have hcuts : spaceCuts (' ' :: cs) = [cs] := by simp [spaceCuts, hspace, h]
  rw [freePiece?, hcuts, List.findSome?_singleton]
  rfl

end Free

/-! ## Literals -/

/-- A literal that is cut off before its closing quote is not closed. -/
theorem scanBody_of_prefix {cs front : List Char} (h : front <+: encode cs) :
    scanBody front = none := by
  induction cs generalizing front with
  | nil =>
    rw [encode, List.prefix_nil] at h
    rw [h, scanBody]
  | cons c cs ih =>
    by_cases hc : c = '\\' ∨ c = '\''
    · rw [encode, if_pos hc] at h
      cases front with
      | nil => rfl
      | cons d front =>
        obtain ⟨rfl, h'⟩ := List.cons_prefix_cons.1 h
        cases front with
        | nil => rfl
        | cons e front => rw [scanBody, ih (List.cons_prefix_cons.1 h').2, Option.map_none]
    · rw [encode, if_neg hc] at h
      cases front with
      | nil => rfl
      | cons d front =>
        obtain ⟨rfl, h'⟩ := List.cons_prefix_cons.1 h
        rw [scanBody, ih h', Option.map_none]
        · exact fun hd => hc (.inr hd)
        · exact fun _ _ hd _ => hc (.inl hd)
        · exact fun hd _ => hc (.inl hd)

/-! ## The predicate of a version -/

/-- What stands in a predicate before the content of the version. -/
def versionFront : List Char := "version='".toList

/-- The predicate that compares the version. -/
def versionPredicate (version : String) : List Char :=
  versionFront ++ (encode version.toList ++ ['\''])

theorem equality?_versionFront (cs : List Char) : equality? (versionFront ++ cs) =
    (scanBody cs).bind fun (body, rest) =>
      if equalityEnds rest then some ("version", .string (.ofList (decode body))) else none := by
  rfl

theorem equality?_versionPredicate (version : String) :
    equality? (versionPredicate version) = some ("version", .string version) := by
  rw [versionPredicate, equality?_versionFront, scanBody_encode]
  simp [equalityEnds, decode_encode]

/-- Of a predicate that is cut off nothing is understood. -/
theorem equality?_of_prefix {version : String} {front : List Char}
    (h : front <+: versionPredicate version) (hne : front ≠ versionPredicate version) :
    equality? front = none := by
  have hversion : versionFront <+: versionPredicate version := List.prefix_append _ _
  rcases List.prefix_or_prefix_of_prefix h hversion with hshort | ⟨rest, rfl⟩
  · have hall : ∀ cs ∈ versionFront.inits, equality? cs = none := by decide
    exact hall front (List.mem_inits _ _ |>.2 hshort)
  · -- the cut is inside the literal
    rw [versionPredicate, List.prefix_append_right_inj, List.prefix_concat_iff] at h
    rcases h with h | h
    · exact absurd (congrArg (versionFront ++ ·) h) hne
    · rw [equality?_versionFront, scanBody_of_prefix h, Option.bind_none]

/-! ## The texts of the ledger -/

open Migration in
/-- A lookup as the store receives it. -/
theorem toList_bind_lookup (version : String) :
    (Sql.bind lookupText (lookupParams version)).toList
      = "SELECT * FROM migrations WHERE ".toList
        ++ (versionPredicate version ++ " LIMIT 1".toList) := by
  have hparts : lookupText.toList = "SELECT * FROM migrations WHERE version=".toList
      ++ (":version".toList ++ " LIMIT 1".toList) := by
    unfold lookupText
    simp
  have hfront : "SELECT * FROM migrations WHERE version=".toList
      = "SELECT * FROM migrations WHERE ".toList ++ "version=".toList := by simp
  have hplain : ∀ c ∈ "SELECT * FROM migrations WHERE version=".toList, c ≠ '\'' ∧ c ≠ ':' := by
    simp
  have hlimit : ∀ c ∈ " LIMIT 1".toList, c ≠ '\'' ∧ c ≠ ':' := by simp
  have hnext : Sql.nextToken? (":version".toList ++ " LIMIT 1".toList)
      = some (.placeholder "version".toList, " LIMIT 1".toList) := rfl
  have hvalue : Sql.Token.bound (lookupParams version) (.placeholder "version".toList)
      = quoteChars version.toList := toList_quote version
  have hend : Sql.bindChars (lookupParams version) " LIMIT 1".toList = " LIMIT 1".toList :=
    Sql.bindChars_of_plain (lookupParams version) hlimit
  rw [Sql.bind, String.toList_ofList, hparts, Sql.bindChars_append_of_plain _ _ hplain,
    Sql.bindChars_of_nextToken? _ hnext, hvalue, hend, hfront, List.append_assoc]
  rfl

/-- A text without white space at its ends and without a semicolon at its end is as it is. -/
theorem normalSql_of_ends {sql : String} {c d : Char} (middle : List Char)
    (h : sql.toList = c :: (middle ++ [d])) (hc : isSpace c = false) (hd : isSpace d = false)
    (hsemicolon : d ≠ ';') : Memory.normalSql sql = sql := by
  have htrim : trimChars sql.toList = sql.toList := by
    rw [h, trimChars, trimLeft_cons_of_not_space hc]
    rw [← List.cons_append]
    exact trimRight_append_of_not_space hd
  have hlast : trimRightOf ';' sql.toList = sql.toList := by
    have hd' : (d == ';') = false := by simpa using hsemicolon
    simp [h, trimRightOf, hd']
  rw [Memory.normalSql, htrim, hlast, htrim, String.ofList_toList]

/-- The end of a select after the predicate of a version. -/
def oneRow : SelectTail := ⟨none, none, some ['1'], none⟩

theorem orderTail?_limit : orderTail? " LIMIT 1".toList = some oneRow := rfl

theorem whereTail?_of_freePiece? {cs p : List Char} {tail : SelectTail}
    (h : freePiece? orderTail? (' ' :: cs) = some (p, tail)) :
    whereTail? (" WHERE ".toList ++ cs) = some { tail with predicate := p } := by
  change ((freePiece? orderTail? (' ' :: cs)).map _).or _ = _
  rw [h]
  rfl

/-- A select of whole rows by a predicate is understood with what is read as the predicate. -/
theorem selectShape?_of_freePiece? {table cs p : List Char} {tail : SelectTail}
    (htable : ∀ rest, objectName? (trimLeft (table ++ ' ' :: rest)) = some (table, ' ' :: rest))
    (h : freePiece? orderTail? (' ' :: cs) = some (p, tail)) :
    selectShape? ("SELECT * FROM ".toList ++ (table ++ (" WHERE ".toList ++ cs)))
      = some ⟨['*'], table, { tail with predicate := p }⟩ := by
  have hname : objectName? (trimLeft (table ++ (" WHERE ".toList ++ cs)))
      = some (table, " WHERE ".toList ++ cs) := htable _
  have hfrom : fromTail? (" FROM ".toList ++ (table ++ (" WHERE ".toList ++ cs)))
      = some (table, { tail with predicate := p }) := by
    change (objectName? (trimLeft (table ++ (" WHERE ".toList ++ cs)))).bind _ = _
    rw [hname]
    change (whereTail? (" WHERE ".toList ++ cs)).bind _ = _
    rw [whereTail?_of_freePiece? h]
    rfl
  have hall : freePiece? fromTail?
        (' ' :: '*' :: (" FROM ".toList ++ (table ++ (" WHERE ".toList ++ cs))))
      = some (['*'], table, { tail with predicate := p }) := by
    rw [freePiece?_space fromTail? rfl, firstCut?_cons, hfrom]
    rfl
  change (freePiece? fromTail?
    (' ' :: '*' :: (" FROM ".toList ++ (table ++ (" WHERE ".toList ++ cs))))).bind _ = _
  rw [hall]
  rfl

theorem selectShape?_ledger {cs p : List Char} {tail : SelectTail}
    (h : freePiece? orderTail? (' ' :: cs) = some (p, tail)) :
    selectShape? ("SELECT * FROM migrations WHERE ".toList ++ cs)
      = some ⟨['*'], "migrations".toList, { tail with predicate := p }⟩ := by
  have htable (rest : List Char) : objectName? (trimLeft ("migrations".toList ++ ' ' :: rest))
      = some ("migrations".toList, ' ' :: rest) := rfl
  have htext : "SELECT * FROM migrations WHERE ".toList ++ cs
      = "SELECT * FROM ".toList ++ ("migrations".toList ++ (" WHERE ".toList ++ cs)) := by simp
  rw [htext]
  exact selectShape?_of_freePiece? htable h

/-- A lookup is understood with its predicate, or with one that is cut off. -/
theorem selectShape?_lookup (version : String) : ∃ front tail,
    selectShape? ("SELECT * FROM migrations WHERE ".toList
        ++ (versionPredicate version ++ " LIMIT 1".toList))
      = some ⟨['*'], "migrations".toList, { tail with predicate := some front }⟩ ∧
    front <+: versionPredicate version ∧ (front = versionPredicate version → tail = oneRow) := by
  have hne : versionPredicate version ≠ [] := by
    intro h
    cases h
  obtain ⟨front, back, tail, hpiece, hback, hfirst⟩ := firstCut?_spec hne orderTail?_limit
  refine ⟨front, tail, selectShape?_ledger ?_, ⟨back, hpiece.symm⟩, ?_⟩
  · have hword : spaceCuts (versionPredicate version ++ " LIMIT 1".toList) = [] := rfl
    rw [freePiece?_space orderTail? hword, hfirst]
  · intro hfront
    rw [← hfront] at hpiece
    rw [List.self_eq_append_right.1 hpiece, List.nil_append, orderTail?_limit] at hback
    exact (Option.some.inj hback).symm

/-! ## Trimming a predicate -/

theorem trimChars_versionPredicate (version : String) :
    trimChars (versionPredicate version) = versionPredicate version := by
  have hend : versionPredicate version = versionFront ++ encode version.toList ++ ['\''] :=
    (List.append_assoc _ _ _).symm
  have hleft : trimLeft (versionPredicate version) = versionPredicate version :=
    trimLeft_cons_of_not_space rfl
  rw [trimChars, hleft, hend]
  exact trimRight_append_of_not_space rfl

theorem trimChars_prefix {version : String} {front : List Char}
    (h : front <+: versionPredicate version) : trimChars front <+: front := by
  have hleft : trimLeft front = front := by
    cases front with
    | nil => rfl
    | cons c cs =>
      obtain ⟨rest, hrest⟩ := h
      have hc : c = 'v' := (List.cons.inj hrest).1
      exact trimLeft_cons_of_not_space (hc ▸ rfl)
  rw [trimChars, hleft]
  exact trimRight_prefix front

/-- A predicate that is cut off is refused. -/
theorem filterOf_of_prefix {sql version : String} {front : List Char}
    {filter : Option (String × Value)} (h : front <+: versionPredicate version)
    (hfilter : Memory.filterOf sql (some front) = .ok filter) :
    front = versionPredicate version ∧ filter = some ("version", .string version) := by
  by_cases hwhole : front = versionPredicate version
  · subst hwhole
    rw [Memory.filterOf, trimChars_versionPredicate, equality?_versionPredicate] at hfilter
    cases hfilter
    exact ⟨rfl, rfl⟩
  · have htrim := trimChars_prefix h
    have hne : trimChars front ≠ versionPredicate version := by
      intro heq
      rw [heq] at htrim
      exact hwhole (h.eq_of_length_le htrim.length_le)
    rw [Memory.filterOf, equality?_of_prefix (htrim.trans h) hne] at hfilter
    cases hfilter

/-! ## What the store answers and deletes -/

open Migration in
theorem toList_normalSql_lookup (version : String) :
    (Memory.normalSql (Sql.bind lookupText (lookupParams version))).toList
      = "SELECT * FROM migrations WHERE ".toList
        ++ (versionPredicate version ++ " LIMIT 1".toList) := by
  have h := toList_bind_lookup version
  have hends : "SELECT * FROM migrations WHERE ".toList
        ++ (versionPredicate version ++ " LIMIT 1".toList)
      = 'S' :: (("ELECT * FROM migrations WHERE ".toList
        ++ (versionPredicate version ++ " LIMIT ".toList)) ++ ['1']) := by
    simp only [List.append_assoc]
    rfl
  rw [normalSql_of_ends _ (h.trans hends) rfl rfl (by decide), h]

theorem bareName_ledger : Memory.bareName "migrations".toList = "migrations" := rfl

open Migration in
/-- A lookup that the store answers gives the rows of its version, cut to one. -/
theorem rows_of_answer_lookup {m : Memory} {version : String} {r : SelectResult}
    (h : m.answer (Memory.normalSql (Sql.bind lookupText (lookupParams version))) = .ok r) :
    ∃ o, m.objects.get? "migrations" = some o ∧
      r.rows = (o.rows.filter (matchesCell "version" (.string version))).take 1 := by
  obtain ⟨front, tail, hshape, hprefix, htail⟩ := selectShape?_lookup version
  rw [Memory.answer, toList_normalSql_lookup, hshape] at h
  simp only [bareName_ledger] at h
  cases hobject : m.objects.get? "migrations" with
  | none => rw [hobject] at h; cases h
  | some o =>
    rw [hobject] at h
    cases hfilter : Memory.filterOf (Memory.normalSql (Sql.bind lookupText (lookupParams version)))
        (some front) with
    | error e => simp only [hfilter] at h; cases h
    | ok filter =>
      obtain ⟨hwhole, rfl⟩ := filterOf_of_prefix hprefix hfilter
      simp only [hfilter, htail hwhole] at h
      cases h
      exact ⟨o, rfl, rfl⟩

open Migration in
theorem toList_removalText (version : String) : (removalText version).toList
    = "ALTER TABLE migrations DELETE WHERE ".toList ++ versionPredicate version := by
  have hcut : "ALTER TABLE migrations DELETE WHERE version=".toList
      = "ALTER TABLE migrations DELETE WHERE ".toList ++ "version=".toList := by simp
  have hfront : versionFront = "version=".toList ++ ['\''] := by
    unfold versionFront
    simp
  have hquote : (removalText version).toList
      = "ALTER TABLE migrations DELETE WHERE version=".toList ++ (quote version).toList :=
    String.toList_append
  rw [hquote, toList_quote, hcut, List.append_assoc, versionPredicate, hfront, List.append_assoc]
  rfl

open Migration in
theorem normalSql_removal (version : String) :
    Memory.normalSql (removalText version) = removalText version := by
  have hends : "ALTER TABLE migrations DELETE WHERE ".toList ++ versionPredicate version
      = 'A' :: (("LTER TABLE migrations DELETE WHERE ".toList
        ++ (versionFront ++ encode version.toList)) ++ ['\'']) := by
    simp only [List.append_assoc]
    rfl
  exact normalSql_of_ends _ ((toList_removalText version).trans hends) rfl rfl (by decide)

open Migration in
/-- A deletion takes the rows of its version off. -/
theorem write_removal (m : Memory) (version : String) : m.write (removalText version) =
    match m.objects.get? "migrations" with
    | none => (.error (.tableNotFound "migrations"), m.log (removalText version))
    | some o => (.ok (), (m.log (removalText version)).setRows "migrations"
        (o.rows.filter fun row => !matchesCell "version" (.string version) row)) := by
  have hcreate : createShape? ("ALTER TABLE migrations DELETE WHERE ".toList
      ++ versionPredicate version) = none := rfl
  have hdrop : dropShape? ("ALTER TABLE migrations DELETE WHERE ".toList
      ++ versionPredicate version) = none := rfl
  have hdelete : deleteShape? ("ALTER TABLE migrations DELETE WHERE ".toList
      ++ versionPredicate version)
      = some ⟨"migrations".toList, some (versionPredicate version)⟩ := rfl
  rw [Memory.write, normalSql_removal, Memory.apply, toList_removalText, hcreate, hdrop, hdelete]
  simp only [Memory.delete, bareName_ledger, Memory.filterOf, trimChars_versionPredicate,
    equality?_versionPredicate]
  rfl

open Migration in
theorem toList_creationText : creationText.toList
    = "CREATE TABLE IF NOT EXISTS migrations (".toList
      ++ ("uuid UUID, timestamp Int64, version String) ".toList
        ++ "ENGINE = MergeTree() ORDER BY timestamp".toList) := by
  unfold creationText
  rw [String.toList_append]
  simp

open Migration in
theorem normalSql_creationText : Memory.normalSql creationText = creationText := by
  have hends : creationText.toList
      = 'C' :: (("REATE TABLE IF NOT EXISTS migrations (".toList
        ++ ("uuid UUID, timestamp Int64, version String) ".toList
          ++ "ENGINE = MergeTree() ORDER BY timestam".toList)) ++ ['p']) := by
    rw [toList_creationText]
    simp
  exact normalSql_of_ends _ hends rfl rfl (by decide)

open Migration in
/-- The ledger is created unless it exists. -/
theorem write_creationText (m : Memory) : m.write creationText =
    if m.objects.contains "migrations" then (.ok (), m.log creationText)
    else (.ok (), { m.log creationText with
      objects := m.objects.insert "migrations" ⟨.table, creationText, []⟩ }) := by
  have hshape : ∀ cs, createShape? ("CREATE TABLE IF NOT EXISTS migrations (".toList ++ cs)
      = some ⟨.table, true, "migrations".toList⟩ := fun _ => rfl
  rw [Memory.write, normalSql_creationText, Memory.apply, toList_creationText, hshape]
  simp only [Memory.create, bareName_ledger]
  rfl

end Colonnade.Store
