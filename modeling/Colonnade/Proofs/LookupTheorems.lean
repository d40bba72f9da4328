import Colonnade.Proofs.MemoryLedger

/-!
# Which lookups of versions are answered

The predicate of a lookup is a free piece: it ends where the rest of the select can first be
recognised, and the content of its literal is not left out. So a version with the words `ORDER BY`
in it, white space around them, ends its own predicate, and the lookup is refused. No other version
does (`orderTail?_before_limit`), and of those the answer is exact (`isApplied_of_recorded`).
-/

namespace Colonnade.Store

open Sql.Quoted Text

/-! ## Orders in a text -/

/-- What follows `ORDER BY` and white space, with white space before it. -/
def orderHead? (cs : List Char) : Option (List Char) :=
  ((spacesKeyword? "ORDER" cs).bind (spacesKeyword? "BY")).bind spaces?

/-- Whether `ORDER BY` stands somewhere in a text, with white space around. -/
def readsAsOrder (cs : List Char) : Bool := cs.tails.any fun rest => (orderHead? rest).isSome

theorem readsAsOrder_cons (c : Char) (cs : List Char) :
    readsAsOrder (c :: cs) = ((orderHead? (c :: cs)).isSome || readsAsOrder cs) := by
  rw [readsAsOrder, List.tails_cons, List.any_cons, readsAsOrder]

theorem readsAsOrder_iff {cs : List Char} :
    readsAsOrder cs = true ↔ ∃ rest, rest <:+ cs ∧ (orderHead? rest).isSome := by
  simp [readsAsOrder]

theorem orderHead?_of_not_space {c : Char} (h : isSpace c = false) (cs : List Char) :
    orderHead? (c :: cs) = none := by
  simp [orderHead?, spacesKeyword?, spaces?_of_not_space h]

/-! ## Orders are the same in the written form

A backslash is put before characters that are neither white space nor letters. -/

/-- Whether no character of a keyword is taken for a quote or a backslash. -/
def Unquoted (ks : List Char) : Prop :=
  ∀ k ∈ ks, sameLetter k '\'' = false ∧ sameLetter k '\\' = false

instance (ks : List Char) : Decidable (Unquoted ks) := decidableForallChar _ ks

theorem Unquoted.not_same {k c : Char} {ks : List Char} (h : Unquoted (k :: ks))
    (hc : c = '\\' ∨ c = '\'') : sameLetter k c = false := by
  rcases hc with rfl | rfl
  · exact (h k List.mem_cons_self).2
  · exact (h k List.mem_cons_self).1

theorem keyword?_encode {ks : List Char} (h : Unquoted ks) (cs : List Char) :
    keyword? ks (encode cs) = (keyword? ks cs).map encode := by
  induction ks generalizing cs with
  | nil => rfl
  | cons k ks ih =>
    cases cs with
    | nil => rfl
    | cons c cs =>
      by_cases hc : c = '\\' ∨ c = '\''
      · simp [encode, hc, keyword?, h.not_same hc, h.not_same (.inl rfl)]
      · simp only [encode, if_neg hc, keyword?]
        split
        · exact ih (fun d hd => h d (List.mem_cons_of_mem k hd)) cs
        · rfl

theorem trimLeft_encode (cs : List Char) : trimLeft (encode cs) = encode (trimLeft cs) := by
  induction cs with
  | nil => rfl
  | cons c cs ih =>
    by_cases hc : c = '\\' ∨ c = '\''
    · have hspace : isSpace c = false := by rcases hc with rfl | rfl <;> rfl
      rw [trimLeft_cons_of_not_space hspace, encode, if_pos hc]
      exact trimLeft_cons_of_not_space rfl
    · cases hspace : isSpace c with
      | false =>
        rw [trimLeft_cons_of_not_space hspace, encode, if_neg hc,
          trimLeft_cons_of_not_space hspace]
      | true => simpa [encode, hc, trimLeft, hspace] using ih

theorem spaces?_encode (cs : List Char) : spaces? (encode cs) = (spaces? cs).map encode := by
  cases cs with
  | nil => rfl
  | cons c cs =>
    by_cases hc : c = '\\' ∨ c = '\''
    · have hspace : isSpace c = false := by rcases hc with rfl | rfl <;> rfl
      rw [spaces?_of_not_space hspace, encode, if_pos hc]
      rfl
    · rw [encode, if_neg hc, spaces?, spaces?, trimLeft_encode]
      split <;> rfl

theorem orderHead?_encode (cs : List Char) :
    orderHead? (encode cs) = (orderHead? cs).map encode := by
  have horder : Unquoted "ORDER".toList := by decide
  have hby : Unquoted "BY".toList := by decide
  simp only [orderHead?, spacesKeyword?, spaces?_encode, Option.bind_map, Option.map_bind,
    Option.bind_assoc, Function.comp_def, keyword?_encode horder, keyword?_encode hby]

/-- A text reads as an order exactly if its written form does. -/
theorem readsAsOrder_encode (cs : List Char) : readsAsOrder (encode cs) = readsAsOrder cs := by
  induction cs with
  | nil => rfl
  | cons c cs ih =>
    have hhead := orderHead?_encode (c :: cs)
    by_cases hc : c = '\\' ∨ c = '\''
    · have hspace : isSpace c = false := by rcases hc with rfl | rfl <;> rfl
      rw [encode, if_pos hc, readsAsOrder_cons, readsAsOrder_cons, readsAsOrder_cons, ih,
        orderHead?_of_not_space rfl, orderHead?_of_not_space hspace,
        orderHead?_of_not_space hspace]
      rfl
    · rw [encode, if_neg hc] at hhead ⊢
      rw [readsAsOrder_cons, readsAsOrder_cons, ih, hhead, Option.isSome_map]

/-! ## Orders end before a quote -/

theorem keyword?_append_quote {ks : List Char} (h : Unquoted ks) (cs rest : List Char) :
    keyword? ks (cs ++ '\'' :: rest) = (keyword? ks cs).map (· ++ '\'' :: rest) := by
  induction ks generalizing cs with
  | nil => rfl
  | cons k ks ih =>
    cases cs with
    | nil => simp [keyword?, h.not_same (.inr rfl)]
    | cons c cs =>
      simp only [List.cons_append, keyword?]
      split
      · exact ih (fun d hd => h d (List.mem_cons_of_mem k hd)) cs
      · rfl

theorem spaces?_append_quote (cs rest : List Char) :
    spaces? (cs ++ '\'' :: rest) = (spaces? cs).map (· ++ '\'' :: rest) := by
  cases cs with
  | nil => rfl
  | cons c cs =>
    rw [List.cons_append, spaces?, spaces?, trimLeft, dropWhile_append_cons rfl]
    split <;> rfl

/-! ## The rest of a lookup -/

/-- A clause that begins before a quote ends before it. -/
theorem numberClause?_append_quote {word : String} (h : Unquoted word.toList)
    {cs rest digits after : List Char}
    (hclause : numberClause? word (cs ++ '\'' :: rest) = some (digits, after)) :
    ∃ between, after = between ++ '\'' :: rest := by
  obtain ⟨cs₁, hkeyword, hclause⟩ := Option.bind_eq_some_iff.1 hclause
  obtain ⟨cs₂, hspaces, hdigits⟩ := Option.bind_eq_some_iff.1 hclause
  have hread : (spacesKeyword? word (cs ++ '\'' :: rest)).bind spaces?
      = ((spacesKeyword? word cs).bind spaces?).map (· ++ '\'' :: rest) := by
    simp only [spacesKeyword?, spaces?_append_quote, keyword?_append_quote h, Option.bind_map,
      Option.map_bind, Option.bind_assoc, Function.comp_def]
  rw [hkeyword, Option.bind_some, hspaces] at hread
  obtain ⟨before, -, rfl⟩ := Option.map_eq_some_iff.1 hread.symm
  split at hdigits
  · cases hdigits
  · cases hdigits
    exact ⟨before.dropWhile isDecimalDigit, dropWhile_append_cons (by decide) before rest⟩

/-- No offset and no limit reach beyond a quote. -/
theorem offsetTail?_append_quote (cs rest : List Char) :
    offsetTail? (cs ++ '\'' :: rest) = none := by
  rw [offsetTail?]
  split
  · next hclause =>
    obtain ⟨between, hnil⟩ := numberClause?_append_quote (by decide) hclause
    simp at hnil
  · simp

theorem limitTail?_append_quote (cs rest : List Char) : limitTail? (cs ++ '\'' :: rest) = none := by
  rw [limitTail?, offsetTail?_append_quote, Option.or_none]
  cases hclause : numberClause? "LIMIT" (cs ++ '\'' :: rest) with
  | none => rfl
  | some p =>
    obtain ⟨digits, after⟩ := p
    obtain ⟨between, rfl⟩ := numberClause?_append_quote (by decide) hclause
    simp only [Option.bind_some, offsetTail?_append_quote, Option.map_none]

theorem mem_spaceCuts {cs rest : List Char} (h : spaces? cs = some rest) : rest ∈ spaceCuts cs := by
  induction cs with
  | nil => cases h
  | cons c cs ih =>
    rw [spaces?] at h
    split at h
    · next hspace =>
      cases h
      rw [spaceCuts, if_pos hspace, List.mem_append, List.mem_singleton]
      cases cs with
      | nil => exact .inr rfl
      | cons d cs =>
        cases hd : isSpace d with
        | false => exact .inr (trimLeft_cons_of_not_space hd)
        | true => exact .inl (ih (by simp [spaces?, trimLeft, hd]))
    · cases h

/-- A free piece with a quote in it can be cut off exactly if there is white space before it. -/
theorem isSome_freePiece?_append_quote {α : Type} {rest? : List Char → Option α}
    (cs : List Char) {rest : List Char} (hrest : (rest? rest).isSome) :
    (freePiece? rest? (cs ++ '\'' :: rest)).isSome = (spaces? cs).isSome := by
  obtain ⟨a, ha⟩ := Option.isSome_iff_exists.1 hrest
  cases hspaces : spaces? cs with
  | none =>
    have hcuts : spaceCuts (cs ++ '\'' :: rest) = [] := by
      cases cs with
      | nil => rfl
      | cons c cs =>
        rw [spaces?] at hspaces
        split at hspaces
        · cases hspaces
        · next hspace => rw [List.cons_append, spaceCuts, if_neg hspace]
    rw [freePiece?, hcuts]
    rfl
  | some piece =>
    have hmem : piece ++ '\'' :: rest ∈ spaceCuts (cs ++ '\'' :: rest) :=
      mem_spaceCuts (by rw [spaces?_append_quote, hspaces]; rfl)
    have hpiece : piece ++ ['\''] ≠ [] := by simp
    obtain ⟨front, -, b, -, -, hfirst⟩ := firstCut?_spec hpiece ha
    rw [List.append_assoc] at hfirst
    change ((spaceCuts (cs ++ '\'' :: rest)).findSome? (firstCut? rest?)).isSome = true
    exact List.findSome?_isSome_iff.2 ⟨_, hmem, Option.isSome_of_mem hfirst⟩

/-- Before a closing quote an order is recognised where one begins. -/
theorem isSome_orderTail?_append_quote (cs : List Char) {rest : List Char}
    (hrest : (limitTail? rest).isSome) :
    (orderTail? (cs ++ '\'' :: rest)).isSome = (orderHead? cs).isSome := by
  have horder : Unquoted "ORDER".toList := by decide
  have hby : Unquoted "BY".toList := by decide
  have hread : (spacesKeyword? "ORDER" (cs ++ '\'' :: rest)).bind (spacesKeyword? "BY")
      = ((spacesKeyword? "ORDER" cs).bind (spacesKeyword? "BY")).map (· ++ '\'' :: rest) := by
    simp only [spacesKeyword?, spaces?_append_quote, keyword?_append_quote horder,
      keyword?_append_quote hby, Option.bind_map, Option.map_bind, Option.bind_assoc,
      Function.comp_def]
  rw [orderTail?, limitTail?_append_quote, Option.or_none, hread, orderHead?]
  cases (spacesKeyword? "ORDER" cs).bind (spacesKeyword? "BY") with
  | none => rfl
  | some after =>
    have hpiece := isSome_freePiece?_append_quote after hrest
    rw [Option.map_some, Option.bind_some, Option.bind_some, Option.isSome_map, hpiece]

/-! ## What becomes of a lookup -/

theorem readsAsOrder_append {front : List Char} (h : ∀ c ∈ front, isSpace c = false)
    (cs : List Char) : readsAsOrder (front ++ cs) = readsAsOrder cs := by
  induction front with
  | nil => rfl
  | cons c front ih =>
    obtain ⟨hc, hfront⟩ := List.forall_mem_cons.1 h
    rw [List.cons_append, readsAsOrder_cons, orderHead?_of_not_space hc, ih hfront]
    rfl

/-- A predicate without its closing quote reads as an order exactly if its version does. -/
theorem readsAsOrder_versionFront (version : String) :
    readsAsOrder (versionFront ++ encode version.toList) = readsAsOrder version.toList := by
  rw [readsAsOrder_append (by decide), readsAsOrder_encode]

theorem versionPredicate_eq (version : String) :
    versionPredicate version = versionFront ++ encode version.toList ++ ['\''] :=
  (List.append_assoc _ _ _).symm

theorem isSome_limitTail?_limit : (limitTail? " LIMIT 1".toList).isSome := rfl

/-- A lookup of a version that does not read as an order is understood as it was meant. -/
theorem selectShape?_lookup_of_not_order {version : String}
    (h : readsAsOrder version.toList = false) :
    selectShape? ("SELECT * FROM migrations WHERE ".toList
        ++ (versionPredicate version ++ " LIMIT 1".toList))
      = some ⟨['*'], "migrations".toList,
          { oneRow with predicate := some (versionPredicate version) }⟩ := by
  have hne : versionPredicate version ≠ [] := by
    intro hnil
    cases hnil
  obtain ⟨front, back, tail, hpiece, hback, hfirst⟩ := firstCut?_spec hne orderTail?_limit
  have hwhole : back = [] := by
    have hsuffix : back <:+ versionFront ++ encode version.toList ++ ['\''] :=
      versionPredicate_eq version ▸ ⟨front, hpiece.symm⟩
    rcases List.suffix_concat_iff.1 hsuffix with hnil | ⟨inner, rfl, hinner⟩
    · exact hnil
    · -- the cut would have been made before an order
      rw [List.append_assoc] at hback
      have horder := isSome_orderTail?_append_quote inner isSome_limitTail?_limit
      rw [show inner ++ '\'' :: " LIMIT 1".toList = inner ++ (['\''] ++ " LIMIT 1".toList) from rfl,
        hback] at horder
      have hreads := readsAsOrder_iff.2 ⟨inner, hinner, horder.symm⟩
      rw [readsAsOrder_versionFront, h] at hreads
      cases hreads
  subst hwhole
  rw [List.append_nil] at hpiece
  rw [List.nil_append, orderTail?_limit] at hback
  cases hback
  have hword : spaceCuts (versionPredicate version ++ " LIMIT 1".toList) = [] := rfl
  have hfree := freePiece?_space orderTail? hword
  rw [hfirst, ← hpiece] at hfree
  exact selectShape?_ledger hfree

/-- The predicate of a lookup is cut off if its version reads as an order. -/
theorem selectShape?_lookup_of_order {version : String} (h : readsAsOrder version.toList = true) :
    ∃ front, ∃ tail : SelectTail, selectShape? ("SELECT * FROM migrations WHERE ".toList
        ++ (versionPredicate version ++ " LIMIT 1".toList))
      = some ⟨['*'], "migrations".toList, { tail with predicate := some front }⟩ ∧
      front <+: versionPredicate version ∧ front ≠ versionPredicate version := by
  rw [← readsAsOrder_versionFront] at h
  obtain ⟨inner, ⟨piece, hpiece⟩, horder⟩ := readsAsOrder_iff.1 h
  have hpredicate : versionPredicate version = piece ++ (inner ++ ['\'']) := by
    rw [versionPredicate_eq, ← hpiece, List.append_assoc]
  rw [← isSome_orderTail?_append_quote inner isSome_limitTail?_limit] at horder
  obtain ⟨found, hfound⟩ := Option.isSome_iff_exists.1 horder
  have hne : piece ≠ [] := by
    rintro rfl
    rw [List.nil_append] at hpiece
    rw [hpiece] at horder
    cases horder
  obtain ⟨front, back, tail, rfl, -, hfirst⟩ := firstCut?_spec hne hfound
  refine ⟨front, tail, selectShape?_ledger ?_, ?_, ?_⟩
  · have hword : spaceCuts (versionPredicate version ++ " LIMIT 1".toList) = [] := rfl
    rw [freePiece?_space orderTail? hword, ← hfirst, hpredicate]
    simp
  · exact ⟨back ++ (inner ++ ['\'']), by rw [hpredicate, List.append_assoc]⟩
  · intro hwhole
    have hlength := congrArg List.length (hwhole.trans hpredicate)
    simp at hlength

namespace Memory

open Migration in
/-- The lookup of a version as a store receives it. -/
def lookupSql (version : String) : String := normalSql (Sql.bind lookupText (lookupParams version))

/-- A store that has a ledger answers the lookup of a version with its first row, or refuses it if
the version reads as an order. -/
theorem answer_lookup {m : Memory} {o : StoredObject}
    (h : m.objects.get? "migrations" = some o) (version : String) :
    m.answer (lookupSql version) =
      if readsAsOrder version.toList then .error (refused (lookupSql version))
      else .ok ⟨(o.rows.filter (matchesCell "version" (.string version))).take 1,
        (o.rows.filter (matchesCell "version" (.string version))).length⟩ := by
  have htext : (lookupSql version).toList = _ := toList_normalSql_lookup version
  cases horder : readsAsOrder version.toList with
  | false =>
    have hfilter : filterOf (lookupSql version) (some (versionPredicate version))
        = .ok (some ("version", .string version)) := by
      rw [filterOf, trimChars_versionPredicate, equality?_versionPredicate]
    rw [answer, htext, selectShape?_lookup_of_not_order horder]
    simp only [bareName_ledger, h, hfilter]
    rfl
  | true =>
    obtain ⟨front, tail, hshape, hprefix, hcut⟩ := selectShape?_lookup_of_order horder
    have hfilter : filterOf (lookupSql version) (some front)
        = .error (refused (lookupSql version)) := by
      cases hequality : equality? (trimChars front) with
      | none => rw [filterOf, hequality]
      | some filter =>
        have hok : filterOf (lookupSql version) (some front) = .ok (some filter) := by
          rw [filterOf, hequality]
        obtain ⟨hwhole, -⟩ := filterOf_of_prefix hprefix hok
        exact absurd hwhole hcut
    rw [answer, htext, hshape]
    simp only [bareName_ledger, h, hfilter]
    rfl

end Memory

/-! ## Stores that have a ledger -/

open Migration

namespace Memory

/-- There is a ledger with the given rows, and no results are queued. -/
structure Holds (m : Memory) (es : List Entry) : Prop where
  entries : m.entries = some es
  exists_ledger : m.objects.contains "migrations" = true

variable {m : Memory} {es : List Entry}

theorem Holds.get? (h : m.Holds es) : m.queued = [] ∧
    ∃ o, m.objects.get? "migrations" = some o ∧ o.rows.mapM entryOf? = some es := by
  obtain ⟨hqueued, hrows⟩ := entries_eq_some_iff.1 h.entries
  obtain ⟨o, ho⟩ := Option.isSome_iff_exists.1 h.exists_ledger
  rw [ho] at hrows
  exact ⟨hqueued, o, ho, hrows⟩

theorem holds_of_get? (hqueued : m.queued = []) {o : StoredObject}
    (ho : m.objects.get? "migrations" = some o) (hrows : o.rows.mapM entryOf? = some es) :
    m.Holds es where
  entries := entries_eq_some_iff.2 ⟨hqueued, by rwa [ho]⟩
  exists_ledger := by rw [NameMap.contains, ho]; rfl

/-- Whether a store holds a ledger is told by the ledger and the queue. -/
theorem Holds.congr (h : m.Holds es) {m' : Memory} (hqueued : m'.queued = [])
    (hledger : m'.objects.get? "migrations" = m.objects.get? "migrations") : m'.Holds es := by
  obtain ⟨-, o, ho, hrows⟩ := h.get?
  exact holds_of_get? hqueued (hledger.trans ho) hrows

theorem holds_write_creationText (h : m.entries = some es) :
    (m.write creationText).2.Holds es where
  entries := entries_create h
  exists_ledger := by
    rw [write_creationText]
    split
    · next hcontains => exact hcontains
    · simp [NameMap.contains]

/-- Made ready, a store holds the ledger that it had. -/
theorem holds_makeReady (h : m.entries = some es) :
    (perform (Ledger.makeReady client) m).2.Holds es := by
  have hready : perform (Ledger.makeReady client) m = _ := perform_makeReady (fun _ _ => rfl) m
  rw [hready]
  dsimp only [id]
  split
  · next hcontains => exact ⟨h, hcontains⟩
  · exact holds_write_creationText h

/-- An insert into the ledger succeeds. -/
theorem Holds.insert (h : m.Holds es) (e : Entry) :
    (m.insert ledgerTable [e.cells] ledgerColumns).1 = .ok () ∧
      (m.insert ledgerTable [e.cells] ledgerColumns).2.Holds (es ++ [e]) := by
  obtain ⟨-, o, ho, -⟩ := h.get?
  have hrows := entries_insert h.entries e
  have hname : bareName ledgerTable.toList = "migrations" := bareName_ledger
  have hok : (m.insert ledgerTable [e.cells] ledgerColumns).1 = .ok () := by
    simp only [Memory.insert, hname, log, ho]
    rfl
  rw [hok] at hrows
  refine ⟨hok, hrows, ?_⟩
  simp [Memory.insert, hname, log, ho, setRows, NameMap.contains]

/-- A deletion from the ledger succeeds. -/
theorem Holds.delete (h : m.Holds es) (version : String) :
    (m.write (removalText version)).1 = .ok () ∧
      (m.write (removalText version)).2.Holds (without version es) := by
  obtain ⟨-, o, ho, -⟩ := h.get?
  have hrows := entries_delete h.entries version
  rw [write_removal, ho] at hrows ⊢
  exact ⟨rfl, hrows, by simp [log, setRows, NameMap.contains, ho]⟩

/-- The lookup of a version tells whether the ledger has it, and is refused if the version reads as
an order. -/
theorem Holds.select_lookup (h : m.Holds es) (version : String) :
    (m.select lookupText (lookupParams version)).2 = m.log (lookupSql version) ∧
      (m.select lookupText (lookupParams version)).1.map (!·.isEmpty)
        = if readsAsOrder version.toList then .error (refused (lookupSql version))
          else .ok (decide (version ∈ versionsOf es)) := by
  obtain ⟨hqueued, o, ho, -⟩ := h.get?
  have hselect := select_of_queued hqueued lookupText (lookupParams version)
  rw [← lookupSql, answer_lookup ho] at hselect
  refine ⟨congrArg Prod.snd hselect, ?_⟩
  cases horder : readsAsOrder version.toList with
  | true =>
    rw [hselect, horder]
    rfl
  | false =>
    rw [horder] at hselect
    have hfound := isEmpty_select_lookup h.entries (congrArg Prod.fst hselect)
    rw [hselect]
    simp [Except.map, hfound]

/-- What is told of a version: whether the ledger has it, or nothing if it reads as an order. -/
theorem Holds.isApplied (h : m.Holds es) (stamp : Stamp (StateM Memory)) (version : String) :
    (perform ((Ledger.ofClient client stamp).isApplied version) m).1
      = if readsAsOrder version.toList then .error (storeFailure (refused (lookupSql version)))
        else .ok (decide (version ∈ versionsOf es)) := by
  have hselect : perform (client.select lookupText (lookupParams version)) m = _ :=
    perform_select lookupText (lookupParams version) m
  rw [perform_isApplied, hselect]
  dsimp only [id]
  rw [(h.select_lookup version).2]
  split <;> rfl

/-! ## Ledgers that are filled by recording -/

/-- The stores without queued results whose ledger was made ready and then told versions, in the
order of the list. Whatever else is done to such a store leaves the ledger alone. -/
inductive Recorded : Memory → List String → Prop where
  | ready {m : Memory} (queued : m.queued = [])
      (absent : m.objects.get? "migrations" = none) :
    Recorded (perform (Ledger.makeReady client) m).2 []
  | record {m : Memory} {versions : List String} (earlier : Recorded m versions)
      (identifier : String) (now : Int64) (version : String) :
    Recorded (perform ((Ledger.ofClient client ⟨pure identifier, pure now⟩).record version) m).2
      (versions ++ [version])
  | aside {m m' : Memory} {versions : List String} (earlier : Recorded m versions)
      (queued : m'.queued = [])
      (ledger : m'.objects.get? "migrations" = m.objects.get? "migrations") :
    Recorded m' versions

/-- The rows of such a ledger are those of the recorded versions. -/
theorem Recorded.holds {versions : List String} (h : Recorded m versions) :
    ∃ es, m.Holds es ∧ versionsOf es = versions := by
  induction h with
  | @ready m queued absent =>
    have hempty : m.entries = some [] := entries_eq_some_iff.2 ⟨queued, by rw [absent]⟩
    exact ⟨[], holds_makeReady hempty, rfl⟩
  | @record m versions _ identifier now version ih =>
    obtain ⟨es, hes, rfl⟩ := ih
    obtain ⟨-, hinserted⟩ := hes.insert ⟨identifier, now, version⟩
    refine ⟨es ++ [⟨identifier, now, version⟩], ?_, by simp [versionsOf]⟩
    rw [perform_record]
    exact hinserted
  | aside _ queued ledger ih =>
    obtain ⟨es, hes, rfl⟩ := ih
    exact ⟨es, hes.congr queued ledger, rfl⟩

/-- Of a ledger filled by recording it is always told whether it has a version, and that is right,
except for versions that read as an order: their lookups are refused. -/
theorem isApplied_of_recorded {m : Memory} {versions : List String} (h : Recorded m versions)
    (stamp : Stamp (StateM Memory)) (version : String) :
    (perform ((Ledger.ofClient client stamp).isApplied version) m).1
      = if readsAsOrder version.toList then .error (storeFailure (refused (lookupSql version)))
        else .ok (decide (version ∈ versions)) := by
  obtain ⟨es, hes, rfl⟩ := h.holds
  exact hes.isApplied stamp version

/-- Recorded are a version with a quote and a backslash and one that ends in the words of an order;
neither reads as one. -/
theorem isApplied_of_recorded_quoted :
    let ledger := Ledger.ofClient client ⟨pure "id", pure 1000⟩
    let record (m : Memory) (version : String) : Memory := (perform (ledger.record version) m).2
    let m := record (record (perform ledger.ensureReady empty).2 "it's \\") "v2 order by"
    Recorded m ["it's \\", "v2 order by"] ∧
      (perform (ledger.isApplied "it's \\") m).1 = .ok true ∧
      (perform (ledger.isApplied "v2 order by") m).1 = .ok true ∧
      (perform (ledger.isApplied "v2 order") m).1 = .ok false := by
  intro ledger record m
  have h : Recorded m ["it's \\", "v2 order by"] :=
    .record (.record (.ready rfl rfl) "id" 1000 "it's \\") "id" 1000 "v2 order by"
  exact ⟨h, isApplied_of_recorded h _ "it's \\", isApplied_of_recorded h _ "v2 order by",
    isApplied_of_recorded h _ "v2 order"⟩

/-- A version is recorded, and its lookup fails. -/
theorem isApplied_refuses_order :
    let ledger := Ledger.ofClient client ⟨pure "id", pure 1000⟩
    let m := (perform (ledger.record "x ORDER BY y") (perform ledger.ensureReady empty).2).2
    Recorded m ["x ORDER BY y"] ∧ (perform (ledger.isApplied "x ORDER BY y") m).1
      = .error (storeFailure (refused (lookupSql "x ORDER BY y"))) := by
  intro ledger m
  have h : Recorded m ["x ORDER BY y"] := .record (.ready rfl rfl) "id" 1000 "x ORDER BY y"
  obtain ⟨es, hes, -⟩ := h.holds
  have horder : readsAsOrder "x ORDER BY y".toList = true := by decide +kernel
  refine ⟨h, ?_⟩
  rw [hes.isApplied, horder, if_pos rfl]

end Memory

end Colonnade.Store
