import Colonnade.Proofs.ShapeTheorems
import Colonnade.Statement.Rendering

/-!
# How changes of a catalog are understood

A store in memory reads the kind of a change and the name of its object off the text. Names of
letters, digits and underscores are read as they are meant, also those that are words of the
language: the words `IF NOT EXISTS` are a clause only where each of them is followed by white space,
and no name has any (`keywordSpaces?_cases`). What follows the name is not looked at, except that it
is trimmed at its end (`normalSql_append_cons`).
-/

namespace Colonnade.Store

open Text

/-! ## Plain names -/

/-- A name of ASCII letters, digits and underscores. -/
structure PlainName (name : List Char) : Prop where
  ne_nil : name ≠ []
  chars : ∀ c ∈ name, Sql.isNameChar c = true

instance (name : List Char) : Decidable (PlainName name) :=
  decidable_of_iff (name ≠ [] ∧ ∀ c ∈ name, Sql.isNameChar c = true)
    ⟨fun h => ⟨h.1, h.2⟩, fun h => ⟨h.ne_nil, h.chars⟩⟩

theorem toNat_lt_of_isNameChar {c : Char} (h : Sql.isNameChar c = true) : c.toNat < 128 := by
  have hranges : (((decide (65 ≤ c.val ∧ c.val ≤ 90) || (97 ≤ c.val && c.val ≤ 122))
      || (48 ≤ c.val && c.val ≤ 57)) || c == '_') = true := h
  simp only [Bool.or_eq_true, Bool.and_eq_true, decide_eq_true_eq, beq_iff_eq,
    UInt32.le_iff_toNat_le] at hranges
  rcases hranges with ((h | h) | h) | rfl
  · exact Nat.lt_of_le_of_lt h.2 (by decide)
  · exact Nat.lt_of_le_of_lt h.2 (by decide)
  · exact Nat.lt_of_le_of_lt h.2 (by decide)
  · decide

/-- What the first 128 characters satisfy is satisfied by an ASCII character. -/
@[elab_as_elim] theorem forall_ascii {motive : Char → Prop} {c : Char} (hc : c.toNat < 128)
    (h : ∀ n < 128, motive (Char.ofNat n)) : motive c := by
  have hchar := h c.toNat hc
  rwa [Char.ofNat_toNat] at hchar

/-- A character of a plain name stands in names of objects, and separates nothing. -/
theorem nameChar_spec {c : Char} (h : Sql.isNameChar c = true) :
    isObjectChar c = true ∧ isSpace c = false ∧ c ≠ '.' ∧ c ≠ nameQuote ∧ c ≠ ';' := by
  have hascii := toNat_lt_of_isNameChar h
  revert h
  refine forall_ascii hascii ?_
  decide +kernel

namespace PlainName

variable {name : List Char} (h : PlainName name)

include h

theorem isSpace_eq : ∀ c ∈ name, isSpace c = false := fun c hc => (nameChar_spec (h.chars c hc)).2.1

theorem trimLeft_append (rest : List Char) : trimLeft (name ++ rest) = name ++ rest := by
  obtain ⟨c, cs, rfl⟩ := List.exists_cons_of_ne_nil h.ne_nil
  exact trimLeft_cons_of_not_space (h.isSpace_eq c List.mem_cons_self)

/-- A plain name is its own bare name. -/
theorem bareName_eq : Memory.bareName name = .ofList name := by
  have hquote : name.filter (· != nameQuote) = name := List.filter_eq_self.2 fun c hc =>
    bne_iff_ne.2 (nameChar_spec (h.chars c hc)).2.2.2.1
  have hdot : '.' ∉ name := fun hmem => (nameChar_spec (h.chars '.' hmem)).2.2.1 rfl
  rw [Memory.bareName, trimChars_of_forall h.isSpace_eq, hquote, afterLast_of_not_mem hdot]

/-- A plain name is read where it ends. -/
theorem objectName?_append {rest : List Char} (hrest : ∀ c ∈ rest.head?, isObjectChar c = false) :
    objectName? (name ++ rest) = some (name, rest) := by
  have hall : ∀ c ∈ name, isObjectChar c = true := fun c hc => (nameChar_spec (h.chars c hc)).1
  have hcut := cut_append hall hrest
  obtain ⟨c, cs, rfl⟩ := List.exists_cons_of_ne_nil h.ne_nil
  rw [objectName?, hcut.1, hcut.2]

end PlainName

/-! ## Keywords in front of names -/

/-- Before a space, a keyword with white space after it is a whole name or nothing. -/
theorem keywordSpaces?_cases {word : String} (hword : ∀ k ∈ word.toList, sameLetter k ' ' = false)
    {name : List Char} (hname : ∀ c ∈ name, isSpace c = false) (rest : List Char) :
    keywordSpaces? word (name ++ ' ' :: rest) = none ∨
      keywordSpaces? word (name ++ ' ' :: rest) = some (trimLeft rest) := by
  unfold keywordSpaces?
  revert hword
  generalize word.toList = ks
  intro hword
  induction ks generalizing name with
  | nil =>
    cases name with
    | nil => exact .inr rfl
    | cons c cs =>
      have hc := hname c List.mem_cons_self
      exact .inl (by simp [keyword?, spaces?, hc])
  | cons k ks ih =>
    obtain ⟨hk, hks⟩ := List.forall_mem_cons.1 hword
    cases name with
    | nil => exact .inl (by simp [keyword?, hk])
    | cons c cs =>
      rw [List.cons_append, keyword?]
      split
      · exact ih (fun d hd => hname d (List.mem_cons_of_mem c hd)) hks
      · exact .inl rfl

/-- White space does not follow a keyword in a text without any. -/
theorem keywordSpaces?_of_forall {word : String} {cs : List Char}
    (h : ∀ c ∈ cs, isSpace c = false) : keywordSpaces? word cs = none := by
  unfold keywordSpaces?
  generalize word.toList = ks
  induction ks generalizing cs with
  | nil =>
    cases cs with
    | nil => rfl
    | cons c cs => simp [keyword?, spaces?, h c List.mem_cons_self]
  | cons k ks ih =>
    cases cs with
    | nil => rfl
    | cons c cs =>
      rw [keyword?]
      split
      · exact ih fun d hd => h d (List.mem_cons_of_mem c hd)
      · rfl

/-! ## Creating -/

/-- How a statement that creates an object begins. -/
def creationStart : ObjectKind → List Char
  | .table => "CREATE TABLE ".toList
  | .view => "CREATE MATERIALIZED VIEW ".toList
  | .dictionary => "CREATE DICTIONARY ".toList

/-- The clause that makes creating an existing object harmless. -/
def ifNotExistsClause (harmless : Bool) : List Char :=
  if harmless then "IF NOT EXISTS ".toList else []

theorem createShape?_creationStart (kind : ObjectKind) (cs : List Char) :
    createShape? (creationStart kind ++ cs) =
      match (ifNotExists? (trimLeft cs)).bind objectName? with
      | some (name, _) => some ⟨kind, true, name⟩
      | none => (objectName? (trimLeft cs)).bind fun p => some ⟨kind, false, p.1⟩ := by
  cases kind <;> rfl

/-- No name is taken for the words `IF NOT EXISTS`, unless `NOT` follows it. -/
theorem ifNotExists?_name {name rest : List Char} (h : PlainName name)
    (hrest : keyword? "NOT".toList (trimLeft rest) = none) :
    ifNotExists? (name ++ ' ' :: rest) = none := by
  have hword : ∀ k ∈ "IF".toList, sameLetter k ' ' = false := by decide
  rw [ifNotExists?]
  rcases keywordSpaces?_cases hword h.isSpace_eq rest with hif | hif
  · rw [hif]
    rfl
  · have hnot : keywordSpaces? "NOT" (trimLeft rest) = none := by
      rw [keywordSpaces?, hrest]
      rfl
    rw [hif]
    change (keywordSpaces? "NOT" (trimLeft rest)).bind _ = none
    rw [hnot]
    rfl

/-- A statement that creates an object is understood as it is meant. -/
theorem createShape?_creation (kind : ObjectKind) (harmless : Bool) {name rest : List Char}
    (h : PlainName name) (hrest : keyword? "NOT".toList (trimLeft rest) = none) :
    createShape? (creationStart kind ++ (ifNotExistsClause harmless ++ (name ++ ' ' :: rest)))
      = some ⟨kind, harmless, name⟩ := by
  have hname : objectName? (name ++ ' ' :: rest) = some (name, ' ' :: rest) :=
    h.objectName?_append fun c hc => by cases hc; decide
  have hleft := h.trimLeft_append (' ' :: rest)
  rw [createShape?_creationStart]
  cases harmless with
  | false =>
    rw [ifNotExistsClause, if_neg Bool.false_ne_true, List.nil_append, hleft,
      ifNotExists?_name h hrest, hname]
    rfl
  | true =>
    have hclause : ifNotExists? (trimLeft (ifNotExistsClause true ++ (name ++ ' ' :: rest)))
        = some (trimLeft (name ++ ' ' :: rest)) := rfl
    rw [hclause, hleft, Option.bind_some, hname]

/-! ## Dropping and deleting -/

/-- How a statement that drops an object begins. -/
def removalStart : ObjectKind → List Char
  | .table => "DROP TABLE ".toList
  | .view => "DROP VIEW ".toList
  | .dictionary => "DROP DICTIONARY ".toList

/-- The clause that makes dropping a missing object harmless. -/
def ifExistsClause (harmless : Bool) : List Char :=
  if harmless then "IF EXISTS ".toList else []

theorem dropShape?_removalStart (kind : ObjectKind) (cs : List Char) :
    dropShape? (removalStart kind ++ cs) =
      match (ifExists? (trimLeft cs)).bind lastName? with
      | some name => some ⟨true, name⟩
      | none => (lastName? (trimLeft cs)).bind fun name => some ⟨false, name⟩ := by
  cases kind <;> rfl

theorem lastName?_name {name : List Char} (h : PlainName name) : lastName? name = some name := by
  have hname : objectName? (name ++ []) = some (name, []) := h.objectName?_append (by simp)
  rw [List.append_nil] at hname
  rw [lastName?, hname]
  rfl

/-- A statement that drops an object is understood as it is meant. -/
theorem dropShape?_removal (kind : ObjectKind) (harmless : Bool) {name : List Char}
    (h : PlainName name) :
    dropShape? (removalStart kind ++ (ifExistsClause harmless ++ name))
      = some ⟨harmless, name⟩ := by
  have hleft : trimLeft name = name := trimLeft_of_forall h.isSpace_eq
  rw [dropShape?_removalStart]
  cases harmless with
  | false =>
    have hclause : ifExists? name = none := by
      rw [ifExists?, keywordSpaces?_of_forall h.isSpace_eq]
      rfl
    rw [ifExistsClause, if_neg Bool.false_ne_true, List.nil_append, hleft, hclause,
      lastName?_name h]
    rfl
  | true =>
    have hclause : ifExists? (trimLeft (ifExistsClause true ++ name)) = some (trimLeft name) := rfl
    rw [hclause, hleft, Option.bind_some, lastName?_name h]

theorem createShape?_removal (kind : ObjectKind) (cs : List Char) :
    createShape? (removalStart kind ++ cs) = none := by
  cases kind <;> rfl

/-- The statement that deletes all rows of an object. -/
def deletion (name : List Char) : List Char := "ALTER TABLE ".toList ++ (name ++ " DELETE".toList)

/-- A deletion of all rows is understood as it is meant. -/
theorem deleteShape?_deletion {name : List Char} (h : PlainName name) :
    deleteShape? (deletion name) = some ⟨name, none⟩ := by
  have hname : objectName? (name ++ " DELETE".toList) = some (name, " DELETE".toList) :=
    h.objectName?_append fun c hc => by cases hc; decide
  change (objectName? (trimLeft (name ++ " DELETE".toList))).bind _ = _
  rw [h.trimLeft_append, hname]
  rfl

/-! ## Texts as they are received -/

theorem trimChars_append_cons {a d : Char} (ha : isSpace a = false) (hd : isSpace d = false)
    (front back : List Char) :
    trimChars (a :: front ++ d :: back) = a :: front ++ d :: trimRight back := by
  have hleft : trimLeft (a :: front ++ d :: back) = a :: front ++ d :: back :=
    trimLeft_cons_of_not_space ha
  rw [trimChars, hleft, trimRight_append_cons hd]

/-- A statement is received as it is up to the last character that is not trimmed. -/
theorem normalSql_append_cons {sql : String} {a d : Char} {front back : List Char}
    (h : sql.toList = a :: front ++ d :: back) (ha : isSpace a = false) (hd : isSpace d = false)
    (hsemicolon : d ≠ ';') :
    ∃ back', (Memory.normalSql sql).toList = a :: front ++ d :: back' := by
  refine ⟨trimRight (trimRightOf ';' (trimRight back)), ?_⟩
  rw [Memory.normalSql, String.toList_ofList, h, trimChars_append_cons ha hd,
    trimRightOf_append_cons hsemicolon, trimChars_append_cons ha hd]

/-- A statement that ends with a plain name is received as it is. -/
theorem normalSql_append_name {sql : String} {a : Char} {front name : List Char}
    (h : sql.toList = a :: front ++ name) (ha : isSpace a = false) (hname : PlainName name) :
    Memory.normalSql sql = sql := by
  obtain ⟨most, d, rfl⟩ := List.eq_nil_or_concat name |>.resolve_left hname.ne_nil
  have hd := nameChar_spec (hname.chars d (by simp))
  have hends : sql.toList = a :: ((front ++ most) ++ [d]) := by
    rw [h]
    simp
  exact normalSql_of_ends (front ++ most) hends ha hd.2.1 hd.2.2.2.2

/-! ## What the store does -/

namespace Memory

variable (m : Memory) {sql : String} {name : List Char}

/-- A creation whose object is named as it is meant is carried out as it is meant, if what follows
the name begins with a character that cannot be trimmed or be taken for the word `NOT`. -/
theorem write_creation (kind : ObjectKind) (harmless : Bool) (h : PlainName name) {d : Char}
    {back : List Char} (hsql : sql.toList
      = creationStart kind ++ (ifNotExistsClause harmless ++ (name ++ ' ' :: d :: back)))
    (hspace : isSpace d = false) (hsemicolon : d ≠ ';') (hnot : sameLetter 'N' d = false) :
    m.write sql = (m.log (normalSql sql)).create (normalSql sql) ⟨kind, harmless, name⟩ := by
  obtain ⟨front, hfront⟩ : ∃ front, creationStart kind = 'C' :: front := by
    cases kind <;> exact ⟨_, rfl⟩
  have hcut : sql.toList
      = 'C' :: (front ++ (ifNotExistsClause harmless ++ (name ++ [' ']))) ++ d :: back := by
    simp [hsql, hfront]
  obtain ⟨back', hback⟩ := normalSql_append_cons hcut rfl hspace hsemicolon
  have hkeyword : keyword? "NOT".toList (trimLeft (d :: back')) = none := by
    rw [trimLeft_cons_of_not_space hspace]
    simp [keyword?, hnot]
  have hreceived : (normalSql sql).toList
      = creationStart kind ++ (ifNotExistsClause harmless ++ (name ++ ' ' :: d :: back')) := by
    simp [hback, hfront]
  rw [write, apply, hreceived, createShape?_creation kind harmless h hkeyword]

/-- A drop is carried out as it is meant. -/
theorem write_removal_of_name (kind : ObjectKind) (harmless : Bool) (h : PlainName name)
    (hsql : sql.toList = removalStart kind ++ (ifExistsClause harmless ++ name)) :
    m.write sql = (m.log sql).drop ⟨harmless, name⟩ := by
  obtain ⟨front, hfront⟩ : ∃ front, removalStart kind = 'D' :: front := by
    cases kind <;> exact ⟨_, rfl⟩
  have hcut : sql.toList = 'D' :: (front ++ ifExistsClause harmless) ++ name := by
    simp [hsql, hfront]
  rw [write, normalSql_append_name hcut rfl h, apply, hsql, createShape?_removal,
    dropShape?_removal kind harmless h]

/-- A deletion of all rows is carried out as it is meant. -/
theorem write_deletion (h : PlainName name) (hsql : sql.toList = deletion name) :
    m.write sql = (m.log sql).delete sql ⟨name, none⟩ := by
  have hends : deletion name
      = 'A' :: (("LTER TABLE ".toList ++ (name ++ " DELET".toList)) ++ ['E']) := by
    unfold deletion
    simp
  have hcreate : createShape? (deletion name) = none := rfl
  have hdrop : dropShape? (deletion name) = none := rfl
  rw [write, normalSql_of_ends _ (hsql.trans hends) rfl rfl (by decide), apply, hsql, hcreate,
    hdrop, deleteShape?_deletion h]

end Memory

end Colonnade.Store

namespace Colonnade.Statement

open Store

/-! ## The texts of changes -/

variable {s : Statement} {sql : String}

theorem toList_ifNotExistsText (s : Statement) :
    s.ifNotExistsText.toList = ifNotExistsClause s.flags.ifNotExists := by
  unfold ifNotExistsText ifNotExistsClause
  split <;> rfl

theorem toList_ifExistsText (s : Statement) :
    s.ifExistsText.toList = ifExistsClause s.flags.ifExists := by
  unfold ifExistsText ifExistsClause
  split <;> rfl

theorem toList_renderCreateTable (h : s.renderCreateTable = .ok sql) : ∃ back, sql.toList
    = creationStart .table ++ (ifNotExistsClause s.flags.ifNotExists
      ++ (s.target.toList ++ ' ' :: '(' :: back)) := by
  unfold renderCreateTable at h
  split at h
  · cases h
  · next e _ =>
    cases hcolumns : s.columnList with
    | error e => rw [hcolumns] at h; cases h
    | ok columns =>
      cases hdsn : e.dsn with
      | error e => rw [hcolumns, hdsn] at h; cases h
      | ok dsn =>
        rw [hcolumns, hdsn] at h
        cases h
        simp only [String.toList_append, List.append_assoc, toList_ifNotExistsText]
        exact ⟨_, rfl⟩

theorem toList_renderCreateDictionary (h : s.renderCreateDictionary = .ok sql) : ∃ back, sql.toList
    = creationStart .dictionary ++ (ifNotExistsClause false
      ++ (s.target.toList ++ ' ' :: '(' :: back)) := by
  unfold renderCreateDictionary at h
  split at h
  · cases h
  · next source _ =>
    split at h
    · cases h
    · cases hcolumns : s.columnList with
      | error e => rw [hcolumns] at h; cases h
      | ok columns =>
        cases hsource : source.text with
        | error e => rw [hcolumns, hsource] at h; cases h
        | ok text =>
          rw [hcolumns, hsource] at h
          cases h
          simp only [String.toList_append, List.append_assoc]
          exact ⟨_, rfl⟩

/-- A statement with a text has a name, unless it is a select. -/
theorem target_ne_nil_of_render (h : s.render = .ok sql) (hkind : s.kind ≠ .select) :
    s.target.toList ≠ [] := by
  unfold render at h
  split at h
  · cases h
  · next hne =>
    intro hempty
    exact hne ⟨hkind, by simpa using hempty⟩

/-- The text of a change begins as its kind does, names its object, and goes on with nothing that
belongs to the name. -/
theorem toList_render (h : s.render = .ok sql) :
    match s.kind with
    | .createTable => ∃ back, sql.toList = creationStart .table
        ++ (ifNotExistsClause s.flags.ifNotExists ++ (s.target.toList ++ ' ' :: '(' :: back))
    | .createDictionary => ∃ back, sql.toList = creationStart .dictionary
        ++ (ifNotExistsClause false ++ (s.target.toList ++ ' ' :: '(' :: back))
    | .createMaterializedView => ∃ back, sql.toList = creationStart .view
        ++ (ifNotExistsClause s.flags.ifNotExists ++ (s.target.toList ++ ' ' :: 'T' :: back))
    | .dropTable => sql.toList
        = removalStart .table ++ (ifExistsClause s.flags.ifExists ++ s.target.toList)
    | .dropView => sql.toList
        = removalStart .view ++ (ifExistsClause s.flags.ifExists ++ s.target.toList)
    | .dropDictionary => sql.toList
        = removalStart .dictionary ++ (ifExistsClause false ++ s.target.toList)
    | .delete => s.predicate = "" → sql.toList = deletion s.target.toList
    | .insert | .select => True := by
  unfold render at h
  split at h
  · cases h
  · cases hkind : s.kind with
    | createTable =>
      rw [hkind] at h
      exact toList_renderCreateTable h
    | createDictionary =>
      rw [hkind] at h
      exact toList_renderCreateDictionary h
    | createMaterializedView =>
      rw [hkind] at h
      cases hquery : s.renderSelect with
      | error e => rw [hquery] at h; cases h
      | ok query =>
        rw [hquery] at h
        cases h
        simp only [String.toList_append, List.append_assoc, toList_ifNotExistsText]
        exact ⟨_, rfl⟩
    | dropTable | dropView =>
      rw [hkind] at h
      cases h
      simp only [String.toList_append, List.append_assoc, toList_ifExistsText]
      rfl
    | dropDictionary =>
      rw [hkind] at h
      cases h
      exact String.toList_append
    | delete =>
      intro hpredicate
      rw [hkind] at h
      cases h
      rw [hpredicate]
      simp only [String.toList_append, List.append_assoc]
      rfl
    | insert | select => trivial

end Colonnade.Statement
