import Colonnade.Proofs.BindingTheorems
import Colonnade.Statement.Dictionary
import Colonnade.Statement.Engine

/-!
# Connection descriptors

The source of a dictionary and the address of an external table are put together from texts that a
user gives: hosts, names, a password. Each stands in a literal of its own. Read again, a descriptor
is a fixed text with literals in it (`skeleton`), and the contents of these literals are the given
texts (`contents`).

`Spells` says it of a piece: it is read to its end whatever follows, so pieces laid end to end spell
what they spell one by one, and the proofs follow the way in which the texts are put together.
-/

namespace Colonnade.Sql

/-- The token without its content. -/
def Token.blank : Token → Token
  | .literal _ => .literal []
  | .cast => .cast
  | .placeholder name => .placeholder name
  | .char c => .char c

/-- The text with all its literals emptied. -/
def skeleton (text : String) : String :=
  .ofList (((tokens text.toList).map Token.blank).flatMap Token.text)

/-- The contents of the literals of a text, in their order. -/
def contents (text : String) : List String := (tokens text.toList).filterMap Token.content?

/-! ## Spelling -/

/-- Whether a text is read as a skeleton with given contents, whatever follows it. -/
def Spells (text blank : String) (given : List String) : Prop :=
  ∃ ts, (∀ rest, tokens (text.toList ++ rest) = ts ++ tokens rest) ∧
    (ts.map Token.blank).flatMap Token.text = blank.toList ∧ ts.filterMap Token.content? = given

namespace Spells

variable {text text' blank blank' : String} {given given' : List String}

theorem skeleton_eq (h : Spells text blank given) : skeleton text = blank := by
  obtain ⟨ts, htokens, hblank, _⟩ := h
  have hall := htokens []
  rw [List.append_nil, tokens_nil, List.append_nil] at hall
  rw [skeleton, hall, hblank, String.ofList_toList]

theorem contents_eq (h : Spells text blank given) : contents text = given := by
  obtain ⟨ts, htokens, _, hgiven⟩ := h
  have hall := htokens []
  rw [List.append_nil, tokens_nil, List.append_nil] at hall
  rw [contents, hall, hgiven]

/-- A text without quotes and colons is its own skeleton. -/
theorem plain (text : String) (h : ∀ c ∈ text.toList, c ≠ '\'' ∧ c ≠ ':') :
    Spells text text [] := by
  refine ⟨text.toList.map .char, tokens_append_of_plain h, ?_, ?_⟩
  · simp [Token.blank, Token.text, List.flatMap_map]
  · simp [Token.content?]

theorem quote (s : String) : Spells (Quoted.quote s) "''" [s] := by
  have hreadable : (Token.literal (Quoted.encode s.toList)).Readable :=
    Quoted.scanBody_encode s.toList []
  refine ⟨[.literal (Quoted.encode s.toList)], fun rest => ?_, rfl, ?_⟩
  · rw [Quoted.toList_quote]
    exact hreadable.tokens_append trivial
  · simp [Token.content?, Quoted.decode_encode]

theorem append (h : Spells text blank given) (h' : Spells text' blank' given') :
    Spells (text ++ text') (blank ++ blank') (given ++ given') := by
  obtain ⟨ts, htokens, hblank, rfl⟩ := h
  obtain ⟨ts', htokens', hblank', rfl⟩ := h'
  refine ⟨ts ++ ts', fun rest => ?_, ?_, List.filterMap_append⟩
  · rw [String.toList_append, List.append_assoc, htokens, htokens', List.append_assoc]
  · rw [List.map_append, List.flatMap_append, hblank, hblank', String.toList_append]

/-- The same texts may be put together in another way. -/
theorem congr (h : Spells text blank given) (htext : text = text') (hblank : blank = blank')
    (hgiven : given = given') : Spells text' blank' given' := by
  rw [← htext, ← hblank, ← hgiven]
  exact h

theorem andPlain (h : Spells text blank given) (label : String)
    (hlabel : ∀ c ∈ label.toList, c ≠ '\'' ∧ c ≠ ':') :
    Spells (text ++ label) (blank ++ label) given := by
  simpa using h.append (plain label hlabel)

theorem andQuote (h : Spells text blank given) (s : String) :
    Spells (text ++ Quoted.quote s) (blank ++ "''") (given ++ [s]) := h.append (quote s)

/-- A list of pieces with a plain text between them. -/
theorem intercalate {α : Type} (sep : String) (hsep : ∀ c ∈ sep.toList, c ≠ '\'' ∧ c ≠ ':')
    (items : List α) {write blank : α → String} {given : α → List String}
    (h : ∀ a ∈ items, Spells (write a) (blank a) (given a)) :
    Spells (sep.intercalate (items.map write)) (sep.intercalate (items.map blank))
      (items.flatMap given) := by
  induction items with
  | nil => exact plain "" (by simp)
  | cons a items ih =>
    obtain ⟨ha, hitems⟩ := List.forall_mem_cons.1 h
    cases items with
    | nil => simpa using ha
    | cons b items =>
      simpa [String.intercalate_cons_cons] using (ha.andPlain sep hsep).append (ih hitems)

end Spells

end Colonnade.Sql

namespace Colonnade

open Sql

/-! ## Sources of dictionaries -/

namespace DictionarySource

/-- A source of as many hosts at a port, with all its texts empty. -/
def blank (n : Nat) (port : UInt16) : String :=
  "MYSQL(" ++ " ".intercalate ((List.range' 1 n).map fun i =>
      "replica(host '' priority " ++ toString i ++ ")")
    ++ " port " ++ toString port.toNat
    ++ " db '' table '' user '' password '' fail_on_connection_loss '')"

/-- The texts of a source, in their order. -/
def given (s : DictionarySource) : List String :=
  s.hosts ++ [s.database, s.remoteTable, s.user, s.password, "true"]

theorem replicasFrom_eq (priority : Nat) (hosts : List String) :
    replicasFrom priority hosts
      = (hosts.zipIdx priority).map fun host => replica host.1 host.2 := by
  induction hosts generalizing priority with
  | nil => rfl
  | cons host hosts ih => simp [replicasFrom, ih]

theorem spells_replica (host : String) (priority : Nat) :
    Spells (replica host priority) ("replica(host '' priority " ++ toString priority ++ ")")
      [host] := by
  have hspells : Spells (replica host priority)
      ("replica(host " ++ "''" ++ " priority " ++ toString priority ++ ")") ([] ++ [host]) :=
    Spells.plain "replica(host " (by decide +kernel)
      |>.andQuote host
      |>.andPlain " priority " (by decide +kernel)
      |>.andPlain (toString priority) (plain_toString priority)
      |>.andPlain ")" (by decide +kernel)
  exact hspells

theorem spells_replicas (hosts : List String) :
    Spells (" ".intercalate (replicasFrom 1 hosts))
      (" ".intercalate ((List.range' 1 hosts.length).map fun i =>
        "replica(host '' priority " ++ toString i ++ ")")) hosts := by
  have hspells := Spells.intercalate " " (by decide +kernel) (hosts.zipIdx 1)
    fun host _ => spells_replica host.1 host.2
  have hhosts : (hosts.zipIdx 1).flatMap (fun host => [host.1]) = hosts := by
    rw [← List.map_eq_flatMap, List.zipIdx_map_fst]
  rw [← List.zipIdx_map_snd, List.map_map, replicasFrom_eq]
  rw [hhosts] at hspells
  exact hspells

/-- A source with a host spells its texts, whatever they are. -/
theorem exists_spells {s : DictionarySource} (h : s.hosts ≠ []) :
    ∃ text, s.text = .ok text ∧ Spells text (blank s.hosts.length s.port) s.given := by
  have hhosts : s.hosts.isEmpty = false := by simpa using h
  refine ⟨_, by rw [text, hhosts]; rfl, ?_⟩
  have hspells := (Spells.plain "MYSQL(" (by decide +kernel)).append
      (spells_replicas s.hosts)
    |>.andPlain " port " (by decide +kernel)
    |>.andPlain (toString s.port.toNat) (plain_toString s.port.toNat)
    |>.andPlain " db " (by decide +kernel)
    |>.andQuote s.database
    |>.andPlain " table " (by decide +kernel)
    |>.andQuote s.remoteTable
    |>.andPlain " user " (by decide +kernel)
    |>.andQuote s.user
    |>.andPlain " password " (by decide +kernel)
    |>.andQuote s.password
    |>.andPlain " fail_on_connection_loss " (by decide +kernel)
    |>.andQuote "true"
    |>.andPlain ")" (by decide +kernel)
  have htrue : Quoted.quote "true" = "'true'" := by decide +kernel
  refine hspells.congr ?_ ?_ ?_
  · rw [← String.toList_inj, htrue]
    simp
  · rw [← String.toList_inj]
    simp [blank]
  · simp [given]

/-- Sources are told by their ports and by their texts. -/
theorem text_eq_iff {s s' : DictionarySource} (h : s.hosts ≠ []) (h' : s'.hosts ≠ []) :
    s.text = s'.text ↔ s.port = s'.port ∧ s.hosts = s'.hosts ∧ s.database = s'.database ∧
      s.remoteTable = s'.remoteTable ∧ s.user = s'.user ∧ s.password = s'.password := by
  obtain ⟨text, htext, hspells⟩ := exists_spells h
  obtain ⟨text', htext', hspells'⟩ := exists_spells h'
  constructor
  · intro heq
    obtain rfl : text = text' := Except.ok.inj (htext.symm.trans (heq.trans htext'))
    have hgiven : s.given = s'.given := hspells.contents_eq.symm.trans hspells'.contents_eq
    obtain ⟨hhosts, htexts⟩ := List.append_inj' hgiven rfl
    simp only [List.cons.injEq, and_true] at htexts
    have hblank : blank s.hosts.length s.port = blank s'.hosts.length s'.port :=
      hspells.skeleton_eq.symm.trans hspells'.skeleton_eq
    rw [blank, blank, hhosts, String.append_left_inj, String.append_right_inj] at hblank
    have hport := UInt16.toNat_inj.1 (Decimal.toString_nat_inj.1 hblank)
    exact ⟨hport, hhosts, htexts⟩
  · rintro ⟨hport, hhosts, hdatabase, htable, huser, hpassword⟩
    rw [DictionarySource.text, DictionarySource.text, hhosts, hport, hdatabase, htable, huser,
      hpassword]

end DictionarySource

/-! ## Addresses of external tables -/

namespace MySqlParams

/-- An address with all its texts empty. -/
def blank : MySqlMode → String
  | .table => "MySQL('', '', '', '', '')"
  | .database => "MySQL('', '', '', '')"

/-- The host and the port with a colon between them. -/
def address (p : MySqlParams) : Option String := do
  let host ← p.host
  let port ← p.port
  return host ++ ":" ++ port

/-- The texts of an address, in their order. -/
def given (p : MySqlParams) : List (Option String) :=
  [p.address, p.database] ++ (if p.mode = .table then [p.table] else []) ++ [p.user, p.password]

theorem map_some_arguments {p : MySqlParams} (h : p.isComplete = true) :
    p.arguments.map some = p.given := by
  simp only [isComplete, Bool.and_eq_true, Option.isSome_iff_exists] at h
  obtain ⟨⟨⟨⟨⟨⟨host, hhost⟩, port, hport⟩, database, hdatabase⟩, user, huser⟩, password, hpassword⟩,
    htable⟩ := h
  cases hmode : p.mode with
  | database => simp [arguments, given, address, hmode, hhost, hport, hdatabase, huser, hpassword]
  | table =>
    obtain ⟨table, htable⟩ : ∃ table, p.table = some table := by
      simpa [hmode, Option.isSome_iff_exists] using htable
    simp [arguments, given, address, hmode, hhost, hport, hdatabase, htable, huser, hpassword]

theorem blank_eq (p : MySqlParams) :
    "MySQL(" ++ ", ".intercalate (p.arguments.map fun _ => "''") ++ ")" = blank p.mode := by
  cases hmode : p.mode <;> simp [arguments, blank, hmode]

/-- A complete address spells its texts, whatever they are. -/
theorem exists_spells {p : MySqlParams} (h : p.isComplete = true) :
    ∃ text, p.text = .ok text ∧ Spells text (blank p.mode) p.arguments := by
  refine ⟨_, by rw [text, if_pos h], ?_⟩
  have harguments := Spells.intercalate ", " (by decide +kernel) p.arguments
    fun s _ => Spells.quote s
  have hspells := (Spells.plain "MySQL(" (by decide +kernel)).append harguments
    |>.andPlain ")" (by decide +kernel)
  refine hspells.congr rfl (blank_eq p) ?_
  simp

/-- Addresses are told by their texts. -/
theorem text_eq_iff {p p' : MySqlParams} (h : p.isComplete = true) (h' : p'.isComplete = true) :
    p.text = p'.text ↔ p.given = p'.given := by
  obtain ⟨text, htext, hspells⟩ := exists_spells h
  obtain ⟨text', htext', hspells'⟩ := exists_spells h'
  rw [← map_some_arguments h, ← map_some_arguments h']
  constructor
  · intro heq
    obtain rfl : text = text' := Except.ok.inj (htext.symm.trans (heq.trans htext'))
    rw [← hspells.contents_eq, ← hspells'.contents_eq]
  · intro hgiven
    have harguments : p.arguments = p'.arguments :=
      (List.map_inj_right fun _ _ => Option.some.inj).1 hgiven
    rw [MySqlParams.text, MySqlParams.text, if_pos h, if_pos h', harguments]

theorem given_eq_iff {p p' : MySqlParams} : p.given = p'.given ↔
    p.mode = p'.mode ∧ p.address = p'.address ∧ p.database = p'.database ∧
      (p.mode = .table → p.table = p'.table) ∧ p.user = p'.user ∧ p.password = p'.password := by
  cases hmode : p.mode <;> cases hmode' : p'.mode <;> simp [given, hmode, hmode']

end MySqlParams

/-! ## Descriptors -/

/-- Whatever texts a descriptor is given, it is read as a fixed text with one literal for each of
them, in a fixed order: so it tells them. -/
theorem descriptors_keep_their_texts :
    (∀ s : DictionarySource, s.hosts ≠ [] → ∃ text, s.text = .ok text ∧
      skeleton text = DictionarySource.blank s.hosts.length s.port ∧
      contents text = s.hosts ++ [s.database, s.remoteTable, s.user, s.password, "true"]) ∧
    (∀ s s' : DictionarySource, s.hosts ≠ [] → s'.hosts ≠ [] →
      (s.text = s'.text ↔ s.port = s'.port ∧ s.hosts = s'.hosts ∧ s.database = s'.database ∧
        s.remoteTable = s'.remoteTable ∧ s.user = s'.user ∧ s.password = s'.password)) ∧
    (∀ (e : Engine) (p : MySqlParams), e.family = .mySql p → e.conf = none →
      p.isComplete = true → ∃ text, e.dsn = .ok text ∧ skeleton text = MySqlParams.blank p.mode ∧
        (contents text).map some = p.given) ∧
    ∀ (e e' : Engine) (p p' : MySqlParams), e.family = .mySql p → e'.family = .mySql p' →
      e.conf = none → e'.conf = none → p.isComplete = true → p'.isComplete = true →
      (e.dsn = e'.dsn ↔
        p.mode = p'.mode ∧ p.address = p'.address ∧ p.database = p'.database ∧
          (p.mode = .table → p.table = p'.table) ∧ p.user = p'.user ∧
          p.password = p'.password) := by
  have hdsn {e : Engine} {p : MySqlParams} (hfamily : e.family = .mySql p)
      (hconf : e.conf = none) : e.dsn = p.text := by
    rw [Engine.dsn, hfamily, hconf]
  refine ⟨?_, ?_, ?_, ?_⟩
  · intro s h
    obtain ⟨text, htext, hspells⟩ := DictionarySource.exists_spells h
    exact ⟨text, htext, hspells.skeleton_eq, hspells.contents_eq⟩
  · intro s s' h h'
    exact DictionarySource.text_eq_iff h h'
  · intro e p hfamily hconf h
    obtain ⟨text, htext, hspells⟩ := MySqlParams.exists_spells h
    rw [hdsn hfamily hconf]
    refine ⟨text, htext, hspells.skeleton_eq, ?_⟩
    rw [hspells.contents_eq, MySqlParams.map_some_arguments h]
  · intro e e' p p' hfamily hfamily' hconf hconf' h h'
    rw [hdsn hfamily hconf, hdsn hfamily' hconf', MySqlParams.text_eq_iff h h',
      MySqlParams.given_eq_iff]

/-- Quotes and backslashes end no literal before its end. -/
theorem descriptors_keep_their_texts_hostile :
    let s : DictionarySource := {
      remoteTable := "t", hosts := ["a' priority 9) replica(host 'b", "c\\"], database := "'"
      port := 3306, user := "\\'", password := "p' db 'x" }
    let p : MySqlParams := {
      host := some "a', 'b", port := some "1", database := some "\\", table := some "'t'"
      user := some "", password := some "x')" }
    let e : Engine := { family := .mySql p }
    (∃ text, s.text = .ok text ∧
      skeleton text = "MYSQL(replica(host '' priority 1) replica(host '' priority 2) port 3306 "
        ++ "db '' table '' user '' password '' fail_on_connection_loss '')" ∧
      contents text
        = ["a' priority 9) replica(host 'b", "c\\", "'", "t", "\\'", "p' db 'x", "true"]) ∧
    ∃ text, e.dsn = .ok text ∧ skeleton text = "MySQL('', '', '', '', '')" ∧
      (contents text).map some = ["a', 'b:1", "\\", "'t'", "", "x')"].map some := by
  intro s p e
  obtain ⟨hsource, _, haddress, _⟩ := descriptors_keep_their_texts
  obtain ⟨text, htext, hskeleton, hcontents⟩ := hsource s (List.cons_ne_nil _ _)
  refine ⟨⟨text, htext, hskeleton.trans (by decide +kernel), hcontents⟩, ?_⟩
  exact haddress e p rfl rfl rfl

end Colonnade
