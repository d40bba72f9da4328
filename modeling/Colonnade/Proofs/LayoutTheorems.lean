import Colonnade.Proofs.FilterTheorems
import Colonnade.Proofs.GroupTheorems

/-!
# Filters reach their own conditions

The text of a query is laid out in clauses. Two of them are conditions, on rows behind `WHERE` and
on groups behind `HAVING`, and the comparisons of the filters are conjuncts of these. `Query.layout`
has the tokens of all this with an operand in each comparison: with the placeholders it is what the
text is read as (`Follows.tokens_text`), with the literals of what the filters ask it is what the
bound text is read as (`filters_reach_their_conditions`). That takes groups without lone quotes.
They are not only what was given, as an alias is read off every selected entry, be it in a literal.
-/

namespace Colonnade.Report

open Sql (Token literalTokens)

/-! ## Operands -/

namespace FilterCall

/-- The placeholder of a call in a role, as an operand. -/
def hole (call : FilterCall) (r : Role) : List Token := [.placeholder (call.placeholder r).toList]

/-- What a call asks in a role, as an operand. -/
def literals (call : FilterCall) (r : Role) : List Token := literalTokens (call.texts r)

/-- A placeholder is filled in with what its call asks, if it asks anything. -/
theorem flatMap_filled_hole {call : FilterCall} {r : Role} {texts : List Char → List String}
    (htexts : texts (call.placeholder r).toList = call.texts r) (hasks : call.texts r ≠ []) :
    (call.hole r).flatMap (Token.filled texts) = call.literals r := by
  rw [hole, List.flatMap_singleton, Token.filled, htexts, if_neg hasks, literals]

end FilterCall

theorem flatMap_filled_chars (texts : List Char → List String) (cs : List Char) :
    (cs.map Token.char).flatMap (Token.filled texts) = cs.map Token.char := by
  rw [List.flatMap_map, List.map_eq_flatMap]
  exact List.flatMap_congr fun _ _ => rfl

/-- Around an operand on an inert column there is nothing to fill in. -/
theorem flatMap_filled_tokensWith {column : String} (hcolumn : Inert column) (c : Comparison)
    (texts : List Char → List String) (operand : List Token) :
    (c.tokensWith column operand).flatMap (Token.filled texts)
      = c.tokensWith column (operand.flatMap (Token.filled texts)) := by
  have hchar (d : Char) (rest : List Token) : (Token.char d :: rest).flatMap (Token.filled texts)
      = .char d :: rest.flatMap (Token.filled texts) := rfl
  have hoperand : (c.role.enclose operand).flatMap (Token.filled texts)
      = c.role.enclose (operand.flatMap (Token.filled texts)) := by
    cases c.role with
    | values =>
      rw [Role.enclose, hchar, List.flatMap_append, hchar, List.flatMap_nil]
      rfl
    | value | min | max | eq => rfl
  rw [Comparison.tokensWith, List.flatMap_append, hcolumn.flatMap_filled, hchar,
    List.flatMap_append, flatMap_filled_chars, hchar, hoperand]
  rfl

/-! ## Conjuncts -/

/-- A conjunct of a condition: a text that was given, or a comparison of a filter. -/
inductive Conjunct where
  | given (text : String)
  | compared (call : FilterCall) (c : Comparison)

namespace Conjunct

/-- The text of a conjunct. -/
def text : Conjunct → String
  | given text => text
  | compared call c => c.expression call.column call.seed

/-- The tokens of a conjunct, with operands in the comparisons of filters. -/
def tokens (operand : FilterCall → Role → List Token) : Conjunct → List Token
  | given text => Sql.tokens text.toList
  | compared call c => c.tokensWith call.column (operand call c.role)

/-- Whether a conjunct is one that filters have on groups, or on rows, or has no placeholder. -/
def Of (filters : List FilterCall) (onGroups : Bool) : Conjunct → Prop
  | given text => Inert text
  | compared call c =>
    call ∈ filters ∧ call.onGroups = onGroups ∧ c ∈ call.comparisons ∧ Inert call.column

variable {filters : List FilterCall} {onGroups : Bool} {k : Conjunct}

/-- The text of a conjunct is read with its placeholder. -/
theorem Of.tokens_text (h : k.Of filters onGroups) :
    Sql.tokens k.text.toList = k.tokens FilterCall.hole := by
  cases k with
  | given => rfl
  | compared call c =>
    obtain ⟨-, -, hc, hcolumn⟩ := h
    exact tokens_expression hcolumn (comparison_of hc).operator

/-- Filled in, a conjunct has what its filter asks. -/
theorem Of.flatMap_filled (h : k.Of filters onGroups) {texts : List Char → List String}
    (htexts : ∀ call ∈ filters, ∀ r, texts (call.placeholder r).toList = call.texts r) :
    (k.tokens FilterCall.hole).flatMap (Token.filled texts) = k.tokens FilterCall.literals := by
  cases k with
  | given => exact Inert.flatMap_filled h texts
  | compared call c =>
    obtain ⟨hcall, -, hc, hcolumn⟩ := h
    rw [tokens, flatMap_filled_tokensWith hcolumn,
      FilterCall.flatMap_filled_hole (htexts call hcall c.role) (FilterCall.texts_ne_nil hc),
      tokens]

/-- The placeholders of a conjunct are those of its comparison. -/
theorem Of.eq_of_mem_tokens (h : k.Of filters onGroups) {name : List Char}
    (hname : .placeholder name ∈ k.tokens FilterCall.hole) :
    ∃ call c, k = compared call c ∧ name = (call.placeholder c.role).toList := by
  cases k with
  | given => exact (h _ hname).elim
  | compared call c =>
    obtain ⟨-, -, hc, hcolumn⟩ := h
    have hown : ∀ t ∈ call.hole c.role, Allowed (· = (call.placeholder c.role).toList) t :=
      List.forall_mem_singleton.2 rfl
    have hallowed := forall_mem_tokensWith hcolumn (comparison_of hc).operator hown _ hname
    exact ⟨call, c, rfl, hallowed⟩

/-- The comparison of a filter is told by its text. -/
theorem Of.eq_compared (h : k.Of filters onGroups)
    (hdistinct : (filters.map (·.number)).Nodup) {call : FilterCall} {c : Comparison}
    (hcompared : (compared call c).Of filters onGroups) (htext : k.text = (compared call c).text) :
    k = compared call c := by
  have hmem : Token.placeholder (call.placeholder c.role).toList ∈ k.tokens FilterCall.hole := by
    rw [← h.tokens_text, htext, hcompared.tokens_text]
    exact Comparison.mem_tokensWith (List.mem_singleton_self _) c call.column
  obtain ⟨call', c', rfl, hname⟩ := h.eq_of_mem_tokens hmem
  obtain ⟨hnumber, hrole⟩ := placeholder_injective (String.toList_inj.1 hname)
  obtain rfl := List.inj_on_of_nodup_map hdistinct hcompared.1 h.1 hnumber
  have hroles : (call.comparisons.map Comparison.role).Nodup := nodup_roles call.field call.like
  rw [List.inj_on_of_nodup_map hroles hcompared.2.2.1 h.2.2.1 hrole]

end Conjunct

namespace Query

/-- The conjuncts of the condition on groups, or on rows: each text that stands there once, and the
comparisons of the filters among them. -/
structure Conjuncts (q : Query) (filters : List FilterCall) (onGroups : Bool)
    (ks : List Conjunct) : Prop where
  texts : ks.map Conjunct.text = (q.conditionsOn onGroups).eraseDups
  nodup : ks.Nodup
  of : ∀ k ∈ ks, k.Of filters onGroups
  complete : ∀ call ∈ filters, call.onGroups = onGroups →
    ∀ c ∈ call.comparisons, .compared call c ∈ ks

/-- Every text that stands in a condition is a conjunct. -/
theorem Follows.exists_conjunct {q : Query} {filters : List FilterCall} (h : q.Follows filters)
    {onGroups : Bool} {e : String} (he : e ∈ q.conditionsOn onGroups) :
    ∃ k : Conjunct, k.text = e ∧ k.Of filters onGroups := by
  rcases h.others onGroups e he with hinert | ⟨call, hcall, hgroups, hcondition⟩
  · exact ⟨.given e, rfl, hinert⟩
  · obtain ⟨c, hc, rfl⟩ := List.mem_map.1 hcondition
    exact ⟨.compared call c, rfl, hcall, hgroups, hc, h.columns call hcall⟩

theorem exists_map_eq_of_forall {α β : Type} {f : α → β} {P : α → Prop} {bs : List β}
    (h : ∀ b ∈ bs, ∃ a, f a = b ∧ P a) : ∃ as : List α, as.map f = bs ∧ ∀ a ∈ as, P a := by
  induction bs with
  | nil => exact ⟨[], rfl, by simp⟩
  | cons b bs ih =>
    obtain ⟨⟨a, rfl, ha⟩, hbs⟩ := List.forall_mem_cons.1 h
    obtain ⟨as, rfl, has⟩ := ih hbs
    exact ⟨a :: as, rfl, List.forall_mem_cons.2 ⟨ha, has⟩⟩

/-- What filters and texts were added to is a condition of conjuncts. -/
theorem Follows.exists_conjuncts {q : Query} {filters : List FilterCall} (h : q.Follows filters)
    (onGroups : Bool) : ∃ ks, q.Conjuncts filters onGroups ks := by
  obtain ⟨ks, htexts, hof⟩ := exists_map_eq_of_forall fun e he =>
    h.exists_conjunct (List.mem_eraseDups.1 he : e ∈ q.conditionsOn onGroups)
  refine ⟨ks, htexts, .of_map Conjunct.text (htexts ▸ nodup_eraseDups _), hof, ?_⟩
  intro call hcall hgroups c hc
  have hcompared : (Conjunct.compared call c).Of filters onGroups :=
    ⟨hcall, hgroups, hc, h.columns call hcall⟩
  have hstands : c.expression call.column call.seed ∈ ks.map Conjunct.text := by
    rw [htexts, List.mem_eraseDups, ← hgroups]
    exact h.conditions call hcall (List.mem_map_of_mem hc)
  obtain ⟨k, hk, htext⟩ := List.mem_map.1 hstands
  exact (hof k hk).eq_compared h.distinct hcompared htext ▸ hk

/-! ## The clauses of a text -/

/-- The tokens of a condition behind a keyword, its conjuncts in parentheses; none without any. -/
def conditionTokens (keyword : String) : List (List Token) → List (List Token)
  | [] => []
  | conjuncts => [(keyword ++ "(").toList.map .char
      ++ ((") AND (".toList.map Token.char).intercalate conjuncts ++ [.char ')'])]

/-- The clauses before the condition on rows. -/
def opening (q : Query) : List String :=
  ["SELECT " ++ ", ".intercalate (unique q.selects), "FROM " ++ q.source]
    ++ clause (" ".intercalate ·) (unique q.joins)

/-- The clause between the two conditions. -/
def grouping (q : Query) : List String :=
  clause (fun l => "GROUP BY " ++ ", ".intercalate l) q.effectiveGroups

/-- The clauses behind the condition on groups. -/
def closing (q : Query) : List String :=
  clause (fun l => "ORDER BY " ++ ", ".intercalate l) (unique q.sorts)
    ++ if q.limit = 0 then [] else ["LIMIT " ++ toString q.limit ++ " OFFSET " ++ toString q.offset]

/-- The tokens of the text of a query whose conditions on rows and on groups have conjuncts with
operands in the comparisons of filters. Without a source or a select entry there are neither. -/
def layout (q : Query) (conjuncts : Bool → List Conjunct)
    (operand : FilterCall → Role → List Token) : List Token :=
  if q.source = "" ∨ q.selects = [] then "SELECT NULL".toList.map .char
  else [Token.char ' '].intercalate
    (q.opening.map (fun s => Sql.tokens s.toList)
      ++ conditionTokens "WHERE " ((conjuncts false).map (·.tokens operand))
      ++ q.grouping.map (fun s => Sql.tokens s.toList)
      ++ conditionTokens "HAVING " ((conjuncts true).map (·.tokens operand))
      ++ q.closing.map fun s => Sql.tokens s.toList)

theorem clauses_eq (q : Query) : q.clauses
    = q.opening ++ clause (fun l => "WHERE " ++ conjunction l) (unique (q.conditionsOn false))
      ++ q.grouping ++ clause (fun l => "HAVING " ++ conjunction l) (unique (q.conditionsOn true))
      ++ q.closing := by
  simp only [clauses, opening, grouping, closing, conditionsOn, List.append_assoc]

/-! ## Clauses without placeholders -/

/-- Inert items with a separator between them, behind a word that begins a clause, are inert. -/
theorem inert_listed (keyword sep : String) (hkeyword : ∀ c ∈ keyword.toList, c ≠ '\'' ∧ c ≠ ':')
    (hplain : ∀ c ∈ sep.toList, c ≠ '\'' ∧ c ≠ ':') (hsep : sep.toList.head?.any Sql.isBreak = true)
    {items : List String} (h : ∀ s ∈ items, Inert s) :
    Inert (keyword ++ sep.intercalate items) := by
  rw [Inert, String.toList_append]
  exact Reads.plain_append hkeyword (Reads.intercalate sep hplain hsep h)

theorem forall_mem_clause {P : String → Prop} {text : List String → String} {items : List String}
    (h : P (text items)) : ∀ s ∈ clause text items, P s := by
  intro s hs
  unfold clause at hs
  split at hs
  · cases hs
  · rw [List.mem_singleton.1 hs]
    exact h

theorem forall_mem_unique {P : String → Prop} {items : List String} (h : ∀ s ∈ items, P s) :
    ∀ s ∈ unique items, P s := fun s hs => h s (List.mem_eraseDups.1 hs)

section

variable {q : Query} {filters : List FilterCall} (h : q.Follows filters)

include h

theorem Follows.inert_opening : ∀ s ∈ q.opening, Inert s := by
  have hselect : Inert ("SELECT " ++ ", ".intercalate (unique q.selects)) :=
    inert_listed _ _ (by decide +kernel) (by decide +kernel) (by decide +kernel)
      (forall_mem_unique h.selects)
  have hsource : Inert ("FROM " ++ q.source) := by
    rw [Inert, String.toList_append]
    exact Reads.plain_append (by decide +kernel) h.source
  have hjoins : Inert (" ".intercalate (unique q.joins)) :=
    Reads.intercalate _ (by decide +kernel) (by decide +kernel) (forall_mem_unique h.joins)
  rw [opening, List.forall_mem_append, List.forall_mem_cons, List.forall_mem_singleton]
  exact ⟨⟨hselect, hsource⟩, forall_mem_clause hjoins⟩

theorem Follows.inert_closing : ∀ s ∈ q.closing, Inert s := by
  have hsorts : Inert ("ORDER BY " ++ ", ".intercalate (unique q.sorts)) :=
    inert_listed _ _ (by decide +kernel) (by decide +kernel) (by decide +kernel)
      (forall_mem_unique h.sorts)
  have hlimit : Inert ("LIMIT " ++ toString q.limit ++ " OFFSET " ++ toString q.offset) := by
    rw [Inert, String.toList_append, String.toList_append, String.toList_append]
    refine Reads.of_plain (List.forall_mem_append.2 ⟨List.forall_mem_append.2 ⟨?_, ?_⟩, ?_⟩)
    · exact List.forall_mem_append.2 ⟨by decide +kernel, Sql.plain_toString q.limit⟩
    · decide +kernel
    · exact Sql.plain_toString q.offset
  rw [closing, List.forall_mem_append]
  refine ⟨forall_mem_clause hsorts, ?_⟩
  split
  · exact fun _ hs => nomatch hs
  · exact List.forall_mem_singleton.2 hlimit

end

theorem inert_grouping {q : Query} (hgroups : ∀ g ∈ q.effectiveGroups, Inert g) :
    ∀ s ∈ q.grouping, Inert s :=
  forall_mem_clause
    (inert_listed _ _ (by decide +kernel) (by decide +kernel) (by decide +kernel) hgroups)

/-! ## The text of a query -/

section

variable {names : List Char → Prop} {keyword : String}
  (hkeyword : ∀ c ∈ (keyword ++ "(").toList, c ≠ '\'' ∧ c ≠ ':') {texts : List String}
  (htexts : ∀ s ∈ texts, Reads names s.toList)

theorem toList_condition (keyword : String) (texts : List String) :
    (keyword ++ conjunction texts).toList
      = (keyword ++ "(").toList ++ ((") AND (".intercalate texts).toList ++ [')']) := by
  simp [conjunction]

include hkeyword htexts

theorem reads_condition : Reads names (keyword ++ conjunction texts).toList := by
  have hjoined := Reads.intercalate ") AND (" (by decide +kernel) (by decide +kernel) htexts
  rw [toList_condition]
  exact Reads.plain_append hkeyword (hjoined.append (Reads.of_plain (by decide)) (by decide))

/-- A condition is read conjunct by conjunct. -/
theorem map_tokens_condition :
    (clause (fun l => keyword ++ conjunction l) texts).map (fun s => Sql.tokens s.toList)
      = conditionTokens keyword (texts.map fun s => Sql.tokens s.toList) := by
  cases texts with
  | nil => rfl
  | cons s texts =>
    have hand : (∀ c ∈ ") AND (".toList, c ≠ '\'' ∧ c ≠ ':') ∧
        (") AND (".toList.head?.any Sql.isBreak = true) := by decide +kernel
    have hjoined := Reads.intercalate ") AND (" hand.1 hand.2 htexts
    have hclosing : ∀ c ∈ [')'], c ≠ '\'' ∧ c ≠ ':' := by decide
    have htokens : Sql.tokens (keyword ++ conjunction (s :: texts)).toList
        = (keyword ++ "(").toList.map .char ++ ((") AND (".toList.map Token.char).intercalate
          ((s :: texts).map fun s => Sql.tokens s.toList) ++ [.char ')']) := by
      rw [toList_condition, Sql.tokens_append_of_plain hkeyword,
        Sql.tokens_append hjoined.quotes (by decide), Sql.tokens_of_plain hclosing,
        Sql.tokens_intercalate hand.1 hand.2 fun s hs => (htexts s hs).quotes]
      rfl
    exact congrArg (fun ts => [ts]) htokens

end

section

variable {q : Query} {filters : List FilterCall} (h : q.Follows filters)
  (hgroups : ∀ g ∈ q.effectiveGroups, Inert g)

include h hgroups

/-- Besides conjuncts no clause has a placeholder, and of these each has those of filters. -/
theorem Follows.reads_clauses : ∀ s ∈ q.clauses, Reads (FilterCall.Asked filters) s.toList := by
  have hinert {items : List String} (hitems : ∀ s ∈ items, Inert s) :
      ∀ s ∈ items, Reads (FilterCall.Asked filters) s.toList :=
    fun s hs => (hitems s hs).mono fun _ => False.elim
  have hunique (onGroups : Bool) := forall_mem_unique (h.reads_conditionsOn onGroups)
  rw [clauses_eq]
  simp only [List.forall_mem_append]
  refine ⟨⟨⟨⟨hinert h.inert_opening, ?_⟩, hinert (inert_grouping hgroups)⟩, ?_⟩,
    hinert h.inert_closing⟩
  · exact forall_mem_clause (reads_condition (by decide +kernel) (hunique false))
  · exact forall_mem_clause (reads_condition (by decide +kernel) (hunique true))

/-- The text of a query has no lone quote, and its placeholders are those of its filters. -/
theorem Follows.reads_text : Reads (FilterCall.Asked filters) q.text.toList := by
  rw [text]
  split
  · exact Reads.of_plain (by decide +kernel)
  · exact Reads.intercalate " " (by decide +kernel) (by decide +kernel) (h.reads_clauses hgroups)

/-- The text of a query is read as its layout with the placeholders of its filters. -/
theorem Follows.tokens_text {conjuncts : Bool → List Conjunct}
    (hconjuncts : ∀ onGroups, q.Conjuncts filters onGroups (conjuncts onGroups)) :
    Sql.tokens q.text.toList = q.layout conjuncts FilterCall.hole := by
  have hcondition (keyword : String)
      (hkeyword : ∀ c ∈ (keyword ++ "(").toList, c ≠ '\'' ∧ c ≠ ':') (onGroups : Bool) :
      (clause (fun l => keyword ++ conjunction l) (unique (q.conditionsOn onGroups))).map
          (fun s => Sql.tokens s.toList)
        = conditionTokens keyword ((conjuncts onGroups).map (·.tokens FilterCall.hole)) := by
    rw [map_tokens_condition hkeyword (forall_mem_unique (h.reads_conditionsOn onGroups)), unique,
      ← (hconjuncts onGroups).texts, List.map_map]
    exact congrArg _
      (List.map_congr_left fun k hk => ((hconjuncts onGroups).of k hk).tokens_text)
  have hwhere := hcondition "WHERE " (by decide +kernel) false
  have hhaving := hcondition "HAVING " (by decide +kernel) true
  rw [text, layout]
  split
  · exact Sql.tokens_of_plain (by decide +kernel)
  · rw [Sql.tokens_intercalate (by decide +kernel) (by decide +kernel)
      fun s hs => (h.reads_clauses hgroups s hs).quotes, clauses_eq]
    simp only [List.map_append, hwhere, hhaving]
    rfl

end

/-! ## Filling in -/

theorem map_filled_conditionTokens (keyword : String) (texts : List Char → List String)
    (conjuncts : List (List Token)) :
    (conditionTokens keyword conjuncts).map (fun ts => ts.flatMap (Token.filled texts))
      = conditionTokens keyword (conjuncts.map fun ts => ts.flatMap (Token.filled texts)) := by
  cases conjuncts with
  | nil => rfl
  | cons ts conjuncts =>
    have hclosing : [Token.char ')'].flatMap (Token.filled texts) = [.char ')'] := rfl
    simp only [conditionTokens, List.map_cons, List.map_nil, List.flatMap_append,
      flatMap_filled_chars, Text.flatMap_intercalate, hclosing]

/-- Filled in, a layout has in the place of each placeholder what its filter asks. -/
theorem Follows.flatMap_filled_layout {q : Query} {filters : List FilterCall}
    (h : q.Follows filters) (hgroups : ∀ g ∈ q.effectiveGroups, Inert g)
    {conjuncts : Bool → List Conjunct}
    (hconjuncts : ∀ onGroups, q.Conjuncts filters onGroups (conjuncts onGroups))
    {texts : List Char → List String}
    (htexts : ∀ call ∈ filters, ∀ r, texts (call.placeholder r).toList = call.texts r) :
    (q.layout conjuncts FilterCall.hole).flatMap (Token.filled texts)
      = q.layout conjuncts FilterCall.literals := by
  have hinert {clauses : List String} (hclauses : ∀ s ∈ clauses, Inert s) :
      (clauses.map fun s => Sql.tokens s.toList).map (fun ts => ts.flatMap (Token.filled texts))
        = clauses.map fun s => Sql.tokens s.toList := by
    rw [List.map_map]
    exact List.map_congr_left fun s hs => (hclauses s hs).flatMap_filled texts
  have hfilled (onGroups : Bool) : ((conjuncts onGroups).map (·.tokens FilterCall.hole)).map
      (fun ts => ts.flatMap (Token.filled texts))
        = (conjuncts onGroups).map (·.tokens FilterCall.literals) := by
    rw [List.map_map]
    exact List.map_congr_left fun k hk => ((hconjuncts onGroups).of k hk).flatMap_filled htexts
  have hspace : [Token.char ' '].flatMap (Token.filled texts) = [.char ' '] := rfl
  unfold layout
  split
  · exact flatMap_filled_chars texts _
  · simp only [Text.flatMap_intercalate, List.map_append, hspace, hinert h.inert_opening,
      hinert (inert_grouping hgroups), hinert h.inert_closing, map_filled_conditionTokens, hfilled]

/-! ## Bound queries -/

/-- Every filter of a query reaches its own condition, and nothing else. -/
structure FiltersReach (q : Query) (filters : List FilterCall) : Prop where
  /-- The conditions of a filter stand where it was added. -/
  conditions : ∀ call ∈ filters, call.conditions ⊆ q.conditionsOn call.onGroups
  /-- The clauses besides the two conditions have no placeholder. -/
  others : ∀ s ∈ q.opening ++ q.grouping ++ q.closing, Inert s
  /-- The text is read clause by clause. The comparisons of the filters are conjuncts of the
  condition on their side, each with its own placeholder, and in the bound text with the literals of
  what its filter asks. -/
  laidOut : ∃ conjuncts : Bool → List Conjunct,
    (∀ onGroups, q.Conjuncts filters onGroups (conjuncts onGroups)) ∧
      Sql.tokens q.text.toList = q.layout conjuncts FilterCall.hole ∧
      Sql.tokens (Sql.bind q.text q.parameters).toList = q.layout conjuncts FilterCall.literals
  /-- The placeholders in the text are those under which a filter asks something. -/
  placeholders : ∀ name, .placeholder name ∈ Sql.tokens q.text.toList →
    FilterCall.Asked filters name
  /-- A placeholder tells its filter and its role. -/
  distinct : ∀ call ∈ filters, ∀ call' ∈ filters, ∀ r r',
    call.placeholder r = call'.placeholder r' → call = call' ∧ r = r'
  /-- Read again, the bound text has the tokens of the text, with literals in the place of
  placeholders. -/
  bound : Sql.tokens (Sql.bind q.text q.parameters).toList
    = (Sql.tokens q.text.toList).flatMap (Token.filled (Sql.textsOf q.parameters))
  /-- The literals in the place of a placeholder have what its filter asks as their contents. -/
  contents : ∀ call ∈ filters, ∀ r, call.texts r ≠ [] →
    ((Token.placeholder (call.placeholder r).toList).filled
      (Sql.textsOf q.parameters)).filterMap Token.content? = call.texts r
  /-- No placeholder is left. -/
  closed : ∀ name, .placeholder name ∉ Sql.tokens (Sql.bind q.text q.parameters).toList

/-- Filters reach their own conditions, whatever they ask and under whatever identifiers, if the
fragments and the groups that count have neither lone quotes nor placeholders. -/
theorem filters_reach_their_conditions (steps : List Step)
    (hdirect : ∀ params, .parameters params ∉ steps)
    (hfragments : ∀ s ∈ steps, ∀ t ∈ s.fragments, Inert t)
    (hgroups : ∀ g ∈ (ofSteps steps).effectiveGroups, Inert g) :
    (ofSteps steps).FiltersReach (calls 0 steps) := by
  have hfollows : (ofSteps steps).Follows (calls 0 steps) :=
    follows_empty.steps hdirect hfragments
  have hreads := hfollows.reads_text hgroups
  have htexts := hfollows.stored.texts_of_mem hfollows.distinct
  have hasked : ∀ name, FilterCall.Asked (calls 0 steps) name →
      Sql.textsOf (ofSteps steps).parameters name ≠ [] := by
    rintro _ ⟨call, hcall, r, rfl, hasks⟩
    rwa [htexts call hcall]
  have hbound : Sql.tokens (Sql.bind (ofSteps steps).text (ofSteps steps).parameters).toList
      = (Sql.tokens (ofSteps steps).text.toList).flatMap
        (Token.filled (Sql.textsOf (ofSteps steps).parameters)) := by
    rw [Sql.bind, String.toList_ofList]
    exact Sql.tokens_bindChars hfollows.stored.isText hreads.quotes
  choose conjuncts hconjuncts using hfollows.exists_conjuncts
  have hlaid := hfollows.tokens_text hgroups hconjuncts
  exact {
    conditions := hfollows.conditions
    others := List.forall_mem_append.2 ⟨List.forall_mem_append.2
      ⟨hfollows.inert_opening, inert_grouping hgroups⟩, hfollows.inert_closing⟩
    laidOut := ⟨conjuncts, hconjuncts, hlaid, by
      rw [hbound, hlaid, hfollows.flatMap_filled_layout hgroups hconjuncts htexts]⟩
    placeholders := fun name hname => hreads _ hname
    distinct := fun call hcall call' hcall' r r' heq => by
      obtain ⟨hnumber, hrole⟩ := placeholder_injective heq
      exact ⟨List.inj_on_of_nodup_map hfollows.distinct hcall hcall' hnumber, hrole⟩
    bound := hbound
    contents := fun call hcall r hasks => by
      rw [Token.filled, htexts call hcall, if_neg hasks, Sql.filterMap_content?_literalTokens]
    closed := fun name hname => by
      rw [hbound] at hname
      exact hreads.closed hasked name hname }

/-- Two filters of one identifier but for characters that no name has, with quotes, a backslash and
a placeholder of the other in what they ask, beside a predicate that is given twice. -/
theorem filters_reach_their_conditions_alike :
    let steps : List Step := [.source "t", .select "a AS x", .group "a", .predicate "b <> ':no'",
      .predicate "b <> ':no'",
      .filterPredicate "c" { id := "1-2", value := "' OR :f1_2_2_values", great := "\\" } true,
      .filterHaving "x::int" { id := "1_2", values := ["':f1_2_1_value", ""] } false, .limit 5]
    ((∀ params, .parameters params ∉ steps) ∧ (∀ s ∈ steps, ∀ t ∈ s.fragments, Inert t) ∧
      ∀ g ∈ (ofSteps steps).effectiveGroups, Inert g) ∧
      (ofSteps steps).FiltersReach (calls 0 steps) := by
  intro steps
  have hdirect : ∀ params, .parameters params ∉ steps := by
    simp [steps]
  have hfragments : ∀ s ∈ steps, ∀ t ∈ s.fragments, Inert t := by
    decide +kernel
  have hgroups : ∀ g ∈ (ofSteps steps).effectiveGroups, Inert g := by
    decide +kernel
  exact ⟨⟨hdirect, hfragments, hgroups⟩,
    filters_reach_their_conditions steps hdirect hfragments hgroups⟩

/-- A selected literal is taken for an expression with an alias, and the half of it that becomes a
group has a lone quote. -/
theorem filters_lost_behind_quoted_alias :
    let steps : List Step := [.source "t", .select "'x as y'", .group "g",
      .filterHaving "c" { id := "f", value := "v" } false]
    (∀ params, .parameters params ∉ steps) ∧ (∀ s ∈ steps, ∀ t ∈ s.fragments, Inert t) ∧
      ¬ (ofSteps steps).FiltersReach (calls 0 steps) := by
  intro steps
  refine ⟨by simp [steps], by decide +kernel, fun h => absurd h.bound ?_⟩
  decide +kernel

end Query

end Colonnade.Report
