import Colonnade.Proofs.ComparisonTheorems
import Colonnade.Report.Query
import Mathlib.Data.List.Nodup

/-!
# What filters add to a query

A filter adds its conditions to a query, under placeholders of its own, and to the parameters what
it asks. The tokens of a condition are those of its column, an operator and a placeholder
(`tokens_expression`). `Query.Follows` says what a query has come to by steps that added filters: no
fragment but their conditions has a placeholder, and the parameters hold what the filters ask and
nothing else. It holds of the empty query and is kept by every step (`Follows.steps`).
-/

namespace Colonnade.Report

open Sql (Token tokens)

/-! ## Texts without lone quotes -/

/-- Whether a token is no lone quote, and as a placeholder has one of the given names. -/
def Allowed (names : List Char → Prop) : Token → Prop
  | .placeholder name => names name
  | .char c => c ≠ '\''
  | .literal _ | .cast => True

instance (names : List Char → Prop) [DecidablePred names] : DecidablePred (Allowed names)
  | .placeholder name => inferInstanceAs (Decidable (names name))
  | .char c => inferInstanceAs (Decidable (c ≠ '\''))
  | .literal _ | .cast => isTrue trivial

/-- The text has no lone quote and only placeholders of the given names. -/
def Reads (names : List Char → Prop) (cs : List Char) : Prop := ∀ t ∈ tokens cs, Allowed names t

/-- The text has neither lone quotes nor placeholders. -/
def Inert (s : String) : Prop := Reads (fun _ => False) s.toList

instance (s : String) : Decidable (Inert s) := inferInstanceAs (Decidable (∀ t ∈ _, _))

namespace Reads

variable {names : List Char → Prop} {cs rest : List Char}

theorem quotes (h : Reads names cs) : Token.char '\'' ∉ tokens cs := fun hmem => h _ hmem rfl

theorem mono {names' : List Char → Prop} (h : Reads names cs) (hnames : ∀ n, names n → names' n) :
    Reads names' cs := by
  intro t ht
  have hallowed := h t ht
  cases t with
  | placeholder name => exact hnames name hallowed
  | literal | cast | char => exact hallowed

theorem nil : Reads names [] := by
  intro t ht
  rw [Sql.tokens_nil] at ht
  cases ht

theorem append (h : Reads names cs) (hrest : Reads names rest)
    (hbreak : ∀ c ∈ rest.head?, Sql.isBreak c = true) : Reads names (cs ++ rest) := by
  rw [Reads, Sql.tokens_append h.quotes hbreak, List.forall_mem_append]
  exact ⟨h, hrest⟩

theorem plain_append (hplain : ∀ c ∈ cs, c ≠ '\'' ∧ c ≠ ':') (hrest : Reads names rest) :
    Reads names (cs ++ rest) := by
  rw [Reads, Sql.tokens_append_of_plain hplain, List.forall_mem_append]
  refine ⟨fun t ht => ?_, hrest⟩
  obtain ⟨c, hc, rfl⟩ := List.mem_map.1 ht
  exact (hplain c hc).1

theorem of_plain (hplain : ∀ c ∈ cs, c ≠ '\'' ∧ c ≠ ':') : Reads names cs := by
  rw [← List.append_nil cs]
  exact plain_append hplain nil

/-- Texts laid end to end, between them a separator that begins with a break. -/
theorem intercalate (sep : String) {texts : List String}
    (hplain : ∀ c ∈ sep.toList, c ≠ '\'' ∧ c ≠ ':') (hsep : sep.toList.head?.any Sql.isBreak = true)
    (h : ∀ s ∈ texts, Reads names s.toList) : Reads names (sep.intercalate texts).toList := by
  rw [Reads, Sql.tokens_intercalate hplain hsep fun s hs => (h s hs).quotes]
  refine Text.forall_mem_intercalate (List.forall_mem_map.2 fun c hc => (hplain c hc).1) ?_
  exact List.forall_mem_map.2 h

/-- Where every placeholder stands for texts, none is left. -/
theorem closed (h : Reads names cs) {texts : List Char → List String}
    (htexts : ∀ name, names name → texts name ≠ []) (name : List Char) :
    .placeholder name ∉ (tokens cs).flatMap (Token.filled texts) := by
  intro hmem
  obtain ⟨t, ht, hname⟩ := List.mem_flatMap.1 hmem
  have hallowed := h t ht
  cases t with
  | literal | cast | char => cases List.mem_singleton.1 hname
  | placeholder name' =>
    rw [Token.filled, if_neg (htexts name' hallowed)] at hname
    exact Sql.placeholder_not_mem_literalTokens name _ hname

end Reads

/-- Nothing is filled in where there is no placeholder. -/
theorem Inert.flatMap_filled {s : String} (h : Inert s) (texts : List Char → List String) :
    (tokens s.toList).flatMap (Token.filled texts) = tokens s.toList := by
  have hsame : ∀ t ∈ tokens s.toList, Token.filled texts t = [t] := fun t ht => by
    have hallowed := h t ht
    cases t with
    | placeholder => exact hallowed.elim
    | literal | cast | char => rfl
  rw [List.flatMap_congr hsame, List.flatMap_singleton']

/-! ## Conditions as they are written -/

/-- An operand as it stands in a comparison: a list stands in parentheses. -/
def Role.enclose : Role → List Token → List Token
  | .values, operand => .char '(' :: (operand ++ [.char ')'])
  | .value, operand | .min, operand | .max, operand | .eq, operand => operand

/-- The tokens of a comparison of a column, with an operand in the place of its placeholder. -/
def Comparison.tokensWith (c : Comparison) (column : String) (operand : List Token) : List Token :=
  tokens column.toList
    ++ (.char ' ' :: (c.operator.toList.map .char ++ .char ' ' :: c.role.enclose operand))

/-- A comparison of an inert column is read with its placeholder. -/
theorem tokens_expression {column : String} (hcolumn : Inert column) {id : String} {number : Nat}
    {c : Comparison} (hoperator : c.operator ∈ operators) :
    tokens (c.expression column (seedOf id number)).toList
      = c.tokensWith column [.placeholder (seedOf id number ++ c.role.ending).toList] := by
  obtain ⟨operator, role, operand⟩ := c
  have hplain := plain_of_mem_operators _ hoperator
  have hchar {d : Char} (hd : d ≠ '\'' ∧ d ≠ ':') (rest : List Char) :
      tokens (d :: rest) = .char d :: tokens rest :=
    Sql.tokens_append_of_plain (List.forall_mem_singleton.2 hd) rest
  have hafter (rest : List Char) : tokens (column.toList ++ ' ' :: (operator.toList ++ ' ' :: rest))
      = tokens column.toList
        ++ (.char ' ' :: (operator.toList.map .char ++ .char ' ' :: tokens rest)) := by
    rw [Sql.tokens_append hcolumn.quotes fun d hd => by cases hd; decide, hchar (by decide),
      Sql.tokens_append_of_plain hplain, hchar (by decide)]
  have hplaceholder {rest : List Char} (hends : ∀ d ∈ rest.head?, Sql.isNameChar d = false) :
      tokens (':' :: ((seedOf id number ++ role.ending).toList ++ rest))
        = .placeholder (seedOf id number ++ role.ending).toList :: tokens rest :=
    (readable_placeholder id number role).tokens_append hends
  have hopen := hafter (':' :: ((seedOf id number ++ role.ending).toList ++ []))
  rw [hplaceholder (by simp), Sql.tokens_nil] at hopen
  have hclosed := hafter ('(' :: ':' :: ((seedOf id number ++ role.ending).toList ++ [')']))
  rw [hchar (by decide), hplaceholder (by decide), hchar (by decide), Sql.tokens_nil] at hclosed
  cases role with
  | values =>
    simpa [Comparison.expression, Comparison.placeholder, Comparison.tokensWith, Role.enclose]
      using hclosed
  | value | min | max | eq =>
    simpa [Comparison.expression, Comparison.placeholder, Comparison.tokensWith, Role.enclose]
      using hopen

/-- Around its operand a comparison of an inert column is inert. -/
theorem forall_mem_tokensWith {names : List Char → Prop} {column : String} (hcolumn : Inert column)
    {c : Comparison} (hoperator : c.operator ∈ operators) {operand : List Token}
    (h : ∀ t ∈ operand, Allowed names t) : ∀ t ∈ c.tokensWith column operand, Allowed names t := by
  have hchar {d : Char} (hd : d ≠ '\'') : Allowed names (.char d) := hd
  have hoperand : ∀ t ∈ c.role.enclose operand, Allowed names t := by
    cases c.role with
    | values =>
      rw [Role.enclose, List.forall_mem_cons, List.forall_mem_append, List.forall_mem_singleton]
      exact ⟨hchar (by decide), h, hchar (by decide)⟩
    | value | min | max | eq => exact h
  rw [Comparison.tokensWith, List.forall_mem_append, List.forall_mem_cons, List.forall_mem_append,
    List.forall_mem_cons]
  exact ⟨hcolumn.mono fun _ => False.elim, hchar (by decide), List.forall_mem_map.2 fun d hd =>
    hchar (plain_of_mem_operators _ hoperator d hd).1, hchar (by decide), hoperand⟩

theorem Comparison.mem_tokensWith {operand : List Token} {t : Token} (h : t ∈ operand)
    (c : Comparison) (column : String) : t ∈ c.tokensWith column operand := by
  have hoperand : t ∈ c.role.enclose operand := by
    cases c.role <;> simp [Role.enclose, h]
  simp [tokensWith, hoperand]

/-- A condition on an inert column has the placeholder of its comparison and no other. -/
theorem reads_expression {names : List Char → Prop} {column : String} (hcolumn : Inert column)
    {id : String} {number : Nat} {c : Comparison} (hoperator : c.operator ∈ operators)
    (hname : names (seedOf id number ++ c.role.ending).toList) :
    Reads names (c.expression column (seedOf id number)).toList := by
  rw [Reads, tokens_expression hcolumn hoperator]
  exact forall_mem_tokensWith hcolumn hoperator (List.forall_mem_singleton.2 hname)

/-! ## Filters that were added -/

/-- A filter that was added to a query. -/
structure FilterCall where
  /-- Which of the filters that were compiled it is. -/
  number : Nat
  column : String
  field : FilterField
  like : Bool
  /-- Whether it is a condition on groups. -/
  onGroups : Bool

namespace FilterCall

/-- The seed of its placeholders. -/
def seed (call : FilterCall) : String := seedOf call.field.id call.number

/-- The placeholder of a role. -/
def placeholder (call : FilterCall) (r : Role) : String := call.seed ++ r.ending

/-- What the call asks in a role. -/
def texts (call : FilterCall) (r : Role) : List String := call.field.texts call.like r

/-- Its comparisons. -/
def comparisons (call : FilterCall) : List Comparison := call.field.comparisons call.like

/-- Its conditions as they are written. -/
def conditions (call : FilterCall) : List String :=
  call.comparisons.map (·.expression call.column call.seed)

/-- The names that calls ask something under. -/
def Asked (calls : List FilterCall) (name : List Char) : Prop :=
  ∃ call ∈ calls, ∃ r, name = (call.placeholder r).toList ∧ call.texts r ≠ []

/-- A comparison asks something. -/
theorem texts_ne_nil {call : FilterCall} {c : Comparison} (hc : c ∈ call.comparisons) :
    call.texts c.role ≠ [] := by
  have hof := comparison_of hc
  rw [texts, ← hof.texts]
  exact hof.operand.texts_ne_nil

/-- The conditions of a call on an inert column have its placeholders and no others. -/
theorem reads_conditions {call : FilterCall} (hcolumn : Inert call.column) {calls : List FilterCall}
    (hmem : call ∈ calls) :
    ∀ e ∈ call.conditions, Reads (Asked calls) e.toList := by
  intro e he
  obtain ⟨c, hc, rfl⟩ := List.mem_map.1 he
  exact reads_expression hcolumn (comparison_of hc).operator
    ⟨call, hmem, c.role, rfl, texts_ne_nil hc⟩

/-- The entries that a call adds to the parameters. -/
def entries (call : FilterCall) : List (String × Value) :=
  call.comparisons.map fun c => (call.placeholder c.role, c.operand)

/-- Parameters hold what calls ask, and nothing else. -/
def Stored (params : Params) (calls : List FilterCall) : Prop :=
  ∀ name v, params.get? name = some v ↔ ∃ call ∈ calls, (name, v) ∈ call.entries

theorem nodup_entries (call : FilterCall) : (call.entries.map (·.1)).Nodup := by
  rw [entries, List.map_map]
  exact nodup_placeholders call.field call.like call.seed

/-- Calls of different numbers have no placeholder in common. -/
theorem number_eq_of_mem_entries {call call' : FilterCall} {name : String} {v v' : Value}
    (h : (name, v) ∈ call.entries) (h' : (name, v') ∈ call'.entries) :
    call.number = call'.number := by
  obtain ⟨c, -, hc⟩ := List.mem_map.1 h
  obtain ⟨c', -, hc'⟩ := List.mem_map.1 h'
  have heq : call.placeholder c.role = call'.placeholder c'.role := by
    rw [(Prod.mk.inj hc).1, (Prod.mk.inj hc').1]
  exact (placeholder_injective heq).1

/-- A call with a number of its own adds what it asks. -/
theorem Stored.concat {params : Params} {calls : List FilterCall} (h : Stored params calls)
    {call : FilterCall} (hnew : ∀ c ∈ calls, c.number ≠ call.number) :
    Stored (params.overwriteWith (.ofList call.entries)) (calls ++ [call]) := by
  intro name v
  have hcall : (NameMap.ofList call.entries).get? name = some v ↔ (name, v) ∈ call.entries :=
    NameMap.get?_ofList_eq_some_iff call.nodup_entries
  rw [NameMap.get?_overwriteWith, Option.or_eq_some_iff, hcall, h name v]
  constructor
  · rintro (hmem | ⟨-, c, hc, hmem⟩)
    · exact ⟨call, List.mem_append_right _ (List.mem_singleton_self _), hmem⟩
    · exact ⟨c, List.mem_append_left _ hc, hmem⟩
  · rintro ⟨c, hc, hmem⟩
    rcases List.mem_append.1 hc with hc | hc
    · refine .inr ⟨?_, c, hc, hmem⟩
      cases hget : (NameMap.ofList call.entries).get? name with
      | none => rfl
      | some u =>
        have hmem' := (NameMap.get?_ofList_eq_some_iff call.nodup_entries).1 hget
        exact absurd (number_eq_of_mem_entries hmem hmem') (hnew c hc)
    · exact .inl (List.mem_singleton.1 hc ▸ hmem)

/-- What calls ask are texts. -/
theorem Stored.isText {params : Params} {calls : List FilterCall} (h : Stored params calls)
    (name : String) (v : Value) (hget : params.get? name = some v) : v.IsText := by
  obtain ⟨call, -, hentry⟩ := (h name v).1 hget
  obtain ⟨c, hc, heq⟩ := List.mem_map.1 hentry
  rw [← (Prod.mk.inj heq).2]
  exact (comparison_of hc).operand

/-- What parameters hold for a placeholder of a call is what the call asks. -/
theorem Stored.texts_of_mem {params : Params} {calls : List FilterCall} (h : Stored params calls)
    (hdistinct : (calls.map (·.number)).Nodup) :
    ∀ call ∈ calls, ∀ r, Sql.textsOf params (call.placeholder r).toList = call.texts r := by
  intro call hmem r
  rw [Sql.textsOf, String.ofList_toList]
  cases hget : params.get? (call.placeholder r) with
  | none =>
    by_contra hne
    obtain ⟨c, hc, hrole⟩ := exists_comparison (Ne.symm hne)
    have hentry : (call.placeholder r, c.operand) ∈ call.entries :=
      List.mem_map.2 ⟨c, hc, by rw [hrole]⟩
    rw [(h _ _).2 ⟨call, hmem, hentry⟩] at hget
    cases hget
  | some v =>
    obtain ⟨call', hmem', hentry⟩ := (h _ _).1 hget
    obtain ⟨c, hc, heq⟩ := List.mem_map.1 hentry
    obtain ⟨hname, hoperand⟩ := Prod.mk.inj heq
    obtain ⟨hnumber, hrole⟩ := placeholder_injective hname
    obtain rfl := List.inj_on_of_nodup_map hdistinct hmem' hmem hnumber
    rw [Option.map_some, Option.getD_some, ← hoperand, (comparison_of hc).texts, hrole]
    rfl

end FilterCall

namespace Query

/-! ## Steps that add filters -/

/-- The filter that a step adds, with the number it has. -/
def Step.call? (number : Nat) : Step → Option FilterCall
  | .filterPredicate column f like => some ⟨number, column, f, like, false⟩
  | .filterHaving column f like => some ⟨number, column, f, like, true⟩
  | _ => none

/-- How many filters a step compiles. -/
def Step.compiles : Step → Nat
  | .filterPredicate .. | .filterHaving .. | .compile .. => 1
  | _ => 0

/-- The filters that steps add, after a number of filters was compiled. -/
def calls (compiled : Nat) : List Step → List FilterCall
  | [] => []
  | s :: rest => (s.call? (compiled + 1)).toList ++ calls (compiled + s.compiles) rest

/-- The fragments of a step that stand in the text of a query. -/
def Step.fragments : Step → List String
  | .source text | .select text | .aggregate text | .join text | .predicate text | .group text
  | .having text | .sort text => [text]
  | .sortList texts => texts
  | .filterPredicate column _ _ | .filterHaving column _ _ | .compile column _ _ => [column]
  | .groupExclusion _ | .parameters _ | .limit _ | .offset _ => []

/-! ## What a query has come to -/

/-- The conditions on groups, or on rows. -/
def conditionsOn (q : Query) : Bool → List String
  | true => q.havings
  | false => q.predicates

/-- What a query has come to by steps that added calls: their conditions stand in it, its parameters
hold what they ask, and no other fragment has a placeholder. -/
structure Follows (q : Query) (calls : List FilterCall) : Prop where
  numbers : ∀ call ∈ calls, call.number ≤ q.compiled
  distinct : (calls.map (·.number)).Nodup
  columns : ∀ call ∈ calls, Inert call.column
  stored : FilterCall.Stored q.parameters calls
  conditions : ∀ call ∈ calls, call.conditions ⊆ q.conditionsOn call.onGroups
  others : ∀ onGroups, ∀ e ∈ q.conditionsOn onGroups,
    Inert e ∨ ∃ call ∈ calls, call.onGroups = onGroups ∧ e ∈ call.conditions
  source : Inert q.source
  selects : ∀ s ∈ q.selects, Inert s
  joins : ∀ s ∈ q.joins, Inert s
  sorts : ∀ s ∈ q.sorts, Inert s

/-- The placeholders in the conditions are those of the calls. -/
theorem Follows.reads_conditionsOn {q : Query} {calls : List FilterCall} (h : q.Follows calls)
    (onGroups : Bool) : ∀ e ∈ q.conditionsOn onGroups, Reads (FilterCall.Asked calls) e.toList := by
  intro e he
  rcases h.others onGroups e he with hinert | ⟨call, hcall, -, hcondition⟩
  · exact hinert.mono fun _ => False.elim
  · exact FilterCall.reads_conditions (h.columns call hcall) hcall e hcondition

/-- The query with a filter added under the next number. -/
def add (q : Query) (call : FilterCall) : Query :=
  { q with
    compiled := q.compiled + 1
    parameters := q.parameters.overwriteWith (.ofList call.entries)
    predicates := if call.onGroups then q.predicates else q.predicates ++ call.conditions
    havings := if call.onGroups then q.havings ++ call.conditions else q.havings }

theorem mem_conditionsOn_add {q : Query} {call : FilterCall} {onGroups : Bool} {e : String} :
    e ∈ (q.add call).conditionsOn onGroups
      ↔ e ∈ q.conditionsOn onGroups ∨ call.onGroups = onGroups ∧ e ∈ call.conditions := by
  cases hgroups : call.onGroups <;> cases onGroups <;> simp [conditionsOn, add, hgroups]

/-- A step adds the filter that it has. -/
theorem step_eq_add {q : Query} {s : Step} {call : FilterCall}
    (h : s.call? (q.compiled + 1) = some call) : q.step s = q.add call := by
  cases s with
  | filterPredicate | filterHaving =>
    cases h
    rfl
  | _ => cases h

theorem call?_spec {s : Step} {number : Nat} {call : FilterCall} (h : s.call? number = some call) :
    call.number = number ∧ call.column ∈ s.fragments ∧ s.compiles = 1 := by
  cases s with
  | filterPredicate | filterHaving =>
    cases h
    exact ⟨rfl, List.mem_singleton_self _, rfl⟩
  | _ => cases h

/-- A filter on an inert column may be added. -/
theorem Follows.add {q : Query} {calls : List FilterCall} (h : q.Follows calls) {call : FilterCall}
    (hnumber : call.number = q.compiled + 1) (hcolumn : Inert call.column) :
    (q.add call).Follows (calls ++ [call]) := by
  have hnew : ∀ c ∈ calls, c.number ≠ call.number := fun c hc => by
    have := h.numbers c hc
    omega
  refine {
    numbers := ?_
    distinct := ?_
    columns := List.forall_mem_append.2 ⟨h.columns, List.forall_mem_singleton.2 hcolumn⟩
    stored := h.stored.concat hnew
    conditions := ?_
    others := ?_
    source := h.source
    selects := h.selects
    joins := h.joins
    sorts := h.sorts }
  · refine List.forall_mem_append.2 ⟨fun c hc => Nat.le_succ_of_le (h.numbers c hc), ?_⟩
    exact List.forall_mem_singleton.2 (Nat.le_of_eq hnumber)
  · rw [List.map_append]
    refine List.nodup_append.2 ⟨h.distinct, List.pairwise_singleton _ _, fun n hn m hm => ?_⟩
    obtain ⟨c, hc, rfl⟩ := List.mem_map.1 hn
    rw [List.mem_singleton.1 hm]
    exact hnew c hc
  · refine List.forall_mem_append.2 ⟨fun c hc e he => ?_, ?_⟩
    · exact mem_conditionsOn_add.2 (.inl (h.conditions c hc he))
    · exact List.forall_mem_singleton.2 fun e he => mem_conditionsOn_add.2 (.inr ⟨rfl, he⟩)
  · intro onGroups e he
    rcases mem_conditionsOn_add.1 he with hold | hself
    · refine (h.others onGroups e hold).imp_right ?_
      rintro ⟨c, hc, hcondition⟩
      exact ⟨c, List.mem_append_left _ hc, hcondition⟩
    · exact .inr ⟨call, List.mem_append_right _ (List.mem_singleton_self _), hself⟩

/-- A step that adds no filter keeps the conditions and adds inert ones at most. -/
theorem conditionsOn_step_of_none {q : Query} {s : Step} {number : Nat}
    (hcall : s.call? number = none) (hfragments : ∀ t ∈ s.fragments, Inert t) (onGroups : Bool) :
    q.conditionsOn onGroups ⊆ (q.step s).conditionsOn onGroups ∧
      ∀ e ∈ (q.step s).conditionsOn onGroups, Inert e ∨ e ∈ q.conditionsOn onGroups := by
  have hconcat {t : String} (ht : Inert t) (texts : List String) :
      texts ⊆ texts ++ [t] ∧ ∀ e ∈ texts ++ [t], Inert e ∨ e ∈ texts :=
    ⟨List.subset_append_left _ _, List.forall_mem_append.2
      ⟨fun _ => .inr, List.forall_mem_singleton.2 (.inl ht)⟩⟩
  cases s with
  | filterPredicate | filterHaving => cases hcall
  | predicate t =>
    cases onGroups with
    | true => exact ⟨fun _ => id, fun _ => .inr⟩
    | false => exact hconcat (hfragments t (List.mem_singleton_self t)) q.predicates
  | having t =>
    cases onGroups with
    | true => exact hconcat (hfragments t (List.mem_singleton_self t)) q.havings
    | false => exact ⟨fun _ => id, fun _ => .inr⟩
  | _ => exact ⟨fun _ => id, fun _ => .inr⟩

/-- A step that adds no filter and no parameters adds inert fragments at most. -/
theorem Follows.step_of_none {q : Query} {calls : List FilterCall} (h : q.Follows calls) {s : Step}
    (hcall : s.call? (q.compiled + 1) = none) (hdirect : ∀ params, s ≠ .parameters params)
    (hfragments : ∀ t ∈ s.fragments, Inert t) : (q.step s).Follows calls := by
  have hconcat {texts : List String} {t : String} (ht : Inert t) (htexts : ∀ s ∈ texts, Inert s) :
      ∀ s ∈ texts ++ [t], Inert s :=
    List.forall_mem_append.2 ⟨htexts, List.forall_mem_singleton.2 ht⟩
  have hconditions : ∀ c ∈ calls, c.conditions ⊆ (q.step s).conditionsOn c.onGroups :=
    fun c hc _ he =>
      (conditionsOn_step_of_none hcall hfragments c.onGroups).1 (h.conditions c hc he)
  have hothers : ∀ onGroups, ∀ e ∈ (q.step s).conditionsOn onGroups,
      Inert e ∨ ∃ call ∈ calls, call.onGroups = onGroups ∧ e ∈ call.conditions :=
    fun onGroups e he => by
      rcases (conditionsOn_step_of_none hcall hfragments onGroups).2 e he with hinert | hold
      · exact .inl hinert
      · exact h.others onGroups e hold
  cases s with
  | filterPredicate | filterHaving => cases hcall
  | parameters params => exact absurd rfl (hdirect params)
  | source t => exact { h with source := hfragments t (List.mem_singleton_self t) }
  | select t | aggregate t =>
    exact { h with selects := hconcat (hfragments t (List.mem_singleton_self t)) h.selects }
  | join t => exact { h with joins := hconcat (hfragments t (List.mem_singleton_self t)) h.joins }
  | sort t => exact { h with sorts := hconcat (hfragments t (List.mem_singleton_self t)) h.sorts }
  | sortList texts => exact { h with sorts := hfragments }
  | predicate | having => exact { h with conditions := hconditions, others := hothers }
  | group | groupExclusion | limit | offset => exact { h with }
  | compile => exact { h with numbers := fun c hc => Nat.le_succ_of_le (h.numbers c hc) }

theorem follows_empty : empty.Follows [] where
  numbers := by simp
  distinct := List.nodup_nil
  columns := by simp
  stored := by simp [FilterCall.Stored, empty]
  conditions := by simp
  others onGroups e he := by cases onGroups <;> cases he
  source := Reads.nil
  selects := by simp [empty]
  joins := by simp [empty]
  sorts := by simp [empty]

theorem compiled_step (q : Query) (s : Step) : (q.step s).compiled = q.compiled + s.compiles := by
  cases s <;> rfl

/-- A query follows the filters of its steps. -/
theorem Follows.steps {q : Query} {before : List FilterCall} (h : q.Follows before)
    {steps : List Step} (hdirect : ∀ params, .parameters params ∉ steps)
    (hfragments : ∀ s ∈ steps, ∀ t ∈ s.fragments, Inert t) :
    (steps.foldl step q).Follows (before ++ calls q.compiled steps) := by
  induction steps generalizing q before with
  | nil => simpa [calls] using h
  | cons s steps ih =>
    obtain ⟨hs, hsteps⟩ := List.forall_mem_cons.1 hfragments
    have hdirect' : ∀ params, .parameters params ∉ steps := fun params hmem =>
      hdirect params (List.mem_cons_of_mem s hmem)
    have hstep : (q.step s).Follows (before ++ (s.call? (q.compiled + 1)).toList) := by
      cases hcall : s.call? (q.compiled + 1) with
      | none =>
        have hs' : ∀ params, s ≠ .parameters params := fun params heq =>
          hdirect params (heq ▸ List.mem_cons_self)
        rw [Option.toList_none, List.append_nil]
        exact h.step_of_none hcall hs' hs
      | some call =>
        obtain ⟨hnumber, hcolumn, -⟩ := call?_spec hcall
        rw [step_eq_add hcall]
        exact h.add hnumber (hs _ hcolumn)
    rw [List.foldl_cons, calls, ← List.append_assoc, ← compiled_step]
    exact ih hstep hdirect' hsteps

end Query

end Colonnade.Report
