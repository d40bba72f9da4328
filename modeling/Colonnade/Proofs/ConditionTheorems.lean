import Colonnade.Proofs.ComparisonTheorems
import Mathlib.Data.List.Perm.Basic

/-!
# What a condition says of a column

Reports ask a field whether it is active before they join what its column needs, and compile it
afterwards. Both go by the roles of a field: it is active if it asks something in one of them
(`isActive_iff`), and has one comparison in each role in which it does (`filter_comparisons`).

A condition is a text, and `reading?` takes it apart again: behind the column stand an operator and
the name of one placeholder. Read so, a condition is the list of the comparisons it was made of
(`readings_compile`), whatever its column and its seed are.
-/

namespace Colonnade

namespace Sql

/-! ## The placeholders of a text -/

/-- The name of a placeholder. -/
def Token.name? : Token → Option String
  | .placeholder name => some (.ofList name)
  | .literal _ | .cast | .char _ => none

/-- The names of the placeholders of a text, in their order. -/
def mentioned (text : String) : List String := (tokens text.toList).filterMap Token.name?

theorem readable_of_mem_mentioned {text name : String} (h : name ∈ mentioned text) :
    (Token.placeholder name.toList).Readable := by
  obtain ⟨t, ht, hname⟩ := List.mem_filterMap.1 h
  cases t with
  | literal | cast | char => cases hname
  | placeholder n =>
    cases hname
    rw [String.toList_ofList]
    exact Token.readable_of_mem ht Token.noConfusion

/-- A text without quotes and colons mentions nothing. -/
theorem mentioned_plain_append {text : String} (h : ∀ c ∈ text.toList, c ≠ '\'' ∧ c ≠ ':')
    (rest : String) : mentioned (text ++ rest) = mentioned rest := by
  have hnone : (text.toList.map Token.char).filterMap Token.name? = [] := by
    simp [Token.name?]
  rw [mentioned, String.toList_append, tokens_append_of_plain h, List.filterMap_append, hnone,
    List.nil_append, mentioned]

/-- A name that can be read is mentioned where a break follows it. -/
theorem mentioned_placeholder_append {name : String}
    (hname : (Token.placeholder name.toList).Readable) (rest : String)
    (hbreak : ∀ c ∈ rest.toList.head?, isBreak c = true) :
    mentioned (":" ++ name ++ rest) = name :: mentioned rest := by
  have hends : (Token.placeholder name.toList).Ends rest.toList := fun c hc =>
    (isBreak_iff.1 (hbreak c hc)).2
  have htokens := hname.tokens_append hends
  have htext : (":" ++ name ++ rest).toList
      = (Token.placeholder name.toList).text ++ rest.toList := by
    simp [Token.text]
  rw [mentioned, htext, htokens, List.filterMap_cons]
  simp [Token.name?, mentioned]

end Sql

namespace Report

open Sql (Token)

/-! ## Expressions taken apart -/

/-- The name of the placeholder that an operand consists of, be it in parentheses. -/
def operandName? : List Char → Option String
  | ':' :: name => some (.ofList name)
  | '(' :: ':' :: cs => (Text.beforeEnd? [')'] cs).map .ofList
  | _ => none

/-- What an expression says of a column: an operator, and the name of a placeholder. -/
def reading? (column expression : String) : Option (String × String) := do
  let behind ← Text.afterStart? (column.toList ++ [' ']) expression.toList
  let (operator, operand) ← Text.cutWhere? (· == ' ') behind
  let name ← operandName? operand
  return (.ofList operator, name)

namespace Comparison

/-- What stands behind the operator of a comparison. -/
def operandText (seed : String) (c : Comparison) : String :=
  if c.role = .values then "(:" ++ c.placeholder seed ++ ")" else ":" ++ c.placeholder seed

/-- What stands behind the column of a comparison. -/
def behind (seed : String) (c : Comparison) : String :=
  " " ++ (c.operator ++ (" " ++ c.operandText seed))

theorem expression_eq (column seed : String) (c : Comparison) :
    c.expression column seed = column ++ c.behind seed := by
  obtain ⟨operator, role, operand⟩ := c
  rw [← String.toList_inj]
  cases role <;> simp [expression, behind, operandText]

theorem behind_mem (seed : String) (c : Comparison) :
    c.behind seed ∈ [" " ++ c.operator ++ " :" ++ c.placeholder seed,
      " " ++ c.operator ++ " (:" ++ c.placeholder seed ++ ")"] := by
  rw [List.mem_pair, behind, operandText, ← String.toList_inj, ← String.toList_inj]
  split
  · right
    simp
  · left
    simp

theorem operandName?_operandText (seed : String) (c : Comparison) :
    operandName? (c.operandText seed).toList = some (c.placeholder seed) := by
  rw [operandText]
  split
  · have hclosed : Text.beforeEnd? [')'] ((c.placeholder seed).toList ++ [')'])
        = some (c.placeholder seed).toList := Text.beforeEnd?_eq_some_iff.2 rfl
    simp [operandName?, hclosed]
  · simp [operandName?]

theorem mentioned_operandText {seed : String} {c : Comparison}
    (h : (Token.placeholder (c.placeholder seed).toList).Readable) :
    Sql.mentioned (c.operandText seed) = [c.placeholder seed] := by
  have hopen : ∀ c ∈ "(".toList, c ≠ '\'' ∧ c ≠ ':' := by decide
  have hclosed : Sql.mentioned ")" = [] := by decide +kernel
  have hempty : Sql.mentioned "" = [] := by decide +kernel
  have hread := Sql.mentioned_placeholder_append h
  rw [operandText]
  split
  · have htext : "(:" ++ c.placeholder seed ++ ")" = "(" ++ (":" ++ c.placeholder seed ++ ")") := by
      rw [← String.toList_inj]
      simp
    rw [htext, Sql.mentioned_plain_append hopen, hread ")" (by decide), hclosed]
  · have hname := hread "" (by decide)
    rwa [String.append_empty, hempty] at hname

/-- Behind its column a comparison mentions its placeholder, if that is a name, and it alone. -/
theorem mentioned_behind_iff {c : Comparison} (hoperator : c.operator ∈ operators)
    (seed : String) : Sql.mentioned (c.behind seed) = [c.placeholder seed] ↔
      (Token.placeholder (c.placeholder seed).toList).Readable := by
  constructor
  · intro hmentioned
    exact Sql.readable_of_mem_mentioned (hmentioned ▸ List.mem_singleton_self _)
  · intro hreadable
    have hspace : ∀ c ∈ " ".toList, c ≠ '\'' ∧ c ≠ ':' := by decide
    rw [behind, Sql.mentioned_plain_append hspace,
      Sql.mentioned_plain_append (plain_of_mem_operators _ hoperator),
      Sql.mentioned_plain_append hspace, mentioned_operandText hreadable]

end Comparison

theorem not_space_of_mem_operators : ∀ operator ∈ operators, ∀ c ∈ operator.toList,
    (c == ' ') = false := by
  decide +kernel

/-- An expression is read as the comparison it was written for. -/
theorem reading?_expression {c : Comparison} (hoperator : c.operator ∈ operators)
    (column seed : String) :
    reading? column (c.expression column seed) = some (c.operator, c.placeholder seed) := by
  have hcolumn : Text.afterStart? (column.toList ++ [' ']) (c.expression column seed).toList
      = some (c.operator.toList ++ ' ' :: (c.operandText seed).toList) := by
    rw [Text.afterStart?_eq_some_iff, Comparison.expression_eq]
    simp [Comparison.behind]
  have hcut := Text.cutWhere?_append_cons (not_space_of_mem_operators _ hoperator)
    (c := ' ') rfl (c.operandText seed).toList
  simp [reading?, hcolumn, hcut, Comparison.operandName?_operandText]

/-! ## Comparisons of a role -/

/-- A field is active if it asks something in one of the roles. -/
theorem isActive_iff (f : FilterField) (like : Bool) :
    f.isActive = true ↔ ∃ r, f.texts like r ≠ [] := by
  have hfirst (a b : String) : firstText a b ≠ [] ↔ a ≠ "" ∨ b ≠ "" := by
    unfold firstText
    split_ifs <;> simp_all
  have hvalue : f.texts like .value ≠ [] ↔ f.value ≠ "" := by
    unfold FilterField.texts
    split <;> simp_all
  constructor
  · intro hactive
    simp only [FilterField.isActive, Bool.or_eq_true, decide_eq_true_eq] at hactive
    rcases hactive with ((((((h | h) | h) | h) | h) | h) | h) | h
    · exact ⟨.value, hvalue.2 h⟩
    · exact ⟨.values, h⟩
    · exact ⟨.min, (hfirst _ _).2 (.inr h)⟩
    · exact ⟨.min, (hfirst _ _).2 (.inl h)⟩
    · exact ⟨.max, (hfirst _ _).2 (.inr h)⟩
    · exact ⟨.max, (hfirst _ _).2 (.inl h)⟩
    · exact ⟨.eq, (hfirst _ _).2 (.inl h)⟩
    · exact ⟨.eq, (hfirst _ _).2 (.inr h)⟩
  · rintro ⟨r, hr⟩
    simp only [FilterField.isActive, Bool.or_eq_true, decide_eq_true_eq]
    cases r with
    | value => simp [hvalue.1 hr]
    | values => simp [show f.values ≠ [] from hr]
    | min => rcases (hfirst _ _).1 hr with h | h <;> simp [h]
    | max => rcases (hfirst _ _).1 hr with h | h <;> simp [h]
    | eq => rcases (hfirst _ _).1 hr with h | h <;> simp [h]

theorem comparisons_ne_nil_iff (f : FilterField) (like : Bool) :
    f.comparisons like ≠ [] ↔ ∃ r, f.texts like r ≠ [] := by
  constructor
  · intro hne
    obtain ⟨c, hc⟩ := List.exists_mem_of_ne_nil _ hne
    have hof := comparison_of hc
    exact ⟨c.role, hof.texts ▸ hof.operand.texts_ne_nil⟩
  · rintro ⟨r, hr⟩
    obtain ⟨c, hc, -⟩ := exists_comparison hr
    exact List.ne_nil_of_mem hc

theorem role_of_mem_inRole {f : FilterField} {like : Bool} {r : Role} {c : Comparison}
    (h : c ∈ f.inRole like r) : c.role = r := by
  rcases inRole_cases f like r with ⟨hnil, -⟩ | ⟨c', hc', hrole, -⟩
  · rw [hnil] at h
    cases h
  · rw [hc', List.mem_singleton] at h
    rw [h, hrole]

/-- The comparisons of a kind that tells a role are those of the role. -/
theorem filter_comparisons {f : FilterField} {like : Bool} {r : Role} {kind : Comparison → Bool}
    (h : ∀ c ∈ f.comparisons like, kind c = true ↔ c.role = r) :
    (f.comparisons like).filter kind = f.inRole like r := by
  have hrole (r' : Role) : (f.inRole like r').filter (fun c => c.role = r)
      = if r' = r then f.inRole like r else [] := by
    split
    · next heq =>
      subst heq
      exact List.filter_eq_self.2 fun c hc => decide_eq_true (role_of_mem_inRole hc)
    · next hne =>
      exact List.filter_eq_nil_iff.2 fun c hc hr =>
        hne ((role_of_mem_inRole hc).symm.trans (of_decide_eq_true hr))
  have hkind : (f.comparisons like).filter kind
      = (f.comparisons like).filter fun c => c.role = r :=
    List.filter_congr fun c hc => by rw [Bool.eq_iff_iff, h c hc, decide_eq_true_iff]
  rw [hkind, comparisons_eq_flatMap]
  simp only [roles, List.flatMap_cons, List.flatMap_nil, List.filter_append, hrole]
  cases r <;> simp

/-- The operators of a role. -/
def Role.operators : Role → List String
  | .value => ["LIKE", "="]
  | .values => ["IN"]
  | .min => [">", ">="]
  | .max => ["<", "<="]
  | .eq => ["=", "!="]

theorem operator_of_mem_comparisons {f : FilterField} {like : Bool} {c : Comparison}
    (h : c ∈ f.comparisons like) : c.operator ∈ c.role.operators := by
  rw [comparisons_eq_flatMap] at h
  obtain ⟨r, -, hr⟩ := List.mem_flatMap.1 h
  have hgiven {role : Role} {operator bound operator' bound' : String}
      (hmem : c ∈ firstGiven role operator bound operator' bound')
      (hoperators : role.operators = [operator, operator']) : c.operator ∈ c.role.operators := by
    rcases firstGiven_cases role operator bound operator' bound' with
      ⟨hnil, -⟩ | ⟨c', hc', hrole, hoperator, -⟩
    · rw [hnil] at hmem
      cases hmem
    · rw [hc', List.mem_singleton] at hmem
      rw [hmem, hrole, hoperators]
      simpa using hoperator
  cases r with
  | value =>
    simp only [FilterField.inRole] at hr
    split_ifs at hr
    · cases hr
    · rw [List.mem_singleton.1 hr]
      simp [Role.operators]
    · rw [List.mem_singleton.1 hr]
      simp [Role.operators]
  | values =>
    simp only [FilterField.inRole] at hr
    split_ifs at hr
    · cases hr
    · rw [List.mem_singleton.1 hr]
      simp [Role.operators]
  | min => exact hgiven hr rfl
  | max => exact hgiven hr rfl
  | eq => exact hgiven hr rfl

/-- A role that shares no operator with another one is told by its operators. -/
theorem mem_operators_iff_role {f : FilterField} {like : Bool} {r : Role} {c : Comparison}
    (hc : c ∈ f.comparisons like)
    (halone : ∀ r' ∈ roles, r' ≠ r → ∀ operator ∈ r'.operators, operator ∉ r.operators) :
    c.operator ∈ r.operators ↔ c.role = r := by
  have hoperator := operator_of_mem_comparisons hc
  constructor
  · intro hmem
    by_contra hrole
    exact halone c.role c.role.mem_roles hrole _ hoperator hmem
  · rintro rfl
    exact hoperator

/-! ## Conditions read again -/

/-- What the expressions of a condition say of a column. -/
def Condition.readings (c : Condition) (column : String) : List (String × String) :=
  c.expressions.filterMap (reading? column)

/-- Of two operators with their bounds the first whose bound is given. -/
def firstBound (strict lax : String × String) : Option (String × String) :=
  if strict.2 ≠ "" then some strict else if lax.2 ≠ "" then some lax else none

/-- Of the expressions of a kind a condition has at most one. It compares the column with a
placeholder by the first of two operators whose bound is given, and that bound is the value of the
placeholder. -/
def Condition.Chooses (c : Condition) (column : String) (kind : String × String → Bool)
    (name : String) (strict lax : String × String) : Prop :=
  (c.readings column).filter kind = ((firstBound strict lax).map fun b => (b.1, name)).toList ∧
    c.placeholders.get? name = (firstBound strict lax).map fun b => .string b.2

section Compile

variable (column : String) (f : FilterField) (like : Bool) (seed : String)

theorem readings_compile : (compile column f like seed).readings column
    = (f.comparisons like).map fun c => (c.operator, c.placeholder seed) := by
  rw [Condition.readings, compile, List.filterMap_map]
  exact List.filterMap_eq_map_iff_forall_eq_some.2 fun c hc =>
    reading?_expression (comparison_of hc).operator column seed

theorem nodup_entries_compile :
    (((f.comparisons like).map fun c => (c.placeholder seed, c.operand)).map (·.1)).Nodup := by
  rw [List.map_map]
  exact nodup_placeholders f like seed

theorem names_compile_perm : (compile column f like seed).placeholders.names.Perm
    ((f.comparisons like).map fun c => c.placeholder seed) := by
  refine (List.perm_ext_iff_of_nodup (NameMap.names_nodup _) (nodup_placeholders f like seed)).2
    fun name => ?_
  rw [compile, NameMap.mem_names_ofList, List.map_map]
  rfl

/-- The names with a value are those that the expressions are read as. -/
theorem mem_names_compile_iff (name : String) :
    name ∈ (compile column f like seed).placeholders.names ↔
      ∃ e ∈ (compile column f like seed).expressions, ∃ operator,
        reading? column e = some (operator, name) := by
  have hreading {c : Comparison} (hc : c ∈ f.comparisons like) :=
    reading?_expression (comparison_of hc).operator column seed
  rw [(names_compile_perm column f like seed).mem_iff, List.mem_map]
  constructor
  · rintro ⟨c, hc, rfl⟩
    exact ⟨_, List.mem_map_of_mem hc, c.operator, hreading hc⟩
  · rintro ⟨e, he, operator, heq⟩
    obtain ⟨c, hc, rfl⟩ := List.mem_map.1 he
    rw [hreading hc] at heq
    exact ⟨c, hc, (Prod.mk.inj (Option.some.inj heq)).2⟩

/-- Under the placeholder of a role the condition has what the comparison of that role compares the
column with. -/
theorem get?_placeholders_compile (r : Role) :
    (compile column f like seed).placeholders.get? (seed ++ r.ending)
      = (f.inRole like r).head?.map (·.operand) := by
  have hmem (v : Value) : (compile column f like seed).placeholders.get? (seed ++ r.ending) = some v
      ↔ ∃ c ∈ f.inRole like r, c.operand = v := by
    have hrole : (f.comparisons like).filter (fun c => c.role = r) = f.inRole like r :=
      filter_comparisons fun c _ => decide_eq_true_iff
    rw [compile, NameMap.get?_ofList_eq_some_iff (nodup_entries_compile f like seed), List.mem_map,
      ← hrole]
    constructor
    · rintro ⟨c, hc, heq⟩
      obtain ⟨hname, hoperand⟩ := Prod.mk.inj heq
      have hr := Role.ending_injective ((String.append_right_inj seed).1 hname)
      exact ⟨c, List.mem_filter.2 ⟨hc, decide_eq_true hr⟩, hoperand⟩
    · rintro ⟨c, hc, hoperand⟩
      obtain ⟨hc, hr⟩ := List.mem_filter.1 hc
      exact ⟨c, hc, by rw [Comparison.placeholder, of_decide_eq_true hr, hoperand]⟩
  refine Option.ext fun v => ?_
  rw [hmem]
  rcases inRole_cases f like r with ⟨hnil, -⟩ | ⟨c, hc, -⟩
  · simp [hnil]
  · simp [hc]

/-- A condition chooses between the two bounds of a role, if what is of a kind is of that role. -/
theorem chooses_compile {r : Role} {strict lax : String × String}
    {kind : String × String → Bool}
    (hinRole : f.inRole like r = firstGiven r strict.1 strict.2 lax.1 lax.2)
    (hkind : ∀ c ∈ f.comparisons like,
      kind (c.operator, c.placeholder seed) = true ↔ c.role = r) :
    (compile column f like seed).Chooses column kind (seed ++ r.ending) strict lax := by
  have hfilter : (f.comparisons like).filter (kind ∘ fun c => (c.operator, c.placeholder seed))
      = f.inRole like r := filter_comparisons hkind
  constructor
  · rw [readings_compile, List.filter_map, hfilter, hinRole, firstGiven, firstBound]
    split_ifs <;> simp [Comparison.placeholder]
  · rw [get?_placeholders_compile, hinRole, firstGiven, firstBound]
    split_ifs <;> rfl

end Compile

/-- A condition says of a column what a field asks. -/
structure Condition.Says (c : Condition) (column : String) (f : FilterField) (seed : String) :
    Prop where
  /-- It has an expression exactly if the field asks anything. -/
  active : f.isActive = true ↔ c.expressions ≠ []
  /-- It has as many placeholders as expressions. -/
  counted : c.placeholders.names.length = c.expressions.length
  /-- Behind the column an expression is an operator and one placeholder, perhaps in parentheses, and
  this is what binding finds there, if the name is one. -/
  mentions : ∀ e ∈ c.expressions, ∃ operator ∈ operators, ∃ name,
    reading? column e = some (operator, name) ∧
    ∃ behind ∈ [" " ++ operator ++ " :" ++ name, " " ++ operator ++ " (:" ++ name ++ ")"],
      e = column ++ behind ∧
      (Sql.mentioned behind = [name] ↔ (Token.placeholder name.toList).Readable)
  /-- The placeholders with a value are those that are mentioned. -/
  named : ∀ name, name ∈ c.placeholders.names ↔
    ∃ e ∈ c.expressions, ∃ operator, reading? column e = some (operator, name)
  /-- With the seed of an identifier and a number, all of them are names. -/
  seeded : ∀ id number, seed = seedOf id number →
    ∀ name ∈ c.placeholders.names, (Token.placeholder name.toList).Readable
  lower : c.Chooses column (·.1 ∈ [">", ">="]) (seed ++ "_min") (">", f.great)
    (">=", f.greatOrEqual)
  upper : c.Chooses column (·.1 ∈ ["<", "<="]) (seed ++ "_max") ("<", f.less) ("<=", f.lessOrEqual)
  equality : c.Chooses column (·.2 = seed ++ "_eq") (seed ++ "_eq") ("=", f.equal)
    ("!=", f.notEqual)

/-- **A field is active exactly if its condition says anything**, and the condition binds what it
mentions: one placeholder an expression, and no other. -/
theorem compile_says (column : String) (f : FilterField) (like : Bool) (seed : String) :
    (compile column f like seed).Says column f seed where
  active := by
    rw [isActive_iff f like, ← comparisons_ne_nil_iff]
    exact not_congr List.map_eq_nil_iff.symm
  counted := by
    rw [(names_compile_perm column f like seed).length_eq]
    simp [compile]
  mentions := by
    intro e he
    obtain ⟨c, hc, rfl⟩ := List.mem_map.1 he
    have hoperator := (comparison_of hc).operator
    exact ⟨c.operator, hoperator, c.placeholder seed, reading?_expression hoperator column seed,
      c.behind seed, c.behind_mem seed, c.expression_eq column seed,
      Comparison.mentioned_behind_iff hoperator seed⟩
  named := mem_names_compile_iff column f like seed
  seeded := by
    rintro id number rfl name hname
    obtain ⟨c, -, rfl⟩ := List.mem_map.1 ((names_compile_perm column f like _).mem_iff.1 hname)
    exact readable_placeholder id number c.role
  lower := by
    refine chooses_compile column f like seed (r := .min) rfl fun c hc => ?_
    rw [decide_eq_true_iff]
    exact mem_operators_iff_role (r := .min) hc (by decide)
  upper := by
    refine chooses_compile column f like seed (r := .max) rfl fun c hc => ?_
    rw [decide_eq_true_iff]
    exact mem_operators_iff_role (r := .max) hc (by decide)
  equality := by
    refine chooses_compile column f like seed (r := .eq) rfl fun c _ => ?_
    rw [decide_eq_true_iff]
    constructor
    · intro hname
      exact Role.ending_injective ((String.append_right_inj seed).1 hname)
    · intro hrole
      rw [Comparison.placeholder, hrole, Role.ending]

end Report

end Colonnade
