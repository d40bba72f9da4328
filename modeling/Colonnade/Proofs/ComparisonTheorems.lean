import Colonnade.Proofs.BindingTheorems
import Colonnade.Report.Condition

/-!
# What the comparisons of a filter ask

A field asks at most one thing in each role, and one comparison asks it (`inRole_cases`). Its
placeholder is a name, and tells the role and the number under which the field was compiled
(`placeholder_injective`); the identifier of the field, from which the name starts, tells nothing.
-/

namespace Colonnade.Report

open Sql (Token isNameStart isNameChar)

/-! ## Names of placeholders -/

theorem isNameChar_seedChar (c : Char) : isNameChar (seedChar c) = true := by
  rw [seedChar, isNameChar]
  split
  · next h => rw [h, Bool.true_or]
  · rfl

/-- A character of a seed that is no digit may begin a name. -/
theorem isNameStart_seedChar {c : Char} (h : (seedChar c).isDigit = false) :
    isNameStart (seedChar c) = true := by
  have hname := isNameChar_seedChar c
  rw [isNameChar, Char.isAlphanum, h, Bool.or_false] at hname
  exact hname

/-- The stem of a seed is a name. -/
theorem readable_seedStem (id : List Char) : (Token.placeholder (seedStem id)).Readable := by
  have hall : ∀ c ∈ id.map seedChar, isNameChar c = true := by
    intro c hc
    obtain ⟨d, -, rfl⟩ := List.mem_map.1 hc
    exact isNameChar_seedChar d
  unfold seedStem
  cases id with
  | nil => exact ⟨'f', "ilter".toList, rfl, rfl, by decide⟩
  | cons c id =>
    obtain ⟨hc, hid⟩ := List.forall_mem_cons.1 hall
    rw [List.map_cons]
    by_cases hdigit : (seedChar c).isDigit = true
    · simp only [if_pos hdigit]
      exact ⟨'f', _, rfl, rfl, hall⟩
    · simp only [if_neg hdigit]
      exact ⟨_, _, rfl, isNameStart_seedChar (Bool.eq_false_iff.2 hdigit), hid⟩

/-- The ending of a role is an underscore and a word. -/
theorem Role.ending_eq (r : Role) : ∃ word, r.ending.toList = '_' :: word ∧ '_' ∉ word ∧
    ∀ c ∈ word, isNameChar c = true := by
  cases r
  · exact ⟨"value".toList, rfl, by decide, by decide⟩
  · exact ⟨"values".toList, rfl, by decide, by decide⟩
  · exact ⟨"min".toList, rfl, by decide, by decide⟩
  · exact ⟨"max".toList, rfl, by decide, by decide⟩
  · exact ⟨"eq".toList, rfl, by decide, by decide⟩

theorem Role.ending_injective {r r' : Role} (h : r.ending = r'.ending) : r = r' := by
  cases r <;> cases r' <;> first | rfl | exact absurd h (by decide)

theorem toList_seedOf (id : String) (n : Nat) :
    (seedOf id n).toList = seedStem id.toList ++ '_' :: Nat.toDigits 10 n := by
  simp [seedOf, Nat.toList_repr]

/-- The placeholder of a role is a name. -/
theorem readable_placeholder (id : String) (n : Nat) (r : Role) :
    (Token.placeholder (seedOf id n ++ r.ending).toList).Readable := by
  obtain ⟨word, hending, -, hword⟩ := r.ending_eq
  have hdigits : ∀ c ∈ Nat.toDigits 10 n, isNameChar c = true := fun c hc => by
    have hdigit := Nat.isDigit_of_mem_toDigits (by decide) (by decide) hc
    simp [isNameChar, Char.isAlphanum, hdigit]
  rw [String.toList_append, toList_seedOf, hending, List.append_assoc]
  refine (readable_seedStem id.toList).placeholder_append ?_
  rw [List.forall_mem_append]
  exact ⟨List.forall_mem_cons.2 ⟨rfl, hdigits⟩, List.forall_mem_cons.2 ⟨rfl, hword⟩⟩

/-- Two placeholders differ in the number of their seeds or in their roles. -/
theorem placeholder_injective {id id' : String} {n n' : Nat} {r r' : Role}
    (h : seedOf id n ++ r.ending = seedOf id' n' ++ r'.ending) : n = n' ∧ r = r' := by
  obtain ⟨word, hending, hword, -⟩ := r.ending_eq
  obtain ⟨word', hending', hword', -⟩ := r'.ending_eq
  have hlists := congrArg String.toList h
  rw [String.toList_append, String.toList_append, hending, hending'] at hlists
  obtain ⟨hseed, hwords⟩ := Text.append_cons_inj_of_not_mem hword hword' hlists
  rw [toList_seedOf, toList_seedOf] at hseed
  obtain ⟨-, hdigits⟩ := Text.append_cons_inj_of_not_mem Nat.underscore_not_in_toDigits
    Nat.underscore_not_in_toDigits hseed
  constructor
  · simpa using congrArg (fun digits => Nat.ofDigitChars 10 digits 0) hdigits
  · exact Role.ending_injective (String.toList_inj.1 (by rw [hending, hending', hwords]))

/-! ## What a filter asks -/

/-- The first of two texts that is not empty. -/
def firstText (a b : String) : List String :=
  if a ≠ "" then [a] else if b ≠ "" then [b] else []

/-- The texts that a field asks to compare a column with, in one of the roles. -/
def FilterField.texts (f : FilterField) (like : Bool) : Role → List String
  | .value => if f.value = "" then [] else [if like then "%" ++ f.value ++ "%" else f.value]
  | .values => f.values
  | .min => firstText f.great f.greatOrEqual
  | .max => firstText f.less f.lessOrEqual
  | .eq => firstText f.equal f.notEqual

/-- The operators of comparisons. -/
def operators : List String := ["LIKE", "=", "IN", ">", ">=", "<", "<=", "!="]

theorem plain_of_mem_operators : ∀ operator ∈ operators, ∀ c ∈ operator.toList,
    c ≠ '\'' ∧ c ≠ ':' := by
  decide +kernel

/-- A comparison of a field: its operand is what the field asks in its role. -/
structure Comparison.Of (c : Comparison) (f : FilterField) (like : Bool) : Prop where
  operator : c.operator ∈ operators
  operand : c.operand.IsText
  texts : c.operand.texts = f.texts like c.role

/-- The comparisons of a field in one of the roles. -/
def FilterField.inRole (f : FilterField) (like : Bool) : Role → List Comparison
  | .value =>
    if f.value = "" then []
    else if like then [⟨"LIKE", .value, .string (containsPattern f.value)⟩]
    else [⟨"=", .value, .string f.value⟩]
  | .values => if f.values = [] then [] else [⟨"IN", .values, .array (f.values.map .string)⟩]
  | .min => firstGiven .min ">" f.great ">=" f.greatOrEqual
  | .max => firstGiven .max "<" f.less "<=" f.lessOrEqual
  | .eq => firstGiven .eq "=" f.equal "!=" f.notEqual

/-- The roles in the order of the comparisons. -/
def roles : List Role := [.value, .values, .min, .max, .eq]

theorem Role.mem_roles (r : Role) : r ∈ roles := by
  cases r <;> decide

theorem comparisons_eq_flatMap (f : FilterField) (like : Bool) :
    f.comparisons like = roles.flatMap (f.inRole like) := by
  simp [FilterField.comparisons, FilterField.inRole, roles]

theorem firstGiven_cases (role : Role) (operator bound operator' bound' : String) :
    (firstGiven role operator bound operator' bound' = [] ∧ firstText bound bound' = []) ∨
      ∃ c, firstGiven role operator bound operator' bound' = [c] ∧ c.role = role ∧
        (c.operator = operator ∨ c.operator = operator') ∧ c.operand.IsText ∧
        c.operand.texts = firstText bound bound' := by
  unfold firstGiven firstText
  split
  · exact .inr ⟨_, rfl, rfl, .inl rfl, .string bound, rfl⟩
  · split
    · exact .inr ⟨_, rfl, rfl, .inr rfl, .string bound', rfl⟩
    · exact .inl ⟨rfl, rfl⟩

/-- In each role a field asks for nothing, or has one comparison that asks it. -/
theorem inRole_cases (f : FilterField) (like : Bool) (r : Role) :
    (f.inRole like r = [] ∧ f.texts like r = []) ∨
      ∃ c, f.inRole like r = [c] ∧ c.role = r ∧ c.Of f like := by
  have hbound {role : Role} {operator bound operator' bound' : String}
      (hoperators : operator ∈ operators ∧ operator' ∈ operators)
      (htexts : f.texts like role = firstText bound bound')
      (hinRole : f.inRole like role = firstGiven role operator bound operator' bound') :
      (f.inRole like role = [] ∧ f.texts like role = []) ∨
        ∃ c, f.inRole like role = [c] ∧ c.role = role ∧ c.Of f like := by
    rw [hinRole, htexts]
    rcases firstGiven_cases role operator bound operator' bound' with
      hnone | ⟨c, hc, hrole, hoperator, hoperand, hc'⟩
    · exact .inl hnone
    · refine .inr ⟨c, hc, hrole, ?_, hoperand, ?_⟩
      · rcases hoperator with h | h <;> rw [h]
        · exact hoperators.1
        · exact hoperators.2
      · rw [hc', hrole, htexts]
  cases r with
  | value =>
    by_cases hvalue : f.value = ""
    · exact .inl (by simp [FilterField.inRole, FilterField.texts, hvalue])
    · cases like with
      | true =>
        refine .inr ⟨⟨"LIKE", .value, .string (containsPattern f.value)⟩, ?_, rfl, ?_⟩
        · simp [FilterField.inRole, hvalue]
        · exact ⟨by simp [operators], .string _, by
            simp [Value.texts, FilterField.texts, hvalue, containsPattern]⟩
      | false =>
        refine .inr ⟨⟨"=", .value, .string f.value⟩, ?_, rfl, ?_⟩
        · simp [FilterField.inRole, hvalue]
        · exact ⟨by simp [operators], .string _, by simp [Value.texts, FilterField.texts, hvalue]⟩
  | values =>
    cases hvalues : f.values with
    | nil => exact .inl (by simp [FilterField.inRole, FilterField.texts, hvalues])
    | cons v vs =>
      refine .inr ⟨⟨"IN", .values, .array ((v :: vs).map .string)⟩, ?_, rfl, ?_⟩
      · simp [FilterField.inRole, hvalues]
      · exact ⟨by simp [operators], .strings v vs, by
          rw [Value.texts_strings, FilterField.texts, hvalues]⟩
  | min => exact hbound (by decide) rfl rfl
  | max => exact hbound (by decide) rfl rfl
  | eq => exact hbound (by decide) rfl rfl

theorem comparison_of {f : FilterField} {like : Bool} {c : Comparison}
    (h : c ∈ f.comparisons like) : c.Of f like := by
  rw [comparisons_eq_flatMap] at h
  obtain ⟨r, -, hr⟩ := List.mem_flatMap.1 h
  rcases inRole_cases f like r with ⟨hnil, -⟩ | ⟨c', hc', -, hof⟩
  · rw [hnil] at hr
    cases hr
  · rw [hc', List.mem_singleton] at hr
    exact hr ▸ hof

/-- What a field asks in a role is asked by a comparison. -/
theorem exists_comparison {f : FilterField} {like : Bool} {r : Role} (h : f.texts like r ≠ []) :
    ∃ c ∈ f.comparisons like, c.role = r := by
  rcases inRole_cases f like r with ⟨-, hnil⟩ | ⟨c, hc, hrole, -⟩
  · exact absurd hnil h
  · rw [comparisons_eq_flatMap]
    exact ⟨c, List.mem_flatMap.2 ⟨r, r.mem_roles, hc ▸ List.mem_singleton_self c⟩, hrole⟩

/-- A field has at most one comparison in each role. -/
theorem nodup_roles (f : FilterField) (like : Bool) :
    ((f.comparisons like).map Comparison.role).Nodup := by
  have hsublist (rs : List Role) :
      ((rs.flatMap (f.inRole like)).map Comparison.role).Sublist rs := by
    induction rs with
    | nil => exact .slnil
    | cons r rs ih =>
      rw [List.flatMap_cons, List.map_append]
      rcases inRole_cases f like r with ⟨hnil, -⟩ | ⟨c, hc, hrole, -⟩
      · rw [hnil]
        exact ih.cons r
      · rw [hc, List.map_singleton, hrole]
        exact ih.cons_cons r
  rw [comparisons_eq_flatMap]
  exact (by decide : roles.Nodup).sublist (hsublist roles)

/-- The placeholders of a field are different from each other, whatever their seed. -/
theorem nodup_placeholders (f : FilterField) (like : Bool) (seed : String) :
    ((f.comparisons like).map fun c => c.placeholder seed).Nodup :=
  List.pairwise_map.2 ((List.pairwise_map.1 (nodup_roles f like)).imp fun hne heq =>
    hne (Role.ending_injective ((String.append_right_inj seed).1 heq)))

end Colonnade.Report
