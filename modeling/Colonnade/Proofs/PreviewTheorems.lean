import Colonnade.Http.Client
import Colonnade.Proofs.LedgerTheorems

/-!
# The preview of an insert and the insert that is posted

An insert is rendered in one place, to see that it can be, and written in another, when a client
behind a network posts its row. Both texts put the same literals of scalars in the same places. A
list has brackets in the text that is posted and none in the preview, where its literal is the one
for an `IN` list, which is shorter (`length_literal_lt`). So the preview is what is posted exactly
for rows without lists.
-/

namespace Colonnade

/-- Whether a value is a list. -/
def Value.isArray : Value → Bool
  | .array _ => true
  | _ => false

namespace Sql

/-! ## Lengths of literals -/

theorem length_intercalate_le {α : Type} {sep sep' : String} (hsep : sep.length ≤ sep'.length)
    {f g : α → String} {as : List α} (h : ∀ a ∈ as, (f a).length ≤ (g a).length) :
    (sep.intercalate (as.map f)).length ≤ (sep'.intercalate (as.map g)).length := by
  induction as with
  | nil => simp
  | cons a as ih =>
    have ha := h a List.mem_cons_self
    have has := ih fun b hb => h b (List.mem_cons_of_mem _ hb)
    cases as with
    | nil => simpa using ha
    | cons b as =>
      simp only [List.map_cons, String.intercalate_cons_cons, String.length_append] at has ⊢
      omega

mutual
/-- The literal of a value for an `IN` list is not longer than the one with brackets. -/
theorem length_literal_le (v : Value) : (literal v).length ≤ (bracketed v).length := by
  match v with
  | .null | .bool _ | .int _ | .uint _ | .float _ | .string _ => exact Nat.le_refl _
  | .array items =>
    have hitems : (",".intercalate (items.map literal)).length
        ≤ (", ".intercalate (items.map bracketed)).length :=
      length_intercalate_le (by decide) (length_literal_le_of_mem items)
    rw [literal, bracketed, literals_eq_map, bracketedAll_eq_map, String.length_append,
      String.length_append]
    omega

theorem length_literal_le_of_mem (vs : List Value) :
    ∀ v ∈ vs, (literal v).length ≤ (bracketed v).length := by
  match vs with
  | [] => exact fun _ h => absurd h List.not_mem_nil
  | v :: vs => exact List.forall_mem_cons.2 ⟨length_literal_le v, length_literal_le_of_mem vs⟩
end

/-- The brackets make a difference. -/
theorem length_literal_lt (items : List Value) :
    (literal (.array items)).length < (bracketed (.array items)).length := by
  have hitems : (",".intercalate (items.map literal)).length
      ≤ (", ".intercalate (items.map bracketed)).length :=
    length_intercalate_le (by decide) fun v _ => length_literal_le v
  have hopening : "[".length = 1 := by decide
  rw [literal, bracketed, literals_eq_map, bracketedAll_eq_map, String.length_append,
    String.length_append, hopening]
  omega

theorem literal_eq_bracketed_iff {v : Value} : literal v = bracketed v ↔ v.isArray = false := by
  cases v with
  | null | bool | int | uint | float | string => exact iff_of_true rfl rfl
  | array items =>
    have hne : literal (.array items) ≠ bracketed (.array items) :=
      fun h => Nat.ne_of_lt (length_literal_lt items) (congrArg String.length h)
    exact iff_of_false hne Bool.noConfusion

/-- Texts of elements of which none is longer in the first list are equal one by one if the lists
are. -/
theorem forall_eq_of_intercalate_eq {α : Type} {sep : String} {f g : α → String} {as : List α}
    (hle : ∀ a ∈ as, (f a).length ≤ (g a).length)
    (h : sep.intercalate (as.map f) = sep.intercalate (as.map g)) : ∀ a ∈ as, f a = g a := by
  induction as with
  | nil => exact fun _ ha => absurd ha List.not_mem_nil
  | cons a as ih =>
    cases as with
    | nil => simpa using h
    | cons b as =>
      have hrest : ∀ c ∈ b :: as, (f c).length ≤ (g c).length :=
        fun c hc => hle c (List.mem_cons_of_mem _ hc)
      have hfirst := hle a List.mem_cons_self
      have htail := length_intercalate_le (Nat.le_refl sep.length) hrest
      simp only [List.map_cons, String.intercalate_cons_cons, String.append_assoc] at h htail
      have hlength : (f a).toList.length = (g a).toList.length := by
        have htotal := congrArg String.length h
        simp only [String.length_append] at htotal
        rw [String.length_toList, String.length_toList]
        omega
      have htexts := congrArg String.toList h
      rw [String.toList_append] at htexts
      obtain ⟨ha, has⟩ := List.append_inj (htexts.trans String.toList_append) hlength
      rw [String.toList_inj, String.append_right_inj] at has
      exact List.forall_mem_cons.2 ⟨String.toList_inj.1 ha, ih hrest has⟩

end Sql

/-! ## What is posted -/

namespace Http

open Project
open Migration (perform perform_bind)

/-- A network that keeps the requests posted on it. -/
def recording (answer : Request → Except String Response) : Network (StateM (List Request)) :=
  fun request => ExceptT.mk fun requests => (answer request, requests ++ [request])

theorem body_of_of? {c : Connection} {sql : String} {request : Request}
    (h : Request.of? c sql = some request) : request.body = sql := by
  obtain ⟨url, _, hrequest⟩ := Option.bind_eq_some_iff.1 h
  split at hrequest
  · exact (Option.some.inj hrequest) ▸ rfl
  · cases hrequest

/-- A statement is posted in one request, if a request can be built. -/
theorem perform_post_recording (c : Connection) (answer : Request → Except String Response)
    (sql : String) (requests : List Request) :
    (perform (post c (recording answer) sql) requests).2
      = requests ++ (Request.of? c sql).toList := by
  rw [perform, post, ExceptT.run_mk]
  cases Request.of? c sql with
  | none => exact (List.append_nil requests).symm
  | some request =>
    have hasked : (recording answer request).run.run requests
        = (answer request, requests ++ [request]) := rfl
    rw [StateT.run_bind, hasked]
    cases answer request with
    | error detail => rfl
    | ok response =>
      change (StateT.run (if response.isSuccess then pure (.ok response.text)
        else pure (.error (errorOf response.text sql)) : StateM _ (Except StoreError String))
          (requests ++ [request])).2 = _
      split <;> rfl

theorem perform_insert_recording (c : Connection) (answer : Request → Except String Response)
    (table : String) {rows : List (List Value)} (hrows : rows ≠ []) (columns : List String)
    (requests : List Request) :
    (perform (insert c (recording answer) table rows columns) requests).2
      = requests ++ (Request.of? c (insertText table rows columns)).toList := by
  have hnonempty : rows.isEmpty = false := by simpa using hrows
  rw [← perform_post_recording c answer]
  simp only [insert, hnonempty, Bool.not_false, if_true, perform_bind]
  split <;> rfl

end Http

namespace Statement

open Migration (perform perform_bind perform_statement_ofStore)

/-- The text of the insert that a client behind a network posts for the row of the statement. -/
def insertText (s : Statement) : String :=
  Http.insertText s.target [s.row.map (·.2)] (s.row.map (·.1))

/-- An insert of one row with given literals. -/
def insertWith (write : Value → String) (s : Statement) : String :=
  "INSERT INTO " ++ s.target ++ " (" ++ ", ".intercalate (s.row.map (·.1)) ++ ") VALUES ("
    ++ ", ".intercalate (s.row.map fun cell => write cell.2) ++ ")"

theorem insertText_eq (s : Statement) : s.insertText = s.insertWith Sql.bracketed := by
  have hrow : Http.rowsText [s.row.map (·.2)]
      = "(" ++ (", ".intercalate (s.row.map fun cell => Sql.bracketed cell.2) ++ ")") := by
    simp [Http.rowsText, Function.comp_def, String.append_assoc]
  have hvalues : ") VALUES (" = ") VALUES " ++ "(" := by decide +kernel
  change "INSERT INTO " ++ s.target ++ " (" ++ ", ".intercalate (s.row.map (·.1)) ++ ") VALUES "
      ++ Http.rowsText [s.row.map (·.2)]
    = "INSERT INTO " ++ s.target ++ " (" ++ ", ".intercalate (s.row.map (·.1)) ++ ") VALUES ("
      ++ ", ".intercalate (s.row.map fun cell => Sql.bracketed cell.2) ++ ")"
  rw [hrow, hvalues]
  simp only [String.append_assoc]

/-- An insert has a preview if it has a target and a cell. -/
theorem render_insert_iff {s : Statement} (hkind : s.kind = .insert) {preview : String} :
    s.render = .ok preview ↔
      s.target ≠ "" ∧ s.row ≠ [] ∧ preview = s.insertWith Sql.literal := by
  by_cases htarget : s.target = ""
  · simp [render, hkind, htarget]
  have hrender : s.render = s.renderInsert := by
    simp only [render, hkind, String.isEmpty_iff, htarget, and_false, if_false]
  rw [hrender, and_iff_right htarget]
  by_cases hrow : s.row = []
  · have hinsert : s.renderInsert
        = .error (.configuration ("Insert into '" ++ s.target ++ "' has no values")) :=
      if_pos (List.isEmpty_iff.2 hrow)
    simp [hinsert, hrow]
  · have hinsert : s.renderInsert = .ok (s.insertWith Sql.literal) :=
      if_neg (mt List.isEmpty_iff.1 hrow)
    rw [hinsert, Except.ok.injEq, and_iff_right hrow]
    exact eq_comm

/-- Executing an insert that has a preview posts its row as one statement. -/
theorem perform_execute_recording {s : Statement} (hkind : s.kind = .insert) {preview : String}
    (h : s.render = .ok preview) (c : Project.Connection)
    (answer : Http.Request → Except String Http.Response) (requests : List Http.Request) :
    (perform (s.execute (Http.client c (Http.recording answer))) requests).2
      = requests ++ (Http.Request.of? c s.insertText).toList := by
  have hexecute : s.execute (Http.client c (Http.recording answer)) = (do
      StatementError.ofStore (Http.insert c (Http.recording answer) s.target
        [s.row.map (·.2)] (s.row.map (·.1)))
      return .inserted) := by
    rw [execute, h, hkind]
    rfl
  rw [insertText, ← Http.perform_insert_recording c answer s.target (by simp), hexecute,
    perform_bind, perform_statement_ofStore]
  split <;> rfl

/-- With and without brackets a row has the same text exactly if it has no list. -/
theorem insertWith_literal_eq_iff (s : Statement) :
    s.insertWith Sql.literal = s.insertText ↔ ∀ cell ∈ s.row, cell.2.isArray = false := by
  rw [insertText_eq]
  unfold insertWith
  constructor
  · intro h cell hcell
    have hlists := (String.append_right_inj _).1 ((String.append_left_inj _).1 h)
    have hlengths (cell : String × Value) (_ : cell ∈ s.row) :
        (Sql.literal cell.2).length ≤ (Sql.bracketed cell.2).length :=
      Sql.length_literal_le cell.2
    have hcells : ∀ cell ∈ s.row, Sql.literal cell.2 = Sql.bracketed cell.2 :=
      Sql.forall_eq_of_intercalate_eq hlengths hlists
    exact Sql.literal_eq_bracketed_iff.1 (hcells cell hcell)
  · intro h
    have hcells (cell : String × Value) (hcell : cell ∈ s.row) :
        Sql.literal cell.2 = Sql.bracketed cell.2 :=
      Sql.literal_eq_bracketed_iff.2 (h cell hcell)
    rw [List.map_congr_left hcells]

/-- An insert is posted as one statement with its row. Its preview is that statement exactly if no
cell is a list. -/
theorem insert_preview_posted_iff {s : Statement} (hkind : s.kind = .insert) :
    ((∃ preview, s.render = .ok preview) ↔ s.target ≠ "" ∧ s.row ≠ []) ∧
    ∀ preview, s.render = .ok preview →
      (preview = s.insertText ↔ ∀ cell ∈ s.row, cell.2.isArray = false) ∧
      ∀ c answer requests,
        (perform (s.execute (Http.client c (Http.recording answer))) requests).2
            = requests ++ (Http.Request.of? c s.insertText).toList ∧
          ∀ request ∈ Http.Request.of? c s.insertText, request.body = s.insertText := by
  constructor
  · constructor
    · rintro ⟨preview, h⟩
      obtain ⟨htarget, hrow, _⟩ := (render_insert_iff hkind).1 h
      exact ⟨htarget, hrow⟩
    · rintro ⟨htarget, hrow⟩
      exact ⟨_, (render_insert_iff hkind).2 ⟨htarget, hrow, rfl⟩⟩
  · intro preview h
    constructor
    · obtain ⟨_, _, rfl⟩ := (render_insert_iff hkind).1 h
      exact insertWith_literal_eq_iff s
    · intro c answer requests
      refine ⟨perform_execute_recording hkind h c answer requests, ?_⟩
      intro request hrequest
      exact Http.body_of_of? hrequest

/-- Without lists the preview is what is posted, whatever is in the strings. -/
theorem insert_preview_posted_iff_scalars :
    let row : List (String × Value) :=
      [("a", .string "it's [1, 2]"), ("b", .int (-1)), ("c", .null), ("d", .bool true)]
    let s := ofSteps [.insert "t" row]
    s.kind = .insert ∧ s.render = .ok s.insertText := by
  intro row s
  have hkind : s.kind = .insert := rfl
  obtain ⟨hrender, hposted⟩ := insert_preview_posted_iff hkind
  obtain ⟨preview, hpreview⟩ := hrender.2 ⟨by decide, List.cons_ne_nil _ _⟩
  have htext := (hposted preview hpreview).1.2 (by decide)
  exact ⟨hkind, htext ▸ hpreview⟩

/-- The preview of a list is two cells, what is posted is one. -/
theorem insert_preview_drops_brackets :
    let s := ofSteps [.insert "t" [("a", .array [.int 1, .int 2])]]
    let c : Project.Connection := {}
    let network := Http.recording fun _ => .ok ⟨200, []⟩
    s.render = .ok "INSERT INTO t (a) VALUES (1,2)" ∧
      (perform (s.execute (Http.client c network)) []).2.map (·.body)
        = ["INSERT INTO t (a) VALUES ([1, 2])"] := by
  intro s c network
  exact ⟨rfl, by decide +kernel⟩

end Statement

end Colonnade
