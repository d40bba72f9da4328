import Colonnade.Template.Expr

/-!
# The body of a template

Text, printed expressions, and statements: choices, loops and assignments.
-/

namespace Colonnade.Template

/-- What a value is assigned to: a name, or as many targets as the value has items. -/
inductive Target where
  | name (id : String)
  | many (targets : List Target)
deriving Inhabited

/-- A part of a template. -/
inductive Node where
  | text (s : String)
  | print (line : Nat) (e : Expr)
  | branch (line : Nat) (test : Expr) (yes no : List Node)
  /-- The body for each item that passes the condition, or the other nodes if none does. -/
  | each (line : Nat) (target : Target) (items : Expr) (condition : Option Expr)
      (body otherwise : List Node)
  | assign (line : Nat) (target : Target) (e : Expr)
  /-- Assigns what the body prints. -/
  | capture (line : Nat) (id : String) (body : List Node)
deriving Inhabited

/-! ## Reading statements -/

/-- The names that cannot be assigned. -/
def reservedNames : List String :=
  ["true", "True", "false", "False", "none", "None", "loop", "self"]

mutual
/-- The targets of an assignment. -/
def readTargets (fuel : Nat) (ts : Tokens) : Except Failure (Target × Tokens) :=
  match fuel with
  | 0 => unexpected ts
  | fuel + 1 => do
    let (t, ts) ← readTarget fuel ts
    match afterSymbol? "," ts with
    | none => return (t, ts)
    | some ts =>
      let (rest, ts) ← readMoreTargets fuel ts
      return (.many (t :: rest), ts)

/-- The targets after a comma, if there are any. -/
def readMoreTargets (fuel : Nat) (ts : Tokens) : Except Failure (List Target × Tokens) :=
  match fuel with
  | 0 => unexpected ts
  | fuel + 1 =>
    match ts with
    | ⟨_, .symbol "="⟩ :: _ | ⟨_, .name "in"⟩ :: _ | ⟨_, .symbol ")"⟩ :: _ => .ok ([], ts)
    | _ => do
      let (t, ts) ← readTarget fuel ts
      match afterSymbol? "," ts with
      | none => return ([t], ts)
      | some ts =>
        let (rest, ts) ← readMoreTargets fuel ts
        return (t :: rest, ts)

/-- One target. -/
def readTarget (fuel : Nat) (ts : Tokens) : Except Failure (Target × Tokens) :=
  match fuel with
  | 0 => unexpected ts
  | fuel + 1 =>
    match afterSymbol? "(" ts with
    | some rest => do
      let (t, rest) ← readTargets fuel rest
      return (t, ← expectSymbol ")" rest)
    | none => do
      let (id, rest) ← expectName ts
      if reservedNames.contains id then unexpected ts else return (.name id, rest)
end

/-- The tokens after the end of a statement. -/
def expectEnd : Tokens → Except Failure Tokens
  | ⟨_, .closing .statement⟩ :: rest => .ok rest
  | ts => unexpected ts

/-- The word that a statement tag starts with. -/
def statementWord? : Tokens → Option String
  | ⟨_, .opening .statement⟩ :: ⟨_, .name s⟩ :: _ => some s
  | _ => none

/-- The tokens after a statement tag that holds one word. -/
def expectWordTag (word : String) (ts : Tokens) : Except Failure Tokens :=
  match ts with
  | ⟨_, .opening .statement⟩ :: ⟨_, .name s⟩ :: rest =>
    if s = word then expectEnd rest else unexpected ts
  | _ => unexpected ts

mutual
/-- Nodes up to a statement tag that starts with one of the words, or to the end of the template if
there are none. -/
def readNodes (fuel : Nat) (stops : List String) (ts : Tokens) :
    Except Failure (List Node × Tokens) :=
  match fuel with
  | 0 => unexpected ts
  | fuel + 1 =>
    match ts with
    | [] => if stops.isEmpty then .ok ([], []) else unexpected ts
    | ⟨_, .text s⟩ :: rest => do
      let (nodes, rest) ← readNodes fuel stops rest
      return (.text s :: nodes, rest)
    | ⟨line, .opening .expression⟩ :: rest => do
      let (e, rest) ← readExpr fuel rest
      match rest with
      | ⟨_, .closing .expression⟩ :: rest =>
        let (nodes, rest) ← readNodes fuel stops rest
        return (.print line e :: nodes, rest)
      | _ => unexpected rest
    | ⟨line, .opening .statement⟩ :: ⟨_, .name word⟩ :: rest =>
      if stops.contains word then .ok ([], ts)
      else do
        let (node, rest) ← readStatement fuel line word rest
        let (nodes, rest) ← readNodes fuel stops rest
        return (node :: nodes, rest)
    | _ => unexpected ts

/-- The statement of a word. -/
def readStatement (fuel line : Nat) (word : String) (ts : Tokens) :
    Except Failure (Node × Tokens) :=
  match fuel with
  | 0 => unexpected ts
  | fuel + 1 =>
    match word with
    | "if" => readBranch fuel line ts
    | "for" => do
      let (target, ts) ← readTargets fuel ts
      match afterWord? "in" ts with
      | none => unexpected ts
      | some ts =>
        let (items, ts) ← readLevel fuel .or ts
        let (condition, ts) ← readCondition fuel ts
        let (body, ts) ← readNodes fuel ["endfor", "else"] (← expectEnd ts)
        let (otherwise, ts) ← readOtherwise fuel "endfor" ts
        return (.each line target items condition body otherwise, ← expectWordTag "endfor" ts)
    | "set" => do
      let (target, rest) ← readTargets fuel ts
      match afterSymbol? "=" rest with
      | some rest =>
        let (e, rest) ← readExpr fuel rest
        return (.assign line target e, ← expectEnd rest)
      | none =>
        match target with
        | .many _ => unexpected rest
        | .name id =>
          let (body, rest) ← readNodes fuel ["endset"] (← expectEnd rest)
          return (.capture line id body, ← expectWordTag "endset" rest)
    | _ => .error ⟨line, .malformed ("unknown statement " ++ word)⟩

/-- The condition of a loop, if it has one. -/
def readCondition (fuel : Nat) (ts : Tokens) : Except Failure (Option Expr × Tokens) :=
  match fuel with
  | 0 => unexpected ts
  | fuel + 1 =>
    match afterWord? "if" ts with
    | none => .ok (none, ts)
    | some ts => do
      let (e, ts) ← readExpr fuel ts
      return (some e, ts)

/-- A choice after its first word. -/
def readBranch (fuel line : Nat) (ts : Tokens) : Except Failure (Node × Tokens) :=
  match fuel with
  | 0 => unexpected ts
  | fuel + 1 => do
    let (test, ts) ← readExpr fuel ts
    let (yes, ts) ← readNodes fuel ["endif", "else", "elif"] (← expectEnd ts)
    match ts with
    | ⟨line', .opening .statement⟩ :: ⟨_, .name "elif"⟩ :: rest =>
      let (node, rest) ← readBranch fuel line' rest
      return (.branch line test yes [node], rest)
    | _ =>
      let (no, ts) ← readOtherwise fuel "endif" ts
      return (.branch line test yes no, ← expectWordTag "endif" ts)

/-- The nodes after `else`, if it comes next. -/
def readOtherwise (fuel : Nat) (stop : String) (ts : Tokens) :
    Except Failure (List Node × Tokens) :=
  match fuel with
  | 0 => unexpected ts
  | fuel + 1 =>
    if statementWord? ts = some "else" then do
      readNodes fuel [stop] (← expectWordTag "else" ts)
    else .ok ([], ts)
end

/-- The nodes of a template. -/
def readTemplate (template : String) : Except Failure (List Node) := do
  let ts ← tokens template
  let (nodes, _) ← readNodes (readingFuel ts) [] ts
  return nodes

end Colonnade.Template
