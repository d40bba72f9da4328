import Colonnade.Template.Token
import Colonnade.Template.Value

/-!
# Expressions of a template

From the loosest to the tightest: a choice, `or`, `and`, `not`, comparisons, sums, joined texts,
products, powers, a sign, and at the end parts, calls, filters and tests of a value.
-/

namespace Colonnade.Template

/-- An operator with one operand. -/
inductive Sign where
  | not
  | minus
deriving DecidableEq, Repr

/-- An operator with two operands. -/
inductive Operator where
  | or
  | and
  | equal
  | unequal
  | less
  | lessOrEqual
  | greater
  | greaterOrEqual
  | within
  | add
  | subtract
  | join
  | multiply
  | divide
  | divideWhole
  | remainder
  | power
deriving DecidableEq, Repr

/-- An expression. Arguments may have names. -/
inductive Expr where
  | const (line : Nat) (v : Value)
  | name (line : Nat) (id : String)
  | list (line : Nat) (items : List Expr)
  | map (line : Nat) (entries : List (Expr × Expr))
  | sign (line : Nat) (op : Sign) (e : Expr)
  | binary (line : Nat) (op : Operator) (a b : Expr)
  | choice (line : Nat) (test yes no : Expr)
  | part (line : Nat) (e : Expr) (name : String)
  | item (line : Nat) (e key : Expr)
  | slice (line : Nat) (e start stop step : Expr)
  | call (line : Nat) (callee : Expr) (args : List (Option String × Expr))
  | filter (line : Nat) (name : String) (e : Expr) (args : List (Option String × Expr))
  | test (line : Nat) (name : String) (e : Expr) (args : List (Option String × Expr))
deriving Inhabited

namespace Expr

/-- The line in which an expression starts. -/
def line : Expr → Nat
  | const l _ | name l _ | list l _ | map l _ | sign l _ _ | binary l _ _ _ | choice l _ _ _
  | part l _ _ | item l _ _ | slice l _ _ _ _ | call l _ _ | filter l _ _ _ | test l _ _ _ => l

mutual
/-- The line of the operand that is evaluated last. A call is reported there. -/
def lastLine (e : Expr) : Nat :=
  match e with
  | const l _ | name l _ => l
  | list l items => lastLineOf l items
  | map l entries => lastLineOfEntries l entries
  | sign _ _ e => lastLine e
  | binary _ _ _ b => lastLine b
  | choice _ _ _ no => lastLine no
  | part _ e _ => lastLine e
  | item _ _ key => lastLine key
  | slice _ _ _ _ step => lastLine step
  | call l _ args | filter l _ _ args | test l _ _ args => lastLineOfArgs l args

/-- The line of the last of some expressions. -/
def lastLineOf (l : Nat) : List Expr → Nat
  | [] => l
  | e :: es => lastLineOf (lastLine e) es

/-- The line of the last of some entries. -/
def lastLineOfEntries (l : Nat) : List (Expr × Expr) → Nat
  | [] => l
  | (_, e) :: es => lastLineOfEntries (lastLine e) es

/-- The line of the last of some arguments. -/
def lastLineOfArgs (l : Nat) : List (Option String × Expr) → Nat
  | [] => l
  | (_, e) :: es => lastLineOfArgs (lastLine e) es
end

end Expr

/-! ## Reading expressions -/

/-- The tokens that are left to read. -/
abbrev Tokens := List Located

/-- The failure at the next token. -/
def unexpected {α : Type} : Tokens → Except Failure α
  | [] => .error ⟨1, .malformed "unexpected end of input"⟩
  | t :: _ => .error ⟨t.line, .malformed "unexpected token"⟩

/-- The line of the next token. -/
def lineOf : Tokens → Nat
  | [] => 1
  | t :: _ => t.line

/-- The tokens after a symbol, if it comes next. -/
def afterSymbol? (s : String) : Tokens → Option (Tokens)
  | ⟨_, .symbol t⟩ :: rest => if t = s then some rest else none
  | _ => none

/-- The tokens after a word, if it comes next. -/
def afterWord? (s : String) : Tokens → Option (Tokens)
  | ⟨_, .name t⟩ :: rest => if t = s then some rest else none
  | _ => none

/-- The tokens after a symbol that must come next. -/
def expectSymbol (s : String) (ts : Tokens) : Except Failure (Tokens) :=
  match afterSymbol? s ts with
  | some rest => .ok rest
  | none => unexpected ts

/-- A name that must come next. -/
def expectName : Tokens → Except Failure (String × Tokens)
  | ⟨_, .name s⟩ :: rest => .ok (s, rest)
  | ts => unexpected ts

/-- The levels of operators with two operands. -/
inductive Level where
  | or
  | and
  | compare
  | sum
  | join
  | product
  | power
deriving DecidableEq, Repr

/-- The operator of a level that comes next. -/
def Level.operator? (level : Level) : Tokens → Option (Operator × Tokens)
  | ⟨_, .name "or"⟩ :: rest => if level = .or then some (.or, rest) else none
  | ⟨_, .name "and"⟩ :: rest => if level = .and then some (.and, rest) else none
  | ⟨_, .name "in"⟩ :: rest => if level = .compare then some (.within, rest) else none
  | ⟨_, .symbol s⟩ :: rest =>
    let op : Option Operator :=
      match level, s with
      | .compare, "==" => some .equal
      | .compare, "!=" => some .unequal
      | .compare, "<" => some .less
      | .compare, "<=" => some .lessOrEqual
      | .compare, ">" => some .greater
      | .compare, ">=" => some .greaterOrEqual
      | .sum, "+" => some .add
      | .sum, "-" => some .subtract
      | .join, "~" => some .join
      | .product, "*" => some .multiply
      | .product, "/" => some .divide
      | .product, "//" => some .divideWhole
      | .product, "%" => some .remainder
      | .power, "**" => some .power
      | _, _ => none
    op.map fun op => (op, rest)
  | _ => none

/-- The tokens after `not in`. -/
def afterNotIn? : Tokens → Option (Tokens)
  | ⟨_, .name "not"⟩ :: ⟨_, .name "in"⟩ :: rest => some rest
  | _ => none

/-- The constant of a word, if it is one. -/
def constant? : String → Option Value
  | "true" | "True" => some (.bool true)
  | "false" | "False" => some (.bool false)
  | "none" | "None" => some .none
  | _ => none

/-- Words that do not start the argument of a test. -/
def isStopWord (s : String) : Bool := ["and", "or", "else", "is", "in", "not", "if"].contains s

/-- Whether the next token starts an argument that a test takes without parentheses. -/
def startsArgument : Tokens → Bool
  | ⟨_, .name s⟩ :: _ => !isStopWord s
  | ⟨_, .string _⟩ :: _ | ⟨_, .int _⟩ :: _ | ⟨_, .float _⟩ :: _ => true
  | ⟨_, .symbol s⟩ :: _ => s == "[" || s == "\x7b"
  | _ => false

/-- A missing bound of a slice. -/
def noBound (line : Nat) : Expr := .const line .none

mutual
/-- An expression. `fuel` bounds the depth; every level and every token takes a step of it. -/
def readExpr (fuel : Nat) (ts : Tokens) : Except Failure (Expr × Tokens) :=
  match fuel with
  | 0 => unexpected ts
  | fuel + 1 => do
    let (e, ts) ← readLevel fuel .or ts
    readChoice fuel e ts

/-- The choices after an expression: `e if test else other`. -/
def readChoice (fuel : Nat) (e : Expr) (ts : Tokens) : Except Failure (Expr × Tokens) :=
  match fuel with
  | 0 => unexpected ts
  | fuel + 1 =>
    match afterWord? "if" ts with
    | none => .ok (e, ts)
    | some ts => do
      let (test, ts) ← readLevel fuel .or ts
      match afterWord? "else" ts with
      | some ts =>
        let (other, ts) ← readExpr fuel ts
        readChoice fuel (.choice e.line test e other) ts
      | none => readChoice fuel (.choice e.line test e (.const e.line (.undefined true))) ts

/-- The operands of a level and the operators between them. -/
def readLevel (fuel : Nat) (level : Level) (ts : Tokens) : Except Failure (Expr × Tokens) :=
  match fuel with
  | 0 => unexpected ts
  | fuel + 1 => do
    let (e, ts) ← readOperand fuel level ts
    readRest fuel level e ts

/-- An operand of a level. -/
def readOperand (fuel : Nat) (level : Level) (ts : Tokens) : Except Failure (Expr × Tokens) :=
  match fuel with
  | 0 => unexpected ts
  | fuel + 1 =>
    match level with
    | .or => readLevel fuel .and ts
    | .and =>
      match afterWord? "not" ts with
      | some rest => do
        let (e, rest) ← readOperand fuel .and rest
        return (.sign (lineOf ts) .not e, rest)
      | none => readLevel fuel .compare ts
    | .compare => readLevel fuel .sum ts
    | .sum => readLevel fuel .join ts
    | .join => readLevel fuel .product ts
    | .product => readLevel fuel .power ts
    | .power => readUnary fuel ts

/-- The operators of a level after its first operand. -/
def readRest (fuel : Nat) (level : Level) (e : Expr) (ts : Tokens) :
    Except Failure (Expr × Tokens) :=
  match fuel with
  | 0 => unexpected ts
  | fuel + 1 =>
    match level.operator? ts with
    | some (op, rest) => do
      let (b, rest) ← readOperand fuel level rest
      readRest fuel level (.binary e.line op e b) rest
    | none =>
      match afterNotIn? ts with
      | some rest =>
        if level = .compare then do
          let (b, rest) ← readOperand fuel level rest
          readRest fuel level (.sign e.line .not (.binary e.line .within e b)) rest
        else .ok (e, ts)
      | none => .ok (e, ts)

/-- A value with a sign, its filters and its tests. -/
def readUnary (fuel : Nat) (ts : Tokens) : Except Failure (Expr × Tokens) :=
  match fuel with
  | 0 => unexpected ts
  | fuel + 1 => do
    let (e, ts) ← readSigned fuel ts
    readFilters fuel e ts

/-- A value with a sign. -/
def readSigned (fuel : Nat) (ts : Tokens) : Except Failure (Expr × Tokens) :=
  match fuel with
  | 0 => unexpected ts
  | fuel + 1 =>
    match afterSymbol? "-" ts with
    | some rest => do
      let (e, rest) ← readSigned fuel rest
      return (.sign (lineOf ts) .minus e, rest)
    | none => do
      let (e, rest) ← readPrimary fuel ts
      readParts fuel (lineOf ts) e rest

/-- A constant, a name, a list, a map, or an expression in parentheses. -/
def readPrimary (fuel : Nat) (ts : Tokens) : Except Failure (Expr × Tokens) :=
  match fuel with
  | 0 => unexpected ts
  | fuel + 1 =>
    match ts with
    | ⟨line, .name s⟩ :: rest =>
      match constant? s with
      | some v => .ok (.const line v, rest)
      | none => .ok (.name line s, rest)
    | ⟨line, .string s⟩ :: rest => .ok (.const line (Value.text s), rest)
    | ⟨line, .int n⟩ :: rest => .ok (.const line (.int n), rest)
    | ⟨line, .float x⟩ :: rest => .ok (.const line (.float x), rest)
    | ⟨line, .symbol "["⟩ :: rest => do
      let (items, rest) ← readItems fuel "]" rest
      return (.list line items, rest)
    | ⟨line, .symbol "\x7b"⟩ :: rest => do
      let (entries, rest) ← readEntries fuel rest
      return (.map line entries, rest)
    | ⟨line, .symbol "("⟩ :: rest =>
      match afterSymbol? ")" rest with
      | some rest => .ok (.list line [], rest)
      | none => do
        let (e, rest) ← readExpr fuel rest
        match afterSymbol? "," rest with
        | some rest =>
          let (items, rest) ← readItems fuel ")" rest
          return (.list line (e :: items), rest)
        | none => return (e, ← expectSymbol ")" rest)
    | _ => unexpected ts

/-- Items up to a closing symbol; a comma may stand before it. -/
def readItems (fuel : Nat) (close : String) (ts : Tokens) : Except Failure (List Expr × Tokens) :=
  match fuel with
  | 0 => unexpected ts
  | fuel + 1 =>
    match afterSymbol? close ts with
    | some rest => .ok ([], rest)
    | none => do
      let (e, rest) ← readExpr fuel ts
      match afterSymbol? "," rest with
      | some rest =>
        let (es, rest) ← readItems fuel close rest
        return (e :: es, rest)
      | none => return ([e], ← expectSymbol close rest)

/-- The entries of a map. -/
def readEntries (fuel : Nat) (ts : Tokens) : Except Failure (List (Expr × Expr) × Tokens) :=
  match fuel with
  | 0 => unexpected ts
  | fuel + 1 =>
    match afterSymbol? "\x7d" ts with
    | some rest => .ok ([], rest)
    | none => do
      let (key, rest) ← readExpr fuel ts
      let (e, rest) ← readExpr fuel (← expectSymbol ":" rest)
      match afterSymbol? "," rest with
      | some rest =>
        let (es, rest) ← readEntries fuel rest
        return ((key, e) :: es, rest)
      | none => return ([(key, e)], ← expectSymbol "\x7d" rest)

/-- Arguments up to the closing parenthesis; those with names stand at the end. -/
def readArgs (fuel : Nat) (ts : Tokens) : Except Failure (List (Option String × Expr) × Tokens) :=
  match fuel with
  | 0 => unexpected ts
  | fuel + 1 =>
    match afterSymbol? ")" ts with
    | some rest => .ok ([], rest)
    | none => do
      let (name, rest) : Option String × Tokens :=
        match ts with
        | ⟨_, .name s⟩ :: ⟨_, .symbol "="⟩ :: rest => (some s, rest)
        | _ => (none, ts)
      let (e, rest) ← readExpr fuel rest
      match afterSymbol? "," rest with
      | some rest =>
        let (es, rest) ← readArgs fuel rest
        if name.isSome && es.any (·.1.isNone) then unexpected ts
        else return ((name, e) :: es, rest)
      | none => return ([(name, e)], ← expectSymbol ")" rest)

/-- The parts and calls after a value that starts in a line. -/
def readParts (fuel line : Nat) (e : Expr) (ts : Tokens) : Except Failure (Expr × Tokens) :=
  match fuel with
  | 0 => unexpected ts
  | fuel + 1 =>
    match ts with
    | ⟨_, .symbol "."⟩ :: rest => do
      let (name, rest) ← expectName rest
      readParts fuel line (.part line e name) rest
    | ⟨_, .symbol "["⟩ :: rest => do
      let (e, rest) ← readKey fuel line e rest
      readParts fuel line e rest
    | ⟨_, .symbol "("⟩ :: rest => do
      let (args, rest) ← readArgs fuel rest
      readParts fuel line (.call line e args) rest
    | _ => .ok (e, ts)

/-- The key or the slice after an opening bracket. -/
def readKey (fuel line : Nat) (e : Expr) (ts : Tokens) : Except Failure (Expr × Tokens) :=
  match fuel with
  | 0 => unexpected ts
  | fuel + 1 => do
    let (start, ts) ← readBound fuel ts
    match afterSymbol? ":" ts, start with
    | none, some key => return (.item line e key, ← expectSymbol "]" ts)
    | none, none => unexpected ts
    | some ts, start =>
      let (stop, ts) ← readBound fuel ts
      match afterSymbol? ":" ts with
      | none =>
        return (.slice line e (start.getD (noBound line)) (stop.getD (noBound line)) (noBound line),
          ← expectSymbol "]" ts)
      | some ts =>
        let (step, ts) ← readBound fuel ts
        return (.slice line e (start.getD (noBound line)) (stop.getD (noBound line))
          (step.getD (noBound line)), ← expectSymbol "]" ts)

/-- A bound of a slice, if one is given. -/
def readBound (fuel : Nat) (ts : Tokens) : Except Failure (Option Expr × Tokens) :=
  match fuel with
  | 0 => unexpected ts
  | fuel + 1 =>
    match ts with
    | ⟨_, .symbol ":"⟩ :: _ | ⟨_, .symbol "]"⟩ :: _ => .ok (none, ts)
    | _ => do
      let (e, ts) ← readExpr fuel ts
      return (some e, ts)

/-- The filters and tests after a value. -/
def readFilters (fuel : Nat) (e : Expr) (ts : Tokens) : Except Failure (Expr × Tokens) :=
  match fuel with
  | 0 => unexpected ts
  | fuel + 1 =>
    match ts with
    | ⟨_, .symbol "|"⟩ :: rest => do
      let (name, after) ← expectName rest
      match afterSymbol? "(" after with
      | some after =>
        let (args, after) ← readArgs fuel after
        readFilters fuel (.filter (lineOf rest) name e args) after
      | none => readFilters fuel (.filter (lineOf rest) name e []) after
    | ⟨_, .name "is"⟩ :: rest => do
      let (negated, rest) : Bool × Tokens :=
        match afterWord? "not" rest with
        | some rest => (true, rest)
        | none => (false, rest)
      let (name, after) ← expectName rest
      let (args, after) ← readTestArgs fuel after
      let e := Expr.test (lineOf rest) name e args
      readFilters fuel (if negated then .sign (lineOf rest) .not e else e) after
    | _ => .ok (e, ts)

/-- The arguments of a test: in parentheses, or one without. -/
def readTestArgs (fuel : Nat) (ts : Tokens) :
    Except Failure (List (Option String × Expr) × Tokens) :=
  match fuel with
  | 0 => unexpected ts
  | fuel + 1 =>
    match afterSymbol? "(" ts with
    | some rest => readArgs fuel rest
    | none =>
      if startsArgument ts then do
        let (e, ts) ← readSigned fuel ts
        return ([(none, e)], ts)
      else .ok ([], ts)
end

/-- The steps that reading a list of tokens may take: a bounded number of levels for each token. -/
def readingFuel (ts : Tokens) : Nat := 40 * (ts.length + 2)

end Colonnade.Template
