import Colonnade.Decimal.Notation
import Colonnade.Sql.Quoted
import Colonnade.Text.Space

/-!
# Values in templates

What an expression of a template gives, and how it is printed, compared and tested. A number is an
integer of any size or a float; truth values count as the integers 0 and 1 where numbers are asked
for.
-/

namespace Colonnade.Template

/-- The value of an expression. -/
inductive Value where
  /-- Nothing was found. It may be handed on, but not printed unless it is `silent`. -/
  | undefined (silent : Bool)
  | none
  | bool (b : Bool)
  | int (n : Int)
  | float (x : Float)
  /-- A text; a `safe` one is printed without escaping. -/
  | string (s : String) (safe : Bool)
  | list (items : List Value)
  /-- Entries in ascending order of their keys. -/
  | map (entries : List (Value × Value))
  /-- The state of a loop: how many items came before, how many there are, how deep loops are
  nested, and the neighbours of the item. -/
  | loop (index length depth : Nat) (previous next : Value)
  | function (name : String)
deriving Inhabited

namespace Value

/-- A text that is escaped where templates escape. -/
def text (s : String) : Value := .string s false

/-! ## Printing -/

/-- Whether a character is written as it is inside a quoted text. -/
def isPlain (c : Char) : Bool :=
  let n := c.toNat
  !(n < 0x20 || (0x7f ≤ n && n ≤ 0xa0) || n = 0xad || (0x300 ≤ n && n ≤ 0x36f)
    || (0x200b ≤ n && n ≤ 0x200f) || (0x2028 ≤ n && n ≤ 0x202f) || (0x205f ≤ n && n ≤ 0x206f)
    || n = 0x3000 || (0xe000 ≤ n && n ≤ 0xf8ff) || n = 0xfeff || (0xfff0 ≤ n && n ≤ 0xfffb)
    || n = 0x1680 || (0x2000 ≤ n && n ≤ 0x200a) || 0xe0000 ≤ n || n % 0x10000 ≥ 0xfffe)

/-- A character inside a quoted text. -/
def quotedChar (c : Char) : List Char :=
  if c = '"' then ['\\', '"']
  else if c = '\\' then ['\\', '\\']
  else if c = '\n' then ['\\', 'n']
  else if c = '\r' then ['\\', 'r']
  else if c = '\t' then ['\\', 't']
  else if c.toNat = 0 then ['\\', '0']
  else if isPlain c then [c]
  else ['\\', 'u', '\x7b'] ++ Nat.toDigits 16 c.toNat ++ ['\x7d']

/-- A quoted text. -/
def quoted (s : String) : String := "\"" ++ .ofList (s.toList.flatMap quotedChar) ++ "\""

/-- The text of a truth value. -/
def boolText (b : Bool) : String := if b then "True" else "False"

/-- The text of a loop state. -/
def loopText (index length : Nat) : String :=
  "<loop " ++ toString index ++ "/" ++ toString length ++ ">"

mutual
/-- A value inside a list or a map. -/
def nested : Value → String
  | .undefined _ => "Undefined"
  | .none => "None"
  | .bool b => boolText b
  | .int n => toString n
  | .float x => Decimal.Layout.nested.render x
  | .string s _ => quoted s
  | .list items => "[" ++ ", ".intercalate (nestedAll items) ++ "]"
  | .map entries => "\x7b" ++ ", ".intercalate (nestedEntries entries) ++ "\x7d"
  | .loop index length _ _ _ => loopText index length
  | .function name => name

/-- Values inside a list. -/
def nestedAll : List Value → List String
  | [] => []
  | v :: vs => nested v :: nestedAll vs

/-- Entries inside a map. -/
def nestedEntries : List (Value × Value) → List String
  | [] => []
  | (k, v) :: es => (nested k ++ ": " ++ nested v) :: nestedEntries es
end

/-- The text of a value as it is printed. -/
def display : Value → String
  | .undefined _ => ""
  | .string s _ => s
  | .float x => Decimal.Layout.template.render x
  | v => nested v

/-! ## Truth and numbers -/

/-- A number. -/
inductive Number where
  | int (n : Int)
  | float (x : Float)

/-- The number of a value. -/
def number? : Value → Option Number
  | .bool b => some (.int b.toNat)
  | .int n => some (.int n)
  | .float x => some (.float x)
  | _ => Option.none

/-- The integer of a value; a float counts if it is whole. -/
def int? : Value → Option Int
  | .bool b => some b.toNat
  | .int n => some n
  | .float x =>
    let n := x.toInt64
    if n.toFloat == x then some n.toInt else Option.none
  | _ => Option.none

/-- The text of a text value. -/
def string? : Value → Option String
  | .string s _ => some s
  | _ => Option.none

/-- Whether a value is undefined. -/
def isUndefined : Value → Bool
  | .undefined _ => true
  | _ => false

/-- Whether a value counts as true; nothing undefined does. -/
def isTrue : Value → Bool
  | .undefined _ | .none => false
  | .bool b => b
  | .int n => n ≠ 0
  | .float x => x != 0
  | .string s _ => s ≠ ""
  | .list items => !items.isEmpty
  | .map entries => !entries.isEmpty
  | .loop .. | .function _ => true

/-- The nearest float of an integer. -/
def floatOfInt (n : Int) : Float :=
  if n < 0 then -(Float.ofNat n.natAbs) else Float.ofNat n.natAbs

/-- The float of a number. -/
def Number.toFloat : Number → Float
  | .int n => floatOfInt n
  | .float x => x

/-! ## Order -/

/-- The place of a kind of values in the order of all values. -/
def rank : Value → Nat
  | .undefined _ => 0
  | .none => 1
  | .bool _ => 2
  | .int _ | .float _ => 3
  | .string _ _ => 4
  | .list _ => 5
  | .map _ => 6
  | .loop .. => 7
  | .function _ => 8

/-- Numbers by size. -/
def compareNumbers : Number → Number → Ordering
  | .int a, .int b => compare a b
  | a, b =>
    if a.toFloat < b.toFloat then .lt else if b.toFloat < a.toFloat then .gt else .eq

mutual
/-- The order of values: by kind first. -/
def order : Value → Value → Ordering
  | .string a _, .string b _ => compare a b
  | .list a, .list b => orderAll a b
  | .map a, .map b => orderEntries a b
  | a, b =>
    match compare a.rank b.rank with
    | .eq =>
      match a.number?, b.number? with
      | some m, some n => compareNumbers m n
      | _, _ => .eq
    | o => o

/-- The order of lists, from their first items on. -/
def orderAll : List Value → List Value → Ordering
  | [], [] => .eq
  | [], _ :: _ => .lt
  | _ :: _, [] => .gt
  | a :: as, b :: bs => (order a b).then (orderAll as bs)

/-- The order of entries, from the first on. -/
def orderEntries : List (Value × Value) → List (Value × Value) → Ordering
  | [], [] => .eq
  | [], _ :: _ => .lt
  | _ :: _, [] => .gt
  | (a, v) :: as, (b, w) :: bs => ((order a b).then (order v w)).then (orderEntries as bs)
end

/-- Whether two values are equal. A truth value equals its number. -/
def same (a b : Value) : Bool :=
  match a.number?, b.number? with
  | some m, some n => compareNumbers m n == .eq
  | _, _ => order a b == .eq

/-- Entries with one put in by its key, in place of an entry of that key. -/
def insertEntry (key value : Value) : List (Value × Value) → List (Value × Value)
  | [] => [(key, value)]
  | (k, v) :: rest =>
    match order key k with
    | .lt => (key, value) :: (k, v) :: rest
    | .eq => (k, value) :: rest
    | .gt => (k, v) :: insertEntry key value rest

/-- The map of entries; the last of a key counts. -/
def mapOf (entries : List (Value × Value)) : Value :=
  .map (entries.foldl (fun l e => insertEntry e.1 e.2 l) [])

/-! ## Parts -/

/-- The entry of a key. -/
def entry? (entries : List (Value × Value)) (key : Value) : Option Value :=
  (entries.find? fun e => same e.1 key).map (·.2)

/-- A property of a loop. -/
def loopPart? (index length depth : Nat) (previous next : Value) : String → Option Value
  | "index" => some (.int (index + 1))
  | "index0" => some (.int index)
  | "revindex" => some (.int (length - index))
  | "revindex0" => some (.int (length - index - 1 : Nat))
  | "first" => some (.bool (index = 0))
  | "last" => some (.bool (length ≤ index + 1))
  | "length" => some (.int length)
  | "depth" => some (.int (depth + 1))
  | "depth0" => some (.int depth)
  | "previtem" => some previous
  | "nextitem" => some next
  | _ => Option.none

/-- The part of a value under a name. -/
def attribute? (name : String) : Value → Option Value
  | .map entries => entry? entries (text name)
  | .loop index length depth previous next => loopPart? index length depth previous next name
  | _ => Option.none

/-- The position that an index means; a negative one counts from the end. -/
def position? (length : Nat) (index : Int) : Option Nat :=
  if 0 ≤ index then (if index < length then some index.toNat else Option.none)
  else if 0 ≤ index + length then some (index + length).toNat
  else Option.none

/-- The part of a value under a key. -/
def item? (v key : Value) : Option Value :=
  match v with
  | .map entries => entry? entries key
  | .list items => do items[← position? items.length (← key.int?)]?
  | .string s _ => do
    let cs := s.toList
    return text (.ofList [← cs[← position? cs.length (← key.int?)]?])
  | v => do v.attribute? (← key.string?)

/-- The items of a value: those of a list, the keys of a map, the characters of a text. -/
def items? : Value → Option (List Value)
  | .none | .undefined _ => some []
  | .string s _ => some (s.toList.map fun c => text (.ofList [c]))
  | .list items => some items
  | .map entries => some (entries.map (·.1))
  | _ => Option.none

/-- How many items a value has. -/
def length? : Value → Option Nat
  | .string s _ => some s.length
  | .list items => some items.length
  | .map entries => some entries.length
  | _ => Option.none

end Value

end Colonnade.Template
