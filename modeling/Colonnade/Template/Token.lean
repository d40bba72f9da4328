import Colonnade.Decimal.Power
import Colonnade.Decimal.Reading
import Colonnade.Template.Error
import Colonnade.Text.Cut
import Colonnade.Text.Space

/-!
# Tokens of a template

A template is text with tags in it: expressions between double braces, statements between braces
with percent signs, comments between braces with number signs. A dash at either end of a tag takes
away the white space next to it. Between the tags `raw` and `endraw` everything is text.
-/

namespace Colonnade.Template

/-- The two kinds of tags that hold tokens. -/
inductive TagKind where
  | expression
  | statement
deriving DecidableEq, Repr

/-- A token. -/
inductive Token where
  /-- Text outside of tags. -/
  | text (s : String)
  | opening (kind : TagKind)
  | closing (kind : TagKind)
  | name (s : String)
  | string (s : String)
  | int (n : Nat)
  | float (x : Float)
  | symbol (s : String)
deriving Inhabited

/-- A token with the line it starts in. -/
structure Located where
  line : Nat
  token : Token
deriving Inhabited

/-! ## Characters -/

/-- The line after some text. -/
def lineAfter (line : Nat) (cs : List Char) : Nat := line + cs.count '\n'

/-- White space inside a tag. -/
def isTagSpace (c : Char) : Bool :=
  c == ' ' || c == '\t' || c == '\n' || c == '\r' || c == '\x0c'

/-- Whether a character marks white space at the end of a tag. -/
def isMark (c : Char) : Bool := c == '-' || c == '+'

/-- What is left after the ending of a tag, and whether it takes away white space. -/
def afterClosing? (kind : TagKind) : List Char → Option (List Char × Bool)
  | '}' :: '}' :: rest => if kind = .expression then some (rest, false) else none
  | '%' :: '}' :: rest => if kind = .statement then some (rest, false) else none
  | c :: '}' :: '}' :: rest =>
    if kind = .expression ∧ isMark c then some (rest, c == '-') else none
  | c :: '%' :: '}' :: rest =>
    if kind = .statement ∧ isMark c then some (rest, c == '-') else none
  | _ => none

/-- A mark at the start of a tag taken off. -/
def afterMark : List Char → List Char
  | c :: cs => if isMark c then cs else c :: cs
  | [] => []

/-! ## Words, numbers, strings -/

/-- Whether a character starts a name. -/
def isNameStart (c : Char) : Bool := c.isAlpha || c == '_'

/-- Whether a character continues a name. -/
def isNameChar (c : Char) : Bool := c.isAlphanum || c == '_'

/-- How far a number has been read. -/
inductive NumberPhase where
  | whole
  | fraction
  | exponent
  | exponentDigits
deriving DecidableEq

/-- The phase after one more character, if the number goes on. -/
def NumberPhase.next? (p : NumberPhase) (c : Char) : Option NumberPhase :=
  if c.isDigit then some (if p = .exponent then .exponentDigits else p)
  else if c = '_' then some p
  else if c = '.' ∧ p = .whole then some .fraction
  else if (c = 'e' ∨ c = 'E') ∧ (p = .whole ∨ p = .fraction) then some .exponent
  else if (c = '+' ∨ c = '-') ∧ p = .exponent then some .exponentDigits
  else none

/-- The characters of a number, the last phase, and the rest. -/
def spanNumber (p : NumberPhase) : List Char → List Char × NumberPhase × List Char
  | [] => ([], p, [])
  | c :: cs =>
    match p.next? c with
    | none => ([], p, c :: cs)
    | some p =>
      let (digits, last, rest) := spanNumber p cs
      (c :: digits, last, rest)

/-- The value of a digit up to fifteen. -/
def digitValue (c : Char) : Nat :=
  if c.isDigit then c.toNat - 48 else c.toLower.toNat - 87

/-- The number of digits in a base. -/
def ofDigits (base : Nat) (digits : List Char) : Nat :=
  digits.foldl (fun n c => base * n + digitValue c) 0

/-- Whether a character is a hexadecimal digit. -/
def isHexDigit (c : Char) : Bool := c.isDigit || ('a' ≤ c.toLower && c.toLower ≤ 'f')

/-- The base that the start of a number asks for. -/
def basePrefix? : List Char → Option (Nat × (Char → Bool) × List Char)
  | '0' :: c :: rest =>
    if c.toLower = 'x' then some (16, isHexDigit, rest)
    else if c.toLower = 'o' then some (8, fun c => '0' ≤ c && c ≤ '7', rest)
    else if c.toLower = 'b' then some (2, fun c => c == '0' || c == '1', rest)
    else none
  | _ => none

/-- The greatest integer that can be written. -/
def maxInteger : Nat := Decimal.twoTo 128 - 1

/-- Reads a number, the first character of which is a digit. -/
def readNumber (cs : List Char) : Except String (Token × List Char) :=
  match basePrefix? cs with
  | some (base, isDigit, rest) =>
    let digits := rest.takeWhile fun c => isDigit c || c == '_'
    let n := ofDigits base (digits.filter (· != '_'))
    if digits.filter (· != '_') = [] ∨ digits.getLast? = some '_' ∨ maxInteger < n then
      .error "invalid integer"
    else .ok (.int n, rest.drop digits.length)
  | none =>
    let (chars, phase, rest) := spanNumber .whole cs
    let digits := chars.filter (· != '_')
    if chars.getLast? = some '_' then .error "'_' may not occur at end of number"
    else if phase = .whole then
      let n := ofDigits 10 digits
      if maxInteger < n then .error "invalid integer" else .ok (.int n, rest)
    else
      match Decimal.readFloat? digits with
      | some x => .ok (.float x, rest)
      | none => .error "invalid float"

/-- The hexadecimal number of four digits. -/
def hexUnit? (cs : List Char) : Option Nat :=
  if cs.length = 4 ∧ cs.all isHexDigit then
    some (ofDigits 16 cs)
  else none

/-- What an escape of one letter stands for. -/
def simpleEscape? : Char → Option Char
  | '"' => some '"'
  | '\'' => some '\''
  | '\\' => some '\\'
  | '/' => some '/'
  | 'b' => some '\x08'
  | 'f' => some '\x0c'
  | 'n' => some '\n'
  | 'r' => some '\r'
  | 't' => some '\t'
  | _ => none

/-- The body of a string up to its closing quote, with escapes as written. -/
def spanString (quote : Char) : List Char → Option (List Char × List Char)
  | [] => none
  | '\\' :: c :: cs => (spanString quote cs).map fun (body, rest) => ('\\' :: c :: body, rest)
  | c :: cs =>
    if c = quote then some ([], cs)
    else (spanString quote cs).map fun (body, rest) => (c :: body, rest)

/-- The text of a body with its escapes. Two escaped surrogates make one character. -/
def unescape? : List Char → Option (List Char)
  | [] => some []
  | '\\' :: 'u' :: a :: b :: c :: d :: '\\' :: 'u' :: a' :: b' :: c' :: d' :: cs => do
    let n ← hexUnit? [a, b, c, d]
    if 0xd800 ≤ n ∧ n < 0xdc00 then
      let m ← hexUnit? [a', b', c', d']
      if 0xdc00 ≤ m ∧ m < 0xe000 then
        return Char.ofNat (0x10000 + 0x400 * (n - 0xd800) + (m - 0xdc00)) :: (← unescape? cs)
      else none
    else if 0xdc00 ≤ n ∧ n < 0xe000 then none
    else return Char.ofNat n :: (← unescape? ('\\' :: 'u' :: a' :: b' :: c' :: d' :: cs))
  | '\\' :: 'u' :: a :: b :: c :: d :: cs => do
    let n ← hexUnit? [a, b, c, d]
    if 0xd800 ≤ n ∧ n < 0xe000 then none else return Char.ofNat n :: (← unescape? cs)
  | '\\' :: c :: cs => do return (← simpleEscape? c) :: (← unescape? cs)
  | c :: cs => if c = '\\' then none else do return c :: (← unescape? cs)

/-- The symbols of two characters. -/
def longSymbols : List (List Char) :=
  [['/', '/'], ['*', '*'], ['=', '='], ['!', '='], ['>', '='], ['<', '=']]

/-- The symbols of one character. -/
def shortSymbols : List Char := "+-*/%.,:~|=><()[]\x7b\x7d".toList

/-- Reads the next token of a tag. -/
def readToken (cs : List Char) : Except String (Token × List Char) :=
  match cs with
  | [] => .error "unexpected end of input"
  | c :: rest =>
    if longSymbols.contains (cs.take 2) then .ok (.symbol (.ofList (cs.take 2)), cs.drop 2)
    else if shortSymbols.contains c then .ok (.symbol (.ofList [c]), rest)
    else if c = '"' ∨ c = '\'' then
      match spanString c rest with
      | none => .error "unexpected end of string"
      | some (body, rest) =>
        match unescape? body with
        | none => .error "bad string escape"
        | some s => .ok (.string (.ofList s), rest)
    else if c.isDigit then readNumber cs
    else if isNameStart c then
      .ok (.name (.ofList (cs.takeWhile isNameChar)), cs.dropWhile isNameChar)
    else .error "unexpected character"

/-! ## Raw text -/

/-- What follows a tag that holds one word only, and the mark before its ending. -/
def afterWordTag? (word cs : List Char) : Option (List Char × Bool) := do
  let rest ← Text.afterStart? word ((afterMark cs).dropWhile isTagSpace)
  afterClosing? .statement (rest.dropWhile isTagSpace)

/-- A raw text: the text up to the ending tag, whether that tag takes away white space before and
after it, and the rest. -/
def spanRaw : List Char → Option (List Char × Bool × Bool × List Char)
  | [] => none
  | c :: cs =>
    let ending :=
      match c, cs with
      | '\x7b', '%' :: inner =>
        (afterWordTag? "endraw".toList inner).map fun (rest, trimAfter) =>
          ([], inner.head? == some '-', trimAfter, rest)
      | _, _ => none
    match ending with
    | some e => some e
    | none => (spanRaw cs).map fun (raw, before, after, rest) => (c :: raw, before, after, rest)

/-! ## Scanning -/

/-- Whether a tag or a comment starts here. -/
def isTagStart : List Char → Bool
  | '\x7b' :: c :: _ => c == '\x7b' || c == '%' || c == '#'
  | _ => false

/-- The text before the next tag, and the rest from there on. -/
def spanText : List Char → List Char × List Char
  | [] => ([], [])
  | c :: cs =>
    if isTagStart (c :: cs) then ([], c :: cs)
    else
      let (text, rest) := spanText cs
      (c :: text, rest)

/-- A token of text, unless it is empty. -/
def textToken (line : Nat) (cs : List Char) : List Located :=
  if cs.isEmpty then [] else [⟨line, .text (.ofList cs)⟩]

/-- The tokens of the rest of a template. `inside` tells which tag the rest starts in, `trim`
whether white space at its start is taken away. `fuel` bounds the number of steps; each takes a
character. -/
def scan (fuel line : Nat) (inside : Option TagKind) (trim : Bool) (cs : List Char) :
    Except Failure (List Located) :=
  match fuel with
  | 0 => .ok []
  | fuel + 1 =>
    match inside with
    | some kind =>
      let rest := cs.dropWhile isTagSpace
      let line := lineAfter line (cs.takeWhile isTagSpace)
      match afterClosing? kind rest with
      | some (rest, trim) => do
        return ⟨line, .closing kind⟩ :: (← scan fuel line none trim rest)
      | none =>
        match readToken rest with
        | .error detail => .error ⟨line, .malformed detail⟩
        | .ok (token, left) => do
          let after := lineAfter line (rest.take (rest.length - left.length))
          return ⟨line, token⟩ :: (← scan fuel after (some kind) false left)
    | none =>
      let trimmed := if trim then Text.trimLeft cs else cs
      let line := lineAfter line (cs.take (cs.length - trimmed.length))
      let (text, rest) := spanText trimmed
      let tagLine := lineAfter line text
      let shown := if (rest.drop 2).head? = some '-' then Text.trimRight text else text
      match rest with
      | _ :: '\x7b' :: inner => do
        return textToken line shown
          ++ ⟨tagLine, .opening .expression⟩
          :: (← scan fuel tagLine (some .expression) false (afterMark inner))
      | _ :: '%' :: inner =>
        match afterWordTag? "raw".toList inner with
        | some (inside, trimStart) =>
          match spanRaw inside with
          | none => .error ⟨tagLine, .malformed "unexpected end of raw block"⟩
          | some (raw, trimEnd, trimAfter, left) => do
            let kept := if trimStart then Text.trimLeft raw else raw
            let kept := if trimEnd then Text.trimRight kept else kept
            let after := lineAfter tagLine (rest.take (rest.length - left.length))
            return textToken line shown ++ textToken tagLine kept
              ++ (← scan fuel after none trimAfter left)
        | none => do
          return textToken line shown
            ++ ⟨tagLine, .opening .statement⟩
            :: (← scan fuel tagLine (some .statement) false (afterMark inner))
      | _ :: '#' :: inner =>
        match Text.cutAt? ['#', '\x7d'] inner with
        | none => .error ⟨tagLine, .malformed "unexpected end of comment"⟩
        | some (comment, left) => do
          let after := lineAfter tagLine comment
          return textToken line shown
            ++ (← scan fuel after none (comment.getLast? == some '-') left)
      | _ => .ok (textToken line shown)

/-- The last line ending of a template taken off. -/
def dropLineEnd (cs : List Char) : List Char :=
  let cs := if cs.getLast? = some '\n' then cs.dropLast else cs
  if cs.getLast? = some '\r' then cs.dropLast else cs

/-- The tokens of a template. -/
def tokens (template : String) : Except Failure (List Located) :=
  let cs := dropLineEnd template.toList
  scan (cs.length + 1) 1 none false cs

end Colonnade.Template
