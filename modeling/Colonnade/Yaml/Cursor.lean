/-!
# A place in a YAML text

The text that is left, with the column and the line that it starts in. Line ends are `\n`; the other
line ends are written so before reading starts.
-/

namespace Colonnade.Yaml

/-- A place in a text. -/
structure Cursor where
  rest : List Char
  column : Nat
  line : Nat
deriving Inhabited

/-- White space within a line. -/
def isBlank (c : Char) : Bool := c == ' ' || c == '\t'

/-- White space, or the end of a line. -/
def isBlankOrBreak (c : Char) : Bool := isBlank c || c == '\n'

/-- Whether a text starts with white space or ends here. -/
def blankNext : List Char → Bool
  | [] => true
  | c :: _ => isBlankOrBreak c

/-- The characters that may stand in a document. -/
def isAllowed (c : Char) : Bool :=
  let n := c.toNat
  n = 9 || n = 10 || n = 13 || (0x20 ≤ n && n ≤ 0x7e) || n = 0x85
    || (0xa0 ≤ n && n ≤ 0xfffd) || 0x10000 ≤ n

/-- A text with all its line ends alike. -/
def alike : List Char → List Char
  | [] => []
  | '\r' :: '\n' :: cs => '\n' :: alike cs
  | c :: cs => (if c = '\r' ∨ c.toNat = 0x85 then '\n' else c) :: alike cs

namespace Cursor

/-- The start of a text. -/
def start (cs : List Char) : Cursor := ⟨cs, 0, 0⟩

/-- The place after the next character. -/
def next (c : Cursor) : Cursor :=
  match c.rest with
  | [] => c
  | '\n' :: cs => ⟨cs, 0, c.line + 1⟩
  | _ :: cs => ⟨cs, c.column + 1, c.line⟩

/-- The place after some characters of the line. -/
def skip (c : Cursor) (n : Nat) : Cursor := ⟨c.rest.drop n, c.column + n, c.line⟩

/-- The characters of a kind from here on, none of them a line end. -/
def span (c : Cursor) (p : Char → Bool) : List Char × Cursor :=
  let cs := c.rest.takeWhile fun x => x != '\n' && p x
  (cs, c.skip cs.length)

/-- The next character. -/
def head? (c : Cursor) : Option Char := c.rest.head?

/-- Whether the next character is an indicator, that is, followed by white space. -/
def atIndicator (c : Cursor) (x : Char) : Bool :=
  match c.rest with
  | y :: cs => x == y && blankNext cs
  | [] => false

/-- Whether a line of three dashes or three points starts here. -/
def atMark (c : Cursor) (x : Char) : Bool :=
  c.column == 0 && c.rest.take 3 == [x, x, x] && blankNext (c.rest.drop 3)

/-- Whether the document ends here. -/
def atEnd (c : Cursor) : Bool := c.rest.isEmpty || c.atMark '-' || c.atMark '.'

/-- The place after blanks of the line. -/
def skipBlanks (c : Cursor) : Cursor := (c.span isBlank).2

/-- The place after a comment, if one starts here. -/
def skipComment (c : Cursor) : Cursor :=
  if c.head? = some '#' then (c.span fun _ => true).2 else c

/-- The place of the next token. `tabs` tells whether tabs may stand before it in this line, and
`flow` whether they may in later ones. -/
def skipSpace (fuel : Nat) (tabs flow : Bool) (c : Cursor) : Cursor :=
  match fuel with
  | 0 => c
  | fuel + 1 =>
    let blanks := if tabs then c.skipBlanks else (c.span (· == ' ')).2
    let after := blanks.skipComment
    if after.head? = some '\n' then after.next.skipSpace fuel flow flow else after

/-- The place of the next token outside brackets. -/
def toToken (c : Cursor) (tabs : Bool) : Cursor := c.skipSpace (c.rest.length + 1) tabs false

/-- The place of the next token inside brackets. -/
def toFlowToken (c : Cursor) : Cursor := c.skipSpace (c.rest.length + 1) true true

/-- The end of the line, if nothing but a comment is left of it. -/
def endOfLine? (c : Cursor) : Option Cursor :=
  let after := c.skipBlanks.skipComment
  match after.head? with
  | none | some '\n' => some after
  | _ => none

/-- The place after blanks at the start of a line, unless a tab stands before column `least`. -/
def skipLeading? (least : Nat) (c : Cursor) : Option Cursor :=
  let spaces := (c.span (· == ' ')).2
  if spaces.head? = some '\t' ∧ spaces.column < least then none else some spaces.skipBlanks

/-- How many lines end from here on before the next character that is not white space, as far as
`fuel` goes. -/
def countBreaks? (fuel least : Nat) (c : Cursor) : Option (Nat × Cursor) :=
  match fuel with
  | 0 => none
  | fuel + 1 =>
    if c.head? = some '\n' then do
      let (n, after) ← (← c.next.skipLeading? least).countBreaks? fuel least
      return (n + 1, after)
    else some (0, c)

/-- How many lines end from here on before the next character that is not white space. -/
def skipBreaks? (least : Nat) (c : Cursor) : Option (Nat × Cursor) :=
  c.countBreaks? (c.rest.length + 1) least

end Cursor

/-- What line ends inside a scalar stand for: one for a space, more for all but the first. -/
def foldBreaks (n : Nat) : List Char := if n = 1 then [' '] else List.replicate (n - 1) '\n'

end Colonnade.Yaml
