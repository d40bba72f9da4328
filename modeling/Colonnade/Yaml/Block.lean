import Colonnade.Yaml.Cursor

/-!
# Block scalars

After `|` the lines of an indented block are kept, after `>` they are folded. A sign tells what
becomes of the line ends at the end of the block, a digit how far it is indented.
-/

namespace Colonnade.Yaml

/-- What becomes of the line ends at the end of a block. -/
inductive Chomping where
  | strip
  | clip
  | keep
deriving DecidableEq

/-- The chomping of a sign. -/
def Chomping.ofSign? : Char → Option Chomping
  | '-' => some .strip
  | '+' => some .keep
  | _ => none

/-- The indentation that a digit gives. -/
def increment? (c : Char) : Option Nat :=
  if '1' ≤ c ∧ c ≤ '9' then some (c.toNat - 48) else none

/-- What the characters after `|` or `>` say, and how many of them do. -/
def blockHeader (cs : List Char) : Chomping × Option Nat × Nat :=
  let sign (c : Option Char) := c.bind Chomping.ofSign?
  let digit (c : Option Char) := c.bind increment?
  match sign cs.head?, digit cs.head? with
  | some chomping, _ =>
    match digit cs[1]? with
    | some n => (chomping, some n, 2)
    | none => (chomping, none, 1)
  | none, some n =>
    match sign cs[1]? with
    | some chomping => (chomping, some n, 2)
    | none => (.clip, some n, 1)
  | none, none => (.clip, none, 0)

/-- Skips blank lines and the indentation of the next one: how many lines end, the widest
indentation, and the place after it. Without an indentation all leading spaces belong to it. -/
def skipIndentation? (fuel : Nat) (indent : Option Nat) (widest : Nat) (c : Cursor) :
    Option (Nat × Nat × Cursor) :=
  match fuel with
  | 0 => none
  | fuel + 1 =>
    let spaces := (c.span (· == ' ')).1.length
    let after := c.skip (match indent with
      | some n => min spaces (n - c.column)
      | none => spaces)
    let widest := max widest after.column
    if after.head? = some '\t' ∧ indent.all (fun n => decide (after.column < n)) then none
    else if after.head? = some '\n' then do
      let (n, widest, after) ← skipIndentation? fuel indent widest after.next
      return (n + 1, widest, after)
    else some (0, widest, after)

/-- The line ends before a line of the block. A folded line end is a space unless blank lines follow
it or one of the lines around it starts with white space. -/
def blockBreaks (folded leading : Bool) (blankBefore blankNow : Bool) (n : Nat) : List Char :=
  if !leading then List.replicate n '\n'
  else if folded && !blankBefore && !blankNow then
    if n = 0 then [' '] else List.replicate n '\n'
  else List.replicate (n + 1) '\n'

/-- The lines of a block. `leading` tells whether a line has ended before, `n` how many blank lines
followed it. -/
def blockLines? (folded : Bool) (chomping : Chomping) (indent fuel : Nat)
    (leading blankBefore : Bool) (n : Nat) (c : Cursor) : Option (List Char × Cursor) :=
  match fuel with
  | 0 => none
  | fuel + 1 =>
    if c.column = indent ∧ ¬ c.rest.isEmpty then do
      let blankNow := c.head?.any isBlank
      let breaks := blockBreaks folded leading blankBefore blankNow n
      let (line, after) := c.span fun _ => true
      let leading := after.head? = some '\n'
      let (n, _, after) ← skipIndentation? fuel (some indent) 0 after.next
      let (text, after) ← blockLines? folded chomping indent fuel leading blankNow n after
      return (breaks ++ line ++ text, after)
    else
      let last := if chomping ≠ .strip ∧ leading then ['\n'] else []
      let more := if chomping = .keep then List.replicate n '\n' else []
      some (last ++ more, c)

/-- The block scalar whose `|` or `>` stands here, inside a collection at column `parent`. -/
def block? (parent : Int) (c : Cursor) : Option (String × Cursor) := do
  let folded := c.head? = some '>'
  let (chomping, increment, length) := blockHeader c.next.rest
  let start := (← (c.next.skip length).endOfLine?).next
  let fuel := c.rest.length + 1
  let given := increment.map fun n => if 0 ≤ parent then parent.toNat + n else n
  let (n, widest, first) ← skipIndentation? fuel given 0 start
  let indent := given.getD (max (max widest (parent + 1).toNat) 1)
  let (text, after) ← blockLines? folded chomping indent fuel false false n first
  return (.ofList text, after)

end Colonnade.Yaml
