import Colonnade.Yaml.Cursor
import Colonnade.Yaml.Scalar

/-!
# Quoted scalars

In single quotes a quote is written twice and nothing else is special. In double quotes a backslash
starts an escape. Line ends and the white space around them are folded in both; a backslash before a
line end drops it.
-/

namespace Colonnade.Yaml

/-- The escapes that stand for one character. -/
def escapes : List (Char × Nat) :=
  [('0', 0), ('a', 7), ('b', 8), ('t', 9), ('\t', 9), ('n', 10), ('v', 11), ('f', 12), ('r', 13),
   ('e', 27), (' ', 32), ('"', 34), ('/', 47), ('\\', 92), ('N', 0x85), ('_', 0xa0), ('L', 0x2028),
   ('P', 0x2029)]

/-- How many hexadecimal digits follow an escape of a code point. -/
def codeLength? : Char → Option Nat
  | 'x' => some 2
  | 'u' => some 4
  | 'U' => some 8
  | _ => none

/-- The character of a code point. -/
def charOf? (n : Nat) : Option Char :=
  if n.isValidChar then some (Char.ofNat n) else none

/-- The character that an escape stands for, and how long the escape is after its backslash. -/
def escape? : List Char → Option (Char × Nat)
  | [] => none
  | c :: cs =>
    match escapes.lookup c with
    | some n => some (Char.ofNat n, 1)
    | none => do
      let length ← codeLength? c
      let digits := cs.take length
      if digits.length < length then none
      else return (← charOf? (← ofDigits? 16 digits), length + 1)

/-- The text up to the closing quote, and the place after it. -/
def quotedText? (quote : Char) (fuel : Nat) (c : Cursor) : Option (List Char × Cursor) :=
  match fuel with
  | 0 => none
  | fuel + 1 =>
    if c.atMark '-' || c.atMark '.' then none
    else do
      let x ← c.head?
      if isBlankOrBreak x then
        let (blanks, after) := c.span isBlank
        if after.head? = some '\n' then
          let (n, after) ← after.skipBreaks? 0
          let (text, after) ← quotedText? quote fuel after
          return (foldBreaks n ++ text, after)
        else
          let (text, after) ← quotedText? quote fuel after
          return (blanks ++ text, after)
      else if x = quote then
        if quote = '\'' ∧ c.next.head? = some quote then
          let (text, after) ← quotedText? quote fuel (c.skip 2)
          return (quote :: text, after)
        else return ([], c.next)
      else if x = '\\' ∧ quote = '"' then
        if c.next.head? = some '\n' then
          let (n, after) ← c.next.skipBreaks? 0
          let (text, after) ← quotedText? quote fuel after
          return (List.replicate (n - 1) '\n' ++ text, after)
        else
          let (y, length) ← escape? c.next.rest
          let (text, after) ← quotedText? quote fuel (c.skip (length + 1))
          return (y :: text, after)
      else
        let (text, after) ← quotedText? quote fuel c.next
        return (x :: text, after)

/-- The scalar whose opening quote stands here. -/
def quoted? (quote : Char) (c : Cursor) : Option (String × Cursor) := do
  let (text, after) ← quotedText? quote (c.rest.length + 1) c.next
  return (.ofList text, after)

end Colonnade.Yaml
