import Colonnade.Yaml.Cursor

/-!
# Plain scalars

A scalar without quotes runs on over blanks and lines until a comment, the end of a key, the end of
the document, a bracket or a comma if it stands inside brackets, or a line that is not indented.
-/

namespace Colonnade.Yaml

/-- The characters that end a plain scalar inside brackets. -/
def isFlowIndicator (c : Char) : Bool := [',', '[', ']', '\x7b', '\x7d'].contains c

/-- The characters with a meaning at the start of a token. -/
def isIndicator (c : Char) : Bool :=
  isFlowIndicator c
    || ['-', '?', ':', '#', '&', '*', '!', '|', '>', '\'', '"', '%', '@', '\x60'].contains c

/-- Whether a plain scalar starts a text. -/
def startsPlain (flow : Bool) : List Char → Bool
  | [] => false
  | c :: cs =>
    !(isBlankOrBreak c || isIndicator c)
      || (c == '-' && !blankNext cs)
      || (!flow && (c == '?' || c == ':') && !blankNext cs)

/-- The characters up to white space or what ends the scalar. Inside brackets a colon must not stand
directly before a bracket or a comma. -/
def plainWord? (flow : Bool) : List Char → Option (List Char)
  | [] => some []
  | c :: cs =>
    if isBlankOrBreak c then some []
    else if flow && c == ':' && cs.head?.any (fun d => isFlowIndicator d || d == '?') then none
    else if (c == ':' && blankNext cs) || (flow && isFlowIndicator c) then some []
    else (plainWord? flow cs).map (c :: ·)

/-- What follows a word of the scalar, and the place after its last word. -/
def plainRest? (flow : Bool) (indent fuel : Nat) (c : Cursor) : Option (List Char × Cursor) :=
  match fuel with
  | 0 => none
  | fuel + 1 => do
    let (blanks, after) := c.span isBlank
    if after.head? = some '\n' then
      let (n, after) ← after.skipBreaks? indent
      if (!flow && after.column < indent) || after.atEnd || after.head? = some '#' then
        return ([], c)
      else
        let word ← plainWord? flow after.rest
        if word.isEmpty then return ([], c)
        else
          let (text, last) ← plainRest? flow indent fuel (after.skip word.length)
          return (foldBreaks n ++ word ++ text, last)
    else if !blanks.isEmpty && after.head? = some '#' then return ([], c)
    else
      let word ← plainWord? flow after.rest
      if word.isEmpty then return ([], c)
      else
        let (text, last) ← plainRest? flow indent fuel (after.skip word.length)
        return (blanks ++ word ++ text, last)

/-- The plain scalar that starts here. Its later lines are indented by at least `indent`. -/
def plain? (flow : Bool) (indent : Nat) (c : Cursor) : Option (String × Cursor) := do
  let (text, after) ← plainRest? flow indent (c.rest.length + 1) c
  return (.ofList text, after)

end Colonnade.Yaml
