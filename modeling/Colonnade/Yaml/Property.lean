import Colonnade.Yaml.Cursor
import Colonnade.Yaml.Node

/-!
# Anchors and tags

What may stand before a node: `&name` gives it a name for aliases, `!name` says what it means.
-/

namespace Colonnade.Yaml

/-- What tag handles stand for. -/
abbrev Handles := List (String × String)

/-- The handles that every document has. -/
def standardHandles : Handles := [("!", "!"), ("!!", "tag:yaml.org,2002:")]

/-- What stands before a node. -/
structure Properties where
  anchor : Option String := none
  tag : Option String := none

namespace Properties

/-- Whether nothing stands before a node. -/
def isEmpty (p : Properties) : Bool := p.anchor.isNone && p.tag.isNone

end Properties

/-! ## Anchors -/

/-- The characters of the name of an anchor or a handle. -/
def isNameChar (c : Char) : Bool := c.isAlphanum || c == '_' || c == '-'

/-- The characters that may follow the name of an anchor. -/
def endsName (cs : List Char) : Bool :=
  blankNext cs || cs.head?.any ['?', ':', ',', ']', '\x7d', '%', '@', '\x60'].contains

/-- The name of the anchor or alias whose mark stands here. -/
def anchorName? (c : Cursor) : Option (String × Cursor) :=
  let (name, after) := c.next.span isNameChar
  if name.isEmpty || !endsName after.rest then none else some (.ofList name, after)

/-! ## Tags -/

/-- The characters of a tag. Between angle brackets more are allowed. -/
def isTagChar (verbatim : Bool) (c : Char) : Bool :=
  isNameChar c
    || [';', '/', '?', ':', '@', '&', '=', '+', '$', '.', '!', '~', '*', '\'', '(', ')'].contains c
    || (verbatim && [',', '[', ']'].contains c)

/-- The handle of a tag, and what follows it. -/
def splitHandle (cs : List Char) : List Char × List Char :=
  let name := cs.takeWhile isNameChar
  match cs.drop name.length with
  | '!' :: rest => ('!' :: name ++ ['!'], rest)
  | _ => (['!'], cs)

/-- The tag that starts here. -/
def tag? (handles : Handles) (flow : Bool) (c : Cursor) : Option (String × Cursor) := do
  let (text, after) ← match c.next.rest with
    | '<' :: _ =>
      let (name, after) := (c.skip 2).span (isTagChar true)
      if name.isEmpty || after.head? ≠ some '>' then none
      else some (String.ofList name, after.next)
    | cs =>
      let (handle, rest) := splitHandle cs
      let start := c.skip (c.rest.length - rest.length)
      let (name, after) := start.span (isTagChar false)
      if name.isEmpty && handle.length ≠ 1 then none
      else do
        let expansion ← handles.lookup (.ofList handle)
        some (expansion ++ .ofList name, after)
  if blankNext after.rest || (flow && after.head? = some ',') then return (text, after) else none

/-! ## Both -/

/-- What stands before the node here, one anchor and one tag at most, and the place of the node.
Inside brackets lines may end between them. -/
def properties? (handles : Handles) (flow : Bool) (fuel : Nat) (p : Properties) (c : Cursor) :
    Option (Properties × Cursor) :=
  let next (after : Cursor) := if flow then after.toFlowToken else after.skipBlanks
  match fuel, c.head? with
  | 0, _ => some (p, c)
  | fuel + 1, some '&' =>
    if p.anchor.isSome then none
    else do
      let (name, after) ← anchorName? c
      properties? handles flow fuel { p with anchor := some name } (next after)
  | fuel + 1, some '!' =>
    if p.tag.isSome then none
    else do
      let (name, after) ← tag? handles flow c
      properties? handles flow fuel { p with tag := some name } (next after)
  | _, _ => some (p, c)

end Colonnade.Yaml
