import Colonnade.Yaml.Block
import Colonnade.Yaml.Plain
import Colonnade.Yaml.Property
import Colonnade.Yaml.Quoted

/-!
# Reading nodes

Lists and maps are written in brackets or by indentation. A block list or map may start only at the
start of a line or after the mark of an item or of an explicit key. A key without a mark stands in
one line, and its colon with it.
-/

namespace Colonnade.Yaml

/-- The place of reading, and the nodes that aliases stand for. -/
structure Progress where
  cursor : Cursor
  anchors : List (String × Node)
  handles : Handles

namespace Progress

/-- The same at another place. -/
def moveTo (s : Progress) (c : Cursor) : Progress := { s with cursor := c }

/-- A node under what stands before it. -/
def finish (s : Progress) (p : Properties) (n : Node) : Node × Progress :=
  let n := if p.tag.isSome then n.withTag p.tag else n
  match p.anchor with
  | some name => (n, { s with anchors := (name, n) :: s.anchors })
  | none => (n, s)

end Progress

/-- The longest key without a mark. -/
def maxKeyLength : Nat := 1024

/-- Whether what starts at one place and ends at another may be a key without a mark. -/
def isKey (start stop : Cursor) : Bool :=
  start.line == stop.line && stop.column ≤ start.column + maxKeyLength

/-- Whether an entry in brackets ends here. -/
def endsFlowNode (close : Char) (c : Cursor) : Bool :=
  c.head? == some ',' || c.head? == some close

/-- An entry in brackets as an item of a list. -/
def itemOf : Node × Option Node → Node
  | (n, none) => n
  | (k, some v) => .map none [(k, v)]

/-- An entry in brackets as an entry of a map. -/
def entryOf (e : Node × Option Node) : Node × Node := (e.1, e.2.getD .blank)

/-! ## In brackets -/

mutual
/-- A scalar, an alias, or a list or map in brackets. -/
def inlineNode? (flow : Bool) (indent : Nat) (fuel : Nat) (p : Properties) (s : Progress) :
    Option (Node × Progress) :=
  match fuel with
  | 0 => none
  | fuel + 1 => do
    let c := s.cursor
    match ← c.head? with
    | '*' =>
      let (name, after) ← anchorName? c
      if p.isEmpty then return (← s.anchors.lookup name, s.moveTo after) else none
    | '\'' =>
      let (text, after) ← quoted? '\'' c
      return (s.moveTo after).finish p (.scalar none false text)
    | '"' =>
      let (text, after) ← quoted? '"' c
      return (s.moveTo after).finish p (.scalar none false text)
    | '[' =>
      let (entries, s) ← flowEntries? ']' fuel (s.moveTo c.next)
      return s.finish p (.list none (entries.map itemOf))
    | '\x7b' =>
      let (entries, s) ← flowEntries? '\x7d' fuel (s.moveTo c.next)
      return s.finish p (.map none (entries.map entryOf))
    | _ =>
      if startsPlain flow c.rest then
        let (text, after) ← plain? flow indent c
        return (s.moveTo after).finish p (.scalar none true text)
      else none

/-- A node in brackets. -/
def flowNode? (close : Char) (fuel : Nat) (s : Progress) : Option (Node × Progress) :=
  match fuel with
  | 0 => none
  | fuel + 1 => do
    let (p, c) ← properties? s.handles true 3 {} s.cursor
    if !p.isEmpty && (endsFlowNode close c || c.head? == some ':') then
      return (s.moveTo c).finish p .blank
    else inlineNode? true 0 fuel p (s.moveTo c)

/-- The value after a colon in brackets. -/
def flowValue? (close : Char) (fuel : Nat) (s : Progress) : Option (Node × Progress) :=
  match fuel with
  | 0 => none
  | fuel + 1 =>
    let c := s.cursor.next.toFlowToken
    if endsFlowNode close c then some (.blank, s.moveTo c) else flowNode? close fuel (s.moveTo c)

/-- An entry in brackets: a node, or a key with a value. -/
def flowEntry? (close : Char) (fuel : Nat) (s : Progress) :
    Option ((Node × Option Node) × Progress) :=
  match fuel with
  | 0 => none
  | fuel + 1 => do
    let start := s.cursor
    if start.head? = some '?' then
      let c := start.next.toFlowToken
      let bare := endsFlowNode close c || c.head? = some ':'
      if bare && close == ']' then none
      let (key, s) ←
        if bare then some (Node.blank, s.moveTo c) else flowNode? close fuel (s.moveTo c)
      let c := s.cursor.toFlowToken
      if c.head? = some ':' then
        let (v, s) ← flowValue? close fuel (s.moveTo c)
        return ((key, some v), s)
      else return ((key, some .blank), s.moveTo c)
    else
      let (n, s) ← flowNode? close fuel s
      let c := s.cursor.toFlowToken
      if c.head? = some ':' then
        if isKey start c then
          let (v, s) ← flowValue? close fuel (s.moveTo c)
          return ((n, some v), s)
        else none
      else return ((n, none), s.moveTo c)

/-- The entries up to the closing bracket. A comma may stand before it. -/
def flowEntries? (close : Char) (fuel : Nat) (s : Progress) :
    Option (List (Node × Option Node) × Progress) :=
  match fuel with
  | 0 => none
  | fuel + 1 => do
    let c := s.cursor.toFlowToken
    if c.atEnd then none
    else if c.head? = some close then return ([], s.moveTo c.next)
    else
      let (e, s) ← flowEntry? close fuel (s.moveTo c)
      let c := s.cursor.toFlowToken
      if c.head? = some ',' then
        let (es, s) ← flowEntries? close fuel (s.moveTo c.next)
        return (e :: es, s)
      else if c.head? = some close then return ([e], s.moveTo c.next)
      else none
end

/-! ## By indentation -/

mutual
/-- The node that follows here inside a collection at column `parent`. `fresh` tells whether a block
list or map may start in this line, and `flush` whether the items of a list may stand at `parent`
itself. -/
def blockNode? (parent : Int) (fresh flush : Bool) (fuel : Nat) (s : Progress) :
    Option (Node × Progress) :=
  match fuel with
  | 0 => none
  | fuel + 1 =>
    let c := s.cursor.toToken !fresh
    let fresh := fresh || c.line != s.cursor.line
    if c.atEnd then some (.blank, s.moveTo c)
    else if c.column ≤ parent then
      if flush && c.column = parent && c.atIndicator '-' then do
        let (items, s) ← blockItems? c.column fuel (s.moveTo c)
        return (.list none items, s)
      else some (.blank, s.moveTo c)
    else do
      let (p, after) ← properties? s.handles false 3 {} c
      if p.isEmpty then blockContent? parent fresh c p fuel (s.moveTo c)
      else if after.endOfLine?.isSome then
        let (n, s) ← blockNode? parent false flush fuel (s.moveTo after)
        if p.tag.isSome && n.tag?.isSome then none else return s.finish p n
      else if ['-', '?'].any after.atIndicator then none
      else blockContent? parent fresh c p fuel (s.moveTo after)

/-- The node that starts at a place, after what stands before it. -/
def blockContent? (parent : Int) (fresh : Bool) (start : Cursor) (p : Properties) (fuel : Nat)
    (s : Progress) : Option (Node × Progress) :=
  match fuel with
  | 0 => none
  | fuel + 1 => do
    let c := s.cursor
    if c.atIndicator '-' then
      if !fresh then none
      let (items, s) ← blockItems? c.column fuel s
      return (.list none items, s)
    else if c.atIndicator '?' then
      if !fresh then none
      let (entries, s) ← blockEntries? c.column fuel s
      return (.map none entries, s)
    else if c.head? = some '|' || c.head? = some '>' then
      let (text, after) ← block? parent c
      return (s.moveTo after).finish p (.scalar none false text)
    else
      let (n, s) ← blockKey? (parent + 1).toNat p fuel s
      let after := s.cursor.skipBlanks
      if after.atIndicator ':' then
        if fresh && isKey start after then
          let (v, s) ← blockNode? start.column false true fuel (s.moveTo after.next)
          let (entries, s) ← blockEntries? start.column fuel s
          return (.map none ((n, v) :: entries), s)
        else none
      else return (n, s.moveTo (← after.endOfLine?))

/-- A node that may be a key. Nothing but what stands before a node may be one, too. -/
def blockKey? (indent : Nat) (p : Properties) (fuel : Nat) (s : Progress) :
    Option (Node × Progress) :=
  match fuel with
  | 0 => none
  | fuel + 1 =>
    if !p.isEmpty && s.cursor.atIndicator ':' then some (s.finish p .blank)
    else inlineNode? false indent fuel p s

/-- The entries of a block map at a column. -/
def blockEntries? (column : Nat) (fuel : Nat) (s : Progress) :
    Option (List (Node × Node) × Progress) :=
  match fuel with
  | 0 => none
  | fuel + 1 => do
    let c := s.cursor.toToken false
    if c.atEnd || c.column < column then return ([], s.moveTo c)
    else if column < c.column then none
    else if c.atIndicator '?' then
      let (k, s) ← blockNode? column true true fuel (s.moveTo c.next)
      let d := s.cursor.toToken false
      let (v, s) ←
        if !d.atEnd && d.column = column && d.atIndicator ':' then
          blockNode? column true true fuel (s.moveTo d.next)
        else some (Node.blank, s.moveTo d)
      let (entries, s) ← blockEntries? column fuel s
      return ((k, v) :: entries, s)
    else
      let (p, after) ← properties? s.handles false 3 {} c
      let (k, s) ← blockKey? (column + 1) p fuel (s.moveTo after)
      let colon := s.cursor.skipBlanks
      if colon.atIndicator ':' && isKey c colon then
        let (v, s) ← blockNode? column false true fuel (s.moveTo colon.next)
        let (entries, s) ← blockEntries? column fuel s
        return ((k, v) :: entries, s)
      else none

/-- The items of a block list at a column. -/
def blockItems? (column : Nat) (fuel : Nat) (s : Progress) : Option (List Node × Progress) :=
  match fuel with
  | 0 => none
  | fuel + 1 => do
    let c := s.cursor.toToken false
    if c.atEnd || c.column < column then return ([], s.moveTo c)
    else if column < c.column then none
    else if !c.atIndicator '-' then return ([], s.moveTo c)
    else
      let (n, s) ← blockNode? column true false fuel (s.moveTo c.next)
      let (items, s) ← blockItems? column fuel s
      return (n :: items, s)
end

/-! ## Documents -/

/-- The words of a line up to a comment. -/
def directiveWords (line : List Char) : List String :=
  ((line.splitBy fun a b => isBlank a == isBlank b).filter fun w => !w.any isBlank).map .ofList
    |>.takeWhile fun w => w.toList.head? ≠ some '#'

/-- The directives before a document, with the handles that they give, and the place after them. -/
def directives? (fuel : Nat) (handles : Handles) (c : Cursor) : Option (Handles × Cursor) :=
  match fuel with
  | 0 => none
  | fuel + 1 =>
    let c := c.toToken false
    if c.head? = some '%' ∧ c.column = 0 then
      let (line, after) := c.next.span fun _ => true
      match directiveWords line with
      | ["YAML", v] => if ["1.1", "1.2"].contains v then directives? fuel handles after else none
      | ["TAG", handle, expansion] => directives? fuel ((handle, expansion) :: handles) after
      | _ => none
    else some (handles, c)

/-- The place after the points that end a document. -/
def afterMarks? (fuel : Nat) (c : Cursor) : Option Cursor :=
  match fuel with
  | 0 => none
  | fuel + 1 =>
    let c := c.toToken false
    if c.atMark '.' then (c.skip 3).endOfLine? >>= afterMarks? fuel else some c

/-- The greatest depth of a document. -/
def maxDepth : Nat := 128

/-- The only document of a text. -/
def readDocument? (text : String) : Option Node := do
  let cs := text.toList
  if !cs.all isAllowed then none
  let cs := alike (if cs.head?.map Char.toNat = some 0xfeff then cs.drop 1 else cs)
  let fuel := 8 * (cs.length + 2)
  let (handles, c) ← directives? fuel standardHandles (.start cs)
  let marked := c.atMark '-'
  if !marked && handles.length ≠ standardHandles.length then none
  if c.rest.isEmpty then none
  let c := if marked then c.skip 3 else c
  let (n, s) ← blockNode? (-1) (!marked) false fuel ⟨c, [], handles⟩
  let c ← afterMarks? fuel s.cursor
  if c.rest.isEmpty && n.depth ≤ maxDepth then return n else none

end Colonnade.Yaml
