import Colonnade.Text.Cut
import Colonnade.Text.Word
import Colonnade.Decimal.Reading
import Colonnade.Sql.Quoted
import Colonnade.Value

/-!
# Statement shapes

The statements a store in memory understands, recognised from their text: creating and dropping
objects, deleting rows, selecting from one table. Keywords may be written in any case. Where a text
can be cut in more than one way, the cuts are tried in a fixed order and the first that leads to the
end is taken: white space before a free piece takes as much as it can, a free piece as little as it
can.
-/

namespace Colonnade.Store

open Text

/-! ## Pieces of a statement -/

/-- Whether a character is a letter of a keyword, in any case; the keyword is in capitals. The long
s and the kelvin sign are lower cases of S and K. -/
def sameLetter (k c : Char) : Bool :=
  c.toUpper == k || (k == 'S' && c == '\u017f') || (k == 'K' && c == '\u212a')

/-- What follows a keyword. -/
def keyword? : List Char → List Char → Option (List Char)
  | [], cs => some cs
  | _ :: _, [] => none
  | k :: ks, c :: cs => if sameLetter k c then keyword? ks cs else none

/-- What follows the white space at the start, of which there must be some. -/
def spaces? : List Char → Option (List Char)
  | [] => none
  | c :: cs => if isSpace c then some (trimLeft cs) else none

theorem spaces?_of_not_space {c : Char} (h : isSpace c = false) (cs : List Char) :
    spaces? (c :: cs) = none := by
  simp [spaces?, h]

/-- What follows a keyword and the white space after it. -/
def keywordSpaces? (word : String) (cs : List Char) : Option (List Char) :=
  (keyword? word.toList cs).bind spaces?

/-- What follows white space and a keyword. -/
def spacesKeyword? (word : String) (cs : List Char) : Option (List Char) :=
  (spaces? cs).bind (keyword? word.toList)

/-- The mark around quoted names. -/
def nameQuote : Char := Char.ofNat 96

/-- The characters of an object's name, quoted and qualified names included. -/
def isObjectChar (c : Char) : Bool := isWord c || c == '.' || c == nameQuote

/-- A non-empty name and what follows it. -/
def objectName? (cs : List Char) : Option (List Char × List Char) :=
  match cs.takeWhile isObjectChar with
  | [] => none
  | name => some (name, cs.dropWhile isObjectChar)

/-- The ways to cut white space off the start, longest first; at least one character goes. -/
def spaceCuts : List Char → List (List Char)
  | [] => []
  | c :: cs => if isSpace c then spaceCuts cs ++ [cs] else []

/-- The ways to cut a non-empty piece off the start, shortest first. -/
def cuts : List Char → List (List Char × List Char)
  | [] => []
  | c :: cs => ([c], cs) :: (cuts cs).map fun (piece, rest) => (c :: piece, rest)

/-- White space, then a free piece, then a rest that is recognised. -/
def freePiece? {α : Type} (rest? : List Char → Option α) (cs : List Char) :
    Option (List Char × α) :=
  (spaceCuts cs).findSome? fun cs =>
    (cuts cs).findSome? fun (piece, rest) => (rest? rest).map fun a => (piece, a)

/-! ## Creating and dropping -/

/-- What kind of object a statement creates. -/
inductive ObjectKind where
  | table
  | view
  | dictionary
deriving DecidableEq, Repr

/-- A statement that creates an object. -/
structure CreateShape where
  kind : ObjectKind
  ifNotExists : Bool
  name : List Char
deriving DecidableEq, Repr

/-- The kind of object named after `CREATE`, and what follows. -/
def createdKind? (cs : List Char) : Option (ObjectKind × List Char) :=
  ((keyword? "TABLE".toList cs).map (.table, ·)).or <|
  ((keyword? "DICTIONARY".toList cs).map (.dictionary, ·)).or <|
  (((keyword? "MATERIALIZED".toList cs).bind (spacesKeyword? "VIEW")).map (.view, ·)).or <|
  (keyword? "VIEW".toList cs).map (.view, ·)

/-- What follows `IF NOT EXISTS` and white space. -/
def ifNotExists? (cs : List Char) : Option (List Char) := do
  let cs ← keywordSpaces? "IF" cs
  let cs ← keywordSpaces? "NOT" cs
  keywordSpaces? "EXISTS" cs

/-- What follows `IF EXISTS` and white space. -/
def ifExists? (cs : List Char) : Option (List Char) := do
  let cs ← keywordSpaces? "IF" cs
  keywordSpaces? "EXISTS" cs

/-- The start of a statement that creates an object; what follows the name is not looked at. The
words `IF NOT EXISTS` are a clause only where a name follows them. -/
def createShape? (cs : List Char) : Option CreateShape := do
  let cs ← keywordSpaces? "CREATE" cs
  let (kind, cs) ← createdKind? cs
  let cs ← spaces? cs
  match (ifNotExists? cs).bind objectName? with
  | some (name, _) => return ⟨kind, true, name⟩
  | none =>
    let (name, _) ← objectName? cs
    return ⟨kind, false, name⟩

/-- A statement that drops an object. -/
structure DropShape where
  ifExists : Bool
  name : List Char
deriving DecidableEq, Repr

/-- A name with nothing but white space after it. -/
def lastName? (cs : List Char) : Option (List Char) :=
  (objectName? cs).bind fun (name, rest) => if (trimLeft rest).isEmpty then some name else none

/-- A statement that drops an object. -/
def dropShape? (cs : List Char) : Option DropShape := do
  let cs ← keywordSpaces? "DROP" cs
  let cs ← (keyword? "TABLE".toList cs).or <|
    (keyword? "VIEW".toList cs).or (keyword? "DICTIONARY".toList cs)
  let cs ← spaces? cs
  match (ifExists? cs).bind lastName? with
  | some name => return ⟨true, name⟩
  | none =>
    let name ← lastName? cs
    return ⟨false, name⟩

/-! ## Deleting -/

/-- A statement that deletes rows, all of them without a predicate. -/
structure DeleteShape where
  name : List Char
  predicate : Option (List Char)
deriving DecidableEq, Repr

/-- A predicate after `WHERE` that reaches to the end. -/
def wherePredicate? (cs : List Char) : Option (List Char) := do
  let cs ← spacesKeyword? "WHERE" cs
  (spaceCuts cs).find? fun rest => !rest.isEmpty

/-- A statement that deletes rows. -/
def deleteShape? (cs : List Char) : Option DeleteShape := do
  let cs ← keywordSpaces? "ALTER" cs
  let cs ← keywordSpaces? "TABLE" cs
  let (name, cs) ← objectName? cs
  let cs ← spacesKeyword? "DELETE" cs
  match cs with
  | [] => return ⟨name, none⟩
  | cs =>
    let predicate ← wherePredicate? cs
    return ⟨name, some predicate⟩

/-! ## Selecting -/

/-- The clauses after the table of a select, each as written. -/
structure SelectTail where
  predicate : Option (List Char)
  order : Option (List Char)
  limit : Option (List Char)
  offset : Option (List Char)
deriving DecidableEq, Repr

/-- A select from one table. -/
structure SelectShape where
  projection : List Char
  table : List Char
  tail : SelectTail
deriving DecidableEq, Repr

/-- A keyword and the decimal digits after it, with white space before and between. -/
def numberClause? (word : String) (cs : List Char) : Option (List Char × List Char) := do
  let cs ← spacesKeyword? word cs
  let cs ← spaces? cs
  match cs.takeWhile isDecimalDigit with
  | [] => none
  | digits => return (digits, cs.dropWhile isDecimalDigit)

/-- The end of a select from its offset on. -/
def offsetTail? (cs : List Char) : Option SelectTail :=
  match numberClause? "OFFSET" cs with
  | some (digits, []) => some ⟨none, none, none, some digits⟩
  | _ => if cs.isEmpty then some ⟨none, none, none, none⟩ else none

/-- The end of a select from its limit on. -/
def limitTail? (cs : List Char) : Option SelectTail :=
  ((numberClause? "LIMIT" cs).bind fun (digits, rest) =>
    (offsetTail? rest).map fun tail => { tail with limit := some digits }).or
  (offsetTail? cs)

/-- The end of a select from its order on. -/
def orderTail? (cs : List Char) : Option SelectTail :=
  (((spacesKeyword? "ORDER" cs).bind (spacesKeyword? "BY")).bind fun rest =>
    (freePiece? limitTail? rest).map fun (order, tail) => { tail with order := some order }).or
  (limitTail? cs)

/-- The end of a select from its predicate on. -/
def whereTail? (cs : List Char) : Option SelectTail :=
  ((spacesKeyword? "WHERE" cs).bind fun rest =>
    (freePiece? orderTail? rest).map fun (p, tail) => { tail with predicate := some p }).or
  (orderTail? cs)

/-- A select from its table on. -/
def fromTail? (cs : List Char) : Option (List Char × SelectTail) := do
  let cs ← spacesKeyword? "FROM" cs
  let cs ← spaces? cs
  let (table, cs) ← objectName? cs
  let tail ← whereTail? cs
  return (table, tail)

/-- A select from one table. -/
def selectShape? (cs : List Char) : Option SelectShape := do
  let cs ← keyword? "SELECT".toList cs
  let (projection, table, tail) ← freePiece? fromTail? cs
  return ⟨projection, table, tail⟩

/-! ## Parts of a select -/

/-- The closing of an equality: white space and at most one closing parenthesis. -/
def equalityEnds (cs : List Char) : Bool :=
  match trimLeft cs with
  | [] => true
  | [')'] => true
  | _ => false

/-- A column compared with a string or an integer, in parentheses or not. -/
def equality? (predicate : List Char) : Option (String × Value) := do
  let cs := match predicate with
    | '(' :: cs => cs
    | cs => cs
  let cs := trimLeft cs
  let column := cs.takeWhile isWord
  if column.isEmpty then none
  match trimLeft (cs.dropWhile isWord) with
  | '=' :: cs =>
    match trimLeft cs with
    | '\'' :: cs =>
      let (body, rest) ← Sql.Quoted.scanBody cs
      if equalityEnds rest then
        return (.ofList column, .string (.ofList (Sql.Quoted.decode body)))
      else none
    | cs =>
      let (sign, cs) := match cs with
        | '-' :: cs => (['-'], cs)
        | cs => ([], cs)
      let digits := cs.takeWhile isDecimalDigit
      if equalityEnds (cs.dropWhile isDecimalDigit) then
        let n ← Decimal.readInt64? (sign ++ digits)
        return (.ofList column, .int n)
      else none
  | _ => none

/-- Whether a text is a plain column name. -/
def isColumnName (cs : List Char) : Bool :=
  !cs.isEmpty && cs.all fun c => c.isAlphanum || c == '_'

/-- One item of a select list: a column, or a column with an alias. -/
def projectionItem? (item : List Char) : Option (String × String) :=
  match words item with
  | [column] => if isColumnName column then some (.ofList column, .ofList column) else none
  | [column, as, name] =>
    if as.map Char.toUpper = "AS".toList && isColumnName column && isColumnName name then
      some (.ofList column, .ofList name)
    else none
  | _ => none

/-- The columns of a select list and the names they go by; expressions are not understood. -/
def projection? (cs : List Char) : Option (List (String × String)) :=
  (pieces ',' cs).mapM projectionItem?

/-- A sort key. -/
structure SortKey where
  column : String
  descending : Bool
deriving DecidableEq, Repr

/-- The keys of an order; an item without a word is skipped, and only `DESC` sorts down. -/
def sortKeys (cs : List Char) : List SortKey :=
  (pieces ',' cs).filterMap fun item =>
    match words item with
    | [] => none
    | column :: rest =>
      some ⟨.ofList column, rest.head?.any fun word => word.map Char.toUpper = "DESC".toList⟩

/-- The value of a limit or offset; one that does not fit is as if it were not there. -/
def rowCount? (digits : List Char) : Option Nat :=
  (Decimal.natural? digits).filter fun n => n ≤ Decimal.maxUInt64

end Colonnade.Store
