import Colonnade.Text.Space
import Colonnade.Sql.Quoted

/-!
# Scripts

A script is several statements with semicolons between them. It is read as pieces: string literals,
line comments, separators and single characters. A semicolon inside a literal or a comment separates
nothing; a line comment is dropped and its line break stays.
-/

namespace Colonnade.Sql.Script

/-- A piece of a script. -/
inductive Piece where
  /-- A string literal with its quotes; one that is never closed reaches to the end. -/
  | literal (text : List Char)
  /-- A line comment; `ended` when a line break follows it. -/
  | comment (ended : Bool)
  | separator
  | char (c : Char)
deriving DecidableEq, Repr

/-- What a piece adds to its statement. -/
def Piece.text : Piece → List Char
  | .literal text => text
  | .comment ended => if ended then ['\n'] else []
  | .separator => []
  | .char c => [c]

/-- Whether a piece is more than white space and comments. -/
def Piece.isCode : Piece → Bool
  | .literal _ => true
  | .char c => !Text.isSpace c
  | .comment _ | .separator => false

/-- What belongs to a literal after its opening quote, the closing quote included, and what
follows. -/
def spanLiteral : List Char → List Char × List Char
  | [] => ([], [])
  | '\'' :: cs => (['\''], cs)
  | '\\' :: c :: cs => let (body, rest) := spanLiteral cs; ('\\' :: c :: body, rest)
  | c :: cs => let (body, rest) := spanLiteral cs; (c :: body, rest)

/-- Whether a line break ends the comment, and what follows that break. -/
def skipComment : List Char → Bool × List Char
  | [] => (false, [])
  | c :: cs => if c = '\n' then (true, cs) else skipComment cs

theorem append_spanLiteral (cs : List Char) : (spanLiteral cs).1 ++ (spanLiteral cs).2 = cs := by
  induction cs using spanLiteral.induct with
  | case1 => rfl
  | case2 cs => simp [spanLiteral]
  | case3 c cs _ _ _ ih => simp [spanLiteral, ih]
  | case4 c cs h1 h2 _ _ _ ih =>
    rw [spanLiteral]
    · simp [ih]
    · exact h1
    · exact h2

theorem length_spanLiteral_le (cs : List Char) : (spanLiteral cs).2.length ≤ cs.length := by
  have := congrArg List.length (append_spanLiteral cs)
  simp at this
  omega

theorem length_skipComment_le (cs : List Char) : (skipComment cs).2.length ≤ cs.length := by
  induction cs with
  | nil => simp [skipComment]
  | cons c cs ih =>
    by_cases h : c = '\n'
    · simp [skipComment, h]
    · simp only [skipComment, if_neg h, List.length_cons]
      omega

/-- The piece at the start of a script, and what follows it. -/
def nextPiece (c : Char) (cs : List Char) : Piece × List Char :=
  if c = '\'' then
    let (body, rest) := spanLiteral cs
    (.literal ('\'' :: body), rest)
  else if c = ';' then (.separator, cs)
  else
    match c, cs with
    | '-', '-' :: ds => let (ended, rest) := skipComment ds; (.comment ended, rest)
    | c, cs => (.char c, cs)

theorem length_nextPiece_le (c : Char) (cs : List Char) :
    (nextPiece c cs).2.length ≤ cs.length := by
  unfold nextPiece
  split
  · exact length_spanLiteral_le cs
  · split
    · exact Nat.le_refl _
    · split
      · next ds _ _ => have := length_skipComment_le ds; simp; omega
      · exact Nat.le_refl _

/-- The pieces of a script. -/
def pieces : List Char → List Piece
  | [] => []
  | c :: cs => (nextPiece c cs).1 :: pieces (nextPiece c cs).2
termination_by cs => cs.length
decreasing_by exact Nat.lt_succ_of_le (length_nextPiece_le c cs)

@[simp] theorem pieces_nil : pieces [] = [] := by rw [pieces]

theorem pieces_cons (c : Char) (cs : List Char) :
    pieces (c :: cs) = (nextPiece c cs).1 :: pieces (nextPiece c cs).2 := by rw [pieces]

/-- The runs of pieces between separators: one more than there are separators. -/
def groups : List Piece → List (List Piece)
  | [] => [[]]
  | .separator :: ps => [] :: groups ps
  | p :: ps =>
    match groups ps with
    | [] => [[p]]
    | g :: gs => (p :: g) :: gs

/-- The text of a statement, without white space at its ends. -/
def statementText (g : List Piece) : List Char := Text.trimChars (g.flatMap Piece.text)

/-- The statements among the pieces: the groups that hold more than white space and comments. -/
def statementsOf (ps : List Piece) : List (List Char) :=
  ((groups ps).filter fun g => g.any Piece.isCode).map statementText

/-- The statements of a script. -/
def splitChars (cs : List Char) : List (List Char) := statementsOf (pieces cs)

/-- The statements of a script. -/
def split (script : String) : List String := (splitChars script.toList).map .ofList

end Colonnade.Sql.Script
