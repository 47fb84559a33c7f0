import GemBinder.Text.Words

/-! # Lines and their margin

    Line ends are unified to the newline, and the margin that all lines of a
    snippet share is cut away. -/

namespace GemBinder.Text

/-! ## Line ends -/

/-- The text with a carriage return, alone or before a newline, turned into a
    newline. -/
def unifyLineEnds : List Char → List Char
  | [] => []
  | '\r' :: '\n' :: rest => '\n' :: unifyLineEnds rest
  | c :: rest => (if c == '\r' then '\n' else c) :: unifyLineEnds rest

/-- The string with unified line ends. -/
def unifyLineEndsOf (s : String) : String :=
  String.ofList (unifyLineEnds s.toList)

/-! ## Places -/

/-- The line and column, both counted from one, of a position. -/
def lineAndColumn (s : List Char) (position : Nat) : Nat × Nat :=
  let before := s.take position
  let sinceNewline := (before.reverse.takeWhile (· != '\n')).length
  (before.count '\n' + 1, sinceNewline + 1)

/-! ## The margin -/

/-- Characters of a margin. -/
def isMargin (c : Char) : Bool := c == ' ' || c == '\t'

/-- The longest common prefix of two texts. -/
def commonPrefix : List Char → List Char → List Char
  | a :: s, b :: t => if a == b then a :: commonPrefix s t else []
  | _, _ => []

/-- The margin of the lines: the longest prefix that the indents of all
    lines with other characters share. -/
def margin (lines : List (List Char)) : List Char :=
  match (lines.filter fun l => !l.all isMargin).map (·.takeWhile isMargin) with
  | [] => []
  | first :: more => more.foldl commonPrefix first

/-- The line without a prefix, if it has it. -/
def dropPrefix (p line : List Char) : List Char :=
  if p.isPrefixOf line then line.drop p.length else line

/-- The text without the margin of its lines; lines of margin characters
    alone become empty. -/
def dedent (s : List Char) : List Char :=
  let lines := (splitAtChar '\n' s).map fun l => if l.all isMargin then [] else l
  joinWith ['\n'] (lines.map (dropPrefix (margin lines)))

/-- A snippet as it is written out: without its margin, without empty lines
    around it, and ended by one newline. -/
def snippet (s : String) : String :=
  String.ofList (trimWhere (· == '\n') (dedent s.toList) ++ ['\n'])

end GemBinder.Text
