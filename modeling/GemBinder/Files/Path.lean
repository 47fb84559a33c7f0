import GemBinder.Text.Words

/-! # Paths

    A path is a root, which is empty for a relative path, and the names of
    the steps from there.  Empty names and single points are no steps. -/

namespace GemBinder.Files

open Text

/-- A path. -/
structure Path where
  root : String := ""
  parts : List String := []
deriving Repr, DecidableEq, Inhabited

namespace Path

/-- Whether a name is a step of a path. -/
def isStep (name : String) : Bool := name != "" && name != "."

/-- The root of a written path: two slashes at its head are a root of their
    own, and any other number of them is one. -/
def rootOf (s : List Char) : String :=
  match (s.takeWhile (· == '/')).length with
  | 0 => ""
  | 2 => "//"
  | _ => "/"

/-- Reads a path. -/
def ofString (s : String) : Path where
  root := rootOf s.toList
  parts := ((splitAtChar '/' s.toList).map String.ofList).filter isStep

/-- Whether a path begins at a root. -/
def isAbsolute (p : Path) : Bool := p.root != ""

/-- A path as it is written. -/
def toString (p : Path) : String :=
  if p.root == "" && p.parts.isEmpty then "." else p.root ++ joinStrings "/" p.parts

instance : ToString Path := ⟨Path.toString⟩

/-- A path behind another; one with a root stands for itself. -/
def join (p q : Path) : Path :=
  if q.isAbsolute then q else { p with parts := p.parts ++ q.parts }

instance : Append Path := ⟨Path.join⟩

/-- The path with one more step, which may be written as several. -/
def child (p : Path) (s : String) : Path := p.join (ofString s)

/-- The path without its last step. -/
def parent (p : Path) : Path := { p with parts := p.parts.dropLast }

/-- The last step, or nothing. -/
def name (p : Path) : String := p.parts.getLast?.getD ""

/-- Takes the steps of a path from a place, where two points go back. -/
def normalizeFrom (place : List String) : List String → List String
  | [] => place
  | s :: more =>
      if s == ".." then normalizeFrom place.dropLast more else normalizeFrom (place ++ [s]) more

/-- The place that a path names from a working directory, if nothing of it
    has to exist. -/
def resolve (p : Path) (workDir : List String) : List String :=
  normalizeFrom (if p.isAbsolute then [] else workDir) p.parts

/-- The path from the root to a place. -/
def ofPlace (place : List String) : Path := ⟨"/", place⟩

/-- The path that `resolve` gives. -/
def resolved (p : Path) (workDir : List String) : Path := ofPlace (p.resolve workDir)

end Path

/-! ## Order -/

/-- Whether names come in order, compared one by one; a list comes before
    its continuations. -/
def namesLe : List String → List String → Bool
  | [], _ => true
  | _ :: _, [] => false
  | a :: p, b :: q => a < b || (a == b && namesLe p q)

/-- The root of a path, if it has one, and its steps. -/
def Path.names (p : Path) : List String := if p.isAbsolute then p.root :: p.parts else p.parts

/-- Paths in the order of their names; a root is a name among the others. -/
def Path.le (p q : Path) : Bool := namesLe p.names q.names

end GemBinder.Files
