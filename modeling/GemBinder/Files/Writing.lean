import GemBinder.Files.Tree
import GemBinder.Text.CodePoint

/-! # Writing texts

    A text is written to a new file beside the one that it is to replace.
    Only when all of its code points have become bytes does the new file take
    the name, and on every other way out it is removed. -/

namespace GemBinder.Files

open Text

/-- Why a text is not written. -/
inductive WriteError where
  | disk (e : DiskError)
  | text (e : EncodeError)
deriving Repr, DecidableEq

/-- The wording of an error. -/
def WriteError.message : WriteError → String
  | .disk e => e.message
  | .text e => e.message

/-- Operations that write texts and may fail. -/
abbrev Writing := ExceptT WriteError (StateM FileTree)

namespace Writing

/-- An operation on files. -/
def ofDisk {α : Type} (d : Disk α) : Writing α := ExceptT.adapt .disk d

/-- Fills the new file with a text and gives it the name of the old one. -/
def fill (workDir : Place) (place : Place) (shown target : Path) (text : List CodePoint) :
    Writing Unit := do
  match encodePoints (CodePoint.unifyLineEnds text) with
  | .error e => throw (.text e)
  | .ok content =>
      modify (·.put place (.file content))
      ofDisk (Disk.replace workDir place shown target)

/-- Replaces a file by a text in one step; its lines end in line feeds. -/
def replaceText (workDir : Place) (token : String) (p : Path) (text : List CodePoint) :
    Writing Unit := do
  ofDisk (Disk.ensureDirectory workDir p.parent)
  let directory ← ofDisk (Disk.locate workDir p.parent)
  let scratch := Disk.freshName (← get) directory s!".{p.name}.{token}"
  let place := directory ++ [scratch]
  modify (·.put place (.file []))
  let shown := Path.ofPlace ((p.parent.resolve workDir) ++ [scratch])
  try fill workDir place shown p text
  catch e =>
    modify (·.prune place)
    throw e

end Writing
end GemBinder.Files
