import GemBinder.Files.Path
import GemBinder.Text.Encoding

/-! # File trees

    A file tree maps places to files and directories.  A place is the list
    of names from the root; the root itself is a directory.  Operations that
    change a tree run in `Disk`, in which a change stays made when a later
    operation fails. -/

namespace GemBinder.Files

open Text

/-- The names from the root to a file or directory. -/
abbrev Place := List String

/-- What stands at a place. -/
inductive Entry where
  | file (content : Bytes)
  | directory
deriving Repr, DecidableEq, Inhabited

/-- A tree of files and directories. -/
structure FileTree where
  entries : List (Place × Entry) := []
deriving Repr, DecidableEq, Inhabited

/-! ## Errors -/

/-- Why an operation on files fails. -/
inductive DiskFault where
  | notFound
  | busy
  | exists
  | notDirectory
  | isDirectory
deriving Repr, DecidableEq, Inhabited

/-- The number of a fault. -/
def DiskFault.number : DiskFault → Nat
  | .notFound => 2
  | .busy => 16
  | .exists => 17
  | .notDirectory => 20
  | .isDirectory => 21

/-- The wording of a fault. -/
def DiskFault.text : DiskFault → String
  | .notFound => "No such file or directory"
  | .busy => "Device or resource busy"
  | .exists => "File exists"
  | .notDirectory => "Not a directory"
  | .isDirectory => "Is a directory"

/-- A fault with the path it concerns, and the second path of a move. -/
structure DiskError where
  fault : DiskFault
  path : Path
  target : Option Path := none
deriving Repr, DecidableEq, Inhabited

/-- The wording of an error. -/
def DiskError.message (e : DiskError) : String :=
  let target := match e.target with
    | some t => s!" -> {quoted t.toString}"
    | none => ""
  s!"[Errno {e.fault.number}] {e.fault.text}: {quoted e.path.toString}{target}"

/-! ## Looking -/

namespace FileTree

/-- What stands at a place. -/
def at? (t : FileTree) : Place → Option Entry
  | [] => some .directory
  | place => t.entries.lookup place

/-- The place with `..` and the working directory taken into account, if
    every step but the last goes through directories. -/
def walk (t : FileTree) (place : Place) : List String → Except DiskFault Place
  | [] => .ok place
  | s :: more =>
      match t.at? place with
      | none => .error .notFound
      | some (.file _) => .error .notDirectory
      | some .directory => walk t (if s == ".." then place.dropLast else place ++ [s]) more

/-- The place that a path names from a working directory. -/
def locate (t : FileTree) (workDir : Place) (p : Path) : Except DiskFault Place :=
  t.walk (if p.isAbsolute then [] else workDir) p.parts

/-- What a path names. -/
def find? (t : FileTree) (workDir : Place) (p : Path) : Except DiskFault Entry := do
  match t.at? (← t.locate workDir p) with
  | some e => return e
  | none => throw .notFound

/-- Whether a path names anything. -/
def hasEntry (t : FileTree) (workDir : Place) (p : Path) : Bool := (t.find? workDir p).isOk

/-- Whether a path names a directory. -/
def isDirectory (t : FileTree) (workDir : Place) (p : Path) : Bool :=
  match t.find? workDir p with
  | .ok .directory => true
  | _ => false

/-- Whether a path names a file. -/
def isFile (t : FileTree) (workDir : Place) (p : Path) : Bool :=
  match t.find? workDir p with
  | .ok (.file _) => true
  | _ => false

/-- The content of the file that a path names. -/
def read (t : FileTree) (workDir : Place) (p : Path) : Except DiskError Bytes :=
  match t.find? workDir p with
  | .ok (.file content) => .ok content
  | .ok .directory => .error ⟨.isDirectory, p, none⟩
  | .error fault => .error ⟨fault, p, none⟩

/-- The steps to everything below a place, with what stands there. -/
def below (t : FileTree) (place : Place) : List (List String × Entry) :=
  t.entries.filterMap fun (q, e) =>
    if place.isPrefixOf q && place.length < q.length then some (q.drop place.length, e) else none

/-- The paths of everything below a directory. -/
def descendants (t : FileTree) (workDir : Place) (p : Path) : List (Path × Entry) :=
  match t.locate workDir p with
  | .ok place => (t.below place).map fun (steps, e) => ({ p with parts := p.parts ++ steps }, e)
  | .error _ => []

/-! ## Changing -/

/-- The tree with an entry at a place, in the position of an earlier one. -/
def put (t : FileTree) (place : Place) (e : Entry) : FileTree :=
  if (t.entries.lookup place).isSome then
    ⟨t.entries.map fun (q, f) => if q == place then (q, e) else (q, f)⟩
  else ⟨t.entries ++ [(place, e)]⟩

/-- The tree without a place and all that is below it. -/
def prune (t : FileTree) (place : Place) : FileTree :=
  ⟨t.entries.filter fun (q, _) => !place.isPrefixOf q⟩

/-- The directories above a place, the root aside. -/
def ancestors : Place → List Place
  | [] => []
  | s :: more => [] :: (ancestors more).map (s :: ·)

/-- The tree with an entry at a place and directories on the way to it. -/
def plant (t : FileTree) (place : Place) (e : Entry) : FileTree :=
  let above := (ancestors place).filter (!·.isEmpty)
  (above.foldl (fun t q => if (t.at? q).isSome then t else t.put q .directory) t).put place e

end FileTree

/-! ## Operations -/

/-- Operations that change a file tree and may fail. -/
abbrev Disk := ExceptT DiskError (StateM FileTree)

namespace Disk

/-- The place of a path, or the error that it is not there. -/
def locate (workDir : Place) (p : Path) : Disk Place := do
  match (← get).locate workDir p with
  | .ok place => return place
  | .error fault => throw ⟨fault, p, none⟩

/-- Makes one directory. -/
def makeDirectory (workDir : Place) (p : Path) : Disk Unit := do
  let place ← locate workDir p
  match (← get).at? place with
  | some _ => throw ⟨.exists, p, none⟩
  | none => modify (·.put place .directory)

/-- Makes a directory where none is.  That a directory is already there is
    no error. -/
def allowDirectory (workDir : Place) (p : Path) : Disk Unit := do
  try makeDirectory workDir p
  catch e =>
    if (← get).isDirectory workDir p then pure () else throw e

/-- Makes a directory and those on the way to it, if they are missing.  The
    way is searched from its end for a step that is there. -/
def ensureFrom (workDir : Place) (root : String) : List String → Disk Unit
  | [] => allowDirectory workDir ⟨root, []⟩
  | last :: before => do
      let p : Path := ⟨root, (last :: before).reverse⟩
      try makeDirectory workDir p
      catch e =>
        if e.fault == .notFound then
          ensureFrom workDir root before
          allowDirectory workDir p
        else if (← get).isDirectory workDir p then pure ()
        else throw e

/-- Makes a directory and those on the way to it, if they are missing. -/
def ensureDirectory (workDir : Place) (p : Path) : Disk Unit :=
  ensureFrom workDir p.root p.parts.reverse

/-- The first of the names, each a character longer, that is free in a
    directory. -/
def freeName (t : FileTree) (directory : Place) : Nat → String → String
  | 0, name => name
  | fuel + 1, name =>
      if (t.at? (directory ++ [name])).isSome then freeName t directory fuel (name ++ "_")
      else name

/-- A name that is free in a directory. -/
def freshName (t : FileTree) (directory : Place) (name : String) : String :=
  freeName t directory (t.entries.length + 1) name

/-- Moves a file to a path, in place of a file that is there; the two paths
    are those that errors show. -/
def replace (workDir : Place) (source : Place) (shown target : Path) : Disk Unit := do
  let t ← get
  match t.locate workDir target with
  | .error fault => throw ⟨fault, shown, some target⟩
  | .ok place =>
      if target.parts.isEmpty || target.name == ".." then throw ⟨.busy, shown, some target⟩
      match t.at? place with
      | some .directory => throw ⟨.isDirectory, shown, some target⟩
      | _ =>
          match t.at? source with
          | some e => set ((t.prune source).put place e)
          | none => throw ⟨.notFound, shown, some target⟩

/-- Writes a file in one step: the content goes to a new file beside it,
    which then takes its name.  If that fails the new file is removed. -/
def writeAtomically (workDir : Place) (token : String) (p : Path) (content : Bytes) :
    Disk Unit := do
  ensureDirectory workDir p.parent
  let directory ← locate workDir p.parent
  let scratch := freshName (← get) directory s!".{p.name}.{token}"
  let place := directory ++ [scratch]
  modify (·.put place (.file content))
  let shown := Path.ofPlace ((p.parent.resolve workDir) ++ [scratch])
  try replace workDir place shown p
  catch e =>
    modify (·.prune place)
    throw e

end Disk
end GemBinder.Files
