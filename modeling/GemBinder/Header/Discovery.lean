import GemBinder.World

/-! # Headers in a file tree

    Headers are looked for below the search directories of a library, or are
    named one by one.  What is found comes in the order of paths. -/

namespace GemBinder.Header

open Files

/-- The directories of a library in which headers are looked for. -/
def searchDirectories : List String := ["src", "include"]

/-- The ends of the names of headers. -/
def suffixes : List String := [".h", ".hpp", ".hh", ".hxx"]

/-- Whether a name ends in a suffix. -/
def hasSuffix (suffix name : String) : Bool := suffix.toList.isSuffixOf name.toList

/-- Whether an entry is a file. -/
def isFileEntry : Entry → Bool
  | .file _ => true
  | .directory => false

/-- The headers below a directory. -/
def headersBelow (t : FileTree) (workDir : Place) (p : Path) : List Path :=
  ((t.descendants workDir p).filter fun (q, e) => hasSuffix ".h" q.name && isFileEntry e).map
    (·.1)

/-- The paths of search directories. -/
def directoriesOf (root : String) (names : List String) : List Path :=
  names.map (Path.ofString root).child

/-- The headers below the search directories of a library. -/
def listHeaders (t : FileTree) (workDir : Place) (root : String)
    (names : List String := searchDirectories) : List Path :=
  let found := ((directoriesOf root names).filter (t.isDirectory workDir)).flatMap
    (headersBelow t workDir)
  found.mergeSort Path.le

/-- The search directories of a library that exist. -/
def includePaths (t : FileTree) (workDir : Place) (root : String)
    (names : List String := searchDirectories) : List Path :=
  (directoriesOf root names).filter (t.isDirectory workDir)

/-- Lists headers and tells which search directories are missing. -/
def discoverHeaders (root : String) (names : List String := searchDirectories) :
    Step (List Path) := do
  let w ← get
  for p in directoriesOf root names do
    unless w.tree.isDirectory w.workDir p do
      Step.debug s!"Search directory {p} does not exist; skipping"
  return listHeaders w.tree w.workDir root names

/-- What a path stands for: everything below a directory whose name has one
    of the suffixes, or a file. -/
def expandPath (t : FileTree) (workDir : Place) (p : Path) : Attempt (List Path) :=
  match t.find? workDir p with
  | .ok .directory =>
      .ok (suffixes.flatMap fun s =>
        ((t.descendants workDir p).filter fun (q, _) => hasSuffix s q.name).map (·.1))
  | .ok (.file _) => .ok [p]
  | .error _ => .error (.report (.headerNotFound p.toString))

/-- The list without repetitions, each element in its first position. -/
def distinct {α : Type} [BEq α] (xs : List α) : List α :=
  xs.foldl (fun found x => if found.contains x then found else found ++ [x]) []

/-- The headers that paths stand for, from the root on, each once. -/
def expandPaths (t : FileTree) (workDir : Place) (paths : List Path) : Attempt (List Path) := do
  let found ← paths.mapM (expandPath t workDir)
  return (distinct (found.flatten.map (·.resolved workDir))).mergeSort Path.le

/-- The text of a header; bytes that encode nothing are replaced. -/
def readHeader (t : FileTree) (workDir : Place) (p : Path) : Attempt String :=
  if t.hasEntry workDir p then
    match t.read workDir p with
    | .ok bytes => .ok (Text.unifyLineEndsOf (Text.decodeLossy bytes))
    | .error e => .error (.disk e)
  else .error (.report (.headerNotFound p.toString))

end GemBinder.Header
