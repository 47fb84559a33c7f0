import GemBinder.Calendar
import GemBinder.CommandLine.Run
import Std.Time.DateTime.Timestamp

/-! # The command

    Takes the files that a command names into a world, runs the command on
    it, and writes what the run has changed. -/

namespace GemBinder.CommandLine

open Files Text

/-! ## From the disk -/

/-- Everything at a path from the root and below it. -/
partial def loadBelow (place : Place) : IO (List (Place × Entry)) := do
  let p := (← IO.currentDir) / (Path.ofPlace place).toString
  if ← p.isDir then
    let below ← (← p.readDir).toList.mapM fun e => loadBelow (place ++ [e.fileName])
    return (place, .directory) :: below.flatten
  else if ← p.pathExists then
    return [(place, .file (← IO.FS.readBinFile p).toList)]
  else return []

/-- The directories and files on the way to a place. -/
def loadAbove (place : Place) : IO (List (Place × Entry)) := do
  let above := (FileTree.ancestors place).filter (!·.isEmpty)
  let found ← above.mapM fun q => do
    let p := (← IO.currentDir) / (Path.ofPlace q).toString
    if ← p.isDir then return [(q, Entry.directory)]
    else if ← p.pathExists then return [(q, Entry.file [])]
    else return []
  return found.flatten

/-- The paths that options name. -/
def Options.paths (o : Options) : List Path :=
  let library := o.root.toList.flatMap fun r =>
    Header.directoriesOf r Header.searchDirectories
  let files := [o.outputDir] ++ o.headers ++ o.overrides ++ o.templatesDir.toList ++
    o.typeRules.toList ++ o.logFile.toList
  library ++ files.map Path.ofString

/-- The tree of the files that options name. -/
def loadTree (o : Options) (workDir : Place) : IO FileTree := do
  let places := workDir :: o.paths.map (·.resolve workDir)
  let found ← places.mapM fun place => do
    let below ← if place == workDir then pure [] else loadBelow place
    return (← loadAbove (place ++ [""])) ++ below
  return found.flatten.foldl (fun t (place, e) => t.put place e) {}

/-! ## To the disk -/

/-- Writes what stands in a tree and did not stand in an earlier one. -/
def storeTree (before after : FileTree) : IO Unit := do
  let entries := after.entries.filter fun (place, e) => before.at? place != some e
  for (place, e) in entries do
    if e == .directory then IO.FS.createDirAll (Path.ofPlace place).toString
  for (place, e) in entries do
    match e with
    | .file content =>
        IO.FS.writeBinFile (Path.ofPlace place).toString content.toByteArray
    | .directory => pure ()

/-! ## The run -/

/-- The time of day. -/
def currentTime : IO String := do
  let micros := (← Std.Time.Timestamp.now).toNanosecondsSinceUnixEpoch.val.toNat / 1000
  return timestamp (micros / 1000000) (micros % 1000000)

/-- The world that options are about. -/
def loadWorld (o : Options) : IO World := do
  let workDir := (Path.ofString (← IO.currentDir).toString).parts
  let time ← currentTime
  return {
    tree := ← loadTree o workDir
    workDir := workDir
    token := toString (← IO.monoNanosNow)
    host := { executable := (← IO.appPath).toString }
    clock := fun _ => time }

/-- How the command is called. -/
def usage : String := s!"usage: {programName} (--root DIR | --headers PATH) [option ...]"

/-- Tells why there is nothing to run. -/
def tellStop : Stop → IO Unit
  | .help => IO.println (usage ++ "\n\noptions:\n" ++
      joinStrings "\n" (OptionKey.all.map fun k => "  " ++ k.shown))
  | .usage e => IO.eprintln (usage ++ "\n" ++ programName ++ ": error: " ++ e.message)

/-- Runs a command on the disk. -/
def runOnDisk (arguments : List String) : IO Nat := do
  match readArguments arguments with
  | .error s =>
      tellStop s
      return (Exit.stopped s).number
  | .ok o =>
      let before ← loadWorld o
      let (result, after) := (run .absent arguments).run.run before
      storeTree before.tree after.tree
      IO.eprint after.console
      match result with
      | .ok exit => return exit.number
      | .error f =>
          IO.eprintln (programName ++ ": " ++ f.message)
          return 1

end GemBinder.CommandLine

/-- Runs the command of the process. -/
def main (arguments : List String) : IO UInt32 := do
  return (← GemBinder.CommandLine.runOnDisk arguments).toUInt32
