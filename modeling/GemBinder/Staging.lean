import GemBinder.Text.Lines
import GemBinder.World

/-! # Staged output

    Files are written one by one into a scratch directory beside the target
    and are moved into the target when all of them are there.  A run that
    stops before leaves the target as it was.  Files of the target that a
    run does not write are kept. -/

namespace GemBinder

open Files Text

namespace Step

/-- A step whose errors of files are told by a report. -/
def reporting {α : Type} (report : DiskError → Report) (t : Step α) : Step α := do
  try t
  catch
    | .disk e => Step.report (report e)
    | f => throw f

/-- Makes a directory and those on the way to it, if they are missing. -/
def ensureDirectory (p : Path) : Step Unit := disk fun workDir => Disk.ensureDirectory workDir p

/-- A report of output about a path. -/
def outputReport (message : String) (p : Path) : Report :=
  .about .generation message [("path", p.toString)]

/-- Replaces a file in one step; the lines of the text end in line feeds. -/
def replaceText (p : Path) (text : String) : Step Unit := do
  let token := (← get).token
  disk fun workDir => Disk.writeAtomically workDir token p (encode (unifyLineEndsOf text))

/-- Writes a text to a file, or only tells so in a dry run. -/
def writeText (dryRun : Bool) (p : Path) (text : String) : Step Unit := do
  if dryRun then info s!"[dry-run] write {p}"
  else
    reporting (fun e => outputReport s!"Failed to write {p}: {e.message}" p) (replaceText p text)
    debug s!"[stage] {p}"

/-! ## The scratch directory -/

/-- Makes the scratch directory of a target. -/
def makeStaging (target : Path) : Step Path := do
  let token := (← get).token
  disk fun workDir => do
    Disk.ensureDirectory workDir target.parent
    let directory ← Disk.locate workDir target.parent
    let name := Disk.freshName (← get) directory s!".{target.name}.staging-{token}"
    let staging := { target.parent with parts := target.parent.parts ++ [name] }
    Disk.makeDirectory workDir staging
    return staging

/-- Makes the scratch directory of a target or reports why it cannot be. -/
def openStaging (target : Path) : Step Path :=
  reporting
    (fun e => outputReport s!"Cannot create staging directory next to {target}: {e.message}" target)
    (makeStaging target)

/-- Removes a scratch directory. -/
def dropStaging (staging : Path) : Step Unit :=
  modify fun w =>
    match w.tree.locate w.workDir staging with
    | .ok place => { w with tree := w.tree.prune place }
    | .error _ => w

/-- The steps from a directory to the files below it, in order. -/
def filesBelow (t : FileTree) (workDir : Place) (p : Path) : List (List String) :=
  let files := (t.descendants workDir p).filterMap fun
    | (q, .file _) => some (q.parts.drop p.parts.length)
    | (_, .directory) => none
  files.mergeSort namesLe

/-- Whether two paths name files of one content. -/
def sameContent (t : FileTree) (workDir : Place) (p q : Path) : Bool :=
  match t.read workDir p, t.read workDir q with
  | .ok a, .ok b => a == b
  | _, _ => false

/-- Moves a file into the target, unless the target has it already. -/
def commitFile (staging target : Path) (steps : List String) : Step Unit := do
  let source := { staging with parts := staging.parts ++ steps }
  let final := { target with parts := target.parts ++ steps }
  if ← look fun t workDir => sameContent t workDir source final then
    debug s!"[skip] {final} (unchanged)"
  else
    ensureDirectory final.parent
    disk fun workDir => do
      Disk.replace workDir (← Disk.locate workDir source) source final
    info s!"[write] {final}"

/-- Moves the files of a scratch directory into the target. -/
def commit (staging target : Path) : Step Unit := do
  let files ← look fun t workDir => filesBelow t workDir staging
  for steps in files do commitFile staging target steps

/-- Runs a step on the scratch directory of a target and moves what it has
    written into the target.  The scratch directory is removed on every way
    out.  In a dry run the step works on the target itself and is trusted to
    write nothing. -/
def staged {α : Type} (dryRun : Bool) (target : Path) (body : Path → Step α) : Step α := do
  if dryRun then body target
  else
    let staging ← openStaging target
    ensuring (dropStaging staging) do
      let result ← body staging
      reporting
        (fun e =>
          outputReport s!"Failed to move generated files into {target}: {e.message}" target)
        (commit staging target)
      return result

end Step
end GemBinder
