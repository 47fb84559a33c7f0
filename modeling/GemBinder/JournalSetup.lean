import GemBinder.World

/-! # Setting up the journal

    Entries are shown on the console and, if asked for, in a file as well.
    A new setup replaces the handlers of the one before. -/

namespace GemBinder

open Files

/-- How entries are to be shown: from which level on, by which format, and
    in which file besides the console.  An empty format or file is none. -/
structure JournalOptions where
  level : Level := Level.info
  format : String := ""
  file : String := ""
deriving Repr, DecidableEq, Inhabited

/-- Makes a file empty, in the directory it belongs to. -/
def Disk.makeEmpty (place : Place) : Disk Unit := do
  let t ← get
  let p := Path.ofPlace place
  match t.locate [] p with
  | .error fault => throw ⟨fault, p, none⟩
  | .ok place =>
      if t.at? place == some .directory then throw ⟨.isDirectory, p, none⟩
      set (t.put place (.file []))

/-- The handlers that options ask for.  A file is made empty. -/
def Step.openHandlers (o : JournalOptions) (format : String) : Step (List Handler) := do
  let console : Handler := ⟨.console, o.level, format⟩
  if o.file.isEmpty then return [console]
  let place ← Step.look fun _ workDir => (Path.ofString o.file).resolve workDir
  Step.disk fun _ => Disk.makeEmpty place
  return [console, ⟨.file place, o.level, format⟩]

/-- Sets up the journal.  A format without a field is refused when the
    handlers of before are gone. -/
def Step.configureJournal (o : JournalOptions) : Step Unit := do
  let format := if o.format.isEmpty then defaultLogFormat else o.format
  let handlers ← Step.openHandlers o format
  modify fun w => { w with log := { w.log with handlers := [] } }
  unless hasField format.toList do throw (.logFormat format)
  modify fun w => { w with log := ⟨o.level, o.level, handlers⟩ }

end GemBinder
