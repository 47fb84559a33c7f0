import GemBinder.Journal

/-! # The world of a run

    A step of the generator reads and changes a file tree, and tells about
    it.  `Step` is such a step: it may fail, and what it has changed and told
    until then stays. -/

namespace GemBinder

open Files Text

/-- What a run knows about the machine it runs on. -/
structure Host where
  runtime : String := ""
  executable : String := ""
  platform : String := ""
deriving Repr, DecidableEq, Inhabited

/-- How deep readers can go before the stack of the machine is used up: into
    the values of a JSON text, and into the groups of a pattern. -/
structure Depths where
  values : Nat := 989
  groups : Nat := 490
deriving Repr, DecidableEq, Inhabited

/-- The state that steps work on: the files, the working directory, a text
    that makes new names unlikely to clash, the machine with its stack and a
    clock whose ticks are counted, and what was told to whom. -/
structure World where
  tree : FileTree := {}
  workDir : Place := []
  token : String := "tmp"
  host : Host := {}
  depths : Depths := {}
  clock : Nat → String := fun _ => ""
  ticks : Nat := 0
  log : LogSetup := {}
  journal : List LogEntry := []
  console : String := ""

instance : Inhabited World := ⟨{}⟩

/-- A step of the generator. -/
abbrev Step := ExceptT Failure (StateM World)

namespace World

/-- Adds a line at the end of a file, if it is one. -/
def appendTo (w : World) (place : Place) (line : String) : World :=
  match w.tree.at? place with
  | some (.file content) => { w with tree := w.tree.put place (.file (content ++ encode line)) }
  | _ => w

/-- Shows an entry by a handler. -/
def handle (e : LogEntry) (w : World) (h : Handler) : World :=
  if e.level < h.level then w
  else
    match e.line h.format with
    | none => w
    | some line =>
        match h.sink with
        | .console => { w with console := w.console ++ line }
        | .file place => w.appendTo place line

/-- Tells an entry: it is noted and goes to the handlers, if its level
    suffices. -/
def tell (w : World) (e : LogEntry) : World :=
  if e.level < w.log.threshold e then w
  else w.log.handlers.foldl (handle e) { w with journal := w.journal ++ [e] }

/-- The path from the root that a path names. -/
def resolved (w : World) (p : Path) : Path := p.resolved w.workDir

end World

namespace Step

/-- Tells a message at a level. -/
def tell (level : Level) (message : String) : Step Unit :=
  modify (·.tell { level := level, message := message })

/-- Tells a detail. -/
def debug (message : String) : Step Unit := tell Level.debug message

/-- Tells what is done. -/
def info (message : String) : Step Unit := tell Level.info message

/-- Tells what may be wrong. -/
def warning (message : String) : Step Unit := tell Level.warning message

/-- Tells what is wrong. -/
def error (message : String) : Step Unit := tell Level.error message

/-- Tells what is wrong, with the failure. -/
def failed (message : String) (f : Failure) : Step Unit :=
  modify (·.tell { level := Level.error, message := message, failure := some f })

/-- A step that can only fail. -/
def ofAttempt {α : Type} : Attempt α → Step α
  | .ok a => pure a
  | .error f => throw f

/-- Stops with a report. -/
def report {α : Type} (r : Report) : Step α := throw (.report r)

/-- An operation on the files, with its error in hand. -/
def tryDisk {α : Type} (d : Place → Disk α) : Step (Except DiskError α) := do
  let w ← get
  let (result, tree) := (d w.workDir).run w.tree
  set { w with tree := tree }
  return result

/-- An operation on the files. -/
def disk {α : Type} (d : Place → Disk α) : Step α := do
  match ← tryDisk d with
  | .ok a => return a
  | .error e => throw (.disk e)

/-- What the files tell. -/
def look {α : Type} (f : FileTree → Place → α) : Step α := do
  let w ← get
  return f w.tree w.workDir

/-- The time of day; each look at the clock is a tick later. -/
def now : Step String := do
  let w ← get
  set { w with ticks := w.ticks + 1 }
  return w.clock w.ticks

/-- A step after which a last one is run, on every way out of it. -/
def ensuring {α : Type} (last : Step Unit) (t : Step α) : Step α := do
  let result ← try Except.ok <$> t catch f => pure (Except.error f)
  last
  match result with
  | .ok a => return a
  | .error f => throw f

end Step
end GemBinder
