import GemBinder.JsonFile
import GemBinder.Template.Bundled
import GemBinder.Template.Engine

/-! # The library of templates

    Templates are looked up by name, first in the directory of the user, if
    there is one, and then among the bundled ones, so that a file of the user
    stands for the bundled template of its name. -/

namespace GemBinder.Template

open Files Text

/-- Where templates are looked up besides the bundled ones, and what fills
    them in. -/
structure Library where
  userDirectory : Option Path := none
  engine : Engine := .standard
deriving Inhabited

/-- The library of a directory.  If that is no directory, the user is warned
    and only the bundled templates are left. -/
def Library.ofDirectory (directory : Option Path) : Step Library := do
  match directory with
  | none => return {}
  | some p =>
      if ← Step.look fun t workDir => t.isDirectory workDir p then
        return { userDirectory := some p }
      Step.warning s!"Ignoring templates directory {p}: not a directory"
      return {}

/-- The steps from a directory of templates that a name writes.  A name that
    steps back out of a directory names no template. -/
def nameSteps? (name : String) : Option (List String) :=
  let steps := (splitAtChar '/' name.toList).map String.ofList
  if steps.contains ".." then none else some (steps.filter Path.isStep)

/-- The source of the template that some steps lead to. -/
def Library.source? (l : Library) (t : FileTree) (workDir : Place) (steps : List String) :
    Attempt (Option String) :=
  let ofUser := l.userDirectory.map fun p => { p with parts := p.parts ++ steps }
  match ofUser.filter (t.isFile workDir) with
  | some p => some <$> fileText t workDir p
  | none => .ok (Bundled.all.lookup (joinStrings "/" steps))

/-- What is found under a name. -/
def Library.find (l : Library) (t : FileTree) (workDir : Place) (name : String) : Found :=
  match nameSteps? name with
  | some steps => l.source? t workDir steps
  | none => .ok none

/-- The text of the template of a name, filled in behind others, and what the
    engine has to remember of it. -/
def Library.fill (l : Library) (t : FileTree) (workDir : Place) (env : Env) (past : List Filled)
    (name : String) : Attempt (String × Filled) := do
  match ← l.find t workDir name with
  | none => throw (.report (.about .generation s!"No template named {name}" [("template", name)]))
  | some source =>
      let (result, asked) := (l.engine.start env past name source).run (l.find t workDir)
      return (← result, ⟨name, source, asked⟩)

/-- Fills in the template of a name. -/
def Library.render (l : Library) (env : Env) (past : List Filled) (name : String) :
    Step (String × Filled) := do
  Step.ofAttempt (← Step.look fun t workDir => l.fill t workDir env past name)

end GemBinder.Template
