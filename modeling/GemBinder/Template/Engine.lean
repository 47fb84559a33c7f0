import GemBinder.Failure
import GemBinder.Template.Reader
import GemBinder.Template.Render

/-! # Engines

    What fills in templates comes from outside.  An engine is given the source
    of a template and what names stand for.  On its way it may ask for other
    templates by their names, as a template does that includes them, and it
    ends with a text or an error.  It knows all that it was given and answered
    before, so that a template may change what a later one shows. -/

namespace GemBinder.Template

/-- What is found under the name of a template: its source, if there is one. -/
abbrev Found := Attempt (Option String)

/-- Filling in a template: it ends, or another template is asked for first. -/
inductive Rendering where
  | done (result : Attempt String)
  | ask (name : String) (next : Found → Rendering)

/-- The result, and what was asked for on the way with what was found. -/
def Rendering.run (find : String → Found) : Rendering → Attempt String × List (String × Found)
  | done result => (result, [])
  | ask name next =>
      let (result, asked) := (next (find name)).run find
      (result, (name, find name) :: asked)

/-- A template that has been filled in: its name, its source, and what was
    asked for. -/
structure Filled where
  name : String
  source : String
  asked : List (String × Found)

/-- An engine: what it does with what names stand for, all that it has filled
    in before, and the name and the source of a template. -/
structure Engine where
  start : Env → List Filled → String → String → Rendering

/-- The text of a source that asks for nothing, filled in. -/
def fillIn (env : Env) (source : String) : Attempt String :=
  (read source >>= fun n => n.render env).mapError .template

/-- The engine for templates of outputs, branches and loops, each of which
    stands for itself. -/
def Engine.standard : Engine := ⟨fun env _ _ source => .done (fillIn env source)⟩

instance : Inhabited Engine := ⟨.standard⟩

end GemBinder.Template
