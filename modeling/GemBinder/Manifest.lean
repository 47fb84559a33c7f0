import GemBinder.Record
import GemBinder.RunSettings
import GemBinder.Staging

/-! # Manifests

    A manifest tells how a gem came about: by which generator and command,
    on which machine and when, with which settings, and what is in the gem
    and what was left out. -/

namespace GemBinder

open Files Text

/-- The name of the generator. -/
def generatorName : String := "mrbgem-binding-generator"

/-- The version of the generator. -/
def generatorVersion : String := "0.1.0"

/-- What called the generator: the words of the command and the name of the
    front end, if it is known. -/
structure Invocation where
  arguments : List String := []
  frontend : Option String := none
deriving Repr, DecidableEq, Inhabited

/-- What a manifest is made of. -/
structure Manifest where
  invocation : Invocation
  host : Host
  workDir : Place
  time : String
  settings : RunSettings
  stats : Stats
  classes : List ClassDecl
deriving Repr, DecidableEq

namespace Manifest

/-- The generator as data.  A front end without a name is unknown. -/
def generatorJson (i : Invocation) : Json :=
  let frontend := i.frontend.getD ""
  .object [("name", .text generatorName), ("version", .text generatorVersion),
    ("parser", .text (if frontend.isEmpty then "unknown" else frontend))]

/-- The command as data. -/
def invocationJson (i : Invocation) : Json :=
  .object [("argv", .list (i.arguments.map .text)),
    ("command_line", .text (commandLine i.arguments))]

/-- The machine and the time as data. -/
def environmentJson (m : Manifest) : Json :=
  .object [("python_version", .text m.host.runtime),
    ("python_executable", .text m.host.executable), ("platform", .text m.host.platform),
    ("cwd", .text (Path.ofPlace m.workDir).toString), ("timestamp_utc", .text m.time)]

/-- A manifest as data. -/
def toJson (m : Manifest) : Json :=
  .object [("generator", generatorJson m.invocation),
    ("invocation", invocationJson m.invocation), ("environment", m.environmentJson),
    ("context", m.settings.toJson), ("stats", m.stats.toJson),
    ("class_count", .ofNat m.classes.length), ("classes", .list (m.classes.map ClassDecl.toJson))]

/-- The text of a manifest. -/
def text (m : Manifest) : String := m.toJson.renderIndented ++ "\n"

end Manifest

/-- Writes the manifest of a run below a directory. -/
def Step.writeManifest (i : Invocation) (settings : RunSettings) (classes : List ClassDecl)
    (stats : Stats) (root : Path) : Step Unit := do
  let time ← Step.now
  let w ← get
  let manifest : Manifest := ⟨i, w.host, w.workDir, time, settings, stats, classes⟩
  Step.writeText settings.isDryRun (root.child "manifest.json") manifest.text

end GemBinder
