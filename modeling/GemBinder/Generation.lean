import GemBinder.GemView
import GemBinder.Manifest
import GemBinder.Source
import GemBinder.Template.Library

/-! # Generation of a gem

    The methods of the classes are selected, then all files of the gem are
    written through a scratch directory: the two sources, the files from
    templates, and the manifest. -/

namespace GemBinder

open Files Template

/-- The names of the templates of a gem. -/
structure TemplateNames where
  rake : String := "mrbgem.rake.j2"
  cmake : String := "CMakeLists.txt.j2"
  readme : String := "README.md.j2"
  mrblib : String := "mrblib.rb.j2"
deriving Repr, DecidableEq, Inhabited

/-- Makes gems: settings, the templates, what the sources are made with, and
    what called the generator. -/
structure GemWriter where
  settings : RunSettings
  library : Library
  registry : Registry := {}
  rules : TypeRules := .default
  templates : TemplateNames := {}
  invocation : Invocation := {}
deriving Inhabited

/-! ## Sources -/

namespace Step

/-- The C source; shadowed methods are told. -/
def cSource (g : Generator) (classes : List ClassDecl) : Step String := do
  for r in (g.plan classes).shadowed do warning (Generator.shadowNotice r)
  ofAttempt (g.cSource classes)

/-- The native source; functions that would be defined again are told. -/
def nativeSource (g : Generator) (classes : List ClassDecl) : Step String := do
  for notice in g.duplicateNotices [] (membersOf classes) do debug notice
  ofAttempt (g.nativeSource classes)

end Step

namespace GemWriter

/-- The enumerations that no class declares. -/
def topLevelEnums (classes : List ClassDecl) (enums : List EnumDecl) : List EnumDecl :=
  let nested := classes.flatMap (·.enums)
  enums.filter (!nested.contains ·)

/-- What makes the sources. -/
def generator (g : GemWriter) : Generator := ⟨g.settings.config, g.registry, g.rules⟩

/-- The same with another output directory. -/
def under (g : GemWriter) (p : Path) : GemWriter := { g with settings := g.settings.under p }

/-- Writes a file of the gem. -/
def write (g : GemWriter) (p : Path) (text : String) : Step Unit :=
  Step.writeText g.settings.isDryRun p text

/-- Makes the directories of the gem. -/
def makeDirectories (g : GemWriter) : Step Unit := do
  unless g.settings.isDryRun do
    for p in g.settings.directories do Step.ensureDirectory p

/-- Writes the two sources.  The result is the statistics with the shadowed
    methods. -/
def writeSources (g : GemWriter) (classes : List ClassDecl) (stats : Stats) : Step Stats := do
  let s := g.settings
  g.write (s.bindingsDir.child s.config.bindingsFile) (← Step.cSource g.generator classes)
  g.write (s.nativeDir.child s.config.wrapperFile) (← Step.nativeSource g.generator classes)
  return { stats with shadowed := (g.generator.plan classes).shadowedLabels }

/-- The files from templates: the name of the template and the path. -/
def templateFiles (g : GemWriter) : List (String × Path) :=
  let s := g.settings
  [(g.templates.rake, s.outputDir.child "mrbgem.rake"),
   (g.templates.cmake, s.outputDir.child "CMakeLists.txt"),
   (g.templates.readme, s.outputDir.child "README.md"),
   (g.templates.mrblib, s.mrblibDir.child s.config.mrblibFile)]

/-- Writes files from templates one after the other, each filled in behind
    those before it. -/
def writeRow (dry : Bool) (l : Library) (env : Env) :
    List Filled → List (String × Path) → Step Unit
  | _, [] => pure ()
  | past, (name, p) :: more => do
      let (text, filled) ← l.render env past name
      Step.writeText dry p text
      writeRow dry l env (past ++ [filled]) more

/-- Writes the files from templates. -/
def writeTemplates (g : GemWriter) (view : GemView) : Step Unit :=
  writeRow g.settings.isDryRun g.library (view.env g.rules) [] g.templateFiles

/-- Writes all files of the gem below a directory. -/
def writeFiles (g : GemWriter) (root : Path) (classes : List ClassDecl) (enums : List EnumDecl)
    (stats : Stats) : Step Stats := do
  let there := g.under root
  there.makeDirectories
  let stats ← there.writeSources classes stats
  there.writeTemplates ⟨g.settings.config, classes, topLevelEnums classes enums, stats⟩
  if g.settings.writesManifest then
    Step.writeManifest g.invocation g.settings classes stats root
  return stats

/-- Makes a gem and returns the statistics.  If a file cannot be made, none
    is written. -/
def run (g : GemWriter) (classes : List ClassDecl) (enums : List EnumDecl) : Step Stats := do
  let (retained, stats) ← Step.select g.registry g.rules classes
  let target := g.settings.outputDir
  let stats ← Step.staged g.settings.isDryRun target fun root => do
    try g.writeFiles root retained enums stats
    catch f =>
      Step.failed s!"Failed to generate mrbgem under {target}; nothing was written" f
      throw f
  Step.info
    (s!"Generated {stats.generatedCount} method(s), filtered {stats.filteredCount}, " ++
      s!"skipped {stats.skippedCount}, overridden {stats.overriddenCount} under: {target}")
  return stats

end GemWriter
end GemBinder
