import GemBinder.GemConfig
import GemBinder.Files.Path

/-! # Settings of a run

    Where a run writes the gem, how the gem is named, where its templates
    are, and what of it is written. -/

namespace GemBinder

open Files

/-- The settings of a run. -/
structure RunSettings where
  outputDir : Path
  config : GemConfig := {}
  templatesDir : Option Path := none
  writesManifest : Bool := true
  isDryRun : Bool := false
deriving Repr, DecidableEq, Inhabited

namespace RunSettings

/-- The directory of the C source. -/
def bindingsDir (s : RunSettings) : Path := s.outputDir.child "src"

/-- The directory of the Ruby side. -/
def mrblibDir (s : RunSettings) : Path := s.outputDir.child "mrblib"

/-- The directory of the native source. -/
def nativeDir (s : RunSettings) : Path := (s.outputDir.child "ports").child s.config.platform

/-- All directories of the gem. -/
def directories (s : RunSettings) : List Path :=
  [s.outputDir, s.mrblibDir, s.bindingsDir, s.nativeDir]

/-- The same settings for another directory. -/
def under (s : RunSettings) (p : Path) : RunSettings := { s with outputDir := p }

/-- Settings as data. -/
def toJson (s : RunSettings) : Json :=
  .object [("output_dir", .text s.outputDir.toString),
    ("templates_dir", (s.templatesDir.map fun p => Json.text p.toString).getD .null),
    ("config", s.config.toJson), ("dry_run", .bool s.isDryRun)]

end RunSettings
end GemBinder
