import GemBinder.GemConfig
import GemBinder.Journal

/-! # Options of the command line

    The options that the command takes, how they are spelled, and what they
    set.  An option takes one value or none. -/

namespace GemBinder.CommandLine

/-- What the words of a command ask for. -/
structure Options where
  root : Option String := none
  headers : List String := []
  includePaths : List String := []
  outputDir : String := "generated"
  templatesDir : Option String := none
  overrides : List String := []
  noDefaultOverrides : Bool := false
  prefersText : Bool := false
  typeRules : Option String := none
  config : GemConfig := {}
  noManifest : Bool := false
  isDryRun : Bool := false
  verbose : Nat := 0
  quiet : Nat := 0
  logLevel : Option String := none
  logFormat : String := defaultLogFormat
  logFile : Option String := none
deriving Repr, DecidableEq, Inhabited

/-- The options by name. -/
inductive OptionKey where
  | help
  | root
  | headers
  | includePath
  | outputDir
  | templatesDir
  | overrides
  | noDefaultOverrides
  | regexParser
  | typeRules
  | vendorPrefix
  | vmPrefix
  | gemName
  | vendorHeader
  | apiAccessor
  | idfComponent
  | platform
  | noManifest
  | dryRun
  | verbose
  | quiet
  | logLevel
  | logFormat
  | logFile
deriving Repr, DecidableEq, Inhabited

namespace OptionKey

/-- All options, in the order in which messages list them. -/
def all : List OptionKey :=
  [help, root, headers, includePath, outputDir, templatesDir, overrides, noDefaultOverrides,
   regexParser, typeRules, vendorPrefix, vmPrefix, gemName, vendorHeader, apiAccessor,
   idfComponent, platform, noManifest, dryRun, verbose, quiet, logLevel, logFormat, logFile]

/-- The spellings of an option. -/
def spellings : OptionKey → List String
  | help => ["-h", "--help"]
  | root => ["--root"]
  | headers => ["--headers"]
  | includePath => ["--include-path"]
  | outputDir => ["--output-dir"]
  | templatesDir => ["--templates-dir"]
  | overrides => ["--overrides"]
  | noDefaultOverrides => ["--no-default-overrides"]
  | regexParser => ["--regex-parser"]
  | typeRules => ["--type-rules"]
  | vendorPrefix => ["--vendor-prefix"]
  | vmPrefix => ["--vm-prefix"]
  | gemName => ["--gem-name"]
  | vendorHeader => ["--vendor-header"]
  | apiAccessor => ["--api-accessor"]
  | idfComponent => ["--idf-component"]
  | platform => ["--port"]
  | noManifest => ["--no-manifest"]
  | dryRun => ["--dry-run"]
  | verbose => ["-v", "--verbose"]
  | quiet => ["-q", "--quiet"]
  | logLevel => ["--log-level"]
  | logFormat => ["--log-format"]
  | logFile => ["--log-file"]

/-- Every spelling with its option, in the order in which messages list
    them. -/
def table : List (String × OptionKey) := all.flatMap fun k => k.spellings.map fun s => (s, k)

/-- The option of a spelling. -/
def ofSpelling? (s : String) : Option OptionKey := table.lookup s

/-- The options without a value. -/
def isFlag : OptionKey → Bool
  | help | noDefaultOverrides | regexParser | noManifest | dryRun | verbose | quiet => true
  | _ => false

/-- An option as messages show it. -/
def shown (k : OptionKey) : String := Text.joinStrings "/" k.spellings

/-- The options of which exactly one is needed. -/
def sources : List OptionKey := [root, headers]

end OptionKey

namespace Options

/-- The levels that can be asked for. -/
def logLevels : List String := ["CRITICAL", "ERROR", "WARNING", "INFO", "DEBUG"]

/-- Whether an option that excludes others was given. -/
def hasSource (o : Options) : OptionKey → Bool
  | .root => o.root.isSome
  | .headers => !o.headers.isEmpty
  | _ => false

/-- Sets an option without a value. -/
def setFlag (o : Options) : OptionKey → Options
  | .noDefaultOverrides => { o with noDefaultOverrides := true }
  | .regexParser => { o with prefersText := true }
  | .noManifest => { o with noManifest := true }
  | .dryRun => { o with isDryRun := true }
  | .verbose => { o with verbose := o.verbose + 1 }
  | .quiet => { o with quiet := o.quiet + 1 }
  | _ => o

/-- Sets an option to a value; those that can be repeated collect their
    values. -/
def setValue (o : Options) (v : String) : OptionKey → Options
  | .root => { o with root := some v }
  | .headers => { o with headers := o.headers ++ [v] }
  | .includePath => { o with includePaths := o.includePaths ++ [v] }
  | .outputDir => { o with outputDir := v }
  | .templatesDir => { o with templatesDir := some v }
  | .overrides => { o with overrides := o.overrides ++ [v] }
  | .typeRules => { o with typeRules := some v }
  | .vendorPrefix => { o with config.vendorPrefix := v }
  | .vmPrefix => { o with config.vmPrefix := v }
  | .gemName => { o with config.gemName := v }
  | .vendorHeader => { o with config.vendorHeader := v }
  | .apiAccessor => { o with config.apiAccessor := v }
  | .idfComponent => { o with config.idfComponent := v }
  | .platform => { o with config.platform := v }
  | .logLevel => { o with logLevel := some v }
  | .logFormat => { o with logFormat := v }
  | .logFile => { o with logFile := some v }
  | _ => o

/-- The level from which messages are shown: the one that is asked for by
    name, or else the one that the counts of flags stand for. -/
def level (o : Options) : Level :=
  match o.logLevel.bind Level.ofName? with
  | some l => l
  | none =>
      if o.verbose ≥ 1 then Level.debug
      else if o.quiet ≥ 2 then Level.error
      else if o.quiet == 1 then Level.warning
      else Level.info

end Options
end GemBinder.CommandLine
