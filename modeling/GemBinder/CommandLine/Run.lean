import GemBinder.CommandLine.Reader
import GemBinder.Generation
import GemBinder.Header.Frontend
import GemBinder.JournalSetup

/-! # Running a command

    A command loads what configures the generator, finds the headers, reads
    them and makes the gem.  Each of these steps has its own exit code for
    the case that it fails. -/

namespace GemBinder.CommandLine

open Files Header

/-- The name of the command. -/
def programName : String := "mrbgem-bindgen"

/-- How a command ends: it asks for no run, or it has run and has a code. -/
inductive Exit where
  | stopped (s : Stop)
  | code (n : Nat)
deriving Repr, DecidableEq

/-- The code that a process ends with. -/
def Exit.number : Exit → Nat
  | .stopped .help => 0
  | .stopped (.usage _) => 2
  | .code n => n

/-- The text of an option, unless it is empty. -/
def given? (s : Option String) : Option String := s.filter (!·.isEmpty)

namespace Options

/-- The settings of the run that options ask for; its directories are given
    from the root on. -/
def settings (o : Options) (workDir : Place) : RunSettings where
  outputDir := (Path.ofString o.outputDir).resolved workDir
  config := o.config
  templatesDir := (given? o.templatesDir).map fun s => (Path.ofString s).resolved workDir
  writesManifest := !o.noManifest
  isDryRun := o.isDryRun

/-- How options want the journal. -/
def journalOptions (o : Options) : JournalOptions :=
  ⟨o.level, o.logFormat, o.logFile.getD ""⟩

/-- The registry that options ask for: later files win over earlier ones and
    all of them over the built-in one. -/
def loadRegistry (o : Options) : Step Registry := do
  let mut registry : Registry := if o.noDefaultOverrides then {} else .builtin
  for file in o.overrides do
    registry := registry.merged (← GemBinder.loadRegistry (Path.ofString file))
  return registry

/-- The rules for types that options ask for. -/
def loadRules (o : Options) : Step TypeRules := do
  match given? o.typeRules with
  | some file => return (← GemBinder.loadRules (Path.ofString file)).2
  | none => return .default

/-- The writer of the gem that options ask for. -/
def writer (o : Options) (i : Invocation) (settings : RunSettings) : Step GemWriter := do
  let library ← Template.Library.ofDirectory settings.templatesDir
  let registry ← o.loadRegistry
  let rules ← o.loadRules
  return { settings := settings, library := library, registry := registry, rules := rules,
           invocation := i }

/-- The headers that options name. -/
def findHeaders (o : Options) : Step (List Path) := do
  match given? o.root with
  | some root => discoverHeaders root
  | none => Step.ofAttempt (← Step.look fun t workDir =>
      expandPaths t workDir (o.headers.map Path.ofString))

/-- The directories that the compiler front end searches: those of the
    library, then those that are named. -/
def searchPaths (o : Options) (t : FileTree) (workDir : Place) : List Path :=
  let ofLibrary := (given? o.root).map (Header.includePaths t workDir)
  ofLibrary.getD [] ++ o.includePaths.map Path.ofString

end Options

/-- The classes and enumerations of headers. -/
def readHeaders (f : Frontend) (headers : List String) : Step (List ClassDecl × List EnumDecl) := do
  let classes ← f.allClasses headers
  let mut enums := []
  for h in headers do enums := enums ++ (← f.enums h)
  return (classes, enums)

/-- A step of a command: if it fails, the failure is told with a message. -/
def guarded {α : Type} (message : String) (t : Step α) : Step (Option α) := do
  try some <$> t
  catch f =>
    Step.failed message f
    return none

/-- What is told about a class. -/
def classNotice (c : ClassDecl) : String :=
  let header := if c.header.isEmpty then "<unknown>" else c.header
  s!"Class {c.name}: {c.methods.length} method(s) from {header}"

/-- Makes the gem of classes and enumerations and tells what is left to
    say. -/
def makeGem (g : GemWriter) (classes : List ClassDecl) (enums : List EnumDecl) : Step Nat := do
  match ← guarded "Gem generation failed" (g.run classes enums) with
  | none => return 4
  | some stats =>
      for label in stats.shadowed do Step.info s!"Shadowed overload: {label}"
      if g.settings.isDryRun then
        Step.info s!"Dry run: {g.settings.outputDir} left untouched"
      return 0

/-- Reads headers and makes their gem. -/
def bindHeaders (o : Options) (compiler : Compiler) (g : GemWriter) (headers : List Path) :
    Step Nat := do
  Step.info s!"{headers.length} header(s) to parse"
  let includePaths ← Step.look o.searchPaths
  let frontend ← selectFrontend compiler includePaths o.prefersText
  match ← guarded "Parsing failed" (readHeaders frontend (headers.map Path.toString)) with
  | none => return 3
  | some (classes, enums) =>
      Step.info s!"{classes.length} class(es) parsed"
      for c in classes do Step.debug (classNotice c)
      let invocation := { g.invocation with frontend := some frontend.name }
      makeGem { g with invocation := invocation } classes enums

/-- Runs what options ask for and returns the exit code. -/
def runOptions (o : Options) (compiler : Compiler) (arguments : List String) : Step Nat := do
  Step.configureJournal o.journalOptions
  let settings ← Step.look fun _ workDir => o.settings workDir
  let invocation : Invocation := { arguments := programName :: arguments }
  match ← guarded "Could not load templates, override or type rules files"
      (o.writer invocation settings) with
  | none => return 1
  | some g =>
      match ← guarded "Header discovery failed" o.findHeaders with
      | none => return 3
      | some [] =>
          Step.error "Nothing to parse: no headers under the given --root or --headers"
          return 2
      | some headers => bindHeaders o compiler g headers

/-- Runs a command. -/
def run (compiler : Compiler) (arguments : List String) : Step Exit := do
  match readArguments arguments with
  | .error s => return .stopped s
  | .ok o => return .code (← runOptions o compiler arguments)

end GemBinder.CommandLine
