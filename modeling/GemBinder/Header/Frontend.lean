import GemBinder.Header.Comments
import GemBinder.Header.Cursor
import GemBinder.Header.Declaration
import GemBinder.Header.Discovery

/-! # Front ends

    Classes and enumerations are read from a header by the compiler front
    end, if there is one, or else from its text. -/

namespace GemBinder.Header

open Files Text

/-! ## The compiler front end -/

/-- What the compiler front end makes of a header: nothing, an error, or
    the cursors below the root with its diagnostics. -/
inductive CompilerOutput where
  | nothing
  | failure (text : String)
  | cursors (nodes : List Cursor) (diagnostics : List String)
deriving Repr, Inhabited

/-- The compiler front end of a machine: it is not there, it does not load,
    or it has an output for headers, which it knows by their paths from the
    working directory. -/
inductive Compiler where
  | absent
  | broken (text : String)
  | present (headers : List (String × CompilerOutput))
deriving Repr, Inhabited

/-- Checks that the compiler front end can be used. -/
def Compiler.check : Compiler → Attempt Unit
  | .absent =>
      .error (.report (.about .parserUnavailable
        ("libclang (clang.cindex) is not available. Install the clang Python bindings " ++
          "(e.g., pip install libclang).") []))
  | .broken text =>
      .error (.report (.about .parserUnavailable s!"libclang could not be loaded: {text}" []))
  | .present _ => .ok ()

/-- The output for the header at a place; headers that are not known
    declare nothing. -/
def Compiler.outputFor (c : Compiler) (workDir place : Place) : CompilerOutput :=
  match c with
  | .present headers =>
      let name := if workDir.isPrefixOf place
        then joinStrings "/" (place.drop workDir.length) else (Path.ofPlace place).toString
      (headers.lookup name).getD (.cursors [] [])
  | _ => .cursors [] []

/-! ## Front ends -/

/-- The ways to read headers: from their text or by the compiler's front
    end. -/
inductive Engine where
  | text
  | compiler (c : Compiler)
deriving Repr, Inhabited

/-- A way to read headers, with the directories in which headers look for
    others. -/
structure Frontend where
  engine : Engine := .text
  includePaths : List Path := []
deriving Repr, Inhabited

/-- The name of a front end. -/
def Frontend.name (f : Frontend) : String :=
  match f.engine with
  | .text => "regex"
  | .compiler _ => "libclang"

/-- The options of the compiler front end. -/
def Frontend.compilerOptions (f : Frontend) (extra : List String := []) : List String :=
  ["-x", "c++", "-std=c++17"] ++ f.includePaths.map (fun p => s!"-I{p}") ++ extra

/-- The path of a header from the root, if it is a file. -/
def requireFile (header : String) : Step Path := do
  let p := Path.ofString header
  let w ← get
  if w.tree.isFile w.workDir p then return w.resolved p
  else Step.report (.headerNotFound p.toString)

/-- Whether a cursor stands in the header at a path from the root. -/
def standsIn (workDir : Place) (header : Path) (i : CursorInfo) : Bool :=
  match i.file with
  | .header => true
  | .nowhere => false
  | .path s => (Path.ofString s).resolved workDir == header

/-- The path of a header from the root, and the cursors below the root of
    its tree. -/
def compiledHeader (c : Compiler) (header : String) : Step (Path × List Cursor) := do
  let path ← requireFile header
  Step.ofAttempt c.check
  let w ← get
  match c.outputFor w.workDir path.parts with
  | .nothing =>
      Step.report (.about .parsing s!"libclang returned no translation unit for {path}"
        [("header", path.toString)])
  | .failure text =>
      Step.report (.about .parsing s!"libclang failed to parse {path}: {text}"
        [("header", path.toString)])
  | .cursors nodes diagnostics =>
      for d in diagnostics do Step.debug s!"[clang] {d}"
      return (path, nodes)

/-- The text of a header without comments. -/
def sourceText (header : String) : Step (List Char) := do
  let w ← get
  let s ← Step.ofAttempt (readHeader w.tree w.workDir (Path.ofString header))
  return stripComments s.toList

/-- The classes of a header. -/
def Frontend.classes (f : Frontend) (header : String) : Step (List ClassDecl) := do
  match f.engine with
  | .text =>
      let found := parseClasses header (← sourceText header)
      for c in found do
        Step.debug (s!"[regex] {header}: class {c.name} with {c.methods.length} method(s), " ++
          s!"{c.enums.length} enum(s)")
      return found
  | .compiler c =>
      let (path, nodes) ← compiledHeader c header
      let inHeader := standsIn (← get).workDir path
      let found := classesOf inHeader nodes
      for n in found.flatMap Cursor.classNotices do Step.debug n
      return found.map (Cursor.toClass path.toString)

/-- The enumerations of a header. -/
def Frontend.enums (f : Frontend) (header : String) : Step (List EnumDecl) := do
  match f.engine with
  | .text => return parseEnums (← sourceText header)
  | .compiler c =>
      let (path, nodes) ← compiledHeader c header
      let found := enumsOf (standsIn (← get).workDir path) nodes
      for n in found.flatMap (·.info.enumNotices) do Step.debug n
      return found.map Cursor.toEnum

/-! ## Several headers -/

/-- A class with what another occurrence of it adds: all methods, and the
    enumerations that are new. -/
def mergeInto (first again : ClassDecl) : ClassDecl :=
  { first with
    methods := first.methods ++ again.methods
    enums := first.enums ++ again.enums.filter (!first.enums.contains ·) }

/-- The classes with one more, which is merged into the first occurrence of
    its name. -/
def addClass (c : ClassDecl) : List ClassDecl → List ClassDecl
  | [] => [c]
  | d :: more => if d.name == c.name then mergeInto d c :: more else d :: addClass c more

/-- The classes of several headers as one list. -/
def mergeClasses (found : List ClassDecl) : List ClassDecl :=
  found.foldl (fun merged c => addClass c merged) []

/-- The classes of headers, those of one name merged. -/
def Frontend.allClasses (f : Frontend) (headers : List String) : Step (List ClassDecl) := do
  let mut found := []
  for header in headers do
    let classes ← f.classes header
    let methods := (classes.flatMap (·.methods)).length
    Step.debug
      s!"[{f.name}] {header}: {classes.length} class(es), {methods} method(s)"
    found := found ++ classes
  return mergeClasses found

/-- The front end of a machine: the compiler's if it can be used, unless the
    text is preferred. -/
def selectFrontend (c : Compiler) (includePaths : List Path) (preferText : Bool) :
    Step Frontend := do
  if preferText then
    Step.info "Using regex parser (requested)"
    return ⟨.text, includePaths⟩
  else
    match c.check with
    | .ok _ =>
        Step.info "Using libclang parser"
        return ⟨.compiler c, includePaths⟩
    | .error f =>
        Step.warning
          s!"{f.message} Falling back to the regex parser; extraction will be less complete."
        return ⟨.text, includePaths⟩

end GemBinder.Header
