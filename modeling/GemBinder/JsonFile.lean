import GemBinder.BuiltinOverrides
import GemBinder.Json.Reader
import GemBinder.World

/-! # Files that configure the generator

    Override files and type rule files hold a JSON object each.  What they
    must not hold is reported with the path of the file. -/

namespace GemBinder

open Files Text

/-! ## JSON objects in files -/

/-- The name of a sort of files, inside a sentence and at its head. -/
structure FileSort where
  name : String
  title : String
deriving Repr, DecidableEq

/-- Files with overrides. -/
def overrideFiles : FileSort := ⟨"override file", "Override file"⟩

/-- Files with rules for types. -/
def ruleFiles : FileSort := ⟨"type rules file", "Type rules file"⟩

/-- A report about a file. -/
def fileReport (path : Path) (message : String) : Report :=
  .about .general message [("path", path.toString)]

/-- A report about a key of a file. -/
def keyReport (path : Path) (key message : String) : Report :=
  .about .general message [("path", path.toString), ("key", key)]

/-- The members of the object that a text writes. -/
def readObject (depth : Nat) (sort : FileSort) (path : Path) (s : List Char) :
    Attempt (List (String × Json)) :=
  match Json.read depth s with
  | .error (.tooManyDigits n) =>
      .error (.tooManyDigits ((Json.ReadError.tooManyDigits n).message s))
  | .error .tooDeep => .error .tooDeep
  | .error e =>
      .error (.report (fileReport path s!"Invalid {sort.name} {path}: {e.message s}"))
  | .ok (.object members) => .ok members
  | .ok _ => .error (.report (fileReport path s!"{sort.title} {path} must contain a JSON object"))

/-- The text of a file, with unified line ends. -/
def fileText (t : FileTree) (workDir : Place) (p : Path) : Attempt String :=
  match t.read workDir p with
  | .error e => .error (.disk e)
  | .ok bytes =>
      match decode bytes with
      | .error e => .error (.bytes e)
      | .ok s => .ok (unifyLineEndsOf s)

/-- The members of the object in a file. -/
def loadObject (sort : FileSort) (path : Path) : Step (List (String × Json)) := do
  let w ← get
  match fileText w.tree w.workDir path with
  | .error (.disk e) =>
      if e.fault == .notFound then
        Step.report (fileReport path s!"{sort.title} does not exist: {path}")
      else throw (.disk e)
  | .error f => throw f
  | .ok s => Step.ofAttempt (readObject w.depths.values sort path s.toList)

/-! ## Overrides -/

/-- The arity that an entry asks for. -/
def arity? : Option Json → Option Nat
  | some (.int n) => if n < 0 then none else some n.toNat
  | _ => none

/-- The reason for skipping, if an entry gives none. -/
def defaultSkipReason : String := "skipped by override file"

/-- A member of an object as messages show it; one that is missing is shown
    as null. -/
def shownMember (spec : List (String × Json)) (name : String) : String :=
  ((spec.lookup name).getD .null).shown

/-- The action that an entry of an override file writes. -/
def readAction (path : Path) (key : String) (v : Json) : Except Report Action :=
  match contains [':', ':'] key.toList, v with
  | true, .object spec =>
      match spec.lookup "action" with
      | some (.text "skip") =>
          .ok (.skip (match spec.lookup "reason" with
            | some reason => reason.shown
            | none => defaultSkipReason))
      | some (.text "custom") =>
          match arity? (spec.lookup "arity") with
          | none =>
              .error (keyReport path key
                s!"Custom override '{key}' in {path} needs a non-negative integer 'arity'")
          | some n =>
              .ok (.custom (literalSnippet n (spec.lookup "native_wrapper"))
                (literalSnippet n (spec.lookup "binding")))
      | _ =>
          let action := shownMember spec "action"
          .error (keyReport path key s!"Unknown override action '{action}' for '{key}' in {path}")
  | _, _ => .error (keyReport path key s!"Malformed override entry '{key}' in {path}")

/-- The registry that an object writes. -/
def Registry.ofJson (path : Path) (members : List (String × Json)) : Except Report Registry := do
  let entries ← members.mapM fun (key, v) => do return (key, ← readAction path key v)
  return .ofEntries entries

/-- Loads an override file. -/
def loadRegistry (path : Path) : Step Registry := do
  let members ← loadObject overrideFiles path
  match Registry.ofJson path members with
  | .error r => Step.report r
  | .ok registry =>
      Step.info s!"Loaded {members.length} override(s) from {path}"
      return registry

/-- Registers an action for a method and tells if it replaces one. -/
def Step.register (r : Registry) (owner method : String) (a : Action) : Step Registry := do
  let key := overrideKey owner method
  if r.contains key then Step.debug s!"Replacing override for {key}"
  return r.register owner method a

/-! ## Type rules -/

/-- The keys of a type rule file. -/
def ruleKeys : List String := ["object_ref_patterns", "struct_ref_patterns", "known_struct_names"]

/-- The texts of a list, if it holds nothing else. -/
def texts? : Json → Option (List String)
  | .list items => items.mapM fun
      | .text s => some s
      | _ => none
  | _ => none

/-- The texts of each member. -/
def readTexts (path : Path) (members : List (String × Json)) :
    Except Report (List (String × List String)) :=
  members.mapM fun (key, v) =>
    match texts? v with
    | some ts => .ok (key, ts)
    | none => .error (keyReport path key s!"'{key}' in {path} must be a list of strings")

/-- The conventions and the rules that an object writes; what it leaves out
    stays as it is by default.  A repetition count or a nesting beyond all
    bounds is no matter of the file. -/
def Conventions.ofJson (depth : Nat) (path : Path) (members : List (String × Json)) :
    Attempt (Conventions × TypeRules) := do
  let unknown := (members.map (·.1)).filter (!ruleKeys.contains ·)
  if !unknown.isEmpty then
    let shown := joinStrings ", " (unknown.mergeSort fun a b => a ≤ b)
    throw (.report (fileReport path s!"Unknown key(s) {shown} in {path}"))
  let values ← (readTexts path members).mapError .report
  let defaults : Conventions := {}
  let conventions : Conventions :=
    { objectPatterns := (values.lookup "object_ref_patterns").getD defaults.objectPatterns
      structPatterns := (values.lookup "struct_ref_patterns").getD defaults.structPatterns
      knownStructs := (values.lookup "known_struct_names").getD defaults.knownStructs }
  match conventions.compile depth with
  | .ok rules => return (conventions, rules)
  | .error bad =>
      match bad.error with
      | .countTooLarge => throw (.pattern bad)
      | .tooDeep => throw (.pattern bad)
      | _ =>
          throw (.report (fileReport path
            s!"Bad pattern '{bad.pattern}' in {path}: {bad.message}"))

/-- Loads a type rule file. -/
def loadRules (path : Path) : Step (Conventions × TypeRules) := do
  let members ← loadObject ruleFiles path
  Step.ofAttempt (Conventions.ofJson (← get).depths.groups path members)

end GemBinder
