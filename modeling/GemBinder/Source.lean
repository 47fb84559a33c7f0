import GemBinder.GemConfig
import GemBinder.Override
import GemBinder.Registration

/-! # Generated sources

    The C source declares the native functions, wraps them for the virtual
    machine and registers the wrappers; the native source defines the native
    functions.  Both are lists of lines. -/

namespace GemBinder

open Text

/-! ## Code of overrides -/

/-- Whether a name and an opening parenthesis stand at a word boundary
    somewhere in a text, of which `before` is the character before it. -/
def callsFrom (call : List Char) (before : Option Char) : List Char → Bool
  | [] => call.isEmpty && isWordBoundary before none
  | c :: rest =>
      (call.isPrefixOf (c :: rest) && isWordBoundary before (some c)) ||
        callsFrom call (some c) rest

/-- A name with an opening parenthesis. -/
def callOf (name : String) : List Char := name.toList ++ ['(']

/-- Whether code mentions a function with an opening parenthesis behind it. -/
def calls (name code : String) : Bool := callsFrom (callOf name) none code.toList

/-- The text with a replacement for every call that stands at a word
    boundary; `skip` characters belong to the call before. -/
def replaceCalls (call replacement : List Char) (skip : Nat) (before : Option Char) :
    List Char → List Char
  | [] => []
  | c :: rest =>
      match skip with
      | skip + 1 => replaceCalls call replacement skip (some c) rest
      | 0 =>
          if call.isPrefixOf (c :: rest) && isWordBoundary before (some c) then
            replacement ++ replaceCalls call replacement (call.length - 1) (some c) rest
          else c :: replaceCalls call replacement 0 (some c) rest

/-- Binding code whose wrapper is renamed from its default name to a symbol.
    The symbol is read as a replacement, so that a backslash in it begins an
    escape. -/
def retarget (code : String) (m : Method) (symbol : String) : Attempt String :=
  if m.vmName == symbol then .ok code
  else
    let call := callOf m.vmName
    let written := callOf symbol
    let pieces := if written.contains '\\' then Pattern.readReplacement written
      else .ok [.text written]
    match pieces with
    | .error e => .error (.replacement (String.ofList written) e)
    | .ok pieces =>
        .ok (String.ofList (replaceCalls call (Pattern.expand call pieces) 0 none code.toList))

/-- The lines of code, without empty ones at its end. -/
def linesOfCode (code : String) : List String :=
  (splitAtChar '\n' (trimEndWhere (· == '\n') code.toList)).map String.ofList

/-- What a generator of sources works with. -/
structure Generator where
  config : GemConfig := {}
  registry : Registry := {}
  rules : TypeRules := .default
deriving Inhabited

namespace Generator

/-! ## The C source -/

/-- The binding code of a registration that the registry has code for, with
    the symbol of the registration. -/
def bindingOf (g : Generator) (r : Registration) : Attempt (Option String) := do
  match ← g.registry.bindingCode r.owner r.method with
  | none => return none
  | some code =>
      let code ← retarget code r.method r.symbol
      if calls r.symbol code then return some code
      else
        throw (.report (.about .generation
          s!"Override binding for {r.label} does not define {r.symbol}"
          [("method", r.label), ("symbol", r.symbol)]))

/-- The opening comment of a source. -/
def banner (g : Generator) (about : String) : List String :=
  ["/**",
   s!" * {g.config.vendorPrefix} {about} for PicoRuby (mruby/c).",
   " *",
   " * This file is generated by mrbgem-binding-generator. Do not edit.",
   " */",
   ""]

/-- The opening lines of the C source. -/
def preamble (g : Generator) : List String :=
  g.banner "C bindings" ++
    ["#include <stdbool.h>",
     "#include <stddef.h>",
     "#include <stdint.h>",
     "#include <mrubyc.h>",
     ""]

/-- The variables that hold the classes. -/
def classHandles (classes : List ClassDecl) : List String :=
  "/* Class handles */" :: classes.map (fun c => s!"static mrbc_class *c_{c.name};") ++ [""]

/-- The head of a native function: return type, name and parameters. -/
def nativeHead (g : Generator) (m : Member) : String :=
  let name := m.method.nativeName m.owner g.config.vendorPrefix
  s!"{g.rules.nativeReturn m.method.returnType} {name}({m.method.nativeParameterList})"

/-- Members whose native function the rules declare, the first of each name;
    `seen` are the names before. -/
def declared (g : Generator) (seen : List String) : List Member → Attempt (List Member)
  | [] => .ok []
  | m :: more => do
      let code ← g.registry.bindingCode m.owner m.method
      let name := m.method.nativeName m.owner g.config.vendorPrefix
      if code.isSome || seen.contains name then declared g seen more
      else return m :: (← declared g (name :: seen) more)

/-- The declarations of native functions; code of overrides has its own. -/
def declarations (g : Generator) (classes : List ClassDecl) : Attempt (List String) := do
  let members ← g.declared [] (membersOf classes)
  return "/* Native functions (defined in the port wrapper) */" ::
    members.map (fun m => s!"extern {g.nativeHead m};") ++ [""]

/-- Names that are taken inside a wrapper. -/
def reservedLocals : List String := ["vm", "v", "argc", "result"]

/-- The name of the variable for a parameter. -/
def localName (name : String) : String :=
  if reservedLocals.contains name then s!"{name}_" else name

/-- Lifts an error of placeholders. -/
def filling {α : Type} (r : Except Placeholder.FillError α) : Attempt α :=
  r.mapError .placeholder

/-- How values of a type cross. -/
def marshal (g : Generator) (type : String) : Attempt Marshal :=
  (g.rules.marshal type).mapError .noMarshal

/-- The line that takes an argument into a variable. -/
def argumentLine (g : Generator) (type name : String) (index : Nat) : Attempt String := do
  let how ← g.marshal type
  let value ← filling (how.argument index)
  return s!"  {how.cType} {name} = {value};"

/-- The variables of a wrapper. -/
def localNames (m : Method) : List String := m.parameterNames.map localName

/-- The lines that take the arguments. -/
def argumentLines (g : Generator) (m : Method) : Attempt (List String) :=
  ((m.parameterTypes.zip (localNames m)).zipIdx 1).mapM fun ((type, name), i) =>
    g.argumentLine type name i

/-- The lines that call the native function and return its result. -/
def callLines (g : Generator) (m : Member) : Attempt (List String) := do
  let name := m.method.nativeName m.owner g.config.vendorPrefix
  let arguments := joinStrings ", " (localNames m.method)
  let call := s!"{name}({arguments})"
  let how ← g.marshal m.method.returnType
  if how.category == .void then
    let done ← filling (how.statement "")
    return [s!"  {call};", s!"  {done}"]
  else
    let done ← filling (how.statement "result")
    return [s!"  {how.cType} result = {call};", s!"  {done}"]

/-- The wrapper that the rules make for a registration. -/
def wrapper (g : Generator) (r : Registration) : Attempt (List String) := do
  let arguments ← g.argumentLines r.method
  let call ← g.callLines r.toMember
  return s!"static void {r.symbol}(mrbc_vm *vm, mrbc_value *v, int argc) \x7b" ::
    arguments ++ call ++ ["\x7d"]

/-- The wrappers of registrations, each with the code of the registry for
    its label, if there is some.  Code that was `written` already is not
    written again. -/
def wrappersFrom (g : Generator) (overrides : List (String × String)) (written : List String) :
    List Registration → Attempt (List String)
  | [] => .ok []
  | r :: more =>
      match overrides.lookup r.label with
      | some code =>
          if written.contains code then wrappersFrom g overrides written more
          else do
            let rest ← wrappersFrom g overrides (code :: written) more
            return s!"/* {r.label} (override) */" :: linesOfCode code ++ "" :: rest
      | none => do
          let lines ← g.wrapper r
          return lines ++ "" :: (← wrappersFrom g overrides written more)

/-- The code of the registry for registrations, by their labels; of equal
    labels the last counts. -/
def overridesOf (g : Generator) : List Registration → Attempt (List (String × String))
  | [] => .ok []
  | r :: more => do
      let code ← g.bindingOf r
      let rest ← overridesOf g more
      match code with
      | none => return rest
      | some code => return rest ++ [(r.label, code)]

/-- The line that registers a method. -/
def registrationLine (r : Registration) : String :=
  s!"  mrbc_define_method(vm, c_{r.owner}, \"{r.method.name}\", {r.symbol});"

/-- The function that registers classes and methods. -/
def initLines (g : Generator) (classes : List ClassDecl) (registrations : List Registration) :
    List String :=
  s!"void {g.config.initFunction}(mrbc_vm *vm) \x7b" ::
    classes.flatMap (fun c =>
      s!"  c_{c.name} = mrbc_define_class(vm, \"{c.name}\", mrbc_class_object);" ::
        (registrations.filter (·.owner == c.name)).map registrationLine) ++
    ["\x7d", ""]

/-- The C source of a plan. -/
def cLines (g : Generator) (classes : List ClassDecl) (plan : Plan) : Attempt (List String) := do
  let overrides ← g.overridesOf plan.registrations
  let declarations ← g.declarations classes
  let wrappers ← g.wrappersFrom overrides [] plan.registrations
  return g.preamble ++ classHandles classes ++ declarations ++
    "/* VM method wrappers */" :: wrappers ++ g.initLines classes plan.registrations

/-- The plan of the registrations of classes. -/
def plan (g : Generator) (classes : List ClassDecl) : Plan :=
  Plan.of classes g.config.vmPrefix

/-- What is told about a shadowed registration. -/
def shadowNotice (r : Registration) : String :=
  s!"{r.label} is not reachable from Ruby: a later overload with the same arity is " ++
    s!"registered as '{r.method.name}'"

/-- The C source. -/
def cSource (g : Generator) (classes : List ClassDecl) : Attempt String := do
  return joinStrings "\n" (← g.cLines classes (g.plan classes))

/-! ## The native source -/

/-- The definition of a native function by the rules. -/
def nativeFunction (g : Generator) (m : Member) : Attempt (List String) := do
  let object ← filling (g.config.apiObject m.owner)
  let call := s!"{object}.{m.method.name}({m.method.argumentList})"
  let body := match g.rules.classify m.method.returnType with
    | .boolean => s!"  return {call} ? 1 : 0;"
    | .void => s!"  {call};"
    | _ => s!"  return {call};"
  return [g.nativeHead m ++ " \x7b", body, "\x7d"]

/-- The definitions of native functions.  Names that are `defined` and code
    that was `written` already are not repeated. -/
def definitionsFrom (g : Generator) (defined written : List String) :
    List Member → Attempt (List String)
  | [] => .ok []
  | m :: more => do
      match ← g.registry.nativeCode m.owner m.method with
      | some code =>
          if written.contains code then definitionsFrom g defined written more
          else
            let rest ← definitionsFrom g defined (code :: written) more
            return s!"// {m.owner}::{m.method.signature} (override)" ::
              linesOfCode code ++ "" :: rest
      | none =>
          let name := m.method.nativeName m.owner g.config.vendorPrefix
          if defined.contains name then definitionsFrom g defined written more
          else
            let lines ← g.nativeFunction m
            return lines ++ "" :: (← definitionsFrom g (name :: defined) written more)

/-- What is told about members whose native function is `defined` already,
    up to the first member that has no definition. -/
def duplicateNotices (g : Generator) (defined : List String) : List Member → List String
  | [] => []
  | m :: more =>
      match g.registry.nativeCode m.owner m.method with
      | .error _ => []
      | .ok (some _) => duplicateNotices g defined more
      | .ok none =>
          let name := m.method.nativeName m.owner g.config.vendorPrefix
          if defined.contains name then
            s!"Skipping duplicate native wrapper {name} for {m.owner}::{m.method.name}" ::
              duplicateNotices g defined more
          else if (g.nativeFunction m).isOk then duplicateNotices g (name :: defined) more
          else []

/-- The opening lines of the native source. -/
def nativePreamble (g : Generator) : List String :=
  g.banner "native wrappers" ++
    [s!"#include <{g.config.vendorHeader}>",
     "",
     "extern \"C\" \x7b",
     ""]

/-- The lines of the native source. -/
def nativeLines (g : Generator) (classes : List ClassDecl) : Attempt (List String) := do
  let definitions ← g.definitionsFrom [] [] (membersOf classes)
  return g.nativePreamble ++ definitions ++ ["\x7d // extern \"C\"", ""]

/-- The native source. -/
def nativeSource (g : Generator) (classes : List ClassDecl) : Attempt String := do
  return joinStrings "\n" (← g.nativeLines classes)

end Generator
end GemBinder
