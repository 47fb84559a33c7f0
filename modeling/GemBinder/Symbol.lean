import GemBinder.Signature
import GemBinder.Text.Casing
import GemBinder.TypeSpelling

/-! # Symbols

    The names of generated functions and of their parameters.  The C source
    declares what the native source defines, and both take the names from
    here, so that they agree. -/

namespace GemBinder

open Text TypeSpelling

/-- The default prefix of native functions. -/
def defaultVendorPrefix : String := "m5unified"

/-- The default prefix of the functions that the virtual machine calls. -/
def defaultVmPrefix : String := "mrbc_m5"

/-! ## Parameters -/

/-- Characters that show that a parser took more than a name. -/
def isUnusableInName (c : Char) : Bool :=
  ".->[]()".toList.contains c || isBlank c

/-- Whether a name can be used for a parameter. -/
def isUsableName (name : String) : Bool :=
  !name.isEmpty && !name.toList.any isUnusableInName

/-- The name of the parameter at a position: its own if that can be used,
    else one that only depends on the position. -/
def parameterName (name : Option String) (index : Int) : String :=
  match name with
  | some n => if isUsableName n then n else s!"param_{index}"
  | none => s!"param_{index}"

namespace Method

/-- The names of the parameters. -/
def parameterNames (m : Method) : List String :=
  m.parameters.zipIdx.map fun (p, i) => parameterName p.name i

/-- Types with names as a parameter list; an empty one says so. -/
def listParameters (m : Method) (types : List String) : String :=
  if m.parameters.isEmpty then "void"
  else joinStrings ", " ((types.zip m.parameterNames).map fun (t, n) => s!"{t} {n}")

/-- The parameter list as declared. -/
def parameterList (m : Method) : String := m.listParameters m.parameterTypes

/-- The parameter list with copies for references, which both C and C++ can
    declare. -/
def nativeParameterList (m : Method) : String :=
  m.listParameters (m.parameterTypes.map byValueString)

/-- The arguments of a call that passes the parameters on. -/
def argumentList (m : Method) : String := joinStrings ", " m.parameterNames

/-! ## Functions -/

/-- The name of the native function of a method, with the parameter types in
    it, so that overloads have different names. -/
def nativeName (m : Method) (owner : String) (vendorPrefix : String := defaultVendorPrefix) :
    String :=
  let base := s!"{vendorPrefix}_{lowerString owner}_{lowerString m.name}"
  if m.parameters.isEmpty then s!"{base}_void"
  else
    let types := joinStrings "_" (m.parameterTypes.map nameFragmentString)
    s!"{base}_{types}"

/-- The name of the function that the virtual machine calls; the arity keeps
    overloads apart. -/
def vmName (m : Method) (vmPrefix : String := defaultVmPrefix) : String :=
  s!"{vmPrefix}_{lowerString m.name}_{m.arity}"

/-- The name with the class in it; a class without a name adds nothing. -/
def vmNameIn (m : Method) (owner : String) (vmPrefix : String := defaultVmPrefix) : String :=
  if owner.isEmpty then m.vmName vmPrefix
  else s!"{vmPrefix}_{lowerString owner}_{lowerString m.name}_{m.arity}"

end Method
end GemBinder
