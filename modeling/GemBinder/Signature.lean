import GemBinder.Text.Words

/-! # Declarations of a library

    The classes, methods and enumerations that headers declare.  Types are
    kept as they are spelled; what a spelling means is decided elsewhere. -/

namespace GemBinder

open Text

/-- A parameter: its type and, where one is given, its name. -/
structure Parameter where
  type : String
  name : Option String := none
deriving Repr, DecidableEq, Inhabited

/-- A public method.  Every overload is a method of its own. -/
structure Method where
  name : String
  returnType : String
  parameters : List Parameter := []
  isStatic : Bool := false
  isConst : Bool := false
  isVirtual : Bool := false
deriving Repr, DecidableEq, Inhabited

namespace Method

/-- The number of parameters. -/
def arity (m : Method) : Nat := m.parameters.length

/-- The types of the parameters. -/
def parameterTypes (m : Method) : List String := m.parameters.map (·.type)

/-- The return type, the name and the parameter types, as messages show them. -/
def signature (m : Method) : String :=
  let types := joinStrings ", " m.parameterTypes
  s!"{m.returnType} {m.name}({types})"

end Method

/-- A value of an enumeration, with its number where one is written. -/
structure EnumValue where
  name : String
  value : Option String := none
deriving Repr, DecidableEq, Inhabited

/-- An enumeration. -/
structure EnumDecl where
  name : String
  values : List EnumValue := []
  isScoped : Bool := false
deriving Repr, DecidableEq, Inhabited

/-- A class with its public methods, its enumerations and the header that
    declares it. -/
structure ClassDecl where
  name : String
  methods : List Method := []
  enums : List EnumDecl := []
  header : String := ""
deriving Repr, DecidableEq, Inhabited

/-- The class with other methods. -/
def ClassDecl.withMethods (c : ClassDecl) (methods : List Method) : ClassDecl :=
  { c with methods := methods }

end GemBinder
