import GemBinder.Text.Placeholder
import GemBinder.TypeRules

/-! # Marshalling

    How one value crosses the boundary: the variable that holds it, the
    expression that takes it as an argument, and the statement that returns
    it.  Expression and statement are templates; since a spelling becomes
    part of them, braces in it act as placeholders. -/

namespace GemBinder

open Text

/-- How a value of a type crosses the boundary. -/
structure Marshal where
  category : Category
  cType : String
  argumentMacro : String
  returnMacro : String
  argumentTemplate : String
  returnTemplate : String
deriving Repr, DecidableEq

/-- A type whose values cannot cross. -/
structure NoMarshal where
  type : String
deriving Repr, DecidableEq

/-- The wording of the refusal. -/
def NoMarshal.message (e : NoMarshal) : String :=
  s!"No marshalling strategy for unsupported type '{e.type}'"

namespace Marshal

/-- The placeholder of the position of an argument. -/
def indexField : String := "(\x7bindex\x7d)"

/-- The placeholder of the expression that is returned. -/
def exprField : String := "\x7bexpr\x7d"

/-- How a value of a category crosses, given the type of its variable. -/
def ofCategory (c : Category) (cType : String) : Marshal :=
  let get := c.argumentMacro
  let set := c.returnMacro
  let (argument, result) := match c with
    | .cString =>
        (s!"(const char*){get}" ++ indexField,
          "SET_RETURN(mrbc_string_new_cstr(vm, " ++ exprField ++ "));")
    | .handle =>
        (s!"({cType})(intptr_t){get}" ++ indexField, s!"{set}((intptr_t)" ++ exprField ++ ");")
    | .void => ("", s!"{set}();")
    | _ => (get ++ indexField, s!"{set}(" ++ exprField ++ ");")
  { category := c, cType := cType, argumentMacro := get, returnMacro := set,
    argumentTemplate := argument, returnTemplate := result }

/-- The expression that takes the argument at a position, counted from one. -/
def argument (m : Marshal) (index : Int) : Except Placeholder.FillError String :=
  Placeholder.fill [("index", .number index)] m.argumentTemplate

/-- The statement that returns an expression. -/
def statement (m : Marshal) (expr : String) : Except Placeholder.FillError String :=
  Placeholder.fill [("expr", .text expr)] m.returnTemplate

end Marshal

/-- How a value of a type crosses the boundary, if it can. -/
def TypeRules.marshal (r : TypeRules) (type : String) : Except NoMarshal Marshal :=
  let c := r.classify type
  if c.isUnsupported then .error ⟨type⟩ else .ok (Marshal.ofCategory c (r.cType type))

end GemBinder
