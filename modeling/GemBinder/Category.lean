/-! # Categories of types

    How the values of a type cross the boundary to the virtual machine, or
    why they cannot. -/

namespace GemBinder

/-- Why the values of a type cannot cross. -/
inductive Obstacle where
  | objectReference
  | structReference
  | functionPointer
  | template
  | rvalueReference
  | numericPointer
  | malformed
deriving Repr, DecidableEq, Inhabited

/-- The wording of an obstacle. -/
def Obstacle.reason : Obstacle → String
  | .objectReference => "object reference"
  | .structReference => "struct reference"
  | .functionPointer => "function pointer"
  | .template => "template type"
  | .rvalueReference => "rvalue reference"
  | .numericPointer => "pointer to numeric array/output parameter"
  | .malformed => "malformed type (parser artifact)"

/-- What a type is at the boundary.  Pointers that are no strings are handles
    and travel as integers. -/
inductive Category where
  | void
  | integer
  | float
  | boolean
  | cString
  | handle
  | unsupported (why : Obstacle)
deriving Repr, DecidableEq, Inhabited

namespace Category

/-- The obstacle of an unsupported type. -/
def obstacle? : Category → Option Obstacle
  | .unsupported why => some why
  | _ => none

/-- Whether values of the category cannot cross. -/
def isUnsupported (c : Category) : Bool := c.obstacle?.isSome

/-- The reason why values of the category cannot cross. -/
def reason? (c : Category) : Option String := c.obstacle?.map Obstacle.reason

/-- The macro that takes an argument from the virtual machine. -/
def argumentMacro : Category → String
  | .float => "GET_FLOAT_ARG"
  | .cString => "GET_STRING_ARG"
  | _ => "GET_INT_ARG"

/-- The macro that hands a result to the virtual machine. -/
def returnMacro : Category → String
  | .void => "SET_NIL_RETURN"
  | .boolean => "SET_BOOL_RETURN"
  | .float => "SET_FLOAT_RETURN"
  | .cString => "SET_RETURN"
  | _ => "SET_INT_RETURN"

/-- The name of the category in the documentation of the Ruby side. -/
def rubyName : Category → String
  | .void => "nil"
  | .integer => "Integer"
  | .float => "Float"
  | .boolean => "Boolean"
  | .cString => "String"
  | .handle => "Integer"
  | .unsupported _ => "Object"

end Category
end GemBinder
