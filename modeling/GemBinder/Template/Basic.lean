import GemBinder.Json.Basic

/-! # Templates

    A template is text with outputs, branches and loops in it.  This module
    holds its tree, the values that names stand for, and the errors of
    reading and of filling in. -/

namespace GemBinder.Template

open Text

/-! ## The tree -/

/-- An expression.  A choice without a second alternative has no value where
    its condition fails. -/
inductive Expr where
  | literal (v : Json)
  | name (s : String)
  | attribute (e : Expr) (name : String)
  | item (e key : Expr)
  | filtered (e : Expr) (filter : String)
  | tested (e : Expr) (test : String)
  | negation (e : Expr)
  | both (a b : Expr)
  | either (a b : Expr)
  | equal (a b : Expr)
  | choice (condition yes no : Expr)
  | choiceOnly (condition yes : Expr)
deriving Repr, Inhabited

/-- A part of a template. -/
inductive Node where
  | empty
  | text (s : String)
  | output (e : Expr)
  | cat (first second : Node)
  | branch (condition : Expr) (yes no : Node)
  | each (name : String) (items : Expr) (body otherwise : Node)
deriving Repr, Inhabited

/-! ## Values -/

/-- Why a value is missing. -/
inductive Missing where
  | name (s : String)
  | attribute (kind name : String)
  | element (kind : String) (index : Int)
  | alternative
deriving Repr, DecidableEq

/-- The wording of the reason. -/
def Missing.message : Missing → String
  | .name s => s!"{quoted s} is undefined"
  | .attribute kind n => s!"{quoted kind} has no attribute {quoted n}"
  | .element kind index => s!"{kind} has no element {index}"
  | .alternative =>
      "the inline if-expression evaluated to false and no else section was defined."

/-- What a name or an expression stands for: plain data, a record with its
    kind and its name, the state of a loop, a part that only the outside can
    use, or nothing. -/
inductive Value where
  | plain (v : Json)
  | record (kind name : String) (fields : List (String × Json))
  | loop (index length : Nat)
  | foreign
  | missing (why : Missing)
deriving Repr, Inhabited

/-! ## Errors -/

/-- Why a template cannot be filled in; an engine may have reasons of its
    own. -/
inductive TemplateError where
  | malformed
  | unknownFilter (name : String)
  | unknownTest (name : String)
  | unresolvedFilter (name : String)
  | unresolvedTest (name : String)
  | missing (why : Missing)
  | notIterable
  | noLength
  | notText
  | other (message : String)
deriving Repr, DecidableEq

/-- The wording of an error. -/
def TemplateError.message : TemplateError → String
  | .malformed => "malformed template"
  | .unknownFilter name => s!"No filter named {quoted name}."
  | .unknownTest name => s!"No test named {quoted name}."
  | .unresolvedFilter name => s!"No filter named {quoted name} found."
  | .unresolvedTest name => s!"No test named {quoted name} found."
  | .missing why => why.message
  | .notIterable => "the value is not iterable"
  | .noLength => "the value has no length"
  | .notText => "the value is not a text"
  | .other message => message

end GemBinder.Template
