import GemBinder.Template.Basic

/-! # Filling in templates

    A template is filled in from the values of names.  What is missing is an
    error as soon as it is shown, compared, counted or decided on; only the
    tests for a missing value may look at it. -/

namespace GemBinder

open Decimal

/-! ## Equality of data -/

mutual

/-- Whether two values are equal: numbers and flags by their size, objects
    by their members in any order. -/
def Json.same : Json → Json → Bool
  | .null, w => match w with | .null => true | _ => false
  | .bool a, w => sameNumber (if a then 1 else 0) w
  | .int a, w => sameNumber a w
  | .real x, w =>
      match w with
      | .real y => x.same y
      | .int b => x.isInt b
      | .bool b => x.isInt (if b then 1 else 0)
      | _ => false
  | .text s, w => match w with | .text t => s == t | _ => false
  | .list vs, w => match w with | .list ws => sameItems vs ws | _ => false
  | .object ms, w =>
      match w with
      | .object ns => ms.length == ns.length && sameMembers ms ns
      | _ => false
where
  /-- Whether a value is equal to an integer. -/
  sameNumber (n : Int) : Json → Bool
    | .bool b => n == (if b then 1 else 0)
    | .int m => n == m
    | .real y => y.isInt n
    | _ => false

/-- Whether lists are equal item by item. -/
def Json.sameItems : List Json → List Json → Bool
  | [], ws => ws.isEmpty
  | v :: vs, ws =>
      match ws with
      | w :: ws => v.same w && sameItems vs ws
      | [] => false

/-- Whether every member has an equal one of its name. -/
def Json.sameMembers : List (String × Json) → List (String × Json) → Bool
  | [], _ => true
  | (n, v) :: ms, ns =>
      (match ns.lookup n with | some w => v.same w | none => false) && sameMembers ms ns

end

namespace Template

/-! ## Values -/

/-- The name of the kind of data, as messages show it. -/
def kindOf : Json → String
  | .null => "None"
  | .bool _ => "bool object"
  | .int _ => "int object"
  | .real _ => "float object"
  | .text _ => "str object"
  | .list _ => "list object"
  | .object _ => "dict object"

/-- The name of the kind of a value, as messages show it. -/
def Value.kind : Value → String
  | .plain v => kindOf v
  | .record kind _ _ => kind
  | .loop _ _ => "jinja2.runtime.LoopContext object"
  | .foreign => "builtin_function_or_method object"
  | .missing _ => ""

/-- The error for a value that is not there. -/
def Value.present (v : Value) : Except TemplateError Value :=
  match v with
  | .missing why => .error (.missing why)
  | v => .ok v

/-- A value as it is put out. -/
def Value.shown : Value → Except TemplateError String
  | .plain v => .ok v.shown
  | .record _ name fields =>
      let shown := Text.joinStrings ", " (fields.map fun (n, v) => s!"{n}={v.shownInside}")
      .ok s!"{name}({shown})"
  | .loop index length => .ok s!"<LoopContext {index + 1}/{length}>"
  | .foreign => .ok "<built-in method>"
  | .missing why => .error (.missing why)

/-- Whether data counts as true: not null, zero or empty. -/
def isTrue : Json → Bool
  | .null => false
  | .bool b => b
  | .int n => n != 0
  | .real x => !x.isZero
  | .text s => !s.isEmpty
  | .list vs => !vs.isEmpty
  | .object ms => !ms.isEmpty

/-- Whether a value counts as true. -/
def Value.truth : Value → Except TemplateError Bool
  | .plain v => .ok (isTrue v)
  | .missing why => .error (.missing why)
  | _ => .ok true

/-- Names that every object has, apart from its members. -/
def objectNames : List String :=
  ["clear", "copy", "fromkeys", "get", "items", "keys", "pop", "popitem", "setdefault",
   "update", "values"]

/-- What a loop knows about itself. -/
def loopAttribute? (index length : Nat) (name : String) : Option Json :=
  if name == "last" then some (.bool (index + 1 == length))
  else if name == "first" then some (.bool (index == 0))
  else if name == "index" then some (.int (index + 1))
  else if name == "index0" then some (.int index)
  else if name == "length" then some (.int length)
  else none

/-- An attribute of a value.  The names that every object has come before
    its members. -/
def Value.attribute (v : Value) (name : String) : Except TemplateError Value :=
  let absent : Value := .missing (.attribute v.kind name)
  match v with
  | .missing why => .error (.missing why)
  | .plain (.object ms) =>
      if objectNames.contains name then .ok .foreign
      else .ok (((ms.lookup name).map Value.plain).getD absent)
  | .record _ _ fields => .ok (((fields.lookup name).map Value.plain).getD absent)
  | .loop index length => .ok (((loopAttribute? index length name).map Value.plain).getD absent)
  | _ => .ok absent

/-- The item at an index, which counts from the end if it is negative. -/
def itemAt? {α : Type} (xs : List α) (i : Int) : Option α :=
  if i < 0 then (if -i ≤ xs.length then xs[xs.length - (-i).toNat]? else none) else xs[i.toNat]?

/-- An item of a value; where there is none, a name may still be that of an
    attribute. -/
def Value.item (v key : Value) : Except TemplateError Value :=
  match v, key with
  | .missing why, _ => .error (.missing why)
  | _, .missing why => .error (.missing why)
  | .plain (.object ms), .plain (.text name) =>
      match ms.lookup name with
      | some w => .ok (.plain w)
      | none => v.attribute name
  | _, .plain (.text name) => v.attribute name
  | .plain (.list vs), .plain (.int i) =>
      .ok (((itemAt? vs i).map Value.plain).getD (.missing (.element v.kind i)))
  | .plain (.text s), .plain (.int i) =>
      .ok (((itemAt? s.toList i).map fun c => Value.plain (.text (String.singleton c))).getD
        (.missing (.element v.kind i)))
  | _, .plain (.int i) => .ok (.missing (.element v.kind i))
  | _, _ => .ok (.missing (.attribute v.kind ""))

/-- The number of items of a value. -/
def Value.length : Value → Except TemplateError Nat
  | .plain (.text s) => .ok s.length
  | .plain (.list vs) => .ok vs.length
  | .plain (.object ms) => .ok ms.length
  | .missing why => .error (.missing why)
  | _ => .error .noLength

/-- The items that a loop goes through. -/
def Value.items : Value → Except TemplateError (List Json)
  | .plain (.text s) => .ok (s.toList.map fun c => .text (String.singleton c))
  | .plain (.list vs) => .ok vs
  | .plain (.object ms) => .ok (ms.map fun m => .text m.1)
  | .missing why => .error (.missing why)
  | _ => .error .notIterable

/-- A value as a text that a filter works on; what counts as false is the
    empty text. -/
def Value.asText (v : Value) : Except TemplateError String := do
  match v with
  | .plain (.text s) => return s
  | _ => if ← v.truth then throw .notText else return ""

/-! ## Expressions -/

/-- What names stand for, and the Ruby name of a type. -/
structure Env where
  names : List (String × Value)
  rubyType : String → String

/-- The environment in which a name stands for a value. -/
def Env.bind (env : Env) (name : String) (v : Value) : Env :=
  { env with names := (name, v) :: env.names }

/-- Applies a filter. -/
def applyFilter (env : Env) (filter : String) (v : Value) : Except TemplateError Value := do
  if filter == "ruby_type" then return .plain (.text (env.rubyType (← v.asText)))
  else if filter == "length" || filter == "count" then return .plain (.int (← v.length))
  else throw (.unresolvedFilter filter)

/-- Applies a test. -/
def applyTest (test : String) (v : Value) : Except TemplateError Bool :=
  let isMissing := match v with | .missing _ => true | _ => false
  if test == "none" then .ok (match v with | .plain .null => true | _ => false)
  else if test == "defined" then .ok (!isMissing)
  else if test == "undefined" then .ok isMissing
  else .error (.unresolvedTest test)

/-- Whether two values are equal. -/
def Value.equal (a b : Value) : Except TemplateError Bool := do
  match ← a.present, ← b.present with
  | .plain v, .plain w => return v.same w
  | _, _ => return false

/-- The value of an expression. -/
def Expr.eval (env : Env) : Expr → Except TemplateError Value
  | .literal v => .ok (.plain v)
  | .name s => .ok ((env.names.lookup s).getD (.missing (.name s)))
  | .attribute e n => do (← e.eval env).attribute n
  | .item e key => do
      let v ← e.eval env
      v.item (← key.eval env)
  | .filtered e filter => do applyFilter env filter (← e.eval env)
  | .tested e test => do return .plain (.bool (← applyTest test (← e.eval env)))
  | .negation e => do return .plain (.bool (!(← (← e.eval env).truth)))
  | .both a b => do
      let v ← a.eval env
      if ← v.truth then b.eval env else return v
  | .either a b => do
      let v ← a.eval env
      if ← v.truth then return v else b.eval env
  | .equal a b => do
      let v ← a.eval env
      return .plain (.bool (← v.equal (← b.eval env)))
  | .choice condition yes no => do
      if ← (← condition.eval env).truth then yes.eval env else no.eval env
  | .choiceOnly condition yes => do
      if ← (← condition.eval env).truth then yes.eval env else return .missing .alternative

/-! ## Nodes -/

/-- The items of a loop with their positions and the number of them all. -/
def numbered (vs : List Json) : List (Json × Nat × Nat) :=
  vs.zipIdx.map fun (v, i) => (v, i, vs.length)

/-- Fills in a node. -/
def Node.render (env : Env) : Node → Except TemplateError String
  | .empty => .ok ""
  | .text s => .ok s
  | .output e => do (← e.eval env).shown
  | .cat a b => do return (← a.render env) ++ (← b.render env)
  | .branch condition yes no => do
      if ← (← condition.eval env).truth then yes.render env else no.render env
  | .each var items body otherwise => do
      let vs ← (← items.eval env).items
      if vs.isEmpty then otherwise.render env
      else
        let shown ← (numbered vs).mapM fun (v, i, n) =>
          body.render ((env.bind "loop" (.loop i n)).bind var (.plain v))
        return String.join shown

end Template
end GemBinder
