import GemBinder.Decimal.Shortest
import GemBinder.Text.Quoted

/-! # JSON values

    The values of JSON texts, with integers and doubles apart, and the two
    ways in which they are written: as JSON in ASCII, and as messages show
    them. -/

namespace GemBinder

open Text Decimal

/-- A JSON value.  The members of an object are in order, and no two of
    those that were read have one name. -/
inductive Json where
  | null
  | bool (b : Bool)
  | int (n : Int)
  | real (x : Double)
  | text (s : String)
  | list (items : List Json)
  | object (members : List (String × Json))
deriving Repr, Inhabited

namespace Json

/-! ## Members -/

/-- The members with one more, which replaces one of its name. -/
def insertMember (name : String) (v : Json) : List (String × Json) → List (String × Json)
  | [] => [(name, v)]
  | (n, w) :: more => if n == name then (n, v) :: more else (n, w) :: insertMember name v more

/-- The member of an object. -/
def member? (name : String) : Json → Option Json
  | .object members => members.lookup name
  | _ => none

/-! ## Written as JSON -/

/-- One UTF-16 unit as an escape. -/
def escapeUnit (n : Nat) : List Char := '\\' :: 'u' :: hexDigits 4 n

/-- One character inside a written text. -/
def escapeChar (c : Char) : List Char :=
  let n := c.toNat
  if c == '"' || c == '\\' then ['\\', c]
  else if c == '\n' then ['\\', 'n']
  else if c == '\r' then ['\\', 'r']
  else if c == '\t' then ['\\', 't']
  else if n == 8 then ['\\', 'b']
  else if n == 12 then ['\\', 'f']
  else if 32 ≤ n && n < 127 then [c]
  else if n < 0x10000 then escapeUnit n
  else
    let m := n - 0x10000
    escapeUnit (0xD800 + m / 1024) ++ escapeUnit (0xDC00 + m % 1024)

/-- A text as JSON. -/
def renderText (s : String) : String :=
  String.ofList ('"' :: s.toList.flatMap escapeChar ++ ['"'])

/-- A double as JSON. -/
def renderReal : Double → String
  | .nan => "NaN"
  | .infinite negative => if negative then "-Infinity" else "Infinity"
  | x => x.shown

/-- How the parts of a written value are kept apart: on one line, or each
    on a line of its own that is indented by its depth. -/
inductive Layout where
  | line
  | indented (step : Nat)

/-- What stands before a part at a depth. -/
def Layout.break (l : Layout) (depth : Nat) : String :=
  match l with
  | .line => ""
  | .indented step => String.ofList ('\n' :: List.replicate (step * depth) ' ')

/-- What stands between two parts at a depth. -/
def Layout.separator (l : Layout) (depth : Nat) : String :=
  match l with
  | .line => ", "
  | .indented _ => "," ++ l.break depth

/-- A value as JSON in ASCII at a depth. -/
def renderAt (l : Layout) (depth : Nat) : Json → String
  | .null => "null"
  | .bool b => if b then "true" else "false"
  | .int n => toString n
  | .real x => renderReal x
  | .text s => renderText s
  | .list [] => "[]"
  | .list (v :: more) =>
      "[" ++ l.break (depth + 1) ++ renderAt l (depth + 1) v ++ renderItems l (depth + 1) more ++
        l.break depth ++ "]"
  | .object [] => "\x7b\x7d"
  | .object ((n, v) :: more) =>
      "\x7b" ++ l.break (depth + 1) ++ renderText n ++ ": " ++ renderAt l (depth + 1) v ++
        renderMembers l (depth + 1) more ++ l.break depth ++ "\x7d"
where
  /-- Further items of a list. -/
  renderItems (l : Layout) (depth : Nat) : List Json → String
    | [] => ""
    | v :: more => l.separator depth ++ renderAt l depth v ++ renderItems l depth more
  /-- Further members of an object. -/
  renderMembers (l : Layout) (depth : Nat) : List (String × Json) → String
    | [] => ""
    | (n, v) :: more =>
        l.separator depth ++ renderText n ++ ": " ++ renderAt l depth v ++
          renderMembers l depth more

/-- A value as JSON on one line. -/
def render (v : Json) : String := renderAt .line 0 v

/-- A value as JSON, indented by two blanks. -/
def renderIndented (v : Json) : String := renderAt (.indented 2) 0 v

/-! ## As messages show it -/

/-- A value inside a list or an object, as messages show it. -/
def shownInside : Json → String
  | .null => "None"
  | .bool b => if b then "True" else "False"
  | .int n => toString n
  | .real x => x.shown
  | .text s => quoted s
  | .list [] => "[]"
  | .list (v :: more) => "[" ++ shownInside v ++ items more ++ "]"
  | .object [] => "\x7b\x7d"
  | .object ((n, v) :: more) =>
      "\x7b" ++ quoted n ++ ": " ++ shownInside v ++ members more ++ "\x7d"
where
  /-- Further items of a list. -/
  items : List Json → String
    | [] => ""
    | v :: more => ", " ++ shownInside v ++ items more
  /-- Further members of an object. -/
  members : List (String × Json) → String
    | [] => ""
    | (n, v) :: more => ", " ++ quoted n ++ ": " ++ shownInside v ++ members more

/-- A value as messages show it: a text stands for itself. -/
def shown : Json → String
  | .text s => s
  | v => shownInside v

end Json
end GemBinder
