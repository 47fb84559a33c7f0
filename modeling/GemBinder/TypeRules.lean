import GemBinder.Category
import GemBinder.Pattern.Search
import GemBinder.Signature
import GemBinder.TypeSpelling

/-! # Rules that classify types

    A spelling is put into the first category whose rule matches.  Which
    references mean objects and which mean plain structs is a matter of the
    naming conventions of a library; they are patterns on the name that is
    referred to, and a list of names. -/

namespace GemBinder

open Text TypeSpelling Pattern

/-! ## Conventions -/

/-- The naming conventions of a library, as written. -/
structure Conventions where
  objectPatterns : List String := ["^[A-Z]", "_Class$", "_Base$"]
  structPatterns : List String := ["_t$"]
  knownStructs : List String := ["tm", "timeval", "timespec", "config", "rgb_color"]
deriving Repr, DecidableEq

/-- Conventions that are ready for use. -/
structure TypeRules where
  objectPatterns : List Compiled
  structPatterns : List Compiled
  knownStructs : List String
deriving Repr

/-- A pattern that was refused, and why. -/
structure BadPattern where
  pattern : String
  error : Pattern.ReadError
deriving Repr, DecidableEq

/-- The wording of the refusal. -/
def BadPattern.message (b : BadPattern) : String := b.error.message b.pattern.toList

/-- Reads patterns in order, up to the first that is refused. -/
def compilePatterns (depth : Nat) : List String → Except BadPattern (List Compiled)
  | [] => .ok []
  | p :: more =>
      match compile depth p with
      | .error e => .error ⟨p, e⟩
      | .ok c => (compilePatterns depth more).map (c :: ·)

/-- Makes conventions ready for use, where the groups of a pattern may be
    nested to a depth. -/
def Conventions.compile (c : Conventions) (depth : Nat) : Except BadPattern TypeRules := do
  let objects ← compilePatterns depth c.objectPatterns
  let structs ← compilePatterns depth c.structPatterns
  return { objectPatterns := objects, structPatterns := structs, knownStructs := c.knownStructs }

namespace TypeRules

/-- A pattern for names that end in a literal text. -/
def endingIn (literal : List Char) : Compiled where
  source := String.ofList (literal ++ ['$'])
  modes := {}
  root := Node.sequence (literal.map .char ++ [.anchor .lineEnd])

/-- A pattern for names that begin with a capital letter. -/
def capitalized : Compiled where
  source := "^[A-Z]"
  modes := {}
  root := .cat (.anchor .lineStart) (.set false [.range 'A' 'Z'])

/-- The rules of the default conventions. -/
def default : TypeRules where
  objectPatterns :=
    [capitalized, endingIn ['_', 'C', 'l', 'a', 's', 's'], endingIn ['_', 'B', 'a', 's', 'e']]
  structPatterns := [endingIn ['_', 't']]
  knownStructs := ({} : Conventions).knownStructs

instance : Inhabited TypeRules := ⟨default⟩

/-! ## Sets of spellings -/

/-- The integer types. -/
def integerTypes : List String :=
  ["char", "signed char", "unsigned char", "short", "unsigned short", "int", "unsigned",
   "unsigned int", "long", "unsigned long", "long long", "unsigned long long",
   "int8_t", "int16_t", "int32_t", "int64_t", "uint8_t", "uint16_t", "uint32_t", "uint64_t",
   "size_t", "intptr_t", "uintptr_t"]

/-- The floating point types. -/
def floatTypes : List String := ["float", "double"]

/-- The pointers that are strings. -/
def stringTypes : List String := ["char*", "const char*"]

/-- Element types whose pointers are arrays or results. -/
def numericElements : List String :=
  integerTypes.filter (· != "char") ++ floatTypes ++ ["bool"]

/-- Whether a text is one of the strings. -/
def isOneOf (names : List String) (s : List Char) : Bool := names.any (·.toList == s)

/-! ## Classification -/

/-- Whether the text holds an arrow or a point, which no type does. -/
def isMalformed (s : List Char) : Bool := contains ['.'] s || contains ['-', '>'] s

/-- Whether the text holds the opening of a pointer declarator in
    parentheses, spaces aside. -/
def isFunctionPointer (s : List Char) : Bool := contains ['(', '*'] (s.filter (· != ' '))

/-- Whether the text holds both angle brackets. -/
def isTemplate (s : List Char) : Bool := s.contains '<' && s.contains '>'

/-- Why a reference cannot cross, if the conventions know its name. -/
def referenceObstacle? (r : TypeRules) (s : List Char) : Option Obstacle :=
  let base := referenceBase s
  if r.objectPatterns.any (·.occursIn base) then some .objectReference
  else if isOneOf r.knownStructs base || r.structPatterns.any (·.occursIn base) then
    some .structReference
  else none

/-- Whether the text spells a pointer to numbers. -/
def isNumericPointer (s : List Char) : Bool :=
  endsIn '*' s && isOneOf numericElements (pointerElement s)

/-- The category of a normalized type that nothing stands against; types
    that no rule knows are passed by value as integers. -/
def plainCategory (n : List Char) : Category :=
  if isOneOf ["void"] n then .void
  else if isOneOf ["bool"] n then .boolean
  else if isOneOf floatTypes n then .float
  else if isOneOf stringTypes n then .cString
  else if isOneOf integerTypes n then .integer
  else if endsIn '*' n then .handle
  else .integer

/-- What stands against a type: the first obstacle that applies. -/
def obstacle? (r : TypeRules) (s : List Char) : Option Obstacle :=
  if isMalformed s then some .malformed
  else if isFunctionPointer s then some .functionPointer
  else if isRvalue s then some .rvalueReference
  else if isTemplate s then some .template
  else
    match if endsIn '&' s then r.referenceObstacle? s else none with
    | some why => some why
    | none => if isNumericPointer s then some .numericPointer else none

/-- The category of a spelling. -/
def classifyChars (r : TypeRules) (spelling : List Char) : Category :=
  let s := trim spelling
  match r.obstacle? s with
  | some why => .unsupported why
  | none => plainCategory (normalize s)

/-- The category of a type. -/
def classify (r : TypeRules) (type : String) : Category := r.classifyChars type.toList

/-- Whether a type cannot cross. -/
def isUnsupported (r : TypeRules) (type : String) : Bool := (r.classify type).isUnsupported

/-- The reason why a type cannot cross. -/
def reason? (r : TypeRules) (type : String) : Option String := (r.classify type).reason?

/-- The type of a variable that holds a value of a type on the C side. -/
def cType (r : TypeRules) (type : String) : String :=
  match r.classify type with
  | .boolean => "int"
  | .cString => "const char*"
  | _ => normalizeString type

/-- The return type of the native function: a flag is an integer, and a
    reference becomes a copy. -/
def nativeReturn (r : TypeRules) (type : String) : String :=
  match r.classify type with
  | .boolean => "int"
  | _ => byValueString type

/-- The name of a type in the documentation of the Ruby side. -/
def rubyName (r : TypeRules) (type : String) : String := (r.classify type).rubyName

/-- Why a method cannot be bound by the rules alone: the first obstacle among
    its return type and its parameters. -/
def methodReason? (r : TypeRules) (m : Method) : Option String :=
  match r.reason? m.returnType with
  | some reason => some s!"return type: {reason}"
  | none => m.parameters.findSome? fun p =>
      (r.reason? p.type).map fun reason =>
        let name := match p.name with
          | some n => if n == "" then "?" else n
          | none => "?"
        s!"parameter '{name}': {reason}"

end TypeRules
end GemBinder
