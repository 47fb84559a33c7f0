import GemBinder.Header.Braces
import GemBinder.Signature

/-! # Declarations in a text

    Methods and enumerations are recognised by their shape alone: words,
    marks and parentheses in the right order.  A scanner tries every place
    of a text from left to right, and goes on behind what it has found. -/

namespace GemBinder.Header

open Text

/-! ## Scanning -/

/-- What a scanner finds at a place: a thing and what is behind it. -/
abbrev Scanner (α : Type) := List Char → List Char → Option (α × List Char)

/-- All that a scanner finds in a text.  The scanner sees the characters
    before a place, the nearest first; `skip` of those that follow belong to
    what was found before. -/
def scanFrom {α : Type} (find? : Scanner α) (before : List Char) (skip : Nat) :
    List Char → List α
  | [] => []
  | c :: rest =>
      match skip with
      | skip + 1 => scanFrom find? (c :: before) skip rest
      | 0 =>
          match find? before (c :: rest) with
          | some (a, behind) =>
              a :: scanFrom find? (c :: before) (rest.length - behind.length) rest
          | none => scanFrom find? (c :: before) 0 rest

/-- All that a scanner finds in a text. -/
def scan {α : Type} (find? : Scanner α) (s : List Char) : List α := scanFrom find? [] 0 s

/-- The text behind a literal text. -/
def behind? (literal s : List Char) : Option (List Char) :=
  if literal.isPrefixOf s then some (s.drop literal.length) else none

/-- The text behind leading blanks. -/
def skipBlanks (s : List Char) : List Char := s.dropWhile isBlank

/-- The text behind at least one blank. -/
def skipSomeBlanks (s : List Char) : Option (List Char) :=
  if s.head?.any isBlank then some (skipBlanks s) else none

/-- The word at the head of a text, and what is behind it. -/
def takeWord (s : List Char) : Option (List Char × List Char) :=
  if s.head?.any isWordChar then some (s.takeWhile isWordChar, s.dropWhile isWordChar) else none

/-- What is behind a character. -/
def behindChar (c : Char) : List Char → Option (List Char)
  | d :: rest => if d == c then some rest else none
  | [] => none

/-! ## Parameters -/

/-- Marks that belong to a type, also where they touch the name. -/
def isMark (c : Char) : Bool := c == '*' || c == '&'

/-- A parameter from its words: all but the last are its type. -/
def parameterOfWords (ws : List (List Char)) : Option Parameter :=
  match ws.getLast? with
  | none => none
  | some last =>
      match ws.dropLast with
      | [] => some { type := String.ofList last }
      | front =>
          let type := String.ofList (joinWith [' '] front ++ last.takeWhile isMark)
          let name := last.dropWhile isMark
          some { type := type, name := if name.isEmpty then none else some (String.ofList name) }

/-- A parameter from its text; its default value is left out. -/
def parseParameter (s : List Char) : Option Parameter :=
  parameterOfWords (words (beforeChar '=' s))

/-- The parameters between parentheses. -/
def parseParameters (s : List Char) : List Parameter :=
  let t := trim s
  if t.isEmpty || t == "void".toList then []
  else (splitAtChar ',' t).filterMap parseParameter

/-! ## Methods -/

/-- A word, with a star behind it if one follows. -/
def takeReturnType (s : List Char) : Option (List Char × List Char) := do
  let (word, rest) ← takeWord s
  match behindChar '*' (skipBlanks rest) with
  | some rest => return (word ++ ['*'], rest)
  | none => return (word, rest)

/-- The parts of a method declaration: return type, name, the text between
    parentheses and whether it is constant. -/
structure MethodText where
  returnType : List Char
  name : List Char
  parameters : List Char
  isConst : Bool
deriving Repr, DecidableEq

/-- Drops a word and the blanks behind it, if it stands here. -/
def dropWord (word s : List Char) : List Char × Bool :=
  match behind? word s with
  | some rest => (skipBlanks rest, true)
  | none => (s, false)

/-- The method declaration that begins here. -/
def methodAt : Scanner MethodText := fun _ s => do
  let (returnType, rest) ← takeReturnType s
  let (name, rest) ← takeWord (← skipSomeBlanks rest)
  let rest ← behindChar '(' (skipBlanks rest)
  let parameters := rest.takeWhile (· != ')')
  let rest ← behindChar ')' (rest.dropWhile (· != ')'))
  let (rest, isConst) := dropWord "const".toList (skipBlanks rest)
  let (rest, _) := dropWord "override".toList rest
  let rest ← behindChar ';' rest
  return (⟨returnType, name, parameters, isConst⟩, rest)

/-- The method of a declaration. -/
def MethodText.toMethod (m : MethodText) : Method where
  name := String.ofList m.name
  returnType := String.ofList m.returnType
  parameters := parseParameters m.parameters
  isConst := m.isConst

/-- The methods that a text declares; one that is named like its class is a
    constructor. -/
def parseMethods (body : List Char) (owner : Option String := none) : List Method :=
  ((scan methodAt body).map MethodText.toMethod).filter fun m => some m.name != owner

/-! ## Enumerations -/

/-- The text of a value behind its equals sign.  A value that would be empty
    takes the last blank before what ends it. -/
def takeEnumValue (s : List Char) : Option (List Char × List Char) :=
  let ends (c : Char) := c == ',' || c == '}'
  let rest := skipBlanks s
  if rest.head?.all ends then
    match (s.takeWhile isBlank).getLast? with
    | some b => some ([b], rest)
    | none => none
  else some (rest.takeWhile (!ends ·), rest.dropWhile (!ends ·))

/-- The enumeration value that begins here. -/
def enumValueAt : Scanner EnumValue := fun _ s => do
  let (name, rest) ← takeWord s
  match (behindChar '=' (skipBlanks rest)).bind takeEnumValue with
  | some (value, behind) =>
      return ({ name := String.ofList name, value := some (String.ofList (trim value)) }, behind)
  | none => return ({ name := String.ofList name }, rest)

/-- What is behind the underlying type of an enumeration, if one is given. -/
def skipUnderlying (s : List Char) : Option (List Char) :=
  match behindChar ':' (skipBlanks s) with
  | none => some s
  | some rest =>
      let isPart (c : Char) := isWordChar c || c == ':' || isBlank c
      if rest.head?.any isPart then some (rest.dropWhile isPart) else none

/-- An enumeration from its name on. -/
def enumBody (isScoped : Bool) (s : List Char) : Option (EnumDecl × List Char) := do
  let (name, rest) ← takeWord s
  let rest ← behindChar '{' (skipBlanks (← skipUnderlying rest))
  let body := rest.takeWhile (· != '}')
  let rest ← behindChar '}' (rest.dropWhile (· != '}'))
  return ({ name := String.ofList name, values := scan enumValueAt body, isScoped := isScoped },
    rest)

/-- What is behind the word that makes an enumeration scoped. -/
def behindScope (s : List Char) : Option (List Char) :=
  match behind? "class".toList s with
  | some rest => skipSomeBlanks rest
  | none => (behind? "struct".toList s).bind skipSomeBlanks

/-- The enumeration that begins here. -/
def enumAt : Scanner EnumDecl := fun _ s => do
  let rest ← skipSomeBlanks (← behind? "enum".toList s)
  ((behindScope rest).bind (enumBody true)).or (enumBody false rest)

/-- The enumerations that a text declares. -/
def parseEnums (s : List Char) : List EnumDecl := scan enumAt s

/-! ## Classes -/

/-- A class by its name and the text of its body. -/
structure ClassText where
  name : List Char
  body : List Char
deriving Repr, DecidableEq

/-- What is behind the word that opens a class. -/
def behindClassWord (s : List Char) : Option (List Char) :=
  (behind? "class".toList s).or (behind? "struct".toList s)

/-- What is behind a list of base classes, if there is one. -/
def skipBases (s : List Char) : List Char :=
  match behindChar ':' s with
  | some rest => rest.dropWhile fun c => c != '{' && c != ';'
  | none => s

/-- The class that begins here.  Its word is no part of a longer one, and
    does not follow the word for an enumeration and one space. -/
def classAt : Scanner ClassText := fun before s => do
  if before.head?.any isWordChar || "enum ".toList.reverse.isPrefixOf before then none
  let rest ← skipSomeBlanks (← behindClassWord s)
  let (name, rest) ← takeWord rest
  let rest ← behindChar '{' (skipBases (skipBlanks rest))
  let (body, behind) := takeBlock rest
  return (⟨name, body⟩, behind)

/-- A class in a header: its methods are those outside all blocks. -/
def ClassText.toClass (header : String) (c : ClassText) : ClassDecl where
  name := String.ofList c.name
  methods := parseMethods (topLevel c.body) (some (String.ofList c.name))
  enums := parseEnums c.body
  header := header

/-- The classes that a text without comments declares; classes inside
    others are not among them. -/
def parseClasses (header : String) (s : List Char) : List ClassDecl :=
  (scan classAt s).map (ClassText.toClass header)

end GemBinder.Header
