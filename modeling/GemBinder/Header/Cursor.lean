import GemBinder.Signature

/-! # Cursors

    A compiler front end presents a header as a tree of cursors.  The tree
    reaches into included headers, which declare for themselves; only what
    the header itself declares in public is taken from it. -/

namespace GemBinder.Header

/-- Where a cursor stands: in the header at hand, in no file, or in a file. -/
inductive CursorFile where
  | header
  | nowhere
  | path (s : String)
deriving Repr, DecidableEq, Inhabited

/-- The answer of a cursor to a question: it does not know the question, it
    answers, or asking fails. -/
inductive CursorFlag where
  | unknown
  | answer (b : Bool)
  | failure (text : String)
deriving Repr, DecidableEq, Inhabited

/-- Whether the answer is yes. -/
def CursorFlag.holds : CursorFlag → Bool
  | .answer b => b
  | _ => false

/-- What a cursor says about itself. -/
structure CursorInfo where
  kind : Option String := none
  name : String := ""
  file : CursorFile := .header
  access : Option String := none
  isDefinition : Bool := true
  returnType : String := "void"
  arguments : List (String × String) := []
  value : Int := 0
  isStatic : CursorFlag := .unknown
  isConst : CursorFlag := .unknown
  isVirtual : CursorFlag := .unknown
  isScoped : CursorFlag := .unknown
deriving Repr, DecidableEq, Inhabited

/-- A cursor with those below it. -/
inductive Cursor where
  | node (info : CursorInfo) (children : List Cursor)
deriving Repr, Inhabited

/-- What a cursor says about itself. -/
def Cursor.info : Cursor → CursorInfo
  | .node info _ => info

/-- The cursors below. -/
def Cursor.children : Cursor → List Cursor
  | .node _ children => children

namespace CursorInfo

/-- Whether the cursor is of a kind. -/
def isKind (i : CursorInfo) (kind : String) : Bool := i.kind.getD "" == kind

/-- Whether the cursor is a namespace. -/
def isNamespace (i : CursorInfo) : Bool := i.isKind "NAMESPACE"

/-- Whether the cursor is a class. -/
def isClass (i : CursorInfo) : Bool := i.isKind "CLASS_DECL" || i.isKind "STRUCT_DECL"

/-- Whether the cursor is an enumeration. -/
def isEnum (i : CursorInfo) : Bool := i.isKind "ENUM_DECL"

/-- Whether the cursor is a method that can be called from outside: one with
    public access, or with none. -/
def isOpen (i : CursorInfo) : Bool :=
  let access := i.access.getD "INVALID"
  access == "PUBLIC" || access == "INVALID"

/-- Whether the cursor is a public method. -/
def isMethod (i : CursorInfo) : Bool := i.isKind "CXX_METHOD" && i.isOpen

/-- Whether the cursor defines something that has a name. -/
def definesName (i : CursorInfo) : Bool := i.isDefinition && !i.name.isEmpty

/-- The method of a cursor. -/
def toMethod (i : CursorInfo) : Method where
  name := i.name
  returnType := i.returnType
  parameters := i.arguments.map fun (type, name) =>
    { type := type, name := if name.isEmpty then none else some name }
  isStatic := i.isStatic.holds
  isConst := i.isConst.holds
  isVirtual := i.isVirtual.holds

/-- What is told about questions that fail. -/
def notices (i : CursorInfo) (questions : List (String × CursorFlag)) : List String :=
  questions.filterMap fun (question, flag) =>
    match flag with
    | .failure text => some s!"Cursor {i.name}: {question}() failed: {text}"
    | _ => none

/-- What is told about a method. -/
def methodNotices (i : CursorInfo) : List String :=
  i.notices [("is_static_method", i.isStatic), ("is_const_method", i.isConst),
    ("is_virtual_method", i.isVirtual)]

/-- What is told about an enumeration. -/
def enumNotices (i : CursorInfo) : List String := i.notices [("is_scoped_enum", i.isScoped)]

end CursorInfo

namespace Cursor

/-- The enumeration of a cursor. -/
def toEnum (c : Cursor) : EnumDecl where
  name := c.info.name
  values := (c.children.filter (·.info.isKind "ENUM_CONSTANT_DECL")).map fun v =>
    { name := v.info.name, value := some (toString v.info.value) }
  isScoped := c.info.isScoped.holds

/-- Whether the cursor is an enumeration that its class makes public. -/
def isPublicEnum (c : Cursor) : Bool :=
  c.info.isEnum && c.info.isOpen && c.info.definesName

/-- The class of a cursor. -/
def toClass (header : String) (c : Cursor) : ClassDecl where
  name := c.info.name
  methods := (c.children.filter (·.info.isMethod)).map (·.info.toMethod)
  enums := (c.children.filter isPublicEnum).map toEnum
  header := header

/-- What is told about the class of a cursor. -/
def classNotices (c : Cursor) : List String :=
  c.children.flatMap fun m =>
    if m.info.isMethod then m.info.methodNotices
    else if m.isPublicEnum then m.info.enumNotices
    else []

end Cursor

/-! ## Traversals -/

/-- Whether a cursor stands in the header. -/
abbrev InHeader := CursorInfo → Bool

/-- Whether a cursor is a class that the header offers. -/
def offersClass (inHeader : InHeader) (i : CursorInfo) : Bool :=
  i.isClass && inHeader i && i.definesName && i.isOpen

mutual

/-- The cursors of the offered classes of a cursor: namespaces are looked
    through, and a class that is offered may offer others. -/
def Cursor.classes (inHeader : InHeader) : Cursor → List Cursor
  | .node info children =>
      if info.isNamespace then classesOf inHeader children
      else if offersClass inHeader info then
        .node info children :: classesOf inHeader children
      else []

/-- The cursors of the offered classes of cursors. -/
def classesOf (inHeader : InHeader) : List Cursor → List Cursor
  | [] => []
  | c :: more => c.classes inHeader ++ classesOf inHeader more

end

mutual

/-- The cursors of the enumerations of a cursor: namespaces and all classes
    of the header are looked through. -/
def Cursor.enums (inHeader : InHeader) : Cursor → List Cursor
  | .node info children =>
      if info.isNamespace || (info.isClass && inHeader info) then enumsOf inHeader children
      else if info.isEnum && inHeader info && info.isOpen && info.definesName then
        [.node info children]
      else []

/-- The cursors of the enumerations of cursors. -/
def enumsOf (inHeader : InHeader) : List Cursor → List Cursor
  | [] => []
  | c :: more => c.enums inHeader ++ enumsOf inHeader more

end

end GemBinder.Header
