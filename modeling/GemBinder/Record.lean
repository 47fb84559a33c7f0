import GemBinder.GemConfig
import GemBinder.Selection

/-! # Records

    Declarations, statistics and settings as data, as manifests and
    templates show them. -/

namespace GemBinder

/-- A text, or null. -/
def Json.ofOption : Option String → Json
  | some s => .text s
  | none => .null

/-- A number of things. -/
def Json.ofNat (n : Nat) : Json := .int n

namespace Parameter

/-- A parameter as data. -/
def toJson (p : Parameter) : Json :=
  .object [("type", .text p.type), ("name", .ofOption p.name)]

end Parameter

namespace Method

/-- A method as data. -/
def toJson (m : Method) : Json :=
  .object [("name", .text m.name), ("return_type", .text m.returnType),
    ("parameters", .list (m.parameters.map Parameter.toJson)), ("is_static", .bool m.isStatic),
    ("is_const", .bool m.isConst), ("is_virtual", .bool m.isVirtual),
    ("cpp_signature", .text m.signature)]

end Method

namespace EnumDecl

/-- An enumeration as data. -/
def toJson (e : EnumDecl) : Json :=
  .object [("name", .text e.name), ("is_scoped", .bool e.isScoped),
    ("values", .list (e.values.map fun v =>
      .object [("name", .text v.name), ("value", .ofOption v.value)]))]

end EnumDecl

namespace ClassDecl

/-- A class as data. -/
def toJson (c : ClassDecl) : Json :=
  .object [("name", .text c.name), ("header", .text c.header),
    ("methods", .list (c.methods.map Method.toJson)),
    ("enums", .list (c.enums.map EnumDecl.toJson))]

end ClassDecl

/-- A filtered method as data. -/
def FilteredMethod.toJson (f : FilteredMethod) : Json :=
  .object [("class", .text f.owner), ("method", .text f.method.signature),
    ("reason", .text f.reason)]

/-- Statistics as data. -/
def Stats.toJson (s : Stats) : Json :=
  .object [("filtered_count", .ofNat s.filteredCount),
    ("generated_count", .ofNat s.generatedCount), ("skipped_count", .ofNat s.skippedCount),
    ("overridden_count", .ofNat s.overriddenCount),
    ("filtered", .list (s.filtered.map FilteredMethod.toJson)),
    ("shadowed", .list (s.shadowed.map .text))]

end GemBinder
