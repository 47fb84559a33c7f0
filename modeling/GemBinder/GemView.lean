import GemBinder.Record
import GemBinder.Template.Render

/-! # What templates see of a gem

    The templates of a gem are filled in from its configuration, the paths
    of its sources, its classes and enumerations, and the statistics. -/

namespace GemBinder

open Template

/-- A gem as its templates see it. -/
structure GemView where
  config : GemConfig
  classes : List ClassDecl
  enums : List EnumDecl
  stats : Stats
deriving Repr, DecidableEq

/-- A method as templates see it; every parameter has a name. -/
def Method.view (m : Method) : Json :=
  let parameters := m.parameterNames.zip m.parameterTypes
  .object [("name", .text m.name),
    ("params", .list (parameters.map fun (name, type) =>
      .object [("name", .text name), ("type", .text type)])),
    ("return_type", .text m.returnType)]

/-- A class as templates see it. -/
def ClassDecl.view (c : ClassDecl) : Json :=
  .object [("name", .text c.name), ("methods", .list (c.methods.map Method.view)),
    ("enums", .list (c.enums.map EnumDecl.toJson))]

namespace GemView

/-- The path of the C source in the gem. -/
def bindingsSource (v : GemView) : String := s!"src/{v.config.bindingsFile}"

/-- The path of the native source in the gem. -/
def wrapperSource (v : GemView) : String := s!"ports/{v.config.platform}/{v.config.wrapperFile}"

/-- The names besides the configuration, and what they stand for. -/
def plainNames (v : GemView) : List (String × Json) :=
  [("bindings_source", .text v.bindingsSource), ("wrapper_source", .text v.wrapperSource),
   ("classes", .list (v.classes.map ClassDecl.view)),
   ("enums", .list (v.enums.map EnumDecl.toJson)), ("stats", v.stats.toJson)]

/-- A gem as data. -/
def toJson (v : GemView) : Json := .object (("config", .object v.config.fields) :: v.plainNames)

/-- The configuration as templates see it. -/
def configValue (c : GemConfig) : Value :=
  .record "mrbgem_binding_generator.models.GeneratorConfig object" "GeneratorConfig" c.fields

/-- What names stand for in the templates of a gem. -/
def env (v : GemView) (rules : TypeRules) : Env where
  names := ("config", configValue v.config) :: v.plainNames.map fun (n, w) => (n, .plain w)
  rubyType := rules.rubyName

end GemView
end GemBinder
