import GemBinder.Failure

/-! # Configuration of a gem

    The names that a gem and its parts are given. -/

namespace GemBinder

open Text

/-- The names of a gem, of what it binds and of the platform it runs on.  The
    accessor is an expression with a placeholder for the name of a class. -/
structure GemConfig where
  vendorPrefix : String := "m5unified"
  vmPrefix : String := "mrbc_m5"
  gemName : String := "picoruby-m5unified"
  vendorHeader : String := "M5Unified.h"
  apiAccessor : String := "M5.\x7bclass_name\x7d"
  idfComponent : String := "m5unified"
  platform : String := "esp32"
  license : String := "MIT"
  author : String := "mrbgem-binding-generator"
  summary : String := "M5Unified bindings for PicoRuby"
deriving Repr, DecidableEq, Inhabited

namespace GemConfig

/-- The name of the gem as part of a C identifier. -/
def cName (c : GemConfig) : String :=
  String.ofList (c.gemName.toList.map fun ch => if ch == '-' then '_' else ch)

/-- The function that registers the gem. -/
def initFunction (c : GemConfig) : String := s!"mrbc_mrbgem_{c.cName}_gem_init"

/-- The file of the C source. -/
def bindingsFile (c : GemConfig) : String := s!"{c.vendorPrefix}.c"

/-- The file of the native source. -/
def wrapperFile (c : GemConfig) : String := s!"{c.vendorPrefix}_wrapper.cpp"

/-- The file of the Ruby side. -/
def mrblibFile (c : GemConfig) : String := s!"{c.vendorPrefix}.rb"

/-- The expression that reaches the instance of a class. -/
def apiObject (c : GemConfig) (owner : String) : Except Placeholder.FillError String :=
  Placeholder.fill [("class_name", .text owner)] c.apiAccessor

/-- All fields by their names. -/
def fields (c : GemConfig) : List (String × Json) :=
  [("vendor_prefix", .text c.vendorPrefix), ("vm_prefix", .text c.vmPrefix),
   ("gem_name", .text c.gemName), ("vendor_header", .text c.vendorHeader),
   ("api_accessor", .text c.apiAccessor), ("idf_component", .text c.idfComponent),
   ("port", .text c.platform), ("license", .text c.license), ("author", .text c.author),
   ("summary", .text c.summary)]

/-- The fields that a manifest keeps: the names, and not the texts about the
    gem. -/
def toJson (c : GemConfig) : Json := .object (c.fields.take 7)

end GemConfig
end GemBinder
