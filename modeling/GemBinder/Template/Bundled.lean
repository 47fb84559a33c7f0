import GemBinder.Template.Reader

/-! # Bundled templates

    The templates of the files around the generated sources. -/

namespace GemBinder.Template.Bundled

/-- An output of an expression. -/
def put (e : String) : String := "\x7b\x7b " ++ e ++ " \x7d\x7d"

/-- A tag. -/
def tag (t : String) : String := "\x7b% " ++ t ++ " %\x7d"

/-- Lines of parts. -/
def lines (parts : List (List String)) : String :=
  String.join (parts.map fun line => String.join line ++ "\n")

/-- The template of the description of the gem. -/
def rake : String := lines
  [["MRuby::Gem::Specification.new('", put "config.gem_name", "') do |spec|"],
   ["  spec.license = '", put "config.license", "'"],
   ["  spec.author  = '", put "config.author", "'"],
   ["  spec.summary = '", put "config.summary", "'"],
   ["end"]]

/-- The template of the build of the component. -/
def cmake : String := lines
  [["idf_component_register("],
   ["  SRCS"],
   ["    \"", put "wrapper_source", "\""],
   ["    \"", put "bindings_source", "\""],
   ["  INCLUDE_DIRS"],
   ["    \".\""],
   ["  REQUIRES"],
   ["    ", put "config.idf_component"],
   [")"],
   [],
   ["target_link_libraries($\x7bCOMPONENT_LIB\x7d PUBLIC"],
   ["  ", put "config.idf_component"],
   [")"]]

/-- The template of the overview of the gem. -/
def readme : String := lines
  [["# ", put "config.gem_name"],
   [],
   [put "config.summary", "."],
   [],
   ["Generated by mrbgem-binding-generator from the `", put "config.vendor_header", "` headers."],
   ["Do not edit the generated sources by hand; regenerate them instead."],
   [],
   ["## Classes"],
   [],
   [tag "for cls in classes"],
   ["- ", put "cls.name", " (", put "cls.methods | length", " method",
    put "\"\" if cls.methods | length == 1 else \"s\"", ")", tag "if cls.methods", ": ",
    tag "for m in cls.methods", "`", put "m.name", "`", tag "if not loop.last", ", ",
    tag "endif", tag "endfor", tag "endif"],
   [],
   [tag "endfor"],
   [tag "if enums"],
   [],
   ["## Enums"],
   [],
   [tag "for e in enums"],
   ["- ", put "e.name", tag "if e.is_scoped", " (scoped)", tag "endif", ": ",
    tag "for v in e[\"values\"]", "`", put "v.name", "`", tag "if not loop.last", ", ",
    tag "endif", tag "endfor"],
   [],
   [tag "endfor"],
   [tag "endif"],
   [tag "if stats.filtered_count or stats.skipped_count"],
   [],
   ["## Not bound"],
   [],
   [put "stats.filtered_count", " method(s) use types that cannot cross the mruby/c boundary"],
   ["and ", put "stats.skipped_count", " method(s) are excluded by overrides."],
   [tag "endif"],
   [],
   ["## License"],
   [],
   [put "config.license"]]

/-- The template of the Ruby side, which is comments only. -/
def mrblib : String := lines
  [["# ", put "config.gem_name", " Ruby bindings"],
   ["# Auto-generated by mrbgem-binding-generator"],
   [tag "for cls in classes"],
   [],
   ["# Class: ", put "cls.name"],
   [tag "for m in cls.methods"],
   ["#   ", put "m.name", "(", tag "for p in m.params", put "p.name", ": ",
    put "p.type | ruby_type", tag "if not loop.last", ", ", tag "endif", tag "endfor", ") -> ",
    put "m.return_type | ruby_type"],
   [tag "endfor"],
   [tag "for e in cls.enums"],
   ["#   enum ", put "e.name", ": ", tag "for v in e[\"values\"]", put "v.name",
    tag "if not loop.last", ", ", tag "endif", tag "endfor"],
   [],
   [tag "endfor"],
   [tag "endfor"],
   [tag "if enums"],
   [],
   ["# Enums"],
   [tag "for e in enums"],
   ["#   ", put "e.name", ": ", tag "for v in e[\"values\"]", put "v.name",
    tag "if v.value is not none", " = ", put "v.value", tag "endif", tag "if not loop.last",
    ", ", tag "endif", tag "endfor"],
   [],
   [tag "endfor"],
   [tag "endif"]]

/-- The bundled templates by their names. -/
def all : List (String × String) :=
  [("mrbgem.rake.j2", rake), ("CMakeLists.txt.j2", cmake), ("README.md.j2", readme),
   ("mrblib.rb.j2", mrblib)]

end GemBinder.Template.Bundled
