import GemBinder.Json.Basic

/-! # Reports

    What goes wrong on the side of the user is reported with a message and
    with the details that belong to it, so that nobody has to read them out
    of the message. -/

namespace GemBinder

/-- The kinds of reports. -/
inductive ReportKind where
  | general
  | headerNotFound
  | parserUnavailable
  | parsing
  | generation
deriving Repr, DecidableEq, Inhabited

/-- The name of a kind. -/
def ReportKind.name : ReportKind → String
  | .general => "BindingGeneratorError"
  | .headerNotFound => "HeaderNotFoundError"
  | .parserUnavailable => "ParseUnavailableError"
  | .parsing => "ParseError"
  | .generation => "GenerationError"

/-- All kinds. -/
def ReportKind.all : List ReportKind :=
  [.general, .headerNotFound, .parserUnavailable, .parsing, .generation]

/-- A kind and those that include it, up to the general one. -/
def ReportKind.lineage (k : ReportKind) : List ReportKind :=
  if k == .general then [k] else [k, .general]

/-- A report. -/
structure Report where
  kind : ReportKind
  message : String
  details : List (String × Json) := []
deriving Repr, Inhabited

namespace Report

/-- A report whose details are texts. -/
def about (kind : ReportKind) (message : String) (details : List (String × String)) : Report :=
  ⟨kind, message, details.map fun (n, v) => (n, .text v)⟩

/-- The report of a header that does not exist. -/
def headerNotFound (path : String) : Report :=
  about .headerNotFound s!"File does not exist: {path}" [("path", path)]

/-- A report as data. -/
def toJson (r : Report) : Json :=
  .object [("error_type", .text r.kind.name), ("message", .text r.message),
    ("context", .object r.details)]

end Report
end GemBinder
