import GemBinder.Files.Tree
import GemBinder.Marshal
import GemBinder.Pattern.Replacement
import GemBinder.Report
import GemBinder.Template.Basic

/-! # Failures

    All that can stop a step of the generator, each with its cause. -/

namespace GemBinder

/-- Why a step stopped: a report, a fault of files, bytes, texts or types
    that no step foresees, or an abort from outside. -/
inductive Failure where
  | report (r : Report)
  | disk (e : Files.DiskError)
  | bytes (e : Text.DecodeError)
  | tooManyDigits (message : String)
  | tooDeep
  | placeholder (e : Text.Placeholder.FillError)
  | noMarshal (e : NoMarshal)
  | template (e : Template.TemplateError)
  | pattern (b : BadPattern)
  | replacement (source : String) (e : Pattern.ReplaceError)
  | snippetNotText
  | logFormat (format : String)
  | aborted (text : String)
deriving Repr, Inhabited

/-- The wording of a failure. -/
def Failure.message : Failure → String
  | .report r => r.message
  | .disk e => e.message
  | .bytes e => e.message
  | .tooManyDigits message => message
  | .tooDeep => "a text is nested too deeply"
  | .placeholder e => e.message
  | .noMarshal e => e.message
  | .template e => e.message
  | .pattern b => b.message
  | .replacement source e => e.message source.toList
  | .snippetNotText => "a snippet of an override is not a text"
  | .logFormat format => s!"Invalid format '{format}' for '%' style"
  | .aborted text => text

/-- Steps that may fail. -/
abbrev Attempt := Except Failure

end GemBinder
