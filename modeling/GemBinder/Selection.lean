import GemBinder.Override
import GemBinder.Registration
import GemBinder.World

/-! # Selection of methods

    Every method gets a verdict: it is skipped by the registry, generated by
    the rules, bound by code of the registry, or filtered out.  The classes
    that are retained, the statistics and the messages all follow from the
    verdicts. -/

namespace GemBinder

/-! ## Verdicts -/

/-- What becomes of a method.  A method is filtered `halfBound` if the
    registry has only one half of the code that would bind it. -/
inductive Verdict where
  | skipped (reason : String)
  | generated
  | overridden (reason : String)
  | filtered (reason : String) (halfBound : Bool)
deriving Repr, DecidableEq

/-- Whether the method is retained. -/
def Verdict.keeps : Verdict → Bool
  | .generated => true
  | .overridden _ => true
  | _ => false

/-- A member with its verdict. -/
structure Judged extends Member where
  verdict : Verdict
deriving Repr, DecidableEq

/-- The verdict on a method that the rules cannot bind. -/
def judgeUnsupported (action : Option Action) (m : Method) (reason : String) : Attempt Verdict :=
  match action with
  | some (.custom native binding) => do
      match ← native m, ← binding m with
      | some _, some _ => return .overridden reason
      | none, none => return .filtered reason false
      | _, _ => return .filtered reason true
  | _ => .ok (.filtered reason false)

/-- The verdict on a method. -/
def judge (registry : Registry) (rules : TypeRules) (m : Member) : Attempt Verdict :=
  match registry.action? m.owner m.method.name with
  | some (.skip reason) => .ok (.skipped reason)
  | action =>
      match rules.methodReason? m.method with
      | none => .ok .generated
      | some reason => judgeUnsupported action m.method reason

/-- Judges members in order, up to the first on which code of the registry
    fails. -/
def judgeAll (registry : Registry) (rules : TypeRules) :
    List Member → List Judged × Option Failure
  | [] => ([], none)
  | m :: more =>
      match judge registry rules m with
      | .error f => ([], some f)
      | .ok v =>
          let (judged, failure) := judgeAll registry rules more
          (⟨m, v⟩ :: judged, failure)

/-! ## Statistics -/

/-- A method that was left out, and why. -/
structure FilteredMethod where
  owner : String
  method : Method
  reason : String
deriving Repr, DecidableEq

/-- What became of the methods of a run. -/
structure Stats where
  filteredCount : Nat := 0
  generatedCount : Nat := 0
  skippedCount : Nat := 0
  overriddenCount : Nat := 0
  filtered : List FilteredMethod := []
  shadowed : List String := []
deriving Repr, DecidableEq, Inhabited

/-- The method and the reason, if it was filtered out. -/
def Judged.filtered? (j : Judged) : Option FilteredMethod :=
  match j.verdict with
  | .filtered reason _ => some ⟨j.owner, j.method, reason⟩
  | _ => none

/-- The statistics of verdicts. -/
def Stats.of (judged : List Judged) : Stats where
  filteredCount := (judged.filterMap Judged.filtered?).length
  generatedCount := judged.countP (·.verdict == .generated)
  skippedCount := judged.countP fun j => match j.verdict with | .skipped _ => true | _ => false
  overriddenCount :=
    judged.countP fun j => match j.verdict with | .overridden _ => true | _ => false
  filtered := judged.filterMap Judged.filtered?

/-! ## Messages -/

/-- A member by its class and its signature. -/
def Member.described (m : Member) : String := s!"{m.owner}::{m.method.signature}"

/-- What is told about a verdict. -/
def Judged.entries (j : Judged) : List LogEntry :=
  let told (level : Level) (message : String) : LogEntry :=
    { level := level, message := message }
  match j.verdict with
  | .skipped reason => [told Level.debug s!"Skipping {j.described}: {reason}"]
  | .generated => []
  | .overridden reason => [told Level.debug s!"Override binds {j.described} ({reason})"]
  | .filtered reason halfBound =>
      let filtering := told Level.debug s!"Filtering {j.described}: {reason}"
      if halfBound then
        [told Level.warning
          (s!"Override for {j.described} supplies only one of native wrapper and binding; " ++
            "method filtered"), filtering]
      else [filtering]

/-! ## The selection -/

/-- The retained part of a class. -/
def retain (registry : Registry) (rules : TypeRules) (c : ClassDecl) : ClassDecl :=
  c.withMethods (c.methods.filter fun m =>
    match judge registry rules ⟨c.name, m⟩ with
    | .ok v => v.keeps
    | .error _ => false)

/-- The retained classes and the statistics, or the first failure. -/
def selectMethods (registry : Registry) (rules : TypeRules) (classes : List ClassDecl) :
    Attempt (List ClassDecl × Stats) :=
  match judgeAll registry rules (membersOf classes) with
  | (_, some f) => .error f
  | (judged, none) => .ok (classes.map (retain registry rules), Stats.of judged)

/-- Selects methods and tells the verdicts. -/
def Step.select (registry : Registry) (rules : TypeRules) (classes : List ClassDecl) :
    Step (List ClassDecl × Stats) := do
  let (judged, _) := judgeAll registry rules (membersOf classes)
  for e in judged.flatMap Judged.entries do modify (·.tell e)
  .ofAttempt (selectMethods registry rules classes)

end GemBinder
