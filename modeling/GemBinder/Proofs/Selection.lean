import Mathlib.Data.List.Basic
import Mathlib.Data.List.Forall2
import GemBinder.BuiltinOverrides
import GemBinder.Proofs.Failure
import GemBinder.Proofs.Registration
import GemBinder.Selection

/-! # Every method is accounted for

    A verdict answers three questions about a method: whether the registry
    skips it, whether all its types can cross, and whether the registry has
    both halves of the code for it (`Ruling`).  What a selection retains, what
    it counts and what it lists as filtered follow from these answers, and
    since a method keeps its answers, selecting from what was retained
    changes nothing. -/

namespace GemBinder

/-! ## Three questions about a method -/

/-- Whether the registry skips a method. -/
def Registry.skips (r : Registry) (m : Member) : Bool :=
  (r.skipReason? m.owner m.method.name).isSome

/-- Whether all types of a method can cross. -/
def TypeRules.supports (r : TypeRules) (m : Method) : Bool :=
  !r.isUnsupported m.returnType && m.parameters.all fun p => !r.isUnsupported p.type

/-- Whether a snippet has given code. -/
def givesCode : Attempt (Option String) → Bool
  | .ok (some _) => true
  | _ => false

/-- Whether the registry has both halves of the code for a method. -/
def Registry.binds (r : Registry) (m : Member) : Bool :=
  givesCode (r.nativeCode m.owner m.method) && givesCode (r.bindingCode m.owner m.method)

/-- The registry answers for a method: where it has to be asked for code,
    asking does not fail. -/
def Registry.Answers (r : Registry) (rules : TypeRules) (m : Member) : Prop :=
  r.skips m = false → rules.supports m.method = false →
    ∃ native binding, r.nativeCode m.owner m.method = .ok native ∧
      r.bindingCode m.owner m.method = .ok binding

/-- Whether a method is to be retained. -/
def retainable (registry : Registry) (rules : TypeRules) (m : Member) : Bool :=
  !registry.skips m && (rules.supports m.method || registry.binds m)

/-- Whether a method is to be filtered out. -/
def droppable (registry : Registry) (rules : TypeRules) (m : Member) : Bool :=
  !registry.skips m && !rules.supports m.method && !registry.binds m

theorem Category.reason?_eq_none_iff {c : Category} :
    c.reason? = none ↔ c.isUnsupported = false := by
  rw [Category.reason?, Category.isUnsupported, Option.map_eq_none_iff, Bool.eq_false_iff]
  exact Option.not_isSome_iff_eq_none.symm

theorem TypeRules.supports_iff {rules : TypeRules} {m : Method} :
    rules.supports m = true ↔ rules.isUnsupported m.returnType = false ∧
      ∀ p ∈ m.parameters, rules.isUnsupported p.type = false := by
  rw [TypeRules.supports, Bool.and_eq_true, Bool.not_eq_true', List.all_eq_true]
  simp only [Bool.not_eq_true']

/-- The rules have a reason against a method unless they support it. -/
theorem TypeRules.methodReason?_eq_none_iff {rules : TypeRules} {m : Method} :
    rules.methodReason? m = none ↔ rules.supports m = true := by
  have hreason : ∀ type, rules.reason? type = none ↔ rules.isUnsupported type = false :=
    fun type => Category.reason?_eq_none_iff
  rw [TypeRules.supports_iff, TypeRules.methodReason?]
  cases hreturn : rules.reason? m.returnType with
  | some reason =>
      constructor
      · intro h
        exact nomatch h
      · rintro ⟨hret, -⟩
        exact nomatch hreturn.symm.trans ((hreason _).mpr hret)
  | none =>
      dsimp only
      rw [List.findSome?_eq_none_iff]
      constructor
      · intro h
        exact ⟨(hreason _).mp hreturn, fun p hp => (hreason _).mp (Option.map_eq_none_iff.mp (h p hp))⟩
      · rintro ⟨-, h⟩ p hp
        exact Option.map_eq_none_iff.mpr ((hreason _).mpr (h p hp))

/-! ## The ruling on a method -/

/-- The verdict that the answers lead to. -/
inductive Ruling (registry : Registry) (rules : TypeRules) (m : Member) : Verdict → Prop where
  | skipped {reason} : registry.skips m = true → Ruling registry rules m (.skipped reason)
  | generated : registry.skips m = false → rules.supports m.method = true →
      Ruling registry rules m .generated
  | overridden {reason} : registry.skips m = false → rules.supports m.method = false →
      registry.binds m = true → Ruling registry rules m (.overridden reason)
  | filtered {reason halfBound} : registry.skips m = false →
      rules.methodReason? m.method = some reason → registry.binds m = false →
      Ruling registry rules m (.filtered reason halfBound)

variable {registry : Registry} {rules : TypeRules} {m : Member}

theorem TypeRules.supports_eq_false {m : Method} {reason : String}
    (h : rules.methodReason? m = some reason) : rules.supports m = false := by
  rw [Bool.eq_false_iff, Ne, ← TypeRules.methodReason?_eq_none_iff, h]
  exact nofun

theorem judge_of_skips (h : registry.skips m = true) :
    ∃ reason, judge registry rules m = .ok (.skipped reason) := by
  obtain ⟨reason, hreason⟩ := Option.isSome_iff_exists.mp h
  obtain ⟨action, haction, hskip⟩ := Option.bind_eq_some_iff.mp hreason
  cases action with
  | custom native binding => exact nomatch hskip
  | skip reason =>
      rw [judge]
      rw [haction]
      exact ⟨reason, rfl⟩

theorem judge_of_not_skips (h : registry.skips m = false) :
    judge registry rules m = match rules.methodReason? m.method with
      | none => .ok .generated
      | some reason =>
          judgeUnsupported (registry.action? m.owner m.method.name) m.method reason := by
  have hskips : ((registry.action? m.owner m.method.name).bind Action.skipReason?).isSome = false :=
    h
  rw [judge]
  cases haction : registry.action? m.owner m.method.name with
  | none => rfl
  | some action =>
      rw [haction] at hskips
      cases action with
      | skip reason => exact nomatch hskips
      | custom native binding => rfl

/-- A method that the rules cannot bind is bound by two halves of code. -/
theorem judgeUnsupported_eq {native binding : Option String} (reason : String)
    (hnative : registry.nativeCode m.owner m.method = .ok native)
    (hbinding : registry.bindingCode m.owner m.method = .ok binding) :
    judgeUnsupported (registry.action? m.owner m.method.name) m.method reason
      = .ok (if native.isSome && binding.isSome then .overridden reason
          else .filtered reason (native.isSome != binding.isSome)) := by
  rw [Registry.nativeCode] at hnative
  rw [Registry.bindingCode] at hbinding
  cases haction : registry.action? m.owner m.method.name with
  | none =>
      rw [haction] at hnative hbinding
      cases hnative
      cases hbinding
      rfl
  | some action =>
      rw [haction] at hnative hbinding
      cases action with
      | skip _ =>
          cases hnative
          cases hbinding
          rfl
      | custom _ _ =>
          dsimp only at hnative hbinding
          rw [judgeUnsupported]
          rw [hnative, hbinding]
          cases native <;> cases binding <;> rfl

/-- **A VERDICT FOLLOWS FROM THE ANSWERS**, and there is one if the registry
    answers. -/
theorem exists_judge (h : registry.Answers rules m) :
    ∃ v, judge registry rules m = .ok v ∧ Ruling registry rules m v := by
  cases hskips : registry.skips m with
  | true =>
      have hskipped : ∃ reason, judge registry rules m = .ok (.skipped reason) :=
        judge_of_skips hskips
      obtain ⟨reason, hjudge⟩ := hskipped
      exact ⟨_, hjudge, .skipped hskips⟩
  | false =>
      rw [judge_of_not_skips hskips]
      cases hreason : rules.methodReason? m.method with
      | none =>
          exact ⟨_, rfl, .generated hskips (TypeRules.methodReason?_eq_none_iff.mp hreason)⟩
      | some reason =>
          have hunsupported := TypeRules.supports_eq_false hreason
          obtain ⟨native, binding, hnative, hbinding⟩ := h hskips hunsupported
          have hbinds : registry.binds m = (native.isSome && binding.isSome) := by
            rw [Registry.binds, hnative, hbinding]
            cases native <;> cases binding <;> rfl
          refine ⟨_, judgeUnsupported_eq reason hnative hbinding, ?_⟩
          by_cases hboth : (native.isSome && binding.isSome) = true
          · rw [if_pos hboth]
            exact .overridden hskips hunsupported (hbinds.trans hboth)
          · rw [if_neg hboth]
            exact .filtered hskips hreason (hbinds.trans (Bool.eq_false_iff.mpr hboth))

/-- A verdict on a method shows that the registry answers for it. -/
theorem answers_of_judge {v : Verdict} (h : judge registry rules m = .ok v) :
    registry.Answers rules m := by
  intro hskips hsupports
  rw [judge_of_not_skips hskips] at h
  cases hreason : rules.methodReason? m.method with
  | none =>
      rw [TypeRules.methodReason?_eq_none_iff, hsupports] at hreason
      exact nomatch hreason
  | some reason =>
      rw [hreason] at h
      rw [Registry.nativeCode, Registry.bindingCode]
      cases haction : registry.action? m.owner m.method.name with
      | none => exact ⟨none, none, rfl, rfl⟩
      | some action =>
          rw [haction] at h
          cases action with
          | skip _ => exact ⟨none, none, rfl, rfl⟩
          | custom native binding =>
              -- both halves are asked for before the verdict
              obtain ⟨native, hnative, h⟩ := Attempt.bind_eq_ok.mp h
              obtain ⟨binding, hbinding, -⟩ := Attempt.bind_eq_ok.mp h
              exact ⟨native, binding, hnative, hbinding⟩

/-- Whether a verdict is that code binds the method. -/
def Verdict.isOverridden : Verdict → Bool
  | .overridden _ => true
  | _ => false

/-- Whether a verdict is that the method is skipped. -/
def Verdict.isSkipped : Verdict → Bool
  | .skipped _ => true
  | _ => false

/-- Whether a verdict is that the method is filtered out. -/
def Verdict.isFiltered : Verdict → Bool
  | .filtered _ _ => true
  | _ => false

/-- What kind of verdict a ruling is can be told from the answers. -/
structure Ruling.Kind (registry : Registry) (rules : TypeRules) (m : Member) (v : Verdict) :
    Prop where
  generated : (v == .generated) = (!registry.skips m && rules.supports m.method)
  overridden : v.isOverridden
    = (!registry.skips m && !rules.supports m.method && registry.binds m)
  skipped : v.isSkipped = registry.skips m
  filtered : v.isFiltered = droppable registry rules m
  keeps : v.keeps = retainable registry rules m

theorem Ruling.kind {v : Verdict} (h : Ruling registry rules m v) :
    Ruling.Kind registry rules m v := by
  cases h with
  | skipped hskips =>
      constructor <;> simp only [droppable, retainable, hskips] <;> rfl
  | generated hskips hsupports =>
      constructor <;> simp only [droppable, retainable, hskips, hsupports] <;> rfl
  | overridden hskips hsupports hbinds =>
      constructor <;> simp only [droppable, retainable, hskips, hsupports, hbinds] <;> rfl
  | filtered hskips hreason hbinds =>
      have hsupports := TypeRules.supports_eq_false hreason
      constructor <;> simp only [droppable, retainable, hskips, hsupports, hbinds] <;> rfl

/-! ## Verdicts on many methods -/

/-- Judged members whose verdicts are the rulings on them. -/
def RuledOn (registry : Registry) (rules : TypeRules) (js : List Judged) : Prop :=
  ∀ j ∈ js, judge registry rules j.toMember = .ok j.verdict ∧
    Ruling registry rules j.toMember j.verdict

variable {js : List Judged}

theorem RuledOn.judgeAll_eq (h : RuledOn registry rules js) :
    judgeAll registry rules (js.map (·.toMember)) = (js, none) := by
  induction js with
  | nil => rfl
  | cons j more ih =>
      obtain ⟨hj, hmore⟩ := List.forall_mem_cons.mp h
      rw [List.map_cons, judgeAll]
      rw [hj.1]
      dsimp only
      rw [ih hmore]

theorem exists_ruledOn {ms : List Member} (h : ∀ m ∈ ms, registry.Answers rules m) :
    ∃ js : List Judged, js.map (·.toMember) = ms ∧ RuledOn registry rules js := by
  induction ms with
  | nil => exact ⟨[], rfl, nofun⟩
  | cons m more ih =>
      obtain ⟨hm, hmore⟩ := List.forall_mem_cons.mp h
      obtain ⟨v, hv⟩ := exists_judge hm
      obtain ⟨js, hmembers, hjs⟩ := ih hmore
      refine ⟨⟨m, v⟩ :: js, ?_, List.forall_mem_cons.mpr ⟨hv, hjs⟩⟩
      rw [List.map_cons, hmembers]

theorem exists_judge_of_judgeAll {ms : List Member}
    (h : judgeAll registry rules ms = (js, none)) :
    ∀ m ∈ ms, ∃ v, judge registry rules m = .ok v := by
  induction ms generalizing js with
  | nil => exact nofun
  | cons m more ih =>
      rw [judgeAll] at h
      cases hjudge : judge registry rules m with
      | error f =>
          rw [hjudge] at h
          exact nomatch h
      | ok v =>
          rw [hjudge] at h
          obtain ⟨-, hfailure⟩ := Prod.mk.inj h
          have hmore : judgeAll registry rules more = ((judgeAll registry rules more).1, none) :=
            Prod.ext rfl hfailure
          exact List.forall_mem_cons.mpr ⟨⟨v, hjudge⟩, ih hmore⟩

/-- What holds of verdicts just when something holds of their members is met
    as often. -/
theorem countP_eq_length_filter_members {p : Judged → Bool} {q : Member → Bool}
    (h : ∀ j ∈ js, p j = q j.toMember) :
    js.countP p = ((js.map (·.toMember)).filter q).length := by
  rw [← List.countP_eq_length_filter, List.countP_map]
  refine List.countP_congr ?_
  intro j hj
  rw [h j hj]
  rfl

/-- The judged members that are kept are those that are to be retained. -/
theorem RuledOn.map_filter_keeps (h : RuledOn registry rules js) :
    (js.filter (·.verdict.keeps)).map (·.toMember)
      = (js.map (·.toMember)).filter (retainable registry rules) := by
  rw [List.filter_map]
  refine congrArg _ (List.filter_congr ?_)
  intro j hj
  exact (h j hj).2.kind.keeps

theorem RuledOn.filter_keeps (h : RuledOn registry rules js) :
    RuledOn registry rules (js.filter (·.verdict.keeps)) :=
  fun j hj => h j (List.mem_of_mem_filter hj)

/-! ## The counts -/

/-- The member that was filtered out. -/
def FilteredMethod.toMember (f : FilteredMethod) : Member := ⟨f.owner, f.method⟩

/-- The statistics with one more verdict in front. -/
def Stats.count (s : Stats) (j : Judged) : Stats :=
  match j.verdict with
  | .skipped _ => { s with skippedCount := s.skippedCount + 1 }
  | .generated => { s with generatedCount := s.generatedCount + 1 }
  | .overridden _ => { s with overriddenCount := s.overriddenCount + 1 }
  | .filtered reason _ =>
      { s with
        filteredCount := s.filteredCount + 1
        filtered := ⟨j.owner, j.method, reason⟩ :: s.filtered }

/-- **ONE VERDICT RAISES ONE COUNT.** -/
theorem Stats.of_cons (j : Judged) (js : List Judged) :
    Stats.of (j :: js) = (Stats.of js).count j := by
  obtain ⟨m, v⟩ := j
  unfold Stats.of Stats.count
  simp only [List.countP_cons]
  cases v <;> rfl

/-- Every verdict is counted once. -/
theorem Stats.total_of (js : List Judged) :
    (Stats.of js).generatedCount + (Stats.of js).overriddenCount + (Stats.of js).filteredCount
      + (Stats.of js).skippedCount = js.length := by
  induction js with
  | nil => rfl
  | cons j more ih =>
      rw [Stats.of_cons, Stats.count, List.length_cons]
      cases j.verdict <;> dsimp only <;> omega

/-- What is generated and what is overridden is what is kept. -/
theorem Stats.kept_of (js : List Judged) :
    (Stats.of js).generatedCount + (Stats.of js).overriddenCount
      = (js.filter (·.verdict.keeps)).length := by
  induction js with
  | nil => rfl
  | cons j more ih =>
      rw [Stats.of_cons, Stats.count]
      cases hv : j.verdict with
      | skipped reason =>
          rw [List.filter_cons_of_neg (by rw [hv]; exact Bool.false_ne_true)]
          exact ih
      | filtered reason halfBound =>
          rw [List.filter_cons_of_neg (by rw [hv]; exact Bool.false_ne_true)]
          exact ih
      | generated =>
          rw [List.filter_cons_of_pos (by rw [hv]; rfl), List.length_cons, ← ih]
          exact Nat.add_right_comm _ _ _
      | overridden reason =>
          rw [List.filter_cons_of_pos (by rw [hv]; rfl), List.length_cons, ← ih]
          exact (Nat.add_assoc _ _ _).symm

/-- Of the kept members alone nothing is filtered or skipped, and as much is
    generated and overridden. -/
theorem Stats.of_filter_keeps (js : List Judged) :
    Stats.of (js.filter (·.verdict.keeps))
      = { Stats.of js with filteredCount := 0, skippedCount := 0, filtered := [] } := by
  induction js with
  | nil => rfl
  | cons j more ih =>
      rw [Stats.of_cons, Stats.count, List.filter_cons]
      cases hv : j.verdict with
      | skipped reason => exact ih
      | filtered reason halfBound => exact ih
      | generated =>
          rw [if_pos (by rfl), Stats.of_cons, Stats.count, hv, ih]
      | overridden reason =>
          rw [if_pos (by rfl), Stats.of_cons, Stats.count, hv, ih]

/-- What the statistics of rulings say about the members. -/
structure Accounts (registry : Registry) (rules : TypeRules) (ms : List Member) (s : Stats) :
    Prop where
  /-- Generated is what is not skipped and has types that can cross. -/
  generated : s.generatedCount
    = (ms.filter fun m => !registry.skips m && rules.supports m.method).length
  /-- Overridden is what cannot cross and is bound by code. -/
  overridden : s.overriddenCount
    = (ms.filter fun m => !registry.skips m && !rules.supports m.method && registry.binds m).length
  skipped : s.skippedCount = (ms.filter registry.skips).length
  /-- The rest is listed in order, each with the reason against it. -/
  filtered : s.filtered.map FilteredMethod.toMember = ms.filter (droppable registry rules)
  reasons : ∀ f ∈ s.filtered, rules.methodReason? f.method = some f.reason
  counted : s.filtered.length = s.filteredCount

/-- The members that are listed as filtered are those that are to be
    filtered out. -/
theorem RuledOn.map_filtered? (h : RuledOn registry rules js) :
    (js.filterMap Judged.filtered?).map FilteredMethod.toMember
      = (js.map (·.toMember)).filter (droppable registry rules) := by
  induction js with
  | nil => rfl
  | cons j more ih =>
      obtain ⟨⟨-, hj⟩, hmore⟩ := List.forall_mem_cons.mp h
      have hdrop := hj.kind.filtered
      rw [List.map_cons, List.filterMap_cons, List.filter_cons, ← hdrop, Judged.filtered?]
      cases j.verdict with
      | filtered reason halfBound => exact congrArg _ (ih hmore)
      | skipped reason => exact ih hmore
      | generated => exact ih hmore
      | overridden reason => exact ih hmore

theorem RuledOn.reason_eq (h : RuledOn registry rules js) {f : FilteredMethod}
    (hf : f ∈ js.filterMap Judged.filtered?) : rules.methodReason? f.method = some f.reason := by
  obtain ⟨j, hj, hfiltered⟩ := List.mem_filterMap.mp hf
  obtain ⟨-, hruling⟩ := h j hj
  rw [Judged.filtered?] at hfiltered
  cases hv : j.verdict with
  | filtered reason halfBound =>
      rw [hv] at hfiltered hruling
      cases hfiltered
      cases hruling with
      | filtered hskips hreason hbinds => exact hreason
  | skipped reason => rw [hv] at hfiltered; exact nomatch hfiltered
  | generated => rw [hv] at hfiltered; exact nomatch hfiltered
  | overridden reason => rw [hv] at hfiltered; exact nomatch hfiltered

/-- **THE STATISTICS ACCOUNT FOR EVERY MEMBER.** -/
theorem RuledOn.accounts (h : RuledOn registry rules js) :
    Accounts registry rules (js.map (·.toMember)) (Stats.of js) where
  generated := countP_eq_length_filter_members fun j hj => (h j hj).2.kind.generated
  overridden := countP_eq_length_filter_members fun j hj => (h j hj).2.kind.overridden
  skipped := countP_eq_length_filter_members fun j hj => (h j hj).2.kind.skipped
  filtered := h.map_filtered?
  reasons := fun _ hf => h.reason_eq hf
  counted := rfl

/-! ## The classes that are retained -/

/-- What is to be retained of a class. -/
def ClassDecl.retainable (registry : Registry) (rules : TypeRules) (c : ClassDecl) : ClassDecl :=
  c.withMethods (c.methods.filter fun m => GemBinder.retainable registry rules ⟨c.name, m⟩)

/-- The members of what is to be retained. -/
theorem membersOf_map_retainable (classes : List ClassDecl) :
    membersOf (classes.map (ClassDecl.retainable registry rules))
      = (membersOf classes).filter (retainable registry rules) := by
  rw [membersOf, membersOf, List.flatMap_map, List.filter_flatMap]
  refine congrArg (fun f => List.flatMap f classes) (funext fun c => ?_)
  rw [List.filter_map]
  rfl

theorem retain_eq {c : ClassDecl} (h : ∀ m ∈ c.methods, registry.Answers rules ⟨c.name, m⟩) :
    retain registry rules c = c.retainable registry rules := by
  refine congrArg c.withMethods (List.filter_congr ?_)
  intro m hm
  obtain ⟨v, hjudge, hruling⟩ := exists_judge (h m hm)
  rw [hjudge]
  exact hruling.kind.keeps

/-- Nothing more is dropped from what is to be retained. -/
theorem ClassDecl.retainable_retainable (c : ClassDecl) :
    (c.retainable registry rules).retainable registry rules = c.retainable registry rules := by
  refine congrArg c.withMethods ?_
  refine (List.filter_filter (l := c.methods)).trans (List.filter_congr fun m _ => ?_)
  exact Bool.and_self _

/-- What a selection gives if the registry answers. -/
theorem exists_selectMethods {classes : List ClassDecl}
    (h : ∀ m ∈ membersOf classes, registry.Answers rules m) :
    ∃ js : List Judged, js.map (·.toMember) = membersOf classes ∧ RuledOn registry rules js ∧
      selectMethods registry rules classes
        = .ok (classes.map (ClassDecl.retainable registry rules), Stats.of js) := by
  obtain ⟨js, hmembers, hjs⟩ := exists_ruledOn h
  refine ⟨js, hmembers, hjs, ?_⟩
  rw [selectMethods]
  rw [← hmembers, hjs.judgeAll_eq]
  have hretain : classes.map (retain registry rules)
      = classes.map (ClassDecl.retainable registry rules) := by
    refine List.map_congr_left fun c hc => retain_eq fun m hm => ?_
    exact h _ (mem_membersOf.mpr ⟨c, hc, rfl, hm⟩)
  dsimp only
  rw [hretain]

/-- **A SELECTION SUCCEEDS** just when the registry answers for every method. -/
theorem selectMethods_eq_ok_iff {classes : List ClassDecl} :
    (∃ result, selectMethods registry rules classes = .ok result) ↔
      ∀ m ∈ membersOf classes, registry.Answers rules m := by
  constructor
  · rintro ⟨result, h⟩ m hm
    rw [selectMethods] at h
    cases hall : judgeAll registry rules (membersOf classes) with
    | mk judged failure =>
        rw [hall] at h
        cases failure with
        | some f => exact nomatch h
        | none =>
            obtain ⟨v, hv⟩ := exists_judge_of_judgeAll hall m hm
            exact answers_of_judge hv
  · intro h
    obtain ⟨js, -, -, hselect⟩ := exists_selectMethods h
    exact ⟨_, hselect⟩

/-! ## Without entries in the registry -/

/-- The part of a class whose types can cross. -/
def ClassDecl.supported (rules : TypeRules) (c : ClassDecl) : ClassDecl :=
  c.withMethods (c.methods.filter (rules.supports ·))

theorem Registry.answers_empty : ({} : Registry).Answers rules m :=
  fun _ _ => ⟨none, none, rfl, rfl⟩

/-- Without entries the rules alone decide. -/
theorem ClassDecl.retainable_empty (c : ClassDecl) : c.retainable {} rules = c.supported rules := by
  refine congrArg c.withMethods (List.filter_congr fun method _ => ?_)
  show (rules.supports method || false) = rules.supports method
  exact Bool.or_false _

/-- **WITHOUT ENTRIES A SELECTION SUCCEEDS**, and retains the methods whose
    types can cross. -/
theorem exists_selectMethods_empty (rules : TypeRules) (classes : List ClassDecl) :
    ∃ stats, selectMethods {} rules classes
      = .ok (classes.map (ClassDecl.supported rules), stats) := by
  have hanswers : ∀ m ∈ membersOf classes, ({} : Registry).Answers rules m :=
    fun _ _ => Registry.answers_empty
  obtain ⟨js, -, -, hselect⟩ := exists_selectMethods hanswers
  refine ⟨Stats.of js, hselect.trans ?_⟩
  rw [funext ClassDecl.retainable_empty]

/-! ## Selecting again -/

/-- Selecting from what was retained. -/
theorem RuledOn.selectMethods_retainable (h : RuledOn registry rules js)
    {classes : List ClassDecl} (hmembers : js.map (·.toMember) = membersOf classes)
    (hanswers : ∀ m ∈ membersOf classes, registry.Answers rules m) :
    selectMethods registry rules (classes.map (ClassDecl.retainable registry rules))
      = .ok (classes.map (ClassDecl.retainable registry rules),
          { Stats.of js with filteredCount := 0, skippedCount := 0, filtered := [] }) := by
  have hkept : membersOf (classes.map (ClassDecl.retainable registry rules))
      = (js.filter (·.verdict.keeps)).map (·.toMember) := by
    rw [membersOf_map_retainable, h.map_filter_keeps, hmembers]
  have hretain : (classes.map (ClassDecl.retainable registry rules)).map (retain registry rules)
      = classes.map (ClassDecl.retainable registry rules) := by
    rw [List.map_map]
    refine List.map_congr_left fun c hc => ?_
    refine (retain_eq fun m hm => ?_).trans c.retainable_retainable
    exact hanswers _ (mem_membersOf.mpr ⟨c, hc, rfl, List.mem_of_mem_filter hm⟩)
  rw [selectMethods]
  rw [hkept, h.filter_keeps.judgeAll_eq]
  dsimp only
  rw [hretain, Stats.of_filter_keeps]

/-! ## Nothing is lost and nothing is doubled -/

/-- What a selection leaves of a class: all but methods. -/
structure KeepsOf (registry : Registry) (rules : TypeRules) (c k : ClassDecl) : Prop where
  name : k.name = c.name
  header : k.header = c.header
  enums : k.enums = c.enums
  /-- The methods that are to be retained, in their order. -/
  methods : k.methods = c.methods.filter fun m => retainable registry rules ⟨c.name, m⟩

/-- **NOTHING IS LOST AND NOTHING IS DOUBLED** in a selection, which there is
    just when the registry answers: every class stays with the methods that
    are to be retained, every method is counted once, and a second selection
    changes nothing. -/
theorem selection_conserves (registry : Registry) (rules : TypeRules) (classes : List ClassDecl) :
    ((∃ result, selectMethods registry rules classes = .ok result) ↔
      ∀ m ∈ membersOf classes, registry.Answers rules m) ∧
    ∀ retained stats, selectMethods registry rules classes = .ok (retained, stats) →
      List.Forall₂ (KeepsOf registry rules) classes retained ∧
      stats.generatedCount + stats.overriddenCount = (membersOf retained).length ∧
      stats.generatedCount + stats.overriddenCount + stats.filteredCount + stats.skippedCount
        = (membersOf classes).length ∧
      Accounts registry rules (membersOf classes) stats ∧
      selectMethods registry rules retained = .ok (retained,
        { stats with filteredCount := 0, skippedCount := 0, filtered := [] }) := by
  refine ⟨selectMethods_eq_ok_iff, fun retained stats h => ?_⟩
  have hanswers := selectMethods_eq_ok_iff.mp ⟨_, h⟩
  obtain ⟨js, hmembers, hjs, hselect⟩ := exists_selectMethods hanswers
  cases hselect.symm.trans h
  refine ⟨?_, ?_, ?_, ?_, hjs.selectMethods_retainable hmembers hanswers⟩
  · rw [List.forall₂_map_right_iff, List.forall₂_same]
    intro c hc
    exact ⟨rfl, rfl, rfl, rfl⟩
  · rw [Stats.kept_of, membersOf_map_retainable, ← hmembers, ← hjs.map_filter_keeps,
      List.length_map]
  · rw [Stats.total_of, ← hmembers, List.length_map]
  · rw [← hmembers]
    exact hjs.accounts

/-- A clock and lights: one method is skipped, one crosses, one is bound by
    code and one is filtered out. -/
def clockAndLights : List ClassDecl :=
  [{ name := "RTC_Base", methods := [⟨"getTime", "rtc_time_t&", [], false, false, false⟩] },
   { name := "LED_Class", methods :=
      [⟨"setBrightness", "void", [⟨"uint8_t", "brightness"⟩], false, false, false⟩,
       ⟨"setAllColor", "void", [⟨"const RGBColor&", "color"⟩], false, false, false⟩,
       ⟨"getBuffer", "uint8_t*", [], false, false, false⟩] }]

/-- Each of the four is counted, and two remain in every further selection. -/
theorem selection_conserves_clockAndLights :
    ∃ retained stats, selectMethods .builtin .default clockAndLights = .ok (retained, stats) ∧
      stats.generatedCount = 1 ∧ stats.overriddenCount = 1 ∧ stats.filteredCount = 1 ∧
      stats.skippedCount = 1 ∧ (membersOf retained).length = 2 ∧
      selectMethods .builtin .default retained = .ok (retained,
        { stats with filteredCount := 0, skippedCount := 0, filtered := [] }) := by
  have hrun : (selectMethods .builtin .default clockAndLights).toOption.map (fun result =>
      (result.2.generatedCount, result.2.overriddenCount, result.2.skippedCount))
      = some (1, 1, 1) := by decide +kernel
  cases hselect : selectMethods .builtin .default clockAndLights with
  | error f =>
      rw [hselect] at hrun
      exact nomatch hrun
  | ok result =>
      obtain ⟨retained, stats⟩ := result
      rw [hselect] at hrun
      obtain ⟨hgenerated, hothers⟩ := Prod.mk.inj (Option.some.inj hrun)
      obtain ⟨hoverridden, hskipped⟩ := Prod.mk.inj hothers
      obtain ⟨-, hkept, htotal, -, hagain⟩ :=
        (selection_conserves .builtin .default clockAndLights).2 retained stats hselect
      have hcount : (membersOf clockAndLights).length = 4 := rfl
      dsimp only at hgenerated hoverridden hskipped
      exact ⟨retained, stats, rfl, hgenerated, hoverridden, by omega, hskipped, by omega, hagain⟩

end GemBinder
