import GemBinder.Proofs.Source.Layout

/-! # Native functions, declared and defined

    The C source declares the native functions and the native source defines
    them.  Each walks the members on its own, with its own memory of the
    names and the code that it has met.  What a walk leaves behind is written
    down as a relation, one rule for each thing that can happen to a member;
    the agreement of the two (`Defines.ruled_eq`) is then an induction on one
    of them. -/

namespace GemBinder

open Text

/-- What the native source has for a member: a function that the rules make,
    or code of the registry. -/
inductive NativeBlock where
  | rules (m : Member) (function : List String)
  | code (m : Member) (text : String)

namespace NativeBlock

/-- The lines of a block, with the empty line that ends it. -/
def lines : NativeBlock → List String
  | .rules _ function => function ++ [""]
  | .code m text =>
      s!"// {m.owner}::{m.method.signature} (override)" :: linesOfCode text ++ [""]

/-- The member whose function the rules make. -/
def ruled? : NativeBlock → Option Member
  | .rules m _ => some m
  | .code _ _ => none

/-- The first line of a function that the rules make. -/
def head? : NativeBlock → Option String
  | .rules _ function => function.head?
  | .code _ _ => none

end NativeBlock

namespace Generator

variable {g : Generator}

/-- The name of the native function of a member. -/
def nameOf (g : Generator) (m : Member) : String :=
  m.method.nativeName m.owner g.config.vendorPrefix

theorem nativeName_eq_nameOf (m : Member) :
    m.method.nativeName m.owner g.config.vendorPrefix = g.nameOf m := rfl

/-! ## What the walks leave behind -/

/-- The members that are declared, given the names that were met before. -/
inductive Declares (g : Generator) : List String → List Member → List Member → Prop where
  | nil {seen} : Declares g seen [] []
  | bound {seen m more ds code} : g.registry.bindingCode m.owner m.method = .ok (some code) →
      Declares g seen more ds → Declares g seen (m :: more) ds
  | repeated {seen m more ds} : g.registry.bindingCode m.owner m.method = .ok none →
      g.nameOf m ∈ seen → Declares g seen more ds → Declares g seen (m :: more) ds
  | declared {seen m more ds} : g.registry.bindingCode m.owner m.method = .ok none →
      g.nameOf m ∉ seen → Declares g (g.nameOf m :: seen) more ds →
      Declares g seen (m :: more) (m :: ds)

/-- The blocks of the native source, given the names and the code that were
    met before. -/
inductive Defines (g : Generator) :
    List String → List String → List Member → List NativeBlock → Prop where
  | nil {defined written} : Defines g defined written [] []
  | again {defined written m more blocks code} :
      g.registry.nativeCode m.owner m.method = .ok (some code) → code ∈ written →
      Defines g defined written more blocks → Defines g defined written (m :: more) blocks
  | code {defined written m more blocks code} :
      g.registry.nativeCode m.owner m.method = .ok (some code) → code ∉ written →
      Defines g defined (code :: written) more blocks →
      Defines g defined written (m :: more) (.code m code :: blocks)
  | repeated {defined written m more blocks} :
      g.registry.nativeCode m.owner m.method = .ok none → g.nameOf m ∈ defined →
      Defines g defined written more blocks → Defines g defined written (m :: more) blocks
  | rules {defined written m more blocks function} :
      g.registry.nativeCode m.owner m.method = .ok none → g.nameOf m ∉ defined →
      g.nativeFunction m = .ok function →
      Defines g (g.nameOf m :: defined) written more blocks →
      Defines g defined written (m :: more) (.rules m function :: blocks)

theorem declares_of_declared {seen : List String} {ms ds : List Member}
    (h : g.declared seen ms = .ok ds) : Declares g seen ms ds := by
  induction ms generalizing seen ds with
  | nil =>
      cases h
      exact .nil
  | cons m more ih =>
      obtain ⟨code, hcode, h⟩ := Attempt.bind_eq_ok.mp h
      dsimp only at h
      cases code with
      | some code => exact .bound hcode (ih h)
      | none =>
          rw [Option.isSome_none, Bool.false_or, nativeName_eq_nameOf] at h
          by_cases hseen : seen.contains (g.nameOf m) = true
          · rw [if_pos hseen] at h
            exact .repeated hcode (List.contains_iff_mem.mp hseen) (ih h)
          · rw [if_neg hseen] at h
            rw [List.contains_iff_mem] at hseen
            obtain ⟨rest, hrest, h⟩ := Attempt.bind_eq_ok.mp h
            cases Attempt.pure_eq_ok.mp h
            exact .declared hcode hseen (ih hrest)

/-- The definitions are the lines of the blocks. -/
theorem defines_of_definitionsFrom {defined written : List String} {ms : List Member}
    {lines : List String} (h : g.definitionsFrom defined written ms = .ok lines) :
    ∃ blocks, Defines g defined written ms blocks ∧ lines = blocks.flatMap NativeBlock.lines := by
  induction ms generalizing defined written lines with
  | nil =>
      cases h
      exact ⟨[], .nil, rfl⟩
  | cons m more ih =>
      obtain ⟨code, hcode, h⟩ := Attempt.bind_eq_ok.mp h
      cases code with
      | some code =>
          dsimp only at h
          by_cases hwritten : written.contains code = true
          · rw [if_pos hwritten] at h
            obtain ⟨blocks, hblocks, rfl⟩ := ih h
            exact ⟨blocks, .again hcode (List.contains_iff_mem.mp hwritten) hblocks, rfl⟩
          · rw [if_neg hwritten] at h
            rw [List.contains_iff_mem] at hwritten
            obtain ⟨rest, hrest, h⟩ := Attempt.bind_eq_ok.mp h
            cases Attempt.pure_eq_ok.mp h
            obtain ⟨blocks, hblocks, rfl⟩ := ih hrest
            refine ⟨.code m code :: blocks, .code hcode hwritten hblocks, ?_⟩
            rw [List.flatMap_cons, NativeBlock.lines, List.append_assoc]
            rfl
      | none =>
          dsimp only at h
          rw [nativeName_eq_nameOf] at h
          by_cases hdefined : defined.contains (g.nameOf m) = true
          · rw [if_pos hdefined] at h
            obtain ⟨blocks, hblocks, rfl⟩ := ih h
            exact ⟨blocks, .repeated hcode (List.contains_iff_mem.mp hdefined) hblocks, rfl⟩
          · rw [if_neg hdefined] at h
            rw [List.contains_iff_mem] at hdefined
            obtain ⟨function, hfunction, h⟩ := Attempt.bind_eq_ok.mp h
            obtain ⟨rest, hrest, h⟩ := Attempt.bind_eq_ok.mp h
            cases Attempt.pure_eq_ok.mp h
            obtain ⟨blocks, hblocks, rfl⟩ := ih hrest
            refine ⟨.rules m function :: blocks, .rules hcode hdefined hfunction hblocks, ?_⟩
            rw [List.flatMap_cons, NativeBlock.lines, List.append_assoc]
            rfl

/-- A block of the rules holds the function that they make for its member. -/
theorem Defines.function_eq {defined written : List String} {ms : List Member}
    {blocks : List NativeBlock} {m : Member} {function : List String}
    (h : Defines g defined written ms blocks) (hmem : .rules m function ∈ blocks) :
    g.nativeFunction m = .ok function := by
  induction h with
  | nil => exact nomatch hmem
  | again _ _ _ ih => exact ih hmem
  | code _ _ _ ih =>
      rcases List.mem_cons.mp hmem with heq | hmore
      · exact nomatch heq
      · exact ih hmore
  | repeated _ _ _ ih => exact ih hmem
  | rules _ _ hfunction _ ih =>
      rcases List.mem_cons.mp hmem with heq | hmore
      · cases heq
        exact hfunction
      · exact ih hmore

/-- The call of a method of the instance of its class. -/
def methodCall (object : String) (m : Member) : String :=
  object ++ "." ++ m.method.name ++ "(" ++ m.method.argumentList ++ ")"

/-- **THE FORM OF A NATIVE FUNCTION**: its head, one line that calls the
    method, and a brace. -/
theorem nativeFunction_eq_ok {m : Member} {function : List String}
    (h : g.nativeFunction m = .ok function) :
    ∃ object before after, g.config.apiObject m.owner = .ok object ∧
      function = [g.nativeHead m ++ " \x7b", before ++ methodCall object m ++ after, "\x7d"] := by
  obtain ⟨object, hobject, h⟩ := Attempt.bind_eq_ok.mp h
  have hfill := filling_eq_ok.mp hobject
  cases Attempt.pure_eq_ok.mp h
  cases hcategory : g.rules.classify m.method.returnType with
  | boolean => exact ⟨object, "  return ", " ? 1 : 0;", hfill, rfl⟩
  | void => exact ⟨object, "  ", ";", hfill, rfl⟩
  | _ => exact ⟨object, "  return ", ";", hfill, rfl⟩

/-- The functions of the rules begin with the heads of their members. -/
theorem Defines.heads_eq {defined written : List String} {ms : List Member}
    {blocks : List NativeBlock} (h : Defines g defined written ms blocks) :
    blocks.filterMap NativeBlock.head?
      = (blocks.filterMap NativeBlock.ruled?).map fun m => g.nativeHead m ++ " \x7b" := by
  induction h with
  | nil => rfl
  | again _ _ _ ih => exact ih
  | code _ _ _ ih => exact ih
  | repeated _ _ _ ih => exact ih
  | rules _ _ hfunction _ ih =>
      obtain ⟨object, before, after, -, rfl⟩ := nativeFunction_eq_ok hfunction
      exact congrArg _ ih

/-! ## Agreement -/

/-- The registry has both halves of the code for a member, or neither. -/
def Paired (g : Generator) (m : Member) : Prop :=
  g.registry.nativeCode m.owner m.method = .ok none ↔
    g.registry.bindingCode m.owner m.method = .ok none

theorem codes_of_empty (hg : g.registry = {}) (m : Member) :
    g.registry.nativeCode m.owner m.method = .ok none ∧
      g.registry.bindingCode m.owner m.method = .ok none := by
  rw [hg]
  exact ⟨rfl, rfl⟩

theorem paired_of_empty (hg : g.registry = {}) (m : Member) : g.Paired m :=
  ⟨fun _ => (codes_of_empty hg m).2, fun _ => (codes_of_empty hg m).1⟩

/-- **WHAT IS DECLARED IS DEFINED**: if the registry has its code in pairs,
    the rules define the members that are declared, in the same order. -/
theorem Defines.ruled_eq {defined written : List String} {ms ds : List Member}
    {blocks : List NativeBlock} (hpaired : ∀ m ∈ ms, g.Paired m)
    (hdefines : Defines g defined written ms blocks) (hdeclares : Declares g defined ms ds) :
    blocks.filterMap NativeBlock.ruled? = ds := by
  -- by the cases of the definitions: the declarations pass over names they have
  -- seen, the definitions over names they have defined, and these are the same
  induction hdefines generalizing ds with
  | nil =>
      cases hdeclares
      rfl
  | again hcode _ _ ih =>
      have hmore := fun m hm => hpaired m (List.mem_cons_of_mem _ hm)
      have hsome := mt (hpaired _ List.mem_cons_self).mpr (by rw [hcode]; exact nofun)
      cases hdeclares with
      | bound _ hrest => exact ih hmore hrest
      | repeated hnone _ _ => exact absurd hnone hsome
      | declared hnone _ _ => exact absurd hnone hsome
  | code hcode _ _ ih =>
      have hmore := fun m hm => hpaired m (List.mem_cons_of_mem _ hm)
      have hsome := mt (hpaired _ List.mem_cons_self).mpr (by rw [hcode]; exact nofun)
      cases hdeclares with
      | bound _ hrest => exact ih hmore hrest
      | repeated hnone _ _ => exact absurd hnone hsome
      | declared hnone _ _ => exact absurd hnone hsome
  | repeated hcode hdefined _ ih =>
      have hmore := fun m hm => hpaired m (List.mem_cons_of_mem _ hm)
      have hnone := (hpaired _ List.mem_cons_self).mp hcode
      cases hdeclares with
      | bound hsome _ => exact nomatch hnone.symm.trans hsome
      | repeated _ _ hrest => exact ih hmore hrest
      | declared _ hnew _ => exact absurd hdefined hnew
  | rules hcode hdefined _ _ ih =>
      have hmore := fun m hm => hpaired m (List.mem_cons_of_mem _ hm)
      have hnone := (hpaired _ List.mem_cons_self).mp hcode
      cases hdeclares with
      | bound hsome _ => exact nomatch hnone.symm.trans hsome
      | repeated _ hseen _ => exact absurd hseen hdefined
      | declared _ _ hrest => exact congrArg _ (ih hmore hrest)

/-! ## First come, first declared -/

theorem Declares.subset {seen : List String} {ms ds : List Member} (h : Declares g seen ms ds) :
    ∀ m ∈ ds, m ∈ ms := by
  induction h with
  | nil => exact fun m hm => hm
  | bound _ _ ih => exact fun m hm => List.mem_cons_of_mem _ (ih m hm)
  | repeated _ _ _ ih => exact fun m hm => List.mem_cons_of_mem _ (ih m hm)
  | declared _ _ _ ih =>
      intro m hm
      rcases List.mem_cons.mp hm with rfl | hmore
      · exact List.mem_cons_self
      · exact List.mem_cons_of_mem _ (ih m hmore)

/-- Whether the native function of a member has a name. -/
def isNamed (g : Generator) (name : String) (m : Member) : Bool := g.nameOf m == name

theorem isNamed_iff {name : String} {m : Member} : g.isNamed name m = true ↔ g.nameOf m = name :=
  beq_iff_eq

/-- A name that was met before is not declared again. -/
theorem Declares.filter_of_seen {seen : List String} {ms ds : List Member} {name : String}
    (h : Declares g seen ms ds) (hseen : name ∈ seen) :
    ds.filter (g.isNamed name) = [] := by
  induction h with
  | nil => rfl
  | bound _ _ ih => exact ih hseen
  | repeated _ _ _ ih => exact ih hseen
  | @declared seen m more ds _ hnew _ ih =>
      have hne : ¬ g.isNamed name m = true := by
        intro heq
        exact hnew (isNamed_iff.mp heq ▸ hseen)
      rw [List.filter_cons_of_neg hne]
      exact ih (List.mem_cons_of_mem _ hseen)

/-- **OF EACH NAME THE FIRST MEMBER** is declared, where the registry has no
    code. -/
theorem Declares.filter_eq_find {seen : List String} {ms ds : List Member} {name : String}
    (h : Declares g seen ms ds)
    (hnone : ∀ m ∈ ms, g.registry.bindingCode m.owner m.method = .ok none)
    (hseen : name ∉ seen) :
    ds.filter (g.isNamed name) = (ms.find? (g.isNamed name)).toList := by
  induction h with
  | nil => rfl
  | @bound seen m more ds code hcode _ ih =>
      exact nomatch (hnone m List.mem_cons_self).symm.trans hcode
  | @repeated seen m more ds _ hmet _ ih =>
      have hne : ¬ g.isNamed name m = true := by
        intro heq
        exact hseen (isNamed_iff.mp heq ▸ hmet)
      rw [List.find?_cons_of_neg hne]
      exact ih (fun m' hm' => hnone m' (List.mem_cons_of_mem _ hm')) hseen
  | @declared seen m more ds _ _ hrest ih =>
      by_cases heq : g.isNamed name m = true
      · rw [List.filter_cons_of_pos heq, List.find?_cons_of_pos heq]
        -- the name is seen now, so that no later member is declared under it
        rw [hrest.filter_of_seen (isNamed_iff.mp heq ▸ List.mem_cons_self)]
        rfl
      · rw [List.filter_cons_of_neg heq, List.find?_cons_of_neg heq]
        refine ih (fun m' hm' => hnone m' (List.mem_cons_of_mem _ hm')) ?_
        intro hmem
        rcases List.mem_cons.mp hmem with rfl | hold
        · exact heq (isNamed_iff.mpr rfl)
        · exact hseen hold

end Generator
end GemBinder
