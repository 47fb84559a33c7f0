import Mathlib.Data.List.Infix
import GemBinder.Proofs.Source.Natives
import GemBinder.Proofs.Symbols

/-! # Whose function a wrapper calls

    A wrapper calls its native function by name, and the name is all that
    links it to a declaration in the C source and a definition in the native
    source.  Both come from the first member of that name.  The wrapper calls
    the function of its own method just when that member has the signature
    of the method: names leave out qualifiers, marks of pointers and
    references, and letter case, so that it need not. -/

namespace GemBinder

open Text

/-- Two members of one class with one name, parameter list and result. -/
structure SameSignature (a b : Member) : Prop where
  owner : a.owner = b.owner
  name : a.method.name = b.method.name
  parameters : a.method.parameterTypes = b.method.parameterTypes
  result : a.method.returnType = b.method.returnType

/-- How sources link the wrapper of a registration to a member. -/
structure LinksTo (g : Generator) (classes : List ClassDecl) (c native : List String)
    (r : Registration) (d : Member) : Prop where
  /-- The name that the wrapper calls is that of the member. -/
  named : g.nameOf d = g.nameOf r.toMember
  /-- The wrapper calls it. -/
  called : ∃ own before, g.wrapper r = .ok own ∧ own <:+: c ∧
    "  " ++ before ++ g.nativeCall r.toMember ++ ";" ∈ own
  /-- Of the declarations only the member's bears the name. -/
  declared : ∃ ds, g.declared [] (membersOf classes) = .ok ds ∧ ds.map g.externLine <:+: c ∧
    ds.filter (g.isNamed (g.nameOf d)) = [d]
  /-- Of the definitions only the member's bears the name, and it calls the
      method of the member. -/
  defined : ∃ blocks object before after, g.Defines [] [] (membersOf classes) blocks ∧
    blocks.flatMap NativeBlock.lines <:+: native ∧
    (blocks.filterMap NativeBlock.ruled?).filter (g.isNamed (g.nameOf d)) = [d] ∧
    g.config.apiObject d.owner = .ok object ∧
    .rules d [g.nativeHead d ++ " \x7b", before ++ Generator.methodCall object d ++ after,
      "\x7d"] ∈ blocks

namespace Generator

variable {g : Generator} {classes : List ClassDecl} {c native : List String}

/-! ## Where the parts stand -/

/-- Where the registry has no code, every registration has its wrapper in the
    C source. -/
theorem wrapper_infix_cLines {plan : Plan} {r : Registration} (hg : g.registry = {})
    (h : g.cLines classes plan = .ok c) (hr : r ∈ plan.registrations) :
    ∃ own, g.wrapper r = .ok own ∧ own <:+: c := by
  obtain ⟨overrides, members, wrappers, hoverrides, -, hwrappers, rfl⟩ := cLines_eq_ok h
  cases hoverrides.symm.trans (overridesOf_of_empty hg plan.registrations)
  obtain ⟨owns, howns, rfl⟩ := wrappersFrom_eq_ok hwrappers
  obtain ⟨own, hown, heq⟩ := exists_of_mem_forall₂ howns hr
  refine ⟨own, heq, ?_⟩
  have hended : own ++ [""] <:+: owns.flatMap (· ++ [""]) :=
    List.infix_of_mem_flatten (List.mem_map_of_mem hown)
  have hblock : own <:+: owns.flatMap (· ++ [""]) :=
    (List.prefix_append own [""]).isInfix.trans hended
  refine hblock.trans ?_
  refine List.IsInfix.trans ?_ (List.prefix_append _ _).isInfix
  refine List.IsInfix.trans ?_ (List.suffix_append _ _).isInfix
  exact (List.suffix_cons _ _).isInfix

theorem externs_infix_cLines {plan : Plan} (h : g.cLines classes plan = .ok c) :
    ∃ ds, g.declared [] (membersOf classes) = .ok ds ∧ ds.map g.externLine <:+: c := by
  obtain ⟨overrides, ds, wrappers, -, hds, -, rfl⟩ := cLines_eq_ok h
  refine ⟨ds, hds, ?_⟩
  refine List.IsInfix.trans ?_ (List.prefix_append _ _).isInfix
  refine List.IsInfix.trans ?_ (List.prefix_append _ _).isInfix
  refine List.IsInfix.trans ?_ (List.suffix_append _ _).isInfix
  refine List.IsInfix.trans ?_ (List.prefix_append _ _).isInfix
  exact (List.suffix_cons _ _).isInfix

theorem blocks_infix_nativeLines (h : g.nativeLines classes = .ok native) :
    ∃ blocks, g.Defines [] [] (membersOf classes) blocks ∧
      blocks.flatMap NativeBlock.lines <:+: native := by
  obtain ⟨definitions, hdefinitions, h⟩ := Attempt.bind_eq_ok.mp h
  cases Attempt.pure_eq_ok.mp h
  obtain ⟨blocks, hblocks, rfl⟩ := defines_of_definitionsFrom hdefinitions
  exact ⟨blocks, hblocks, _, _, rfl⟩

/-! ## The link -/

/-- The wrapper of a registration is linked to the first member that has the
    name of its native function. -/
theorem linksTo_of_find {r : Registration} {d : Member} (hg : g.registry = {})
    (hc : g.cLines classes (g.plan classes) = .ok c) (hn : g.nativeLines classes = .ok native)
    (hr : r ∈ (g.plan classes).registrations)
    (hfind : (membersOf classes).find? (g.isNamed (g.nameOf r.toMember)) = some d) :
    LinksTo g classes c native r d := by
  have hname : g.nameOf d = g.nameOf r.toMember := isNamed_iff.mp (List.find?_some hfind)
  obtain ⟨own, hown, hstands⟩ := wrapper_infix_cLines hg hc hr
  obtain ⟨ds, hds, hexterns⟩ := externs_infix_cLines hc
  obtain ⟨blocks, hblocks, hlines⟩ := blocks_infix_nativeLines hn
  have hdeclares := declares_of_declared hds
  -- one member is declared under the name, the first
  have hfilter : ds.filter (g.isNamed (g.nameOf d)) = [d] := by
    rw [hdeclares.filter_eq_find (fun m _ => (codes_of_empty hg m).2) List.not_mem_nil, hname,
      hfind]
    rfl
  -- an empty registry has its code in pairs, so the same members are defined
  have hruled : blocks.filterMap NativeBlock.ruled? = ds := by
    exact hblocks.ruled_eq (fun m _ => paired_of_empty hg m) hdeclares
  have hd : d ∈ blocks.filterMap NativeBlock.ruled? := by
    rw [hruled]
    exact List.mem_of_mem_filter (hfilter ▸ List.mem_singleton_self d)
  obtain ⟨block, hblock, hruledBlock⟩ := List.mem_filterMap.mp hd
  cases block with
  | code m text => exact nomatch hruledBlock
  | rules m function =>
      cases hruledBlock
      obtain ⟨object, before, after, hobject, rfl⟩ :=
        nativeFunction_eq_ok (hblocks.function_eq hblock)
      refine ⟨hname, ?_, ⟨ds, hds, hexterns, hfilter⟩, ?_⟩
      · obtain ⟨arguments, before, done, -, rfl⟩ := wrapper_eq_ok hown
        refine ⟨_, before, hown, hstands, ?_⟩
        refine List.mem_append_left _ (List.mem_append_right _ ?_)
        exact List.mem_cons_self
      · exact ⟨blocks, object, before, after, hblocks, hlines, hruled.symm ▸ hfilter, hobject,
          hblock⟩

/-- A wrapper is linked to one member at most. -/
theorem linksTo_unique {r : Registration} {d d' : Member} (h : LinksTo g classes c native r d)
    (h' : LinksTo g classes c native r d') : d = d' := by
  obtain ⟨ds, hds, -, hfilter⟩ := h.declared
  obtain ⟨ds', hds', -, hfilter'⟩ := h'.declared
  cases hds.symm.trans hds'
  rw [h.named, ← h'.named, hfilter'] at hfilter
  exact (List.cons.inj hfilter).1.symm

/-- Every registration has a first member with the name of its native
    function. -/
theorem exists_find_of_registration {r : Registration}
    (hr : r ∈ (g.plan classes).registrations) :
    ∃ d, (membersOf classes).find? (g.isNamed (g.nameOf r.toMember)) = some d := by
  refine Option.isSome_iff_exists.mp (List.find?_isSome.mpr ⟨r.toMember, ?_, ?_⟩)
  · exact Plan.mem_membersOf hr
  · exact isNamed_iff.mpr rfl

end Generator

/-- **THE FUNCTION THAT A WRAPPER CALLS**: without code of the registry the
    sources link every registration to one member, and it has the signature
    of the registered method just when no other signature had the name of
    the native function first.  Overloads have one name just when the
    fragments of their parameter types read the same. -/
theorem linked_signature_iff (g : Generator) (classes : List ClassDecl) (c native : List String)
    (hg : g.registry = {}) (hc : g.cLines classes (g.plan classes) = .ok c)
    (hn : g.nativeLines classes = .ok native) :
    ∀ r ∈ (g.plan classes).registrations, ∃ d, LinksTo g classes c native r d ∧
      (∀ d', LinksTo g classes c native r d' → d' = d) ∧
      (SameSignature d r.toMember ↔
        ∀ first, (membersOf classes).find? (g.isNamed (g.nameOf r.toMember)) = some first →
          SameSignature first r.toMember) ∧
      ∀ m ∈ membersOf classes, lowerString m.owner = lowerString r.owner →
        lowerString m.method.name = lowerString r.method.name →
          (g.nameOf m = g.nameOf r.toMember ↔ m.method.nameEnding = r.method.nameEnding) := by
  intro r hr
  obtain ⟨d, hfind⟩ := Generator.exists_find_of_registration hr
  have hlink := Generator.linksTo_of_find hg hc hn hr hfind
  refine ⟨d, hlink, fun d' hd' => Generator.linksTo_unique hd' hlink, ?_,
    fun m _ howner hname => Method.nativeName_inj howner hname⟩
  constructor
  · intro hsame first hfirst
    cases hfind.symm.trans hfirst
    exact hsame
  · intro h
    exact h d hfind

/-- A class whose overloads have names of their own. -/
def overloadClass : ClassDecl :=
  { name := "Speaker_Class", methods := [⟨"tone", "bool", [⟨"float", "f"⟩], false, false, false⟩,
      ⟨"tone", "bool", [⟨"float", "f"⟩, ⟨"uint32_t", "ms"⟩], false, false, false⟩] }

/-- Its wrappers are linked to the members that they are for. -/
theorem linked_overloadClass :
    ∃ c native, (default : Generator).cLines [overloadClass]
        ((default : Generator).plan [overloadClass]) = .ok c ∧
      (default : Generator).nativeLines [overloadClass] = .ok native ∧
      ∀ r ∈ ((default : Generator).plan [overloadClass]).registrations, ∃ d,
        LinksTo default [overloadClass] c native r d ∧ SameSignature d r.toMember := by
  have hc : ((default : Generator).cLines [overloadClass]
      ((default : Generator).plan [overloadClass])).isOk = true := by decide +kernel
  have hn : ((default : Generator).nativeLines [overloadClass]).isOk = true := by decide +kernel
  obtain ⟨c, hc⟩ := Attempt.exists_of_isOk hc
  obtain ⟨native, hn⟩ := Attempt.exists_of_isOk hn
  refine ⟨c, native, hc, hn, ?_⟩
  intro r hr
  obtain ⟨d, hlink, -, hsame, -⟩ :=
    linked_signature_iff default [overloadClass] c native rfl hc hn r hr
  refine ⟨d, hlink, hsame.mpr ?_⟩
  have hall : ∀ r ∈ ((default : Generator).plan [overloadClass]).registrations,
      (membersOf [overloadClass]).find?
        ((default : Generator).isNamed ((default : Generator).nameOf r.toMember))
        = some r.toMember := by decide +kernel
  intro first hfirst
  cases (hall r hr).symm.trans hfirst
  exact ⟨rfl, rfl, rfl, rfl⟩

/-- A class with overloads for a character and for a text, which have one
    name. -/
def characterClass : ClassDecl :=
  { name := "A", methods := [⟨"set", "void", [⟨"char", "c"⟩], false, false, false⟩,
      ⟨"set", "void", [⟨"const char*", "s"⟩], false, false, false⟩] }

/-- The wrapper for the text calls the function for the character. -/
theorem linked_to_other_overload :
    ∃ c native, ∃ r ∈ ((default : Generator).plan [characterClass]).registrations, ∃ d,
      LinksTo default [characterClass] c native r d ∧ ¬ SameSignature d r.toMember := by
  have hc : ((default : Generator).cLines [characterClass]
      ((default : Generator).plan [characterClass])).isOk = true := by decide +kernel
  have hn : ((default : Generator).nativeLines [characterClass]).isOk = true := by decide +kernel
  obtain ⟨c, hc⟩ := Attempt.exists_of_isOk hc
  obtain ⟨native, hn⟩ := Attempt.exists_of_isOk hn
  have hr : ⟨⟨"A", ⟨"set", "void", [⟨"const char*", "s"⟩], false, false, false⟩⟩, "mrbc_m5_set_1"⟩
      ∈ ((default : Generator).plan [characterClass]).registrations := by decide +kernel
  refine ⟨c, native, _, hr, ⟨"A", ⟨"set", "void", [⟨"char", "c"⟩], false, false, false⟩⟩,
    Generator.linksTo_of_find rfl hc hn hr (by decide +kernel), ?_⟩
  intro hsame
  exact absurd hsame.parameters (by decide)

end GemBinder
