import GemBinder.Proofs.Source.Wrappers

/-! # The layout of the C source

    Between framing lines the C source holds the declarations of native
    functions and then the wrappers.  Every line that begins like a
    declaration or like the head of a static function therefore is one, or
    comes from code of the registry. -/

namespace GemBinder

open Text

namespace Generator

variable {g : Generator} {classes : List ClassDecl}

/-! ## The frame -/

theorem framing_preamble : ∀ line ∈ g.preamble, Framing line := by
  have hbelow : ∀ line ∈ [" *", " * This file is generated by mrbgem-binding-generator. Do not edit.",
      " */", ""], Framing line := by decide
  have hincludes : ∀ line ∈ ["#include <stdbool.h>", "#include <stddef.h>", "#include <stdint.h>",
      "#include <mrubyc.h>", ""], Framing line := by decide
  intro line hline
  rcases List.mem_append.mp hline with hbanner | hinclude
  · rcases List.mem_cons.mp hbanner with rfl | hbanner
    · exact .inr ⟨"/*", by decide, by decide⟩
    · rcases List.mem_cons.mp hbanner with rfl | hrest
      · refine .inr ⟨" *", by decide, ?_⟩
        exact ((((begins_append " *" " ").append _).append _).append _).append _
      · exact hbelow line hrest
  · exact hincludes line hinclude

theorem framing_classHandles : ∀ line ∈ classHandles classes, Framing line := by
  intro line hline
  rcases List.mem_cons.mp hline with rfl | hline
  · decide
  · rcases List.mem_append.mp hline with hhandle | hempty
    · obtain ⟨c, -, rfl⟩ := List.mem_map.mp hhandle
      refine .inr ⟨"static mrbc_class *", by decide, ?_⟩
      exact ((begins_append "static mrbc_class *" "c_").append _).append _
    · rw [List.mem_singleton.mp hempty]
      decide

theorem framing_initLines {rs : List Registration} :
    ∀ line ∈ g.initLines classes rs, Framing line := by
  have hindent : "  " ∈ framingMarks := by decide
  have hlast : ∀ line ∈ ["\x7d", ""], Framing line := by decide
  intro line hline
  rcases List.mem_append.mp hline with hline | hend
  · rcases List.mem_cons.mp hline with rfl | hbody
    · exact .inr ⟨"void ", by decide, (begins_append "void " _).append _⟩
    · obtain ⟨c, -, hclass⟩ := List.mem_flatMap.mp hbody
      rcases List.mem_cons.mp hclass with rfl | hmethod
      · refine .of_begins hindent ?_
        exact ((((begins_append "  " "c_").append _).append _).append _).append _
      · obtain ⟨r, -, rfl⟩ := List.mem_map.mp hmethod
        refine .of_begins hindent ?_
        exact ((((((begins_append "  " "mrbc_define_method(vm, c_").append _).append _).append
          _).append _).append _).append _
  · exact hlast line hend

/-! ## The whole source -/

/-- The declaration of a native function. -/
def externLine (g : Generator) (m : Member) : String := "extern " ++ g.nativeHead m ++ ";"

theorem begins_externLine (m : Member) : Begins "extern " (g.externLine m) :=
  (begins_append "extern " _).append _

/-- **THE PARTS OF THE C SOURCE**, in their order. -/
theorem cLines_eq_ok {plan : Plan} {lines : List String} (h : g.cLines classes plan = .ok lines) :
    ∃ overrides members wrappers,
      g.overridesOf plan.registrations = .ok overrides ∧
      g.declared [] (membersOf classes) = .ok members ∧
      g.wrappersFrom overrides [] plan.registrations = .ok wrappers ∧
      lines = g.preamble ++ classHandles classes ++
        ("/* Native functions (defined in the port wrapper) */" ::
          members.map g.externLine ++ [""]) ++
        "/* VM method wrappers */" :: wrappers ++ g.initLines classes plan.registrations := by
  obtain ⟨overrides, hoverrides, h⟩ := Attempt.bind_eq_ok.mp h
  obtain ⟨declarations, hdeclarations, h⟩ := Attempt.bind_eq_ok.mp h
  obtain ⟨members, hmembers, hdeclarations⟩ := Attempt.bind_eq_ok.mp hdeclarations
  obtain ⟨wrappers, hwrappers, h⟩ := Attempt.bind_eq_ok.mp h
  cases Attempt.pure_eq_ok.mp hdeclarations
  cases Attempt.pure_eq_ok.mp h
  exact ⟨overrides, members, wrappers, hoverrides, hmembers, hwrappers, rfl⟩

/-- **WHAT HOLDS OF EVERY LINE** of the C source is what holds of each of its
    parts: the frame, the declarations, the wrappers of the rules and the code
    of the registry. -/
@[elab_as_elim]
theorem forall_mem_cLines {P : String → Prop} {plan : Plan} {overrides : List (String × String)}
    {members : List Member} {lines : List String}
    (hoverrides : g.overridesOf plan.registrations = .ok overrides)
    (hmembers : g.declared [] (membersOf classes) = .ok members)
    (h : g.cLines classes plan = .ok lines)
    (hpreamble : ∀ line ∈ g.preamble, P line)
    (hhandles : ∀ line ∈ classHandles classes, P line)
    (hheadings : ∀ line ∈ ["/* Native functions (defined in the port wrapper) */",
      "/* VM method wrappers */", ""], P line)
    (hdeclares : ∀ m ∈ members, P (g.externLine m))
    (hwrapper : ∀ r ∈ plan.registrations, ∀ own, g.wrapper r = .ok own → ∀ line ∈ own, P line)
    (hlabel : ∀ r ∈ plan.registrations, P s!"/* {r.label} (override) */")
    (hcode : ∀ r ∈ plan.registrations, ∀ code, overrides.lookup r.label = some code →
      ∀ line ∈ linesOfCode code, P line)
    (hinit : ∀ line ∈ g.initLines classes plan.registrations, P line) :
    ∀ line ∈ lines, P line := by
  obtain ⟨overrides', members', wrappers, hov, hmem, hwrappers, rfl⟩ := cLines_eq_ok h
  cases hoverrides.symm.trans hov
  cases hmembers.symm.trans hmem
  intro line hline
  rcases List.mem_append.mp hline with hline | hend
  · rcases List.mem_append.mp hline with hline | hbody
    · rcases List.mem_append.mp hline with hframe | hdeclared
      · rcases List.mem_append.mp hframe with hpre | hhandle
        · exact hpreamble line hpre
        · exact hhandles line hhandle
      · rcases List.mem_append.mp hdeclared with hdeclared | hlast
        · rcases List.mem_cons.mp hdeclared with rfl | hbegins
          · exact hheadings _ (by simp)
          · obtain ⟨m, hm, rfl⟩ := List.mem_map.mp hbegins
            exact hdeclares m hm
        · rw [List.mem_singleton.mp hlast]
          exact hheadings _ (by simp)
    · rcases List.mem_cons.mp hbody with rfl | hwrapped
      · exact hheadings _ (by simp)
      · rcases mem_wrappersFrom hwrappers hwrapped with
          rfl | ⟨r, hr, own, hown, hmem⟩ | ⟨r, hr, code, hfound, rfl | hmem⟩
        · exact hheadings _ (by simp)
        · exact hwrapper r hr own hown line hmem
        · exact hlabel r hr
        · exact hcode r hr code hfound line hmem
  · exact hinit line hend

/-- **WHAT A LINE OF THE C SOURCE CAN BE**: framing, a declaration, the head
    of a wrapper of the rules, or a line of code of the registry. -/
theorem mem_cLines {plan : Plan} {overrides : List (String × String)} {members : List Member}
    {lines : List String} {line : String}
    (hoverrides : g.overridesOf plan.registrations = .ok overrides)
    (hmembers : g.declared [] (membersOf classes) = .ok members)
    (h : g.cLines classes plan = .ok lines) (hline : line ∈ lines) :
    Framing line ∨ (∃ m ∈ members, line = g.externLine m) ∨
      (∃ r ∈ plan.registrations, line = opening (vmHead r.symbol)) ∨
      (∃ r ∈ plan.registrations, ∃ code, overrides.lookup r.label = some code ∧
        line ∈ linesOfCode code) := by
  have hheadings : ∀ line ∈ ["/* Native functions (defined in the port wrapper) */",
      "/* VM method wrappers */", ""], Framing line := by decide
  refine forall_mem_cLines hoverrides hmembers h ?_ ?_ ?_ ?_ ?_ ?_ ?_ ?_ line hline
  · exact fun line hline => .inl (framing_preamble line hline)
  · exact fun line hline => .inl (framing_classHandles line hline)
  · exact fun line hline => .inl (hheadings line hline)
  · exact fun m hm => .inr (.inl ⟨m, hm, rfl⟩)
  · intro r hr own hown line hline
    obtain ⟨body, rfl, hbody⟩ := wrapper_tail hown
    rcases List.mem_cons.mp hline with rfl | hline
    · exact .inr (.inr (.inl ⟨r, hr, rfl⟩))
    · exact .inl (hbody line hline)
  · intro r _
    refine .inl (.inr ⟨"/*", by decide, ?_⟩)
    exact ((begins_append "/*" " ").append _).append _
  · exact fun r hr code hcode line hline => .inr (.inr (.inr ⟨r, hr, code, hcode, hline⟩))
  · exact fun line hline => .inl (framing_initLines line hline)

/-! ## Static functions -/

/-- The heads of the static functions among lines. -/
def staticHeads (lines : List String) : List String :=
  lines.filter fun line => Begins "static void " line

theorem staticHeads_append (lines more : List String) :
    staticHeads (lines ++ more) = staticHeads lines ++ staticHeads more :=
  marked_append more

theorem staticHeads_cons_of_framing {line : String} (h : Framing line) (lines : List String) :
    staticHeads (line :: lines) = staticHeads lines :=
  marked_cons_of_not h.not_static

theorem staticHeads_eq_nil {lines : List String} (h : ∀ line ∈ lines, Framing line) :
    staticHeads lines = [] :=
  marked_eq_nil fun line hline => (h line hline).not_static

theorem staticHeads_externs (ms : List Member) : staticHeads (ms.map g.externLine) = [] := by
  refine marked_eq_nil ?_
  intro line hline
  obtain ⟨m, -, rfl⟩ := List.mem_map.mp hline
  exact (begins_externLine m).not_begins (by decide) (by decide)

/-- A wrapper of the rules has one head. -/
theorem staticHeads_wrapper {r : Registration} {own : List String} (h : g.wrapper r = .ok own) :
    staticHeads (own ++ [""]) = [opening (vmHead r.symbol)] := by
  obtain ⟨body, rfl, hbody⟩ := wrapper_tail h
  have hhead : staticHeads [opening (vmHead r.symbol)] = [opening (vmHead r.symbol)] :=
    marked_cons_of_begins (begins_opening_vmHead r.symbol)
  show staticHeads ([opening (vmHead r.symbol)] ++ body ++ [""]) = _
  rw [staticHeads_append, staticHeads_append, hhead, staticHeads_eq_nil hbody]
  rfl

theorem overridesOf_of_empty (hg : g.registry = {}) (rs : List Registration) :
    g.overridesOf rs = .ok [] := by
  induction rs with
  | nil => rfl
  | cons r more ih =>
      have hcode : g.bindingOf r = .ok none := by
        rw [bindingOf]
        rw [hg]
        rfl
      rw [overridesOf]
      rw [hcode, ih]
      rfl

theorem staticHeads_wrappers {rs : List Registration} {own : List (List String)}
    (h : List.Forall₂ (fun r w => g.wrapper r = .ok w) rs own) :
    staticHeads (own.flatMap (· ++ [""])) = rs.map fun r => opening (vmHead r.symbol) := by
  induction h with
  | nil => rfl
  | cons hr _ ih =>
      rw [List.flatMap_cons, staticHeads_append, staticHeads_wrapper hr, ih]
      rfl

/-- **ONE STATIC FUNCTION FOR EACH REGISTRATION**, in their order, where the
    registry has no code. -/
theorem staticHeads_cLines {plan : Plan} {lines : List String} (hg : g.registry = {})
    (h : g.cLines classes plan = .ok lines) :
    staticHeads lines = plan.registrations.map fun r => opening (vmHead r.symbol) := by
  obtain ⟨overrides, members, wrappers, hoverrides, -, hwrappers, rfl⟩ := cLines_eq_ok h
  cases hoverrides.symm.trans (overridesOf_of_empty hg plan.registrations)
  obtain ⟨own, hown, rfl⟩ := wrappersFrom_eq_ok hwrappers
  have hcomment : Framing "/* VM method wrappers */" := by decide
  have hheading : Framing "/* Native functions (defined in the port wrapper) */" := by decide
  rw [staticHeads_append, staticHeads_append, staticHeads_append, staticHeads_append]
  rw [staticHeads_eq_nil framing_preamble, staticHeads_eq_nil framing_classHandles,
    staticHeads_eq_nil framing_initLines]
  rw [List.cons_append, staticHeads_cons_of_framing hheading, staticHeads_append,
    staticHeads_externs]
  rw [staticHeads_cons_of_framing hcomment, staticHeads_wrappers hown]
  exact List.append_nil _

end Generator

theorem opening_vmHead_inj {symbol symbol' : String} :
    opening (vmHead symbol) = opening (vmHead symbol') ↔ symbol = symbol' := by
  constructor
  · intro h
    have hhead : vmHead symbol = vmHead symbol' := (String.append_left_inj _).mp h
    exact (String.append_right_inj "static void ").mp ((String.append_left_inj _).mp hhead)
  · rintro rfl
    rfl

/-- **ONE SYMBOL AND ONE WRAPPER FOR EACH METHOD**, just when stems do not
    meet: neither in a plan nor, where the rules make all wrappers, among
    the static functions of its C source does a name then come twice. -/
theorem symbols_nodup_iff_symbolsApart (classes : List ClassDecl) (vmPrefix : String) :
    (((Plan.of classes vmPrefix).registrations.map (·.symbol)).Nodup
      ↔ SymbolsApart vmPrefix (Reach.of (membersOf classes)).kept) ∧
    ∀ (g : Generator) (lines : List String), g.registry = {} → g.config.vmPrefix = vmPrefix →
      g.cLines classes (g.plan classes) = .ok lines →
      ((Generator.staticHeads lines).Nodup
        ↔ SymbolsApart vmPrefix (Reach.of (membersOf classes)).kept) := by
  refine ⟨Plan.symbols_nodup_iff classes vmPrefix, ?_⟩
  rintro g lines hg rfl h
  rw [← Plan.symbols_nodup_iff, Generator.staticHeads_cLines hg h]
  have hmap : (g.plan classes).registrations.map (fun r => opening (vmHead r.symbol))
      = ((g.plan classes).registrations.map (·.symbol)).map fun s => opening (vmHead s) := by
    rw [List.map_map]
    rfl
  rw [hmap]
  exact List.nodup_map_iff fun s s' hs => opening_vmHead_inj.mp hs

/-- A class whose methods differ in their names. -/
def apartClass : ClassDecl :=
  { name := "LED_Class", methods := [⟨"on", "void", [], false, false, false⟩,
      ⟨"off", "void", [], false, false, false⟩] }

/-- The default generator writes two static functions for them. -/
theorem staticHeads_apartClass :
    ∃ lines, (default : Generator).cLines [apartClass] ((default : Generator).plan [apartClass])
        = .ok lines ∧
      ((Generator.staticHeads lines).Nodup
        ↔ SymbolsApart defaultVmPrefix (Reach.of (membersOf [apartClass])).kept) := by
  have hok : ((default : Generator).cLines [apartClass]
      ((default : Generator).plan [apartClass])).isOk = true := by decide +kernel
  obtain ⟨lines, hlines⟩ := Attempt.exists_of_isOk hok
  exact ⟨lines, hlines, (symbols_nodup_iff_symbolsApart [apartClass] defaultVmPrefix).2 default
    lines rfl rfl hlines⟩

/-- Two names of one class that differ in letter case alone are registered
    under one symbol. -/
theorem symbols_meet_in_letter_case :
    ¬ ((Plan.of [{ name := "A", methods := [⟨"Foo", "void", [], false, false, false⟩,
        ⟨"foo", "void", [], false, false, false⟩] }]).registrations.map (·.symbol)).Nodup := by
  decide +kernel

end GemBinder
