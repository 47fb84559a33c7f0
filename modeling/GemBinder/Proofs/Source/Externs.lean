import GemBinder.Proofs.BuiltinOverrides
import GemBinder.Proofs.Source.Calls
import GemBinder.Proofs.Source.Text

/-! # What the C source declares, the native source defines

    A declaration in the C source is made by the rules or stands in code of
    the registry.  What the rules declare they define in the same order; for
    the built-in registry, code that declares a function comes with code that
    defines it, and both are written out where one is. -/

namespace GemBinder

open Text

namespace Generator

variable {g : Generator} {classes : List ClassDecl}

/-! ## Code in both sources -/

/-- Code of the registry for a member is written out, unless it was before. -/
theorem Defines.exists_code {defined written : List String} {ms : List Member}
    {blocks : List NativeBlock} {m : Member} {code : String}
    (h : Defines g defined written ms blocks) (hm : m ∈ ms)
    (hcode : g.registry.nativeCode m.owner m.method = .ok (some code)) :
    code ∈ written ∨ ∃ m', .code m' code ∈ blocks := by
  induction h with
  | nil => exact nomatch hm
  | again hold hwritten _ ih =>
      rcases List.mem_cons.mp hm with rfl | hmore
      · cases hold.symm.trans hcode
        exact .inl hwritten
      · exact ih hmore
  | @code defined written q more blocks text hnew _ _ ih =>
      rcases List.mem_cons.mp hm with rfl | hmore
      · cases hnew.symm.trans hcode
        exact .inr ⟨m, List.mem_cons_self⟩
      · rcases ih hmore with hwritten | ⟨m', hm'⟩
        -- it was written for the member before, or before that
        · rcases List.mem_cons.mp hwritten with rfl | hold
          · exact .inr ⟨q, List.mem_cons_self⟩
          · exact .inl hold
        · exact .inr ⟨m', List.mem_cons_of_mem _ hm'⟩
  | repeated hnone _ _ ih =>
      rcases List.mem_cons.mp hm with rfl | hmore
      · exact nomatch hnone.symm.trans hcode
      · exact ih hmore
  | rules hnone _ _ _ ih =>
      rcases List.mem_cons.mp hm with rfl | hmore
      · exact nomatch hnone.symm.trans hcode
      · rcases ih hmore with hwritten | ⟨m', hm'⟩
        · exact .inl hwritten
        · exact .inr ⟨m', List.mem_cons_of_mem _ hm'⟩

/-- Code that is written out for a label was made for a registration. -/
theorem exists_bindingOf {rs : List Registration} {overrides : List (String × String)}
    {label code : String} (h : g.overridesOf rs = .ok overrides)
    (hlookup : overrides.lookup label = some code) :
    ∃ r ∈ rs, g.bindingOf r = .ok (some code) := by
  obtain ⟨r, hr, -, hcode⟩ := (mem_overridesOf h).mp (mem_of_lookup_eq_some hlookup)
  exact ⟨r, hr, hcode⟩

/-- The code for a registration is that of the registry, renamed. -/
theorem bindingOf_eq_ok {r : Registration} {code : String} (h : g.bindingOf r = .ok (some code)) :
    ∃ plain, g.registry.bindingCode r.owner r.method = .ok (some plain) ∧
      retarget plain r.method r.symbol = .ok code := by
  obtain ⟨plain, hplain, hrenamed, -⟩ := bindingOf_eq_some_iff.mp h
  exact ⟨plain, hplain, hrenamed⟩

/-! ## Built-in code -/

theorem paired_of_builtin (hg : g.registry = .builtin) (m : Member) : g.Paired m := by
  rw [Paired]
  rw [hg]
  rcases builtin_codes m.owner m.method with
    ⟨hnative, hbinding⟩ | ⟨head, body, rest, -, -, hnative, hbinding, -, -⟩
  · exact ⟨fun _ => hbinding, fun _ => hnative⟩
  · rw [hnative, hbinding]
    exact ⟨nofun, nofun⟩

/-- What an empty or the built-in registry has for a member: nothing, or a
    pair of the built-in form. -/
theorem codes_of_known (hg : g.registry = {} ∨ g.registry = .builtin) (m : Member) :
    (g.registry.nativeCode m.owner m.method = .ok none ∧
      g.registry.bindingCode m.owner m.method = .ok none) ∨
    ∃ head body rest, Inert head ∧ WrapperRest rest ∧
      g.registry.nativeCode m.owner m.method = .ok (some (codeLines (opening head :: body))) ∧
      g.registry.bindingCode m.owner m.method = .ok (some (bindingText head m.method.vmName rest)) ∧
      '\\' ∉ m.owner.toList ∧ '\\' ∉ m.method.name.toList := by
  rcases hg with hg | hg
  · exact .inl (codes_of_empty hg m)
  · rw [hg]
    exact builtin_codes m.owner m.method

/-- Code of the built-in form is renamed to the symbol of a registration. -/
theorem retarget_registration {kept : List Member} {r : Registration} {head vmPrefix : String}
    {rest : List String} (hslash : '\\' ∉ vmPrefix.toList)
    (hsymbol : r.symbol = symbolOf vmPrefix kept r.toMember) (hhead : Inert head)
    (hrest : WrapperRest rest) (howner : '\\' ∉ r.owner.toList)
    (hname : '\\' ∉ r.method.name.toList) :
    retarget (bindingText head r.method.vmName rest) r.method r.symbol
      = .ok (bindingText head r.symbol rest) := by
  refine retarget_bindingText hhead.2 (fun line hline => (hrest.inert line hline).2) ?_
  rw [hsymbol]
  exact notMem_symbolOf isMark_backslash (by decide) (by decide) hslash howner hname

/-- **CODE THAT DECLARES A FUNCTION** for a registration comes with native
    code that opens it. -/
theorem extern_of_code {kept : List Member} {r : Registration} {code line : String}
    (hg : g.registry = {} ∨ g.registry = .builtin) (hvm : OneLine g.config.vmPrefix)
    (hslash : '\\' ∉ g.config.vmPrefix.toList) (hm : r.toMember.OnOneLine)
    (hsymbol : r.symbol = symbolOf g.config.vmPrefix kept r.toMember)
    (h : g.bindingOf r = .ok (some code)) (hline : line ∈ linesOfCode code)
    (hbegins : Begins "extern " line) :
    ∃ head native, OneLine head ∧ line = "extern " ++ head ++ ";" ∧
      g.registry.nativeCode r.owner r.method = .ok (some native) ∧
      opening head ∈ linesOfCode native := by
  obtain ⟨plain, hplain, hrenamed⟩ := bindingOf_eq_ok h
  rcases codes_of_known hg r.toMember with
    ⟨-, hnone⟩ | ⟨head, body, rest, hhead, hrest, hnative, hbinding, howner, hname⟩
  · exact nomatch hnone.symm.trans hplain
  · cases hbinding.symm.trans hplain
    cases (retarget_registration hslash hsymbol hhead hrest howner hname).symm.trans hrenamed
    have hsymbolLine : OneLine r.symbol := by
      rw [hsymbol]
      exact notMem_symbolOf isMark_newline (by decide) (by decide) hvm hm.owner hm.name
    have hlines := linesOfCode_bindingText hhead.1 hsymbolLine hrest
    rw [hlines] at hline
    rcases List.mem_cons.mp hline with rfl | hline
    · exact ⟨head, _, hhead.1, rfl, hnative, opening_mem_linesOfCode hhead.1 body⟩
    · rcases List.mem_cons.mp hline with rfl | hline
      · exact absurd hbegins ((begins_opening_vmHead r.symbol).not_begins (by decide) (by decide))
      · exact absurd hbegins (hrest.framing line hline).not_declaring

/-! ## All declarations -/

theorem registration_onOneLine {r : Registration} (hmembers : ∀ m ∈ membersOf classes, m.OnOneLine)
    (hr : r ∈ (g.plan classes).registrations) : r.toMember.OnOneLine :=
  hmembers _ (Plan.mem_membersOf hr)

/-- A head of the rules opens a function in the blocks. -/
theorem Defines.head_mem_lines {defined written : List String} {ms : List Member}
    {blocks : List NativeBlock} {m : Member} (h : Defines g defined written ms blocks)
    (hm : m ∈ blocks.filterMap NativeBlock.ruled?) :
    opening (g.nativeHead m) ∈ blocks.flatMap NativeBlock.lines := by
  obtain ⟨block, hblock, hruled⟩ := List.mem_filterMap.mp hm
  cases block with
  | code q text => exact nomatch hruled
  | rules q function =>
      cases hruled
      obtain ⟨object, before, after, -, rfl⟩ := nativeFunction_eq_ok (h.function_eq hblock)
      exact List.mem_flatMap.mpr ⟨_, hblock, List.mem_cons_self⟩

end Generator

/-- **WHAT THE C SOURCE DECLARES, THE NATIVE SOURCE DEFINES**, with the same
    head, and the rules do both in the same order.  The prefix of the virtual
    machine goes into code of the registry as the template of a replacement,
    so it must be one line (`hvm`) and have no backslash (`hslash`), which
    would begin an escape there.  Without braces in types the lines that are
    written are all the lines of the text; what stands in braces is read as a
    placeholder where a wrapper casts its argument, and can add lines. -/
theorem externs_defined (g : Generator) (classes : List ClassDecl) (c native : List String)
    (hg : g.registry = {} ∨ g.registry = .builtin) (hvendor : OneLine g.config.vendorPrefix)
    (hvm : OneLine g.config.vmPrefix) (hslash : '\\' ∉ g.config.vmPrefix.toList)
    (hmembers : ∀ m ∈ membersOf classes, m.OnOneLine)
    (hc : g.cLines classes (g.plan classes) = .ok c) (hn : g.nativeLines classes = .ok native) :
    (∀ line ∈ c, Begins "extern " line → ∃ head, line = "extern " ++ head ++ ";" ∧
      line ∈ linesOf (joinStrings "\n" c) ∧
      head ++ " \x7b" ∈ linesOf (joinStrings "\n" native)) ∧
    ∃ ds blocks, g.declared [] (membersOf classes) = .ok ds ∧
      ds.map g.externLine <:+: c ∧
      g.Defines [] [] (membersOf classes) blocks ∧
      blocks.flatMap NativeBlock.lines <:+: native ∧
      blocks.filterMap NativeBlock.head? = ds.map (fun m => g.nativeHead m ++ " \x7b") ∧
      (OneLine g.config.gemName → (∀ k ∈ classes, OneLine k.name) →
        (∀ m ∈ membersOf classes, m.WithoutBraces) → linesOf (joinStrings "\n" c) = c) := by
  obtain ⟨overrides, members, wrappers, hoverrides, hmembersOk, hwrappers, hlines⟩ :=
    Generator.cLines_eq_ok hc
  obtain ⟨ds, hds, hexterns⟩ := Generator.externs_infix_cLines hc
  obtain ⟨blocks, hblocks, hstands⟩ := Generator.blocks_infix_nativeLines hn
  cases hmembersOk.symm.trans hds
  have hdeclares := Generator.declares_of_declared hds
  have hpaired : ∀ m ∈ membersOf classes, g.Paired m := by
    intro m _
    rcases hg with hg | hg
    · exact Generator.paired_of_empty hg m
    · exact Generator.paired_of_builtin hg m
  -- both sources take the members in one order and pass over the same ones
  have hruled := hblocks.ruled_eq hpaired hdeclares
  refine ⟨?_, members, blocks, hds, hexterns, hblocks, hstands, ?_, ?_⟩
  · intro line hline hbegins
    -- a head that opens a function in the native source is a line of it
    have hdone : ∀ head, OneLine head → opening head ∈ blocks.flatMap NativeBlock.lines →
        line = "extern " ++ head ++ ";" → ∃ head, line = "extern " ++ head ++ ";" ∧
          line ∈ linesOf (joinStrings "\n" c) ∧
          head ++ " \x7b" ∈ linesOf (joinStrings "\n" native) := by
      intro head hhead hopen heq
      refine ⟨head, heq, mem_linesOf_joinStrings hline ?_,
        mem_linesOf_joinStrings (hstands.subset hopen) (hhead.append (by decide))⟩
      rw [heq]
      exact ((by decide : OneLine "extern ").append hhead).append (by decide)
    rcases Generator.mem_cLines hoverrides hds hc hline with
      hframing | ⟨m, hm, rfl⟩ | ⟨r, hr, rfl⟩ | ⟨r, hr, code, hcode, hmem⟩
    · exact absurd hbegins hframing.not_declaring
    · refine hdone _ (Generator.oneLine_nativeHead hvendor (hmembers m (hdeclares.subset m hm)))
        ?_ rfl
      exact hblocks.head_mem_lines (hruled.symm ▸ hm)
    · exact absurd hbegins
        ((begins_opening_vmHead r.symbol).not_begins (by decide) (by decide))
    -- the code can be that of another registration with the same label
    · obtain ⟨q, hq, hbinding⟩ := Generator.exists_bindingOf hoverrides hcode
      obtain ⟨head, text, hhead, heq, htext, hopen⟩ := Generator.extern_of_code hg hvm hslash
        (Generator.registration_onOneLine hmembers hq) (Plan.symbol_eq hq) hbinding hmem hbegins
      refine hdone head hhead ?_ heq
      rcases hblocks.exists_code (Plan.mem_membersOf hq) htext with hnil | ⟨m', hm'⟩
      · exact nomatch hnil
      · refine List.mem_flatMap.mpr ⟨_, hm', ?_⟩
        exact List.mem_cons_of_mem _ (List.mem_append_left _ hopen)
  · rw [hblocks.heads_eq, hruled]
  · intro hgem hclasses hbraces
    exact Generator.linesOf_cLines hvendor hvm hgem hclasses
      (fun m hm => ⟨hmembers m hm, hbraces m hm⟩) hc

/-- A class with a method that the built-in registry binds and one that the
    rules bind. -/
def beginClass : ClassDecl :=
  { name := "M5Unified", methods := [⟨"begin", "void", [], false, false, false⟩,
      ⟨"update", "bool", [⟨"const int &", "ms"⟩], false, false, false⟩] }

/-- The generator that works with the built-in registry. -/
def builtinGenerator : Generator := { registry := .builtin }

/-- What its C source declares, its native source defines. -/
theorem externs_defined_beginClass :
    ∃ c native,
      builtinGenerator.cLines [beginClass] (builtinGenerator.plan [beginClass]) = .ok c ∧
      builtinGenerator.nativeLines [beginClass] = .ok native ∧
      linesOf (joinStrings "\n" c) = c ∧
      ∀ line ∈ c, Begins "extern " line → ∃ head, line = "extern " ++ head ++ ";" ∧
        head ++ " \x7b" ∈ linesOf (joinStrings "\n" native) := by
  have hc : (builtinGenerator.cLines [beginClass]
      (builtinGenerator.plan [beginClass])).isOk = true := by decide +kernel
  have hn : (builtinGenerator.nativeLines [beginClass]).isOk = true := by decide +kernel
  have hmembers : ∀ m ∈ membersOf [beginClass], m.OnOneLine ∧ m.WithoutBraces := by
    refine List.forall_mem_cons.mpr ⟨⟨?_, ?_⟩, List.forall_mem_singleton.mpr ⟨?_, ?_⟩⟩
    · exact ⟨by decide, by decide, by decide, by decide⟩
    · exact ⟨by decide, by decide⟩
    · exact ⟨by decide, by decide, by decide, by decide⟩
    · exact ⟨by decide, by decide⟩
  obtain ⟨c, hc⟩ := Attempt.exists_of_isOk hc
  obtain ⟨native, hn⟩ := Attempt.exists_of_isOk hn
  obtain ⟨hdefined, ds, blocks, -, -, -, -, -, hlines⟩ := externs_defined _ [beginClass] c native
    (.inr rfl) (by decide) (by decide) (by decide) (fun m hm => (hmembers m hm).1) hc hn
  refine ⟨c, native, hc, hn, ?_, ?_⟩
  · exact hlines (by decide) (by decide) (fun m hm => (hmembers m hm).2)
  · intro line hline hbegins
    obtain ⟨head, heq, -, hopen⟩ := hdefined line hline hbegins
    exact ⟨head, heq, hopen⟩

end GemBinder
