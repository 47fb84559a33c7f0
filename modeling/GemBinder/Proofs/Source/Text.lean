import GemBinder.Proofs.Marshal
import GemBinder.Proofs.Source.Heads

/-! # The C source as a text

    The C source is written as a list of lines, but what is written is a
    text, and a line with a newline in it would be read as several.  Where
    names and types are spelled on one line and types without braces, no
    line has a newline in it (`linesOf_cLines`), so that reading the text
    gives back the lines.  Braces matter since the templates of arguments
    are filled in behind the spelling of their types. -/

namespace GemBinder

open Text TypeSpelling Placeholder

/-- A member whose types are spelled without braces. -/
structure Member.WithoutBraces (m : Member) : Prop where
  result : BraceFree m.method.returnType.toList
  types : ∀ type ∈ m.method.parameterTypes, BraceFree type.toList

namespace Generator

variable {g : Generator} {classes : List ClassDecl}

/-! ## Around the wrappers -/

theorem oneLine_preamble (hvendor : OneLine g.config.vendorPrefix) :
    ∀ line ∈ g.preamble, OneLine line := by
  have hbelow : ∀ line ∈ [" *", " * This file is generated by mrbgem-binding-generator. Do not edit.",
      " */", ""], OneLine line := by decide +kernel
  have hincludes : ∀ line ∈ ["#include <stdbool.h>", "#include <stddef.h>", "#include <stdint.h>",
      "#include <mrubyc.h>", ""], OneLine line := by decide
  intro line hline
  rcases List.mem_append.mp hline with hbanner | hinclude
  · rcases List.mem_cons.mp hbanner with rfl | hbanner
    · decide
    · rcases List.mem_cons.mp hbanner with rfl | hrest
      · simp +decide [hvendor]
      · exact hbelow line hrest
  · exact hincludes line hinclude

theorem oneLine_classHandles (hclasses : ∀ c ∈ classes, OneLine c.name) :
    ∀ line ∈ classHandles classes, OneLine line := by
  intro line hline
  rcases List.mem_cons.mp hline with rfl | hline
  · decide
  · rcases List.mem_append.mp hline with hhandle | hempty
    · obtain ⟨c, hc, rfl⟩ := List.mem_map.mp hhandle
      simp +decide [hclasses c hc]
    · rw [List.mem_singleton.mp hempty]
      decide

theorem oneLine_initFunction (hgem : OneLine g.config.gemName) :
    OneLine g.config.initFunction := by
  have hname : OneLine g.config.cName := by
    refine oneLine_ofList.mpr ?_
    intro hm
    obtain ⟨ch, hch, heq⟩ := List.mem_map.mp hm
    by_cases hdash : (ch == '-') = true
    · rw [if_pos hdash] at heq
      exact absurd heq (by decide)
    · rw [if_neg hdash] at heq
      exact hgem (heq ▸ hch)
  rw [GemConfig.initFunction]
  simp +decide [hname]

theorem oneLine_initLines {rs : List Registration} (hgem : OneLine g.config.gemName)
    (hclasses : ∀ c ∈ classes, OneLine c.name)
    (hrs : ∀ r ∈ rs, OneLine r.owner ∧ OneLine r.method.name ∧ OneLine r.symbol) :
    ∀ line ∈ g.initLines classes rs, OneLine line := by
  have hend : ∀ line ∈ ["\x7d", ""], OneLine line := by decide
  intro line hline
  rcases List.mem_append.mp hline with hline | hlast
  · rcases List.mem_cons.mp hline with rfl | hbody
    · simp +decide [oneLine_initFunction hgem]
    · obtain ⟨c, hc, hclass⟩ := List.mem_flatMap.mp hbody
      have hname := hclasses c hc
      rcases List.mem_cons.mp hclass with rfl | hmethod
      · simp +decide [hname]
      · obtain ⟨r, hr, rfl⟩ := List.mem_map.mp hmethod
        obtain ⟨howner, hmethod, hsymbol⟩ := hrs r (List.mem_filter.mp hr).1
        exact ((((((by decide : OneLine "  mrbc_define_method(vm, c_").append howner).append
          (by decide)).append hmethod).append (by decide)).append hsymbol).append (by decide)
  · exact hend line hlast

/-! ## Inside a wrapper -/

theorem marshal_eq_ok {type : String} {how : Marshal} (h : g.marshal type = .ok how) :
    how = Marshal.ofCategory (g.rules.classify type) (g.rules.cType type) := by
  unfold marshal TypeRules.marshal at h
  dsimp only at h
  by_cases hunsupported : (g.rules.classify type).isUnsupported = true
  · rw [if_pos hunsupported] at h
    exact nomatch h
  · rw [if_neg hunsupported] at h
    exact (Except.ok.inj h).symm

theorem oneLine_cType {type : String} (h : OneLine type) : OneLine (g.rules.cType type) := by
  rw [TypeRules.cType]
  cases g.rules.classify type with
  | boolean => exact (by decide : OneLine "int")
  | cString => exact (by decide : OneLine "const char*")
  | _ => exact oneLine_normalizeString h

theorem braceFree_cType {type : String} (h : BraceFree type.toList) :
    BraceFree (g.rules.cType type).toList := by
  have hnormal : BraceFree (normalizeString type).toList := by
    rw [normalizeString, String.toList_ofList]
    exact h.of_subset fun c hc => mem_of_mem_normalize hc
  rw [TypeRules.cType]
  cases g.rules.classify type with
  | boolean => exact (by decide : BraceFree "int".toList)
  | cString => exact (by decide : BraceFree "const char*".toList)
  | _ => exact hnormal

theorem oneLine_localName {name : String} (h : OneLine name) : OneLine (localName name) := by
  rw [localName]
  by_cases hreserved : reservedLocals.contains name = true
  · rw [if_pos hreserved]
    exact h.append (by decide)
  · rw [if_neg hreserved]
    exact h

theorem oneLine_of_mem_localNames {m : Method} {name : String} (h : name ∈ localNames m) :
    OneLine name := by
  obtain ⟨n, hn, rfl⟩ := List.mem_map.mp h
  exact oneLine_localName (oneLine_of_mem_parameterNames hn)

theorem oneLine_argumentLine {type name line : String} {index : Nat} (htype : OneLine type)
    (hbraces : BraceFree type.toList) (hname : OneLine name)
    (h : g.argumentLine type name index = .ok line) : OneLine line := by
  obtain ⟨how, hhow, h⟩ := Attempt.bind_eq_ok.mp h
  obtain ⟨value, hvalue, h⟩ := Attempt.bind_eq_ok.mp h
  cases Attempt.pure_eq_ok.mp h
  cases marshal_eq_ok hhow
  obtain ⟨shown, hshown, hline⟩ := Marshal.argument_ofCategory (g.rules.classify type)
    (braceFree_cType (g := g) hbraces) index
  cases hshown.symm.trans (filling_eq_ok.mp hvalue)
  have hshownType : OneLine (Marshal.ofCategory (g.rules.classify type) (g.rules.cType type)).cType :=
    oneLine_cType htype
  have hvalueLine := hline (oneLine_cType htype)
  simp +decide [hshownType, hname, hvalueLine]

theorem oneLine_argumentLines {m : Member} {lines : List String} (hm : m.OnOneLine)
    (hbraces : m.WithoutBraces) (h : g.argumentLines m.method = .ok lines) :
    ∀ line ∈ lines, OneLine line := by
  intro line hline
  obtain ⟨⟨⟨type, name⟩, i⟩, hx, hargument⟩ := Attempt.exists_of_mem_mapM h hline
  obtain ⟨htype, hname⟩ := List.of_mem_zip (List.fst_mem_of_mem_zipIdx hx)
  exact oneLine_argumentLine (hm.types type htype) (hbraces.types type htype)
    (oneLine_of_mem_localNames hname) hargument

theorem oneLine_nativeCall {m : Member} (hvendor : OneLine g.config.vendorPrefix)
    (hm : m.OnOneLine) : OneLine (g.nativeCall m) := by
  have hname : OneLine (m.method.nativeName m.owner g.config.vendorPrefix) :=
    oneLine_nameOf hvendor hm
  have hnames : OneLine (joinStrings ", " (localNames m.method)) :=
    oneLine_joinStrings (by decide) fun _ hname => oneLine_of_mem_localNames hname
  rw [nativeCall]
  simp +decide [hname, hnames]

theorem oneLine_callLines {m : Member} {lines : List String}
    (hvendor : OneLine g.config.vendorPrefix) (hm : m.OnOneLine)
    (h : g.callLines m = .ok lines) : ∀ line ∈ lines, OneLine line := by
  have hcall : OneLine (g.nativeCall m) := oneLine_nativeCall hvendor hm
  obtain ⟨how, hhow, h⟩ := Attempt.bind_eq_ok.mp h
  cases marshal_eq_ok hhow
  by_cases hvoid : ((Marshal.ofCategory (g.rules.classify m.method.returnType)
      (g.rules.cType m.method.returnType)).category == .void) = true
  · rw [if_pos hvoid] at h
    obtain ⟨done, hdone, h⟩ := Attempt.bind_eq_ok.mp h
    obtain ⟨shown, hshown, hline⟩ := Marshal.statement_ofCategory
      (g.rules.classify m.method.returnType) (g.rules.cType m.method.returnType) ""
    cases hshown.symm.trans (filling_eq_ok.mp hdone)
    cases Attempt.pure_eq_ok.mp h
    refine List.forall_mem_cons.mpr ⟨?_, List.forall_mem_singleton.mpr ?_⟩
    · exact ((by decide : OneLine "  ").append hcall).append (by decide)
    · simp +decide [hline (by decide)]
  · rw [if_neg hvoid] at h
    obtain ⟨done, hdone, h⟩ := Attempt.bind_eq_ok.mp h
    obtain ⟨shown, hshown, hline⟩ := Marshal.statement_ofCategory
      (g.rules.classify m.method.returnType) (g.rules.cType m.method.returnType) "result"
    cases hshown.symm.trans (filling_eq_ok.mp hdone)
    cases Attempt.pure_eq_ok.mp h
    refine List.forall_mem_cons.mpr ⟨?_, List.forall_mem_singleton.mpr ?_⟩
    · exact ((((by decide : OneLine "  ").append (oneLine_cType hm.result)).append
        (by decide)).append hcall).append (by decide)
    · simp +decide [hline (by decide)]

theorem oneLine_wrapper {r : Registration} {lines : List String}
    (hvendor : OneLine g.config.vendorPrefix) (hm : r.toMember.OnOneLine)
    (hbraces : r.toMember.WithoutBraces) (hsymbol : OneLine r.symbol)
    (h : g.wrapper r = .ok lines) : ∀ line ∈ lines, OneLine line := by
  obtain ⟨arguments, harguments, h⟩ := Attempt.bind_eq_ok.mp h
  obtain ⟨call, hcall, h⟩ := Attempt.bind_eq_ok.mp h
  cases Attempt.pure_eq_ok.mp h
  intro line hline
  rcases List.mem_append.mp hline with hline | hlast
  · rcases List.mem_append.mp hline with hline | hin
    · rcases List.mem_cons.mp hline with rfl | hin
      · simp +decide [hsymbol]
      · exact oneLine_argumentLines hm hbraces harguments line hin
    · exact oneLine_callLines hvendor hm hcall line hin
  · rw [List.mem_singleton.mp hlast]
    decide

/-! ## The whole source -/

/-- Lines of code hold no newline. -/
theorem oneLine_of_mem_linesOfCode {code line : String} (h : line ∈ linesOfCode code) :
    OneLine line := by
  obtain ⟨piece, hpiece, rfl⟩ := List.mem_map.mp h
  exact oneLine_ofList.mpr (notMem_of_mem_splitAtChar hpiece)

/-- **READING THE C SOURCE** as a text gives back the lines that were
    written. -/
theorem linesOf_cLines {c : List String} (hvendor : OneLine g.config.vendorPrefix)
    (hvm : OneLine g.config.vmPrefix) (hgem : OneLine g.config.gemName)
    (hclasses : ∀ c ∈ classes, OneLine c.name)
    (hmembers : ∀ m ∈ membersOf classes, m.OnOneLine ∧ m.WithoutBraces)
    (hc : g.cLines classes (g.plan classes) = .ok c) :
    linesOf (joinStrings "\n" c) = c := by
  obtain ⟨overrides, ds, wrappers, hoverrides, hds, -, hlines⟩ := cLines_eq_ok hc
  have hrs : ∀ r ∈ (g.plan classes).registrations,
      r.toMember.OnOneLine ∧ r.toMember.WithoutBraces ∧ OneLine r.symbol := by
    intro r hr
    obtain ⟨hm, hbraces⟩ := hmembers _ (Plan.mem_membersOf hr)
    refine ⟨hm, hbraces, ?_⟩
    rw [Plan.symbol_eq hr]
    exact notMem_symbolOf isMark_newline (by decide) (by decide) hvm hm.owner hm.name
  have hsome : c ≠ [] := by
    rw [hlines]
    exact List.append_ne_nil_of_right_ne_nil _ (List.append_ne_nil_of_right_ne_nil _ (by decide))
  refine linesOf_joinStrings_of_oneLine hsome (forall_mem_cLines hoverrides hds hc
    (oneLine_preamble hvendor) (oneLine_classHandles hclasses) (by decide +kernel) ?_ ?_ ?_
    (fun _ _ _ _ _ => oneLine_of_mem_linesOfCode) ?_)
  · intro m hm
    have hmem := hmembers m ((declares_of_declared hds).subset m hm)
    simp +decide [externLine, oneLine_nativeHead hvendor hmem.1]
  · intro r hr own hown
    obtain ⟨hm, hbraces, hsymbol⟩ := hrs r hr
    exact oneLine_wrapper hvendor hm hbraces hsymbol hown
  · intro r hr
    obtain ⟨hm, -, -⟩ := hrs r hr
    have howner : OneLine r.owner := hm.owner
    have hname : OneLine r.method.name := hm.name
    simp +decide [Member.label, howner, hname]
  · refine oneLine_initLines hgem hclasses fun r hr => ?_
    obtain ⟨hm, -, hsymbol⟩ := hrs r hr
    exact ⟨hm.owner, hm.name, hsymbol⟩

end Generator
end GemBinder
