import GemBinder.Proofs.Selection
import GemBinder.Proofs.Source.Externs

/-! # What is selected can be written

    A selection asks of every method whether its types can cross or the
    registry has code for it.  The sources ask again, under other names: the
    C source looks for code by the label of a registration and wants the
    symbol in it, under which the method may be registered with its class,
    and the rules make a wrapper for every registration that nothing is
    found for.  With a registry whose code comes in the built-in form the
    answers agree: code defines whatever symbol it is renamed to
    (`exists_bindingOf_of_known`), and what has no code crosses
    (`supports_of_retainable`). -/

namespace GemBinder

open Text Placeholder

/-! ## The built-in accessor -/

/-- The built-in accessor reaches every class. -/
theorem apiObject_default {config : GemConfig}
    (h : config.apiAccessor = ({} : GemConfig).apiAccessor) (owner : String) :
    config.apiObject owner = .ok ("M5." ++ owner ++ "") := by
  have htemplate : ({} : GemConfig).apiAccessor
      = "M5." ++ ("\x7b" ++ "class_name" ++ "\x7d") ++ "" := rfl
  have hvalue : lookUp [("class_name", .text owner)] "class_name".toList = .ok (.text owner) := rfl
  rw [GemConfig.apiObject, h, htemplate]
  exact fill_field (by decide) (by decide) (by decide) (by decide) hvalue rfl

/-! ## Names -/

/-- A name can begin with a text: its first character is a word character and
    no backslash is in it. -/
def OpensName (s : String) : Prop :=
  s.toList.head?.any isWordChar = true ∧ '\\' ∉ s.toList

instance (s : String) : Decidable (OpensName s) :=
  inferInstanceAs (Decidable (_ ∧ _))

/-- A name can begin with any identifier. -/
theorem opensName_of_identifier {s : String} (hne : s ≠ "")
    (h : s.toList.all isIdentifierChar = true) : OpensName s := by
  have hall : ∀ c ∈ s.toList, isIdentifierChar c = true := List.all_eq_true.mp h
  have hword : ∀ c ∈ s.toList, isWordChar c = true := fun c hc =>
    isWordChar_of_isIdentifierChar (toNat_lt_of_isIdentifierChar (hall c hc)) (hall c hc)
  refine ⟨?_, fun hslash => absurd (hall _ hslash) (by decide)⟩
  cases hlist : s.toList with
  | nil => exact absurd (String.toList_eq_nil_iff.mp hlist) hne
  | cons c more => exact hword c (hlist ▸ List.mem_cons_self)

/-- A symbol begins like its prefix. -/
theorem head?_callOf_symbolWith {vmPrefix : String} (h : OpensName vmPrefix) (stem : String)
    (arity : Nat) :
    (callOf (symbolWith vmPrefix stem arity)).head?.any isWordChar = true := by
  have hne : vmPrefix.toList ≠ [] := by
    intro hnil
    have hfirst := h.1
    rw [hnil] at hfirst
    exact nomatch hfirst
  rw [callOf, symbolWith]
  simp only [String.toList_append, List.append_assoc]
  rw [List.head?_append_of_ne_nil _ hne]
  exact h.1

/-- Binding code mentions the symbol of its wrapper. -/
theorem mentions_bindingText {head symbol : String} {rest : List String}
    (h : (callOf symbol).head?.any isWordChar = true) :
    Mentions symbol (bindingText head symbol rest) := by
  refine ⟨_, _, toList_bindingText head symbol rest, ?_⟩
  have hlast : (bindingBefore head).toList.getLast? = some ' ' := by
    rw [← lastOr_bindingBefore head, lastOr, Option.or_none]
  rw [hlast, isWordBoundary, h]
  decide

namespace Generator

variable {g : Generator}

/-! ## What the rules make -/

section Rules

theorem marshal_of_supported {type : String} (h : g.rules.isUnsupported type = false) :
    g.marshal type
      = .ok (Marshal.ofCategory (g.rules.classify type) (g.rules.cType type)) := by
  have hsupported : ¬ (g.rules.classify type).isUnsupported = true := Bool.eq_false_iff.mp h
  rw [marshal, TypeRules.marshal, if_neg hsupported]
  rfl

theorem exists_argumentLine {type : String} (hsupported : g.rules.isUnsupported type = false)
    (hbraces : BraceFree type.toList) (name : String) (index : Nat) :
    ∃ line, g.argumentLine type name index = .ok line := by
  refine Attempt.exists_bind ⟨_, marshal_of_supported hsupported⟩ fun how hhow => ?_
  cases marshal_eq_ok hhow
  obtain ⟨value, hvalue, -⟩ := Marshal.argument_ofCategory (g.rules.classify type)
    (braceFree_cType (g := g) hbraces) index
  exact Attempt.exists_bind ⟨value, filling_eq_ok.mpr hvalue⟩ fun _ _ => ⟨_, rfl⟩

theorem exists_callLines {m : Member}
    (hsupported : g.rules.isUnsupported m.method.returnType = false) :
    ∃ lines, g.callLines m = .ok lines := by
  refine Attempt.exists_bind ⟨_, marshal_of_supported hsupported⟩ fun how hhow => ?_
  have hreturned : ∀ e, ∃ done, filling (how.statement e) = .ok done := by
    intro e
    cases marshal_eq_ok hhow
    obtain ⟨done, hdone, -⟩ := Marshal.statement_ofCategory
      (g.rules.classify m.method.returnType) (g.rules.cType m.method.returnType) e
    exact ⟨done, filling_eq_ok.mpr hdone⟩
  by_cases hvoid : (how.category == .void) = true
  · rw [if_pos hvoid]
    exact Attempt.exists_bind (hreturned "") fun _ _ => ⟨_, rfl⟩
  · rw [if_neg hvoid]
    exact Attempt.exists_bind (hreturned "result") fun _ _ => ⟨_, rfl⟩

/-- **THE RULES MAKE A WRAPPER** for every method that they support, if its
    types are spelled without braces. -/
theorem exists_wrapper {r : Registration} (hsupported : g.rules.supports r.method = true)
    (hbraces : r.toMember.WithoutBraces) : ∃ lines, g.wrapper r = .ok lines := by
  obtain ⟨hreturn, hparameters⟩ := TypeRules.supports_iff.mp hsupported
  have harguments : ∃ lines, g.argumentLines r.method = .ok lines := by
    refine Attempt.exists_mapM ?_
    rintro ⟨⟨type, name⟩, i⟩ hx
    obtain ⟨htype, -⟩ := List.of_mem_zip (List.fst_mem_of_mem_zipIdx hx)
    obtain ⟨p, hp, rfl⟩ := List.mem_map.mp htype
    exact exists_argumentLine (hparameters p hp) (hbraces.types _ htype) name i
  refine Attempt.exists_bind harguments fun _ _ => ?_
  exact Attempt.exists_bind (exists_callLines hreturn) fun _ _ => ⟨_, rfl⟩

theorem exists_nativeFunction {m : Member} (h : ∃ object, g.config.apiObject m.owner = .ok object) :
    ∃ lines, g.nativeFunction m = .ok lines := by
  obtain ⟨object, hobject⟩ := h
  exact Attempt.exists_bind ⟨object, filling_eq_ok.mpr hobject⟩ fun _ _ => ⟨_, rfl⟩

end Rules

/-! ## Walks that succeed -/

section Walks

theorem exists_declared {seen : List String} {ms : List Member}
    (h : ∀ m ∈ ms, ∃ code, g.registry.bindingCode m.owner m.method = .ok code) :
    ∃ ds, g.declared seen ms = .ok ds := by
  induction ms generalizing seen with
  | nil => exact ⟨[], rfl⟩
  | cons m more ih =>
      obtain ⟨hm, hmore⟩ := List.forall_mem_cons.mp h
      refine Attempt.exists_bind hm fun code _ => ?_
      dsimp only
      by_cases hpassed : (code.isSome || seen.contains (g.nameOf m)) = true
      · rw [nativeName_eq_nameOf, if_pos hpassed]
        exact ih hmore
      · rw [nativeName_eq_nameOf, if_neg hpassed]
        exact Attempt.exists_bind (ih hmore) fun _ _ => ⟨_, rfl⟩

theorem exists_wrappersFrom {overrides : List (String × String)} {written : List String}
    {rs : List Registration}
    (h : ∀ r ∈ rs, overrides.lookup r.label = none → ∃ own, g.wrapper r = .ok own) :
    ∃ lines, g.wrappersFrom overrides written rs = .ok lines := by
  induction rs generalizing written with
  | nil => exact ⟨[], rfl⟩
  | cons r more ih =>
      obtain ⟨hr, hmore⟩ := List.forall_mem_cons.mp h
      rw [wrappersFrom]
      cases hlookup : overrides.lookup r.label with
      | some code =>
          dsimp only
          by_cases hwritten : written.contains code = true
          · rw [if_pos hwritten]
            exact ih hmore
          · rw [if_neg hwritten]
            exact Attempt.exists_bind (ih hmore) fun _ _ => ⟨_, rfl⟩
      | none =>
          refine Attempt.exists_bind (hr hlookup) fun _ _ => ?_
          exact Attempt.exists_bind (ih hmore) fun _ _ => ⟨_, rfl⟩

theorem exists_definitionsFrom {defined written : List String} {ms : List Member}
    (hobject : ∀ owner, ∃ object, g.config.apiObject owner = .ok object)
    (h : ∀ m ∈ ms, ∃ code, g.registry.nativeCode m.owner m.method = .ok code) :
    ∃ lines, g.definitionsFrom defined written ms = .ok lines := by
  induction ms generalizing defined written with
  | nil => exact ⟨[], rfl⟩
  | cons m more ih =>
      obtain ⟨hm, hmore⟩ := List.forall_mem_cons.mp h
      refine Attempt.exists_bind hm fun code _ => ?_
      cases code with
      | some code =>
          dsimp only
          by_cases hwritten : written.contains code = true
          · rw [if_pos hwritten]
            exact ih hmore
          · rw [if_neg hwritten]
            exact Attempt.exists_bind (ih hmore) fun _ _ => ⟨_, rfl⟩
      | none =>
          dsimp only
          by_cases hdefined : defined.contains (g.nameOf m) = true
          · rw [nativeName_eq_nameOf, if_pos hdefined]
            exact ih hmore
          · rw [nativeName_eq_nameOf, if_neg hdefined]
            refine Attempt.exists_bind (exists_nativeFunction (hobject m.owner)) fun _ _ => ?_
            exact Attempt.exists_bind (ih hmore) fun _ _ => ⟨_, rfl⟩

/-- **THE C SOURCE CAN BE WRITTEN** if every registration has code that defines
    its symbol or a wrapper of the rules. -/
theorem exists_cLines {classes : List ClassDecl}
    (hbindings : ∀ r ∈ (g.plan classes).registrations, ∃ code, g.bindingOf r = .ok code)
    (hcodes : ∀ m ∈ membersOf classes, ∃ code, g.registry.bindingCode m.owner m.method = .ok code)
    (hwrappers : ∀ r ∈ (g.plan classes).registrations,
      g.registry.bindingCode r.owner r.method = .ok none → ∃ own, g.wrapper r = .ok own) :
    ∃ lines, g.cLines classes (g.plan classes) = .ok lines := by
  have hdeclarations : ∃ lines, g.declarations classes = .ok lines :=
    Attempt.exists_bind (exists_declared hcodes) fun _ _ => ⟨_, rfl⟩
  refine Attempt.exists_bind (overridesOf_eq_ok_iff.mpr hbindings) fun overrides hoverrides => ?_
  refine Attempt.exists_bind hdeclarations fun _ _ => ?_
  refine Attempt.exists_bind (exists_wrappersFrom fun r hr hlookup => ?_) fun _ _ => ⟨_, rfl⟩
  -- what has no code under its label has none in the registry
  exact hwrappers r hr (bindingOf_eq_none_iff.mp (bindingOf_of_lookup_eq_none hoverrides hr hlookup))

end Walks

/-! ## Code of the registry -/

section Code

variable (hg : g.registry = {} ∨ g.registry = .builtin)

include hg

theorem exists_codes (m : Member) :
    ∃ native binding, g.registry.nativeCode m.owner m.method = .ok native ∧
      g.registry.bindingCode m.owner m.method = .ok binding := by
  rcases codes_of_known hg m with
    ⟨hnative, hbinding⟩ | ⟨head, body, rest, -, -, hnative, hbinding, -, -⟩
  · exact ⟨_, _, hnative, hbinding⟩
  · exact ⟨_, _, hnative, hbinding⟩

/-- **CODE DEFINES THE SYMBOL** of the registration that it is for, with its
    class in it or without. -/
theorem exists_bindingOf_of_known {kept : List Member} {r : Registration}
    (hvm : OpensName g.config.vmPrefix)
    (hsymbol : r.symbol = symbolOf g.config.vmPrefix kept r.toMember) :
    ∃ code, g.bindingOf r = .ok code := by
  rcases codes_of_known hg r.toMember with
    ⟨-, hnone⟩ | ⟨head, body, rest, hhead, hrest, -, hbinding, howner, hname⟩
  · exact ⟨none, bindingOf_eq_none_iff.mpr hnone⟩
  · have hopens : (callOf r.symbol).head?.any isWordChar = true := by
      rw [hsymbol, symbolOf_eq_symbolWith]
      exact head?_callOf_symbolWith hvm _ _
    refine ⟨some (bindingText head r.symbol rest), bindingOf_eq_some_iff.mpr ⟨_, hbinding, ?_, ?_⟩⟩
    · exact retarget_registration hvm.2 hsymbol hhead hrest howner hname
    · exact mentions_bindingText hopens

/-- A selected member without binding code has types that can cross. -/
theorem supports_of_retainable {m : Member} (h : retainable g.registry g.rules m = true)
    (hnone : g.registry.bindingCode m.owner m.method = .ok none) :
    g.rules.supports m.method = true := by
  obtain ⟨native, -, hnative, -⟩ := exists_codes hg m
  have hbinds : g.registry.binds m = false := by
    rw [Registry.binds, hnative, hnone]
    exact Bool.and_false _
  rw [retainable, hbinds, Bool.or_false] at h
  exact (Bool.and_eq_true_iff.mp h).2

/-! ## The sources -/

/-- The C source of selected members can be written. -/
theorem exists_cSource {classes : List ClassDecl} (hvm : OpensName g.config.vmPrefix)
    (hbraces : ∀ m ∈ membersOf classes, m.WithoutBraces)
    (hselected : ∀ m ∈ membersOf classes, retainable g.registry g.rules m = true) :
    ∃ text, g.cSource classes = .ok text := by
  have hlines : ∃ lines, g.cLines classes (g.plan classes) = .ok lines := by
    refine exists_cLines (fun r hr => exists_bindingOf_of_known hg hvm (Plan.symbol_eq hr)) ?_ ?_
    · intro m _
      obtain ⟨-, binding, -, hbinding⟩ := exists_codes hg m
      exact ⟨binding, hbinding⟩
    · intro r hr hnone
      have hm := Plan.mem_membersOf hr
      exact exists_wrapper (supports_of_retainable hg (hselected _ hm) hnone) (hbraces _ hm)
  exact Attempt.exists_bind hlines fun _ _ => ⟨_, rfl⟩

/-- The native source can be written. -/
theorem exists_nativeSource (classes : List ClassDecl)
    (haccess : g.config.apiAccessor = ({} : GemConfig).apiAccessor) :
    ∃ text, g.nativeSource classes = .ok text := by
  have hdefinitions : ∃ lines, g.definitionsFrom [] [] (membersOf classes) = .ok lines := by
    refine exists_definitionsFrom (fun owner => ⟨_, apiObject_default haccess owner⟩) fun m _ => ?_
    obtain ⟨native, -, hnative, -⟩ := exists_codes hg m
    exact ⟨native, hnative⟩
  have hlines : ∃ lines, g.nativeLines classes = .ok lines :=
    Attempt.exists_bind hdefinitions fun _ _ => ⟨_, rfl⟩
  exact Attempt.exists_bind hlines fun _ _ => ⟨_, rfl⟩

end Code

end Generator

/-- **WHAT IS SELECTED CAN BE WRITTEN**: with the empty or the built-in
    registry, the built-in accessor and types without braces a selection
    succeeds, and both sources of what it retains do. -/
theorem exists_sources_of_selection (g : Generator) (classes : List ClassDecl)
    (hg : g.registry = {} ∨ g.registry = .builtin)
    (haccess : g.config.apiAccessor = ({} : GemConfig).apiAccessor)
    (hvm : OpensName g.config.vmPrefix) (hbraces : ∀ m ∈ membersOf classes, m.WithoutBraces) :
    ∃ retained stats c native,
      selectMethods g.registry g.rules classes = .ok (retained, stats) ∧
      g.cSource retained = .ok c ∧ g.nativeSource retained = .ok native := by
  have hanswers : ∀ m ∈ membersOf classes, g.registry.Answers g.rules m := by
    intro m _ _ _
    exact Generator.exists_codes hg m
  obtain ⟨js, -, -, hselect⟩ := exists_selectMethods hanswers
  have hretained : ∀ m ∈ membersOf (classes.map (ClassDecl.retainable g.registry g.rules)),
      m ∈ membersOf classes ∧ retainable g.registry g.rules m = true := by
    intro m hm
    rw [membersOf_map_retainable] at hm
    exact List.mem_filter.mp hm
  obtain ⟨c, hc⟩ := Generator.exists_cSource hg hvm (fun m hm => hbraces m (hretained m hm).1)
    fun m hm => (hretained m hm).2
  obtain ⟨native, hnative⟩ := Generator.exists_nativeSource hg
    (classes.map (ClassDecl.retainable g.registry g.rules)) haccess
  exact ⟨_, _, c, native, hselect, hc, hnative⟩

/-- Lights that code is for, and a panel with a method of the same name and
    arity and with one that is filtered out. -/
def lightsAndPanel : List ClassDecl :=
  [{ name := "LED_Class", methods :=
      [⟨"setAllColor", "void", [⟨"const RGBColor&", "color"⟩], false, false, false⟩] },
   { name := "Panel", methods :=
      [⟨"setAllColor", "void", [⟨"uint32_t", "color"⟩], false, false, false⟩,
       ⟨"getBuffer", "uint8_t*", [], false, false, false⟩] }]

/-- Their sources can be written, where the code gets a symbol with its class
    in it. -/
theorem exists_sources_of_lightsAndPanel :
    ∃ retained stats c native,
      selectMethods .builtin .default lightsAndPanel = .ok (retained, stats) ∧
      builtinGenerator.cSource retained = .ok c ∧ builtinGenerator.nativeSource retained = .ok native := by
  have hbraces : ∀ m ∈ membersOf lightsAndPanel, m.WithoutBraces := by
    refine List.forall_mem_cons.mpr ⟨⟨by decide, by decide⟩, List.forall_mem_cons.mpr
      ⟨⟨by decide, by decide⟩, List.forall_mem_singleton.mpr ⟨by decide, by decide⟩⟩⟩
  have hvm : OpensName builtinGenerator.config.vmPrefix :=
    opensName_of_identifier (by decide) (by decide)
  exact exists_sources_of_selection builtinGenerator lightsAndPanel (.inr rfl) rfl hvm hbraces

end GemBinder
