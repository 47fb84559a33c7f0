import GemBinder.Proofs.Header.Traversal
import GemBinder.Proofs.Plan
import GemBinder.Proofs.Selection
import GemBinder.Proofs.TypeSpelling

/-! # Symbols that are identifiers

    A symbol is put together from a prefix, from names in lower case, from
    what is left of the types of parameters and from an arity.  Of a type
    nothing is left but characters of identifiers, but the names of classes
    and methods are taken as they are spelled.  Whether a symbol can stand in
    a source therefore depends on these two spellings alone.

    The compiler front end hands on the spelling of every method, those of
    operators among them (`operator_symbols`). -/

namespace GemBinder

open Files Header Text TypeSpelling

/-! ## Texts of identifier characters -/

/-- A text made of the characters of identifiers. -/
def IdentifierText (s : String) : Prop := ∀ c ∈ s.toList, isIdentifierChar c = true

instance (s : String) : Decidable (IdentifierText s) :=
  decidable_of_iff (s.toList.all isIdentifierChar = true) List.all_eq_true

/-- A spelling whose lower case is made of the characters of identifiers. -/
def PlainSpelling (s : String) : Prop := ∀ c ∈ s.toList, isIdentifierChar c = true ∨ c = kelvin

instance (s : String) : Decidable (PlainSpelling s) :=
  decidable_of_iff (s.toList.all (fun c => isIdentifierChar c || c == kelvin) = true) <| by
    simp only [List.all_eq_true, Bool.or_eq_true, beq_iff_eq, PlainSpelling]

variable {s t : String}

theorem identifierText_append : IdentifierText (s ++ t) ↔ IdentifierText s ∧ IdentifierText t := by
  unfold IdentifierText
  rw [String.toList_append, List.forall_mem_append]

theorem identifierText_lowerString : IdentifierText (lowerString s) ↔ PlainSpelling s := by
  rw [IdentifierText, lowerString, String.toList_ofList]
  exact isIdentifierChar_lower_iff

theorem identifierText_nameFragmentString (s : String) : IdentifierText (nameFragmentString s) := by
  intro c hc
  rw [nameFragmentString, String.toList_ofList] at hc
  exact isIdentifierChar_of_mem_nameFragment hc

theorem identifierText_repr (n : Nat) : IdentifierText n.repr := by
  intro c hc
  cases hdigit : c.isDigit with
  | false => exact absurd hc (notMem_repr hdigit n)
  | true =>
      have hascii : isAsciiDigit c = true := hdigit
      rw [isIdentifierChar, hascii, Bool.or_true, Bool.true_or]

theorem identifierText_joinStrings {sep : String} {pieces : List String} (hsep : IdentifierText sep)
    (h : ∀ p ∈ pieces, IdentifierText p) : IdentifierText (joinStrings sep pieces) := by
  intro c hc
  by_contra hid
  exact notMem_joinStrings (fun hmem => hid (hsep c hmem))
    (fun p hp hmem => hid (h p hp c hmem)) hc

/-! ## The names of a member -/

variable {vendorPrefix vmPrefix : String}

/-- A symbol is made of identifier characters just when its stem is. -/
theorem identifierText_symbolWith (hvm : IdentifierText vmPrefix) {stem : String} {arity : Nat} :
    IdentifierText (symbolWith vmPrefix stem arity) ↔ IdentifierText stem := by
  have hscore : IdentifierText "_" := by decide
  have harity : IdentifierText (toString arity) := identifierText_repr arity
  rw [symbolWith]
  simp only [identifierText_append, hvm, hscore, harity, true_and, and_true]

theorem identifierText_qualifiedStem {m : Member} :
    IdentifierText m.qualifiedStem ↔ PlainSpelling m.owner ∧ PlainSpelling m.method.name := by
  have hscore : IdentifierText "_" := by decide
  rw [Member.qualifiedStem]
  by_cases hempty : m.owner.isEmpty = true
  · -- there is nothing to spell in a class without a name
    have howner : PlainSpelling m.owner := by
      rw [String.isEmpty_iff.mp hempty]
      intro c hc
      exact absurd hc List.not_mem_nil
    rw [if_pos hempty, identifierText_lowerString, and_iff_right howner]
  · rw [if_neg hempty]
    simp only [identifierText_append, identifierText_lowerString, hscore, and_true]

theorem identifierText_nameEnding (m : Method) : IdentifierText m.nameEnding := by
  rw [Method.nameEnding]
  split
  · decide
  · refine identifierText_joinStrings (by decide) (List.forall_mem_map.mpr ?_)
    intro type _
    exact identifierText_nameFragmentString type

/-- **THE NAMES OF A MEMBER** are made of identifier characters just when the
    spellings are plain that they are made of. -/
structure Member.NamedAsSpelled (vendorPrefix vmPrefix : String) (m : Member) : Prop where
  native : IdentifierText (m.method.nativeName m.owner vendorPrefix) ↔
    PlainSpelling m.owner ∧ PlainSpelling m.method.name
  bare : IdentifierText (m.method.vmName vmPrefix) ↔ PlainSpelling m.method.name
  qualified : IdentifierText (m.method.vmNameIn m.owner vmPrefix) ↔
    PlainSpelling m.owner ∧ PlainSpelling m.method.name

theorem Member.namedAsSpelled (hvendor : IdentifierText vendorPrefix) (hvm : IdentifierText vmPrefix)
    (m : Member) : m.NamedAsSpelled vendorPrefix vmPrefix where
  native := by
    have hscore : IdentifierText "_" := by decide
    rw [Method.nativeName_eq]
    simp only [identifierText_append, identifierText_lowerString, hvendor, hscore,
      identifierText_nameEnding, true_and, and_true]
  bare := by
    rw [Method.vmName_eq_symbolWith, identifierText_symbolWith hvm, identifierText_lowerString]
  qualified := by
    rw [Member.vmNameIn_eq_symbolWith, identifierText_symbolWith hvm, identifierText_qualifiedStem]

/-- The symbol of a plan is made of identifier characters just when the name
    is plain and, where its class stands in it, that of the class as well. -/
theorem Plan.identifierText_symbol_iff (hvm : IdentifierText vmPrefix) {classes : List ClassDecl}
    {r : Registration}
    (hr : r ∈ (Plan.of classes vmPrefix).registrations ++ (Plan.of classes vmPrefix).shadowed) :
    IdentifierText r.symbol ↔ PlainSpelling r.method.name ∧
      ((Plan.of classes vmPrefix).Contests vmPrefix (r.method.vmName vmPrefix) →
        PlainSpelling r.owner) := by
  rw [Plan.of, ← List.map_append] at hr
  obtain ⟨m, -, rfl⟩ := List.mem_map.mp hr
  dsimp only
  rw [symbolOf_eq_symbolWith, identifierText_symbolWith hvm, Plan.contests_iff, Member.stem]
  by_cases hcontested : m.Contested vmPrefix (Reach.of (membersOf classes)).kept
  · rw [if_pos hcontested, identifierText_qualifiedStem, and_comm]
    exact and_congr_right fun _ => (imp_iff_right hcontested).symm
  · rw [if_neg hcontested, identifierText_lowerString]
    exact (and_iff_left fun h => absurd h hcontested).symm

/-! ## The members of a tree -/

variable {rules : TypeRules} {f : Frontend} {compiler : Compiler} {w : World} {header : String}
  {nodes : List Cursor}

/-- The members that are left of the classes of cursors. -/
theorem mem_membersOf_supported {path : String} {found : List Cursor} {m : Member} :
    m ∈ membersOf ((found.map (Cursor.toClass path)).map (ClassDecl.supported rules)) ↔
      ∃ n ∈ found, ∃ k ∈ n.children, k.info.Callable ∧
        rules.supports k.info.toMethod = true ∧ m = ⟨n.info.name, k.info.toMethod⟩ := by
  rw [mem_membersOf]
  constructor
  · rintro ⟨c, hc, howner, hmethod⟩
    obtain ⟨d, hd, rfl⟩ := List.mem_map.mp hc
    obtain ⟨n, hn, rfl⟩ := List.mem_map.mp hd
    obtain ⟨hmethod, hsupported⟩ := List.mem_filter.mp hmethod
    obtain ⟨k, hk, heq⟩ := List.mem_map.mp hmethod
    obtain ⟨hchild, hkind⟩ := List.mem_filter.mp hk
    rw [← heq] at hsupported
    refine ⟨n, hn, k, hchild, isMethod_iff.mp hkind, hsupported, ?_⟩
    obtain ⟨owner, method⟩ := m
    rw [Member.mk.injEq]
    exact ⟨howner, heq.symm⟩
  · rintro ⟨n, hn, k, hk, hcallable, hsupported, rfl⟩
    refine ⟨_, List.mem_map_of_mem (List.mem_map_of_mem hn), rfl, ?_⟩
    refine List.mem_filter.mpr ⟨List.mem_map_of_mem (List.mem_filter.mpr ⟨hk, ?_⟩), hsupported⟩
    exact isMethod_iff.mpr hcallable

/-- **WHICH NAMES OF A HEADER ARE IDENTIFIERS**: what a selection retains of
    the tree of a header are the methods of its classes that can be called
    and whose types can cross; their names and the symbols of their plan are
    made of identifier characters just when their spellings are plain. -/
theorem identifierText_names_iff (hf : f.engine = .compiler compiler)
    (h : Presents compiler w header nodes) (rules : TypeRules)
    (hvendor : IdentifierText vendorPrefix) (hvm : IdentifierText vmPrefix) :
    ∃ classes retained stats w', outcome (f.classes header) w = (.ok classes, w') ∧
      selectMethods {} rules classes = .ok (retained, stats) ∧
      (∀ m, m ∈ membersOf retained ↔ ∃ n ∈ classesOf (insideOf w header) nodes,
        ∃ k ∈ n.children, k.info.Callable ∧ rules.supports k.info.toMethod = true ∧
          m = ⟨n.info.name, k.info.toMethod⟩) ∧
      (∀ m ∈ membersOf retained, m.NamedAsSpelled vendorPrefix vmPrefix) ∧
      ∀ r ∈ (Plan.of retained vmPrefix).registrations ++ (Plan.of retained vmPrefix).shadowed,
        r.toMember ∈ membersOf retained ∧
        (IdentifierText r.symbol ↔ PlainSpelling r.method.name ∧
          ((Plan.of retained vmPrefix).Contests vmPrefix (r.method.vmName vmPrefix) →
            PlainSpelling r.owner)) := by
  obtain ⟨w', hclasses⟩ := h.outcome_classes hf
  obtain ⟨stats, hselect⟩ := exists_selectMethods_empty rules
    ((classesOf (insideOf w header) nodes).map
      (Cursor.toClass (w.resolved (Path.ofString header)).toString))
  refine ⟨_, _, stats, w', hclasses, hselect, fun m => mem_membersOf_supported,
    fun m _ => m.namedAsSpelled hvendor hvm, ?_⟩
  intro r hr
  refine ⟨?_, Plan.identifierText_symbol_iff hvm hr⟩
  -- what a plan shadows was declared as well
  refine (Reach.perm _).mem_iff.mp ?_
  rw [← Plan.registrations_map_toMember _ vmPrefix, ← Plan.shadowed_map_toMember _ vmPrefix,
    ← List.map_append]
  exact List.mem_map_of_mem hr

/-- A class with a method and an operator. -/
def operatorClass : List Cursor :=
  [.node { kind := some "CLASS_DECL", name := "A" }
    [.node { kind := some "CXX_METHOD", name := "scale", access := some "PUBLIC" } [],
      .node { kind := some "CXX_METHOD", name := "operator+", access := some "PUBLIC",
              returnType := "int", arguments := [("int", "b")] } []]]

/-- The names of the method are identifiers, those of the operator are not. -/
theorem identifierText_names_iff_operatorClass :
    let f : Frontend := { engine := .compiler (.showing operatorClass) }
    let scale : Member := ⟨"A", ⟨"scale", "void", [], false, false, false⟩⟩
    let plus : Member := ⟨"A", ⟨"operator+", "int", [⟨"int", "b"⟩], false, false, false⟩⟩
    IdentifierText defaultVendorPrefix ∧ IdentifierText defaultVmPrefix ∧
      Presents (.showing operatorClass) oneHeader "a.h" operatorClass ∧
      ∃ classes retained stats w', outcome (f.classes "a.h") oneHeader = (.ok classes, w') ∧
        selectMethods {} .default classes = .ok (retained, stats) ∧
        scale ∈ membersOf retained ∧ plus ∈ membersOf retained ∧
        IdentifierText (scale.method.nativeName scale.owner) ∧
        ¬ IdentifierText (plus.method.nativeName plus.owner) := by
  intro f scale plus
  have hvendor : IdentifierText defaultVendorPrefix := by decide
  have hvm : IdentifierText defaultVmPrefix := by decide
  have hpresents := presents_oneHeader operatorClass
  obtain ⟨classes, retained, stats, w', houtcome, hselect, hmembers, hnames, -⟩ :=
    identifierText_names_iff (f := f) rfl hpresents .default hvendor hvm
  have hscale : scale ∈ membersOf retained := (hmembers scale).mpr
    ⟨_, List.mem_singleton_self _, _, List.mem_cons_self, by decide, by decide +kernel, rfl⟩
  have hplus : plus ∈ membersOf retained := (hmembers plus).mpr
    ⟨_, List.mem_singleton_self _, _, List.mem_cons_of_mem _ List.mem_cons_self, by decide,
      by decide +kernel, rfl⟩
  refine ⟨hvendor, hvm, hpresents, classes, retained, stats, w', houtcome, hselect,
    hscale, hplus, (hnames scale hscale).native.mpr (by decide), ?_⟩
  intro h
  exact absurd ((hnames plus hplus).native.mp h).2 (by decide)

/-- **OPERATORS HAVE NO IDENTIFIERS**: with the default prefixes and without a
    registry, an operator is registered under a symbol and calls a function
    whose names no source can declare. -/
theorem operator_symbols :
    let f : Frontend := { engine := .compiler (.showing operatorClass) }
    IdentifierText defaultVendorPrefix ∧ IdentifierText defaultVmPrefix ∧
      ∃ classes retained stats w', outcome (f.classes "a.h") oneHeader = (.ok classes, w') ∧
        selectMethods {} .default classes = .ok (retained, stats) ∧
        ∃ r ∈ (Plan.of retained).registrations,
          r.method.nativeName r.owner = "m5unified_a_operator+_int" ∧
          r.symbol = "mrbc_m5_operator+_1" ∧
          ¬ IdentifierText (r.method.nativeName r.owner) ∧ ¬ IdentifierText r.symbol := by
  intro f
  obtain ⟨w', hclasses⟩ := (presents_oneHeader operatorClass).outcome_classes (f := f) rfl
  obtain ⟨stats, hselect⟩ := exists_selectMethods_empty .default
    ((classesOf (insideOf oneHeader "a.h") operatorClass).map
      (Cursor.toClass (oneHeader.resolved (Path.ofString "a.h")).toString))
  refine ⟨by decide, by decide, _, _, stats, w', hclasses, hselect, ?_⟩
  decide +kernel

end GemBinder
