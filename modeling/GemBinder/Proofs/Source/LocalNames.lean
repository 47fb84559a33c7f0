import GemBinder.Proofs.Source.Success

/-! # The names inside a wrapper

    A parameter keeps its name if that can be used, gets one from its position
    if it cannot, and loses its name to a variable with an underscore more where
    the name is taken inside a wrapper.  Each of these choices looks at one
    parameter only.  So two names can meet in two ways: one is given that
    another parameter gets from its position, or one is given that a variable
    gets instead of a taken name. -/

namespace GemBinder

open Text

/-! ## Positions -/

section Positions

variable {α β : Type} {f : α → Option β} {l : List α}

/-- What is taken from a list is distinct if it is taken at distinct
    positions. -/
theorem nodup_filterMap_iff : (l.filterMap f).Nodup ↔
    ∀ (i j : Nat) x y b, l[i]? = some x → l[j]? = some y → f x = some b → f y = some b → i = j := by
  rw [List.Nodup, List.pairwise_filterMap, List.pairwise_iff_getElem]
  constructor
  · intro h i j x y b hi hj hx hy
    obtain ⟨hil, rfl⟩ := List.getElem?_eq_some_iff.mp hi
    obtain ⟨hjl, rfl⟩ := List.getElem?_eq_some_iff.mp hj
    rcases lt_trichotomy i j with hlt | heq | hgt
    · exact absurd rfl (h i j hil hjl hlt b hx b hy)
    · exact heq
    · exact absurd rfl (h j i hjl hil hgt b hy b hx)
  · intro h i j hil hjl hlt b hx b' hy heq
    subst heq
    exact absurd (h i j _ _ b (List.getElem?_eq_getElem hil) (List.getElem?_eq_getElem hjl) hx hy)
      hlt.ne

theorem nodup_iff_positions :
    l.Nodup ↔ ∀ (i j : Nat) x, l[i]? = some x → l[j]? = some x → i = j := by
  have hall := nodup_filterMap_iff (f := some) (l := l)
  rw [List.filterMap_some] at hall
  rw [hall]
  constructor
  · intro h i j x hi hj
    exact h i j x x x hi hj rfl rfl
  · rintro h i j x y b hi hj ⟨⟩ ⟨⟩
    exact h i j _ hi hj

end Positions

/-! ## Names of parameters -/

/-- The name of a parameter, if it can be used. -/
def Parameter.usableName? (p : Parameter) : Option String := p.name.filter isUsableName

/-- The name that a parameter gets from its position. -/
def fallbackName (i : Nat) : String := "param_" ++ toString i

theorem fallbackName_inj {i j : Nat} (h : fallbackName i = fallbackName j) : i = j := by
  have hlists := congrArg String.toList h
  rw [fallbackName, fallbackName, String.toList_append, String.toList_append] at hlists
  exact toString_nat_inj (List.append_cancel_left hlists)

theorem parameterName_eq (p : Parameter) (i : Nat) :
    parameterName p.name i = p.usableName?.getD (fallbackName i) := by
  rw [Parameter.usableName?]
  cases p.name with
  | none => rfl
  | some n =>
      rw [Option.filter_some]
      show (if isUsableName n = true then n else fallbackName i) = _
      by_cases husable : isUsableName n = true
      · rw [if_pos husable, if_pos husable]
        rfl
      · rw [if_neg husable, if_neg husable]
        rfl

namespace Method

variable {m : Method} {name : String} {i : Nat} {p : Parameter}

/-- The usable names that are given. -/
def usableNames (m : Method) : List String := m.parameters.filterMap Parameter.usableName?

/-- A name is given that another parameter gets from its position. -/
def FallbackGiven (m : Method) : Prop :=
  ∃ (i : Nat) (p : Parameter), m.parameters[i]? = some p ∧ p.usableName? = none ∧
    fallbackName i ∈ m.usableNames

instance (m : Method) : Decidable m.FallbackGiven :=
  decidable_of_iff (∃ x ∈ m.parameters.zipIdx, x.1.usableName? = none ∧
    fallbackName x.2 ∈ m.usableNames) (by
      simp only [FallbackGiven, Prod.exists, List.mem_zipIdx_iff_getElem?]
      rw [exists_comm])

theorem getElem?_parameterNames (m : Method) (i : Nat) : m.parameterNames[i]? =
    m.parameters[i]?.map fun p => p.usableName?.getD (fallbackName i) := by
  rw [parameterNames, List.getElem?_map, List.getElem?_zipIdx, Option.map_map]
  refine congrArg (Option.map · _) (funext fun p => ?_)
  rw [Function.comp_apply, Nat.zero_add]
  exact parameterName_eq p i

theorem mem_usableNames : name ∈ m.usableNames ↔
    ∃ (i : Nat) (p : Parameter), m.parameters[i]? = some p ∧ p.usableName? = some name := by
  rw [usableNames, List.mem_filterMap]
  constructor
  · rintro ⟨p, hp, hname⟩
    obtain ⟨i, hi⟩ := List.mem_iff_getElem?.mp hp
    exact ⟨i, p, hi, hname⟩
  · rintro ⟨i, p, hi, hname⟩
    exact ⟨p, List.mem_of_getElem? hi, hname⟩

/-- The name at a position is the one that is given there, or the one of the
    position. -/
theorem parameterNames_eq_some : m.parameterNames[i]? = some name ↔
    ∃ p, m.parameters[i]? = some p ∧
      (p.usableName? = some name ∨ p.usableName? = none ∧ fallbackName i = name) := by
  rw [getElem?_parameterNames, Option.map_eq_some_iff]
  refine exists_congr fun p => and_congr_right fun _ => ?_
  cases p.usableName? with
  | none => simp
  | some n => simp

theorem mem_parameterNames : name ∈ m.parameterNames ↔ name ∈ m.usableNames ∨
    ∃ (i : Nat) (p : Parameter), m.parameters[i]? = some p ∧ p.usableName? = none ∧
      fallbackName i = name := by
  rw [List.mem_iff_getElem?, mem_usableNames]
  constructor
  · rintro ⟨i, hi⟩
    obtain ⟨p, hp, hname | hname⟩ := parameterNames_eq_some.mp hi
    · exact .inl ⟨i, p, hp, hname⟩
    · exact .inr ⟨i, p, hp, hname⟩
  · rintro (⟨i, p, hp, hname⟩ | ⟨i, p, hp, hname⟩)
    · exact ⟨i, parameterNames_eq_some.mpr ⟨p, hp, .inl hname⟩⟩
    · exact ⟨i, parameterNames_eq_some.mpr ⟨p, hp, .inr hname⟩⟩

/-- **WHERE THE NAMES OF PARAMETERS ARE DISTINCT**: no position gives a name
    that is given to another parameter. -/
theorem nodup_parameterNames_iff (h : m.usableNames.Nodup) :
    m.parameterNames.Nodup ↔ ¬ m.FallbackGiven := by
  rw [nodup_iff_positions]
  constructor
  · rintro hnodup ⟨i, p, hp, hnone, hgiven⟩
    obtain ⟨j, q, hq, hname⟩ := mem_usableNames.mp hgiven
    have hij := hnodup i j _ (parameterNames_eq_some.mpr ⟨p, hp, .inr ⟨hnone, rfl⟩⟩)
      (parameterNames_eq_some.mpr ⟨q, hq, .inl hname⟩)
    subst hij
    cases hp.symm.trans hq
    exact nomatch hnone.symm.trans hname
  · intro hfree i j name hi hj
    obtain ⟨p, hp, hgiven | ⟨hnone, hfallback⟩⟩ := parameterNames_eq_some.mp hi
    · obtain ⟨q, hq, hgiven' | ⟨hnone', hfallback'⟩⟩ := parameterNames_eq_some.mp hj
      · exact nodup_filterMap_iff.mp h i j p q name hp hq hgiven hgiven'
      · exact absurd ⟨j, q, hq, hnone', hfallback' ▸ mem_usableNames.mpr ⟨i, p, hp, hgiven⟩⟩ hfree
    · obtain ⟨q, hq, hgiven' | ⟨hnone', hfallback'⟩⟩ := parameterNames_eq_some.mp hj
      · exact absurd ⟨i, p, hp, hnone, hfallback ▸ mem_usableNames.mpr ⟨j, q, hq, hgiven'⟩⟩ hfree
      · exact fallbackName_inj (hfallback.trans hfallback'.symm)

end Method

/-! ## Names of variables -/

namespace Generator

variable {g : Generator} {m : Method} {name name' : String}

/-- The name of a variable for a name that is taken. -/
def renamed (name : String) : String := name ++ "_"

/-- A name is given that a variable gets instead of another one, which is
    given but taken. -/
def RenamedGiven (m : Method) : Prop :=
  ∃ name ∈ reservedLocals, name ∈ m.usableNames ∧ renamed name ∈ m.usableNames

instance (m : Method) : Decidable (RenamedGiven m) :=
  inferInstanceAs (Decidable (∃ name ∈ reservedLocals, _))

theorem localName_of_mem (h : name ∈ reservedLocals) : localName name = renamed name := by
  rw [localName, if_pos (List.contains_iff_mem.mpr h)]
  rfl

theorem localName_of_notMem (h : name ∉ reservedLocals) : localName name = name := by
  rw [localName, if_neg (by rwa [List.contains_iff_mem])]

/-- No variable takes a name that is taken. -/
theorem localName_notMem_reservedLocals (name : String) : localName name ∉ reservedLocals := by
  by_cases hmem : name ∈ reservedLocals
  · have hfree : ∀ name ∈ reservedLocals, renamed name ∉ reservedLocals := by decide
    rw [localName_of_mem hmem]
    exact hfree name hmem
  · rw [localName_of_notMem hmem]
    exact hmem

theorem renamed_notMem_reservedLocals (h : name ∈ reservedLocals) :
    renamed name ∉ reservedLocals := by
  rw [← localName_of_mem h]
  exact localName_notMem_reservedLocals name

theorem renamed_inj (h : renamed name = renamed name') : name = name' := by
  have hlists := congrArg String.toList h
  rw [renamed, renamed, String.toList_append, String.toList_append] at hlists
  exact String.toList_inj.mp (List.append_cancel_right hlists)

/-- A name that is taken, or given instead of one, is no name of a position. -/
theorem fallbackName_ne (i : Nat) (h : name ∈ reservedLocals) :
    fallbackName i ≠ name ∧ fallbackName i ≠ renamed name := by
  have hheads : ∀ name ∈ reservedLocals, name.toList.head? ≠ some 'p' ∧
      (renamed name).toList.head? ≠ some 'p' := by
    decide
  have hp : (fallbackName i).toList.head? = some 'p' := by
    rw [fallbackName, String.toList_append]
    rfl
  constructor
  · rintro rfl
    exact (hheads _ h).1 hp
  · intro heq
    rw [heq] at hp
    exact (hheads name h).2 hp

/-- What is taken, or given instead, is the name of a parameter only if it is
    given. -/
theorem mem_usableNames_of_reserved (h : name ∈ reservedLocals) :
    (name ∈ m.parameterNames ↔ name ∈ m.usableNames) ∧
      (renamed name ∈ m.parameterNames ↔ renamed name ∈ m.usableNames) := by
  rw [Method.mem_parameterNames, Method.mem_parameterNames]
  refine ⟨or_iff_left ?_, or_iff_left ?_⟩
  · rintro ⟨i, p, -, -, hname⟩
    exact (fallbackName_ne i h).1 hname
  · rintro ⟨i, p, -, -, hname⟩
    exact (fallbackName_ne i h).2 hname

/-- **WHERE THE VARIABLES ARE DISTINCT**: the names of the parameters are, and
    no variable gets a name that is given. -/
theorem nodup_localNames_iff :
    (localNames m).Nodup ↔ m.parameterNames.Nodup ∧ ¬ RenamedGiven m := by
  constructor
  · intro hnodup
    refine ⟨hnodup.of_map, ?_⟩
    rintro ⟨name, hname, hgiven, hrenamed⟩
    obtain ⟨hmem, hmem'⟩ := @mem_usableNames_of_reserved m name hname
    have hfree := renamed_notMem_reservedLocals hname
    have heq : name = renamed name := by
      refine List.inj_on_of_nodup_map hnodup (hmem.mpr hgiven) (hmem'.mpr hrenamed) ?_
      rw [localName_of_mem hname, localName_of_notMem hfree]
    rw [← heq] at hfree
    exact hfree hname
  · rintro ⟨hnodup, hfree⟩
    -- a variable that is renamed meets none that is not
    have hapart : ∀ x ∈ m.parameterNames, ∀ y ∈ m.parameterNames, x ∈ reservedLocals →
        renamed x ≠ y := by
      rintro x hx y hy hreserved rfl
      obtain ⟨hmem, hmem'⟩ := @mem_usableNames_of_reserved m x hreserved
      exact hfree ⟨x, hreserved, hmem.mp hx, hmem'.mp hy⟩
    refine hnodup.map_on fun x hx y hy heq => ?_
    by_cases hxr : x ∈ reservedLocals
    · rw [localName_of_mem hxr] at heq
      by_cases hyr : y ∈ reservedLocals
      · rw [localName_of_mem hyr] at heq
        exact renamed_inj heq
      · rw [localName_of_notMem hyr] at heq
        exact absurd heq (hapart x hx y hy hxr)
    · rw [localName_of_notMem hxr] at heq
      by_cases hyr : y ∈ reservedLocals
      · rw [localName_of_mem hyr] at heq
        exact absurd heq.symm (hapart y hy x hx hyr)
      · rw [localName_of_notMem hyr] at heq
        exact heq

/-! ## The text of a wrapper -/

/-- A line that declares a variable and gives it a value. -/
def declaration (type name value : String) : String :=
  "  " ++ type ++ " " ++ name ++ " = " ++ value ++ ";"

theorem declaration_result (type value : String) :
    declaration type "result" value = "  " ++ type ++ " result = " ++ value ++ ";" := by
  have hmiddle : " result = " = " " ++ "result" ++ " = " := rfl
  rw [declaration, hmiddle]
  simp only [String.append_assoc]

theorem argumentLine_eq_declaration {type line : String} {index : Nat}
    (h : g.argumentLine type name index = .ok line) :
    ∃ value, line = declaration (g.rules.cType type) name value := by
  obtain ⟨how, hhow, h⟩ := Attempt.bind_eq_ok.mp h
  obtain ⟨value, -, h⟩ := Attempt.bind_eq_ok.mp h
  cases Attempt.pure_eq_ok.mp h
  cases marshal_eq_ok hhow
  exact ⟨value, rfl⟩

/-- **THE ARGUMENTS ARE DECLARED** in the order of the parameters, each under
    the name of its variable. -/
theorem declared_of_argumentLines {lines : List String} (h : g.argumentLines m = .ok lines) :
    List.Forall₂ (fun (x : String × String) line =>
      ∃ value, line = declaration (g.rules.cType x.1) x.2 value)
      (m.parameterTypes.zip (localNames m)) lines := by
  have hlines := Attempt.mapM_eq_ok.mp h
  rw [← List.zipIdx_map_fst 1 (m.parameterTypes.zip (localNames m)), List.forall₂_map_left_iff]
  exact hlines.imp fun x line hline => argumentLine_eq_declaration hline

/-- The line that calls the native function; it declares the result unless
    there is none. -/
def callLine (g : Generator) (m : Member) : String :=
  if g.rules.classify m.method.returnType = .void then "  " ++ g.nativeCall m ++ ";"
  else declaration (g.rules.cType m.method.returnType) "result" (g.nativeCall m)

theorem callLines_eq_callLine {m : Member} {lines : List String} (h : g.callLines m = .ok lines) :
    ∃ done, lines = [g.callLine m, "  " ++ done] := by
  obtain ⟨how, hhow, h⟩ := Attempt.bind_eq_ok.mp h
  have hcategory : how.category = g.rules.classify m.method.returnType := by
    rw [marshal_eq_ok hhow]
    rfl
  have htype : how.cType = g.rules.cType m.method.returnType := by
    rw [marshal_eq_ok hhow]
    rfl
  rw [callLine, ← hcategory, ← htype]
  by_cases hvoid : how.category = .void
  · rw [if_pos hvoid]
    rw [if_pos (beq_iff_eq.mpr hvoid)] at h
    obtain ⟨done, -, h⟩ := Attempt.bind_eq_ok.mp h
    cases Attempt.pure_eq_ok.mp h
    exact ⟨done, rfl⟩
  · rw [if_neg hvoid, declaration_result]
    rw [if_neg (mt beq_iff_eq.mp hvoid)] at h
    obtain ⟨done, -, h⟩ := Attempt.bind_eq_ok.mp h
    cases Attempt.pure_eq_ok.mp h
    exact ⟨done, rfl⟩

/-- **WHAT A WRAPPER DECLARES**: behind its head the arguments, then the result
    unless there is none. -/
theorem declared_of_wrapper {r : Registration} {lines : List String}
    (h : g.wrapper r = .ok lines) :
    ∃ arguments done, lines = opening (vmHead r.symbol) :: arguments ++
        [g.callLine r.toMember, "  " ++ done] ++ ["\x7d"] ∧
      List.Forall₂ (fun (x : String × String) line =>
        ∃ value, line = declaration (g.rules.cType x.1) x.2 value)
        (r.method.parameterTypes.zip (localNames r.method)) arguments := by
  obtain ⟨arguments, harguments, h⟩ := Attempt.bind_eq_ok.mp h
  obtain ⟨call, hcall, h⟩ := Attempt.bind_eq_ok.mp h
  cases Attempt.pure_eq_ok.mp h
  obtain ⟨done, rfl⟩ := callLines_eq_callLine hcall
  refine ⟨arguments, done, ?_, declared_of_argumentLines harguments⟩
  rw [opening_vmHead]
  rfl

/-- The variables that a wrapper declares. -/
def declaredNames (g : Generator) (m : Method) : List String :=
  localNames m ++ if g.rules.classify m.returnType = .void then [] else ["result"]

/-- The result has a name of its own. -/
theorem nodup_declaredNames_iff : (g.declaredNames m).Nodup ↔ (localNames m).Nodup := by
  have hresult : "result" ∉ localNames m := by
    intro hmem
    obtain ⟨name, -, hname⟩ := List.mem_map.mp hmem
    exact localName_notMem_reservedLocals name (hname ▸ by decide)
  rw [declaredNames]
  by_cases hvoid : g.rules.classify m.returnType = .void
  · rw [if_pos hvoid, List.append_nil]
  · rw [if_neg hvoid, ← List.concat_eq_append, List.nodup_concat]
    exact and_iff_right hresult

/-- **WHERE THE NAMES INSIDE A WRAPPER ARE DISTINCT.**  Let the usable names of
    the parameters of a supported method be distinct.  Then all names in its
    parameter list are, if and only if none is given that another parameter
    gets from its position, and the variables of its wrapper are, if and only if
    moreover none is given that a variable gets instead of a taken one that is
    given too.  No variable has a taken name in any case.  The wrapper, which
    exists if the types are spelled without braces, declares these variables and
    the result, and the parameter list shows these names. -/
theorem local_names_distinct_iff {r : Registration} (hsupported : g.rules.supports r.method = true)
    (hgiven : r.method.usableNames.Nodup) :
    (r.method.parameterNames.Nodup ↔ ¬ r.method.FallbackGiven) ∧
    ((g.declaredNames r.method).Nodup ↔ ¬ r.method.FallbackGiven ∧ ¬ RenamedGiven r.method) ∧
    (∀ name ∈ localNames r.method, name ∉ reservedLocals) ∧
    (r.toMember.WithoutBraces → ∃ lines, g.wrapper r = .ok lines) ∧
    (∀ lines, g.wrapper r = .ok lines →
      ∃ arguments done, lines = opening (vmHead r.symbol) :: arguments ++
          [g.callLine r.toMember, "  " ++ done] ++ ["\x7d"] ∧
        List.Forall₂ (fun (x : String × String) line =>
          ∃ value, line = declaration (g.rules.cType x.1) x.2 value)
          (r.method.parameterTypes.zip (localNames r.method)) arguments) ∧
    (r.method.parameters ≠ [] → r.method.nativeParameterList = joinStrings ", "
      (List.zipWith (fun type name => TypeSpelling.byValueString type ++ " " ++ name)
        r.method.parameterTypes r.method.parameterNames)) := by
  have hnames := Method.nodup_parameterNames_iff hgiven
  refine ⟨hnames, ?_, ?_, exists_wrapper hsupported, fun lines => declared_of_wrapper, ?_⟩
  · rw [nodup_declaredNames_iff, nodup_localNames_iff, hnames]
  · intro name hname
    obtain ⟨given, -, rfl⟩ := List.mem_map.mp hname
    exact localName_notMem_reservedLocals given
  · intro hne
    rw [Method.nativeParameterList, Method.listParameters, if_neg (by simpa using hne),
      List.zip_eq_zipWith, List.zipWith_map_left, List.map_zipWith]
    rfl

/-- A parameter that is named like the position of the one behind it. -/
def fallbackMethod : Method :=
  { name := "f", returnType := "void", parameters := [⟨"int", "param_1"⟩, ⟨"int", none⟩] }

/-- A parameter that is named like another one with an underscore more. -/
def renamedMethod : Method :=
  { name := "f", returnType := "void", parameters := [⟨"int", "v"⟩, ⟨"int", "v_"⟩] }

/-- Distinct names are given, and names meet in the parameter list of one method
    and among the variables of the other. -/
theorem names_meet_inside_wrapper :
    (TypeRules.default.supports fallbackMethod = true ∧ fallbackMethod.usableNames.Nodup ∧
      fallbackMethod.nativeParameterList = "int param_1, int param_1") ∧
    (TypeRules.default.supports renamedMethod = true ∧ renamedMethod.usableNames.Nodup ∧
      ({} : Generator).declaredNames renamedMethod = ["v_", "v_"]) := by
  decide +kernel

/-- A method whose parameters are named, unnamed and named like what is taken. -/
def plainMethod : Method :=
  { name := "f", returnType := "int", parameters := [⟨"int", "x"⟩, ⟨"int", none⟩, ⟨"int", "v"⟩] }

theorem local_names_distinct_iff_plainMethod :
    TypeRules.default.supports plainMethod = true ∧ plainMethod.usableNames.Nodup ∧
      plainMethod.parameterNames.Nodup ∧
      (({} : Generator).declaredNames plainMethod).Nodup ∧
      ∃ lines, ({} : Generator).wrapper ⟨⟨"A", plainMethod⟩, "s"⟩ = .ok lines := by
  have hsupported : TypeRules.default.supports plainMethod = true := by decide +kernel
  have hgiven : plainMethod.usableNames.Nodup := by decide +kernel
  obtain ⟨hnames, hdeclared, -, hwrapper, -⟩ := @local_names_distinct_iff {}
    ⟨⟨"A", plainMethod⟩, "s"⟩ hsupported hgiven
  have hfallback : ¬ plainMethod.FallbackGiven := by decide +kernel
  have hrenamed : ¬ RenamedGiven plainMethod := by decide +kernel
  exact ⟨hsupported, hgiven, hnames.mpr hfallback, hdeclared.mpr ⟨hfallback, hrenamed⟩,
    hwrapper ⟨by decide, by decide⟩⟩

end Generator

end GemBinder
