import GemBinder.BuiltinOverrides
import GemBinder.Proofs.Override
import GemBinder.Proofs.Source.Retarget
import GemBinder.Proofs.Source.Wrappers

/-! # Code that comes in pairs

    Every built-in action that binds an overload by hand has the same form:
    native code that opens a function with some head, and binding code that
    declares a function of this head, opens a wrapper with the default name
    and goes on.  Renaming the wrapper keeps the form
    (`retarget_bindingText`), so that of the lines of binding code only the
    first declares something, and the native code defines it. -/

namespace GemBinder

open Text

/-! ## Lines of code -/

theorem codeLines_cons (line : String) (lines : List String) :
    codeLines (line :: lines) = line ++ "\n" ++ codeLines lines := by
  unfold codeLines
  rw [List.map_cons, String.join_cons]

theorem codeLines_eq_joinStrings {lines : List String} (h : lines ≠ []) :
    codeLines lines = joinStrings "\n" lines ++ "\n" := by
  induction lines with
  | nil => exact absurd rfl h
  | cons line more ih =>
      rw [codeLines_cons]
      cases more with
      | nil => exact String.append_empty
      | cons next others =>
          rw [ih (List.cons_ne_nil next others), ← String.append_assoc]
          rfl

/-- **READING CODE THAT WAS WRITTEN** gives its lines back. -/
theorem linesOfCode_codeLines {lines : List String} {last : String}
    (h : ∀ line ∈ lines ++ [last], OneLine line) (hlast : last ≠ "") :
    linesOfCode (codeLines (lines ++ [last])) = lines ++ [last] := by
  have hne : lines ++ [last] ≠ [] := List.append_ne_nil_of_right_ne_nil _ (List.cons_ne_nil _ _)
  have hend : last.toList ≠ [] := fun hnil => hlast (String.toList_eq_nil_iff.mp hnil)
  have hkeep : trimEndWhere (· == '\n') (codeLines (lines ++ [last])).toList
      = (joinStrings "\n" (lines ++ [last])).toList := by
    rw [codeLines_eq_joinStrings hne, String.toList_append]
    show trimEndWhere _ (_ ++ ['\n']) = _
    rw [trimEndWhere_append_singleton (by rfl)]
    refine trimEndWhere_of_getLast?
      ((getLast?_joinStrings lines hlast).trans (List.getLast?_eq_some_getLast hend)) ?_
    -- the last line holds no newline
    refine beq_eq_false_iff_ne.mpr ?_
    intro hnewline
    refine h last (List.mem_append_right _ (List.mem_singleton_self _)) ?_
    rw [← hnewline]
    exact List.getLast_mem hend
  show (splitAtChar '\n' (trimEndWhere _ _)).map String.ofList = _
  rw [hkeep]
  exact linesOf_joinStrings_of_oneLine hne h

/-- Code begins with the line that opens it. -/
theorem opening_mem_linesOfCode {head : String} (h : OneLine head) (body : List String) :
    opening head ∈ linesOfCode (codeLines (opening head :: body)) := by
  have hline : '\n' ∉ (opening head).toList := h.append (by decide)
  have hlast : (opening head).toList.getLast? = some '\x7b' := by
    rw [opening]
    rw [String.toList_append, List.getLast?_append]
    rfl
  have htext : (codeLines (opening head :: body)).toList
      = (opening head).toList ++ '\n' :: (codeLines body).toList := by
    rw [codeLines_cons, String.toList_append, String.toList_append, List.append_assoc]
    rfl
  rw [linesOfCode]
  rw [htext, trimEndWhere_append hlast (by decide)]
  refine List.mem_map.mpr ⟨(opening head).toList, ?_, String.ofList_toList⟩
  -- nothing is left of the rest, or a newline and what stands behind it
  have hshort := trimEndWhere_prefix (· == '\n') ('\n' :: (codeLines body).toList)
  cases hrest : trimEndWhere (· == '\n') ('\n' :: (codeLines body).toList) with
  | nil =>
      rw [List.append_nil, splitAtChar_of_notMem hline]
      exact List.mem_singleton_self _
  | cons c more =>
      rw [hrest] at hshort
      rw [(List.cons_prefix_cons.mp hshort).1, splitAtChar_append, splitAtChar_of_notMem hline]
      exact List.mem_append_left _ (List.mem_singleton_self _)

/-! ## The form of binding code -/

/-- Binding code that declares a function and wraps it. -/
def bindingText (head symbol : String) (rest : List String) : String :=
  codeLines (("extern " ++ head ++ ";") :: opening (vmHead symbol) :: rest)

/-- What stands in binding code before the name of the wrapper. -/
def bindingBefore (head : String) : String := "extern " ++ head ++ ";\nstatic void "

/-- What stands in binding code behind the name of the wrapper and the
    parenthesis. -/
def bindingAfter (rest : List String) : String :=
  "mrbc_vm *vm, mrbc_value *v, int argc) \x7b\n" ++ codeLines rest

theorem toList_bindingText (head symbol : String) (rest : List String) :
    (bindingText head symbol rest).toList
      = (bindingBefore head).toList ++ callOf symbol ++ (bindingAfter rest).toList := by
  have hcut : bindingText head symbol rest
      = bindingBefore head ++ (symbol ++ "(") ++ bindingAfter rest := by
    unfold bindingText bindingBefore bindingAfter
    rw [codeLines_cons, codeLines_cons]
    show "extern " ++ head ++ ";" ++ "\n" ++ ("static void " ++ symbol
      ++ "(mrbc_vm *vm, mrbc_value *v, int argc)" ++ " \x7b" ++ "\n" ++ codeLines rest) = _
    simp only [String.append_assoc]
    rfl
  rw [hcut, String.toList_append, String.toList_append, String.toList_append]
  rfl

/-- What every default name of a wrapper begins with. -/
def defaultTag : List Char := "mrbc_m5_".toList

theorem defaultTag_begins (m : Method) : defaultTag <+: callOf m.vmName := by
  have htag : (defaultVmPrefix ++ "_").toList = defaultTag := by decide
  rw [callOf]
  rw [Method.vmName_eq_symbolWith, symbolWith, String.toList_append, String.toList_append,
    String.toList_append, htag]
  rw [List.append_assoc, List.append_assoc, List.append_assoc]
  exact List.prefix_append _ _

/-! ## Calm texts -/

/-- A text in which no default name of a wrapper begins: no underscore
    follows a five, and none stands first. -/
def Calm (s : String) : Prop :=
  contains ['5', '_'] s.toList = false ∧ s.toList.head? ≠ some '_'

instance (s : String) : Decidable (Calm s) :=
  inferInstanceAs (Decidable (_ ∧ _))

theorem infix_pair_append {a b : Char} {s t : List Char} (h : [a, b] <:+: s ++ t) :
    [a, b] <:+: s ∨ [a, b] <:+: t ∨ t.head? = some b := by
  obtain ⟨u, v, huv⟩ := h
  rw [List.append_assoc] at huv
  rcases List.append_eq_append_iff.mp huv with ⟨w, hs, hw⟩ | ⟨w, hu, ht⟩
  · -- the pair begins in the first text
    cases w with
    | nil => exact .inr (.inl ⟨[], v, hw⟩)
    | cons c w =>
        obtain ⟨hc, htail⟩ := List.cons.inj hw
        cases w with
        | nil =>
            refine .inr (.inr ?_)
            rw [show t = b :: v from htail.symm]
            rfl
        | cons d w =>
            obtain ⟨hd, -⟩ := List.cons.inj htail
            refine .inl ⟨u, w, ?_⟩
            rw [hs, hc, hd, List.append_assoc]
            rfl
  · exact .inr (.inl ⟨w, v, by rw [ht, List.append_assoc]⟩)

/-- Calm texts make up a calm text. -/
theorem Calm.append {s t : String} (hs : Calm s) (ht : Calm t) : Calm (s ++ t) := by
  refine ⟨?_, ?_⟩
  · rw [Bool.eq_false_iff, Ne, contains_eq_true_iff, String.toList_append]
    intro hpair
    rcases infix_pair_append hpair with h | h | h
    · exact absurd (contains_eq_true_iff.mpr h) (Bool.eq_false_iff.mp hs.1)
    · exact absurd (contains_eq_true_iff.mpr h) (Bool.eq_false_iff.mp ht.1)
    · exact ht.2 h
  · rw [String.toList_append, List.head?_append]
    cases hhead : s.toList.head? with
    | none => exact ht.2
    | some c =>
        rw [Option.some_or, ← hhead]
        exact hs.2

theorem calm_toString_nat (n : Nat) : Calm (toString n) := by
  have hdigits : '_' ∉ (toString n).toList := notMem_repr (by decide) n
  refine ⟨?_, ?_⟩
  · rw [Bool.eq_false_iff, Ne, contains_eq_true_iff]
    intro hpair
    exact hdigits (hpair.subset (by decide))
  · intro hhead
    exact hdigits (List.mem_of_mem_head? hhead)

theorem calm_codeLines {lines : List String} (h : ∀ line ∈ lines, Calm line) :
    Calm (codeLines lines) := by
  induction lines with
  | nil => decide
  | cons line more ih =>
      rw [codeLines_cons]
      refine ((h line List.mem_cons_self).append (by decide)).append ?_
      exact ih (fun l hl => h l (List.mem_cons_of_mem _ hl))

theorem Calm.not_defaultTag {s : String} (h : Calm s) : contains defaultTag s.toList = false := by
  rw [Bool.eq_false_iff, Ne, contains_eq_true_iff]
  intro htag
  have hpair : ['5', '_'] <:+: defaultTag := contains_eq_true_iff.mp (by decide)
  exact absurd (contains_eq_true_iff.mpr (hpair.trans htag)) (Bool.eq_false_iff.mp h.1)

/-! ## Renaming -/

/-- A name is written directly behind a blank. -/
theorem lastOr_bindingBefore (head : String) :
    lastOr none (bindingBefore head).toList = some ' ' := by
  rw [lastOr, bindingBefore]
  rw [String.toList_append, List.getLast?_append]
  rfl

/-- In binding code one call is replaced, that behind the opening of the
    wrapper. -/
theorem replaceCalls_bindingText {head : String} {rest : List String} {m : Method}
    (hhead : Calm head) (hrest : ∀ line ∈ rest, Calm line) (replacement : List Char) :
    replaceCalls (callOf m.vmName) replacement 0 none (bindingText head m.vmName rest).toList
      = (bindingBefore head).toList ++ replacement ++ (bindingAfter rest).toList := by
  obtain ⟨t, ht⟩ := defaultTag_begins m
  have hbefore : FreeBefore (callOf m.vmName) (bindingBefore head).toList
      (callOf m.vmName ++ (bindingAfter rest).toList) := by
    refine freeBefore_of_tag (defaultTag_begins m) ?_
    have hcalm : Calm (bindingBefore head ++ "mrbc_m5") :=
      (((by decide : Calm "extern ").append hhead).append (by decide)).append (by decide)
    rw [← ht, List.append_assoc]
    have hnone := hcalm.not_defaultTag
    rw [String.toList_append] at hnone
    exact hnone
  have hafter : FreeBefore (callOf m.vmName) (bindingAfter rest).toList [] := by
    refine freeBefore_of_tag (defaultTag_begins m) ?_
    rw [List.take_nil, List.append_nil]
    exact ((by decide : Calm "mrbc_vm *vm, mrbc_value *v, int argc) \x7b\n").append
      (calm_codeLines hrest)).not_defaultTag
  have hcall : callOf m.vmName = 'm' :: ("rbc_m5_".toList ++ t) := by
    rw [← ht]
    rfl
  rw [toList_bindingText, List.append_assoc, replaceCalls_append_of_free hbefore,
    lastOr_bindingBefore]
  rw [hcall] at hafter ⊢
  rw [replaceCalls_call (by decide), replaceCalls_of_free hafter, List.append_assoc]

/-- **RENAMING KEEPS THE FORM**: the wrapper gets the symbol, and nothing else
    changes. -/
theorem retarget_bindingText {head symbol : String} {rest : List String} {m : Method}
    (hhead : Calm head) (hrest : ∀ line ∈ rest, Calm line) (hsymbol : '\\' ∉ symbol.toList) :
    retarget (bindingText head m.vmName rest) m symbol = .ok (bindingText head symbol rest) := by
  by_cases hsame : m.vmName = symbol
  · rw [retarget, if_pos (beq_iff_eq.mpr hsame), hsame]
  · rw [retarget_of_plain hsame hsymbol, replaceCalls_bindingText hhead hrest,
      ← toList_bindingText, String.ofList_toList]

/-! ## Pairs that fit -/

/-- A calm piece of one line. -/
def Inert (s : String) : Prop := OneLine s ∧ Calm s

instance (s : String) : Decidable (Inert s) :=
  inferInstanceAs (Decidable (_ ∧ _))

theorem Inert.append {s t : String} (hs : Inert s) (ht : Inert t) : Inert (s ++ t) :=
  ⟨hs.1.append ht.1, hs.2.append ht.2⟩

theorem inert_toString_nat (n : Nat) : Inert (toString n) :=
  ⟨oneLine_repr n, calm_toString_nat n⟩

/-- Lines that can stand in a wrapper behind its opening. -/
structure WrapperRest (rest : List String) : Prop where
  inert : ∀ line ∈ rest, Inert line
  framing : ∀ line ∈ rest, Framing line
  ends : rest.getLastD "" ≠ ""

instance (rest : List String) : Decidable (WrapperRest rest) :=
  decidable_of_iff
    ((∀ line ∈ rest, Inert line) ∧ (∀ line ∈ rest, Framing line) ∧ rest.getLastD "" ≠ "")
    ⟨fun ⟨hinert, hframing, hends⟩ => ⟨hinert, hframing, hends⟩,
      fun ⟨hinert, hframing, hends⟩ => ⟨hinert, hframing, hends⟩⟩

/-- The lines of binding code. -/
theorem linesOfCode_bindingText {head symbol : String} {rest : List String} (hhead : OneLine head)
    (hsymbol : OneLine symbol) (hrest : WrapperRest rest) :
    linesOfCode (bindingText head symbol rest)
      = ("extern " ++ head ++ ";") :: opening (vmHead symbol) :: rest := by
  have hall : ∀ line ∈ ("extern " ++ head ++ ";") :: opening (vmHead symbol) :: rest,
      OneLine line := by
    intro line hline
    rcases List.mem_cons.mp hline with rfl | hline
    · simp +decide [hhead]
    · rcases List.mem_cons.mp hline with rfl | hline
      · simp +decide [opening, vmHead, hsymbol]
      · exact (hrest.inert line hline).1
  have hends := hrest.ends
  rcases List.eq_nil_or_concat rest with rfl | ⟨init, last, rfl⟩
  · exact absurd rfl hends
  · rw [List.concat_eq_append] at hends hall ⊢
    rw [List.getLastD_concat] at hends
    rw [bindingText]
    rw [← List.cons_append, ← List.cons_append] at hall ⊢
    exact linesOfCode_codeLines hall hends

/-- An action has for every overload native code that opens a function and
    binding code that declares and wraps it, or nothing. -/
def Action.Fitting : Action → Prop
  | .skip _ => True
  | .custom native binding => ∀ m, (native m = .ok none ∧ binding m = .ok none) ∨
      ∃ head body rest, Inert head ∧ WrapperRest rest ∧
        native m = .ok (some (codeLines (opening head :: body))) ∧
        binding m = .ok (some (bindingText head m.vmName rest))

theorem fitting_custom {accepts : Method → Bool} {head : String} {body rest : List String}
    (hhead : Inert head) (hrest : WrapperRest rest) :
    Action.Fitting (.custom (snippetFor accepts fun _ => codeLines (opening head :: body))
      (snippetFor accepts fun m => bindingText head m.vmName rest)) := by
  intro m
  unfold snippetFor
  by_cases haccepts : accepts m = true
  · rw [if_pos haccepts, if_pos haccepts]
    exact .inr ⟨head, body, rest, hhead, hrest, rfl, rfl⟩
  · rw [if_neg haccepts, if_neg haccepts]
    exact .inl ⟨rfl, rfl⟩

/-! ## Arrays -/

/-- The lines that put the values into the array. -/
def arrayItems (names : List String) (construct : String → String) : List String :=
  names.zipIdx.flatMap fun (name, i) =>
    ["    mrbc_value " ++ name ++ " = " ++ construct ("result[" ++ toString i ++ "]") ++ ";",
     "    mrbc_array_set(&array, " ++ toString i ++ ", &" ++ name ++ ");"]

/-- The lines of array code behind the opening of the wrapper. -/
def arrayRest (function element : String) (names : List String) (construct : String → String) :
    List String :=
  ["  " ++ element ++ " result[" ++ toString names.length ++ "];",
   "  if (" ++ function ++ "(result))" ++ " \x7b",
   "    mrbc_value array = mrbc_array_new(vm, " ++ toString names.length ++ ");"] ++
  arrayItems names construct ++
  ["    SET_RETURN(array);",
   "  \x7d else \x7b",
   "    SET_NIL_RETURN();",
   "  \x7d",
   "\x7d"]

/-- Binding code for arrays has the form. -/
theorem arrayBinding_eq (function symbol element : String) (names : List String)
    (construct : String → String) :
    arrayBinding function symbol element names construct
      = bindingText ("int " ++ function ++ "(" ++ element ++ "* result)") symbol
          (arrayRest function element names construct) := by
  have hbegins : "extern int " ++ function ++ "(" ++ element ++ "* result);"
      = "extern " ++ ("int " ++ function ++ "(" ++ element ++ "* result)") ++ ";" := by
    simp only [String.append_assoc]
    rfl
  show codeLines (("extern int " ++ function ++ "(" ++ element ++ "* result);") :: _) = _
  rw [hbegins]
  rfl

theorem inert_arrayItems {names : List String} {construct : String → String}
    (hnames : ∀ name ∈ names, Inert name) (hconstruct : ∀ v, Inert v → Inert (construct v)) :
    ∀ line ∈ arrayItems names construct, Inert line ∧ Framing line := by
  have hindent : "  " ∈ framingMarks := by decide
  intro line hline
  obtain ⟨⟨name, i⟩, hmem, hitem⟩ := List.mem_flatMap.mp hline
  have hname : Inert name := hnames name (List.fst_mem_of_mem_zipIdx hmem)
  have hi := inert_toString_nat i
  rcases List.mem_cons.mp hitem with rfl | hset
  · refine ⟨?_, .of_begins hindent ?_⟩
    · refine (((((by decide : Inert "    mrbc_value ").append hname).append (by decide)).append
        (hconstruct _ ?_)).append (by decide))
      exact ((by decide : Inert "result[").append hi).append (by decide)
    · exact (((((begins_append "  " "  mrbc_value ").append _).append _).append _).append _)
  · rw [List.mem_singleton.mp hset]
    refine ⟨?_, .of_begins hindent ?_⟩
    · exact ((((by decide : Inert "    mrbc_array_set(&array, ").append hi).append
        (by decide)).append hname).append (by decide)
    · exact ((((begins_append "  " "  mrbc_array_set(&array, ").append _).append _).append
        _).append _

theorem wrapperRest_arrayRest {function element : String} {names : List String}
    {construct : String → String} (hfunction : Inert function) (helement : Inert element)
    (hnames : ∀ name ∈ names, Inert name) (hconstruct : ∀ v, Inert v → Inert (construct v)) :
    WrapperRest (arrayRest function element names construct) := by
  have hindent : "  " ∈ framingMarks := by decide
  have hlast : ∀ line ∈ ["    SET_RETURN(array);", "  \x7d else \x7b", "    SET_NIL_RETURN();",
      "  \x7d", "\x7d"], Inert line ∧ Framing line := by decide +kernel
  have hcount := inert_toString_nat names.length
  have hfirst : Inert ("  " ++ element ++ " result[" ++ toString names.length ++ "];") :=
    ((((by decide : Inert "  ").append helement).append (by decide)).append hcount).append
      (by decide)
  have hif : Inert ("  if (" ++ function ++ "(result))" ++ " \x7b") :=
    (((by decide : Inert "  if (").append hfunction).append (by decide)).append (by decide)
  have hnew : Inert ("    mrbc_value array = mrbc_array_new(vm, " ++ toString names.length
      ++ ");") :=
    ((by decide : Inert "    mrbc_value array = mrbc_array_new(vm, ").append hcount).append
      (by decide)
  have hall : ∀ line ∈ arrayRest function element names construct, Inert line ∧ Framing line := by
    intro line hline
    rcases List.mem_append.mp hline with hline | hend
    · rcases List.mem_append.mp hline with hstart | hitem
      · rcases List.mem_cons.mp hstart with rfl | hstart
        · refine ⟨hfirst, .of_begins hindent ?_⟩
          exact (((begins_append "  " element).append _).append _).append _
        · rcases List.mem_cons.mp hstart with rfl | hstart
          · refine ⟨hif, .of_begins hindent ?_⟩
            exact ((begins_append "  " "if (").append _ |>.append _).append _
          · rw [List.mem_singleton.mp hstart]
            refine ⟨hnew, .of_begins hindent ?_⟩
            exact (begins_append "  " "  mrbc_value array = mrbc_array_new(vm, ").append _ |>.append _
      · exact inert_arrayItems hnames hconstruct line hitem
    · exact hlast line hend
  refine ⟨fun line hline => (hall line hline).1, fun line hline => (hall line hline).2, ?_⟩
  rw [arrayRest]
  rw [List.getLastD_eq_getLast?, List.getLast?_append]
  show "\x7d" ≠ ""
  decide

/-! ## The built-in actions -/

/-- Array code fits native code that opens a function of the same head. -/
theorem fitting_array {accepts : Method → Bool} {function element : String}
    {body names : List String} {construct : String → String} (hfunction : Inert function)
    (helement : Inert element) (hnames : ∀ name ∈ names, Inert name)
    (hconstruct : ∀ v, Inert v → Inert (construct v)) :
    Action.Fitting (.custom
      (snippetFor accepts fun _ =>
        codeLines (opening ("int " ++ function ++ "(" ++ element ++ "* result)") :: body))
      (snippetFor accepts fun m => arrayBinding function m.vmName element names construct)) := by
  simp only [arrayBinding_eq]
  refine fitting_custom ?_ (wrapperRest_arrayRest hfunction helement hnames hconstruct)
  exact ((((by decide : Inert "int ").append hfunction).append (by decide)).append
    helement).append (by decide)

theorem fitting_tripleOverride {classKey method call a b c : String}
    (hfunction : Inert ("m5unified_" ++ classKey ++ "_" ++ lowerString method ++ "_array"))
    (hnames : ∀ name ∈ [a, b, c], Inert name) :
    (tripleOverride classKey method call a b c).Fitting := by
  have hfloat : ∀ v, Inert v → Inert ("mrbc_float_value(vm, " ++ v ++ ")") := by
    intro v hv
    exact ((by decide : Inert "mrbc_float_value(vm, ").append hv).append (by decide)
  have hhead : ∀ function : String, "int " ++ function ++ "(float* result)"
      = "int " ++ function ++ "(" ++ "float" ++ "* result)" := by
    intro function
    simp only [String.append_assoc]
    rfl
  show Action.Fitting (.custom
    (snippetFor _ fun _ => codeLines (opening ("int " ++ _ ++ "(float* result)") :: _)) _)
  rw [hhead]
  exact fitting_array hfunction (by decide) hnames hfloat

theorem fitting_fieldsOverride {method element : String} {body names : List String}
    (hfunction : Inert ("m5unified_rtc_class_" ++ lowerString method ++ "_array"))
    (helement : Inert element) (hnames : ∀ name ∈ names, Inert name) :
    (fieldsOverride method element body names).Fitting := by
  have hinteger : ∀ v, Inert v → Inert ("mrbc_integer_value(" ++ v ++ ")") := by
    intro v hv
    exact ((by decide : Inert "mrbc_integer_value(").append hv).append (by decide)
  exact fitting_array hfunction helement hnames hinteger

theorem fitting_beginOverride : beginOverride.Fitting := by
  have hhead : Inert "void m5unified_m5unified_begin_void(void)" := by decide +kernel
  have hrest : WrapperRest ["  m5unified_m5unified_begin_void();", "  SET_NIL_RETURN();",
      "\x7d"] := by decide +kernel
  exact fitting_custom hhead hrest

theorem fitting_setAllColorOverride : setAllColorOverride.Fitting := by
  have hhead : Inert "void m5unified_led_class_setallcolor_uint32(uint32_t rgb888)" := by
    decide +kernel
  have hrest : WrapperRest ["  uint32_t rgb888 = GET_INT_ARG(1);",
      "  m5unified_led_class_setallcolor_uint32(rgb888);", "  SET_NIL_RETURN();", "\x7d"] := by
    decide +kernel
  exact fitting_custom hhead hrest

theorem fitting_setColorOverride : setColorOverride.Fitting := by
  have hhead : Inert
      "void m5unified_led_class_setcolor_size_t_uint32(size_t index, uint32_t rgb888)" := by
    decide +kernel
  have hrest : WrapperRest ["  size_t index = GET_INT_ARG(1);",
      "  uint32_t rgb888 = GET_INT_ARG(2);",
      "  m5unified_led_class_setcolor_size_t_uint32(index, rgb888);", "  SET_NIL_RETURN();",
      "\x7d"] := by
    decide +kernel
  exact fitting_custom hhead hrest

/-- The actions of the built-in registry fit, and their keys are plain. -/
theorem builtin_entries : ∃ entries, Registry.builtin = .ofEntries entries ∧
    ∀ e ∈ entries, e.2.Fitting ∧ '\\' ∉ e.1.toList := by
  have himu : ∀ method ∈ ["getAccel", "getGyro", "getMag"],
      Inert ("m5unified_" ++ "imu_class" ++ "_" ++ lowerString method ++ "_array") := by
    decide +kernel
  have hrtc : ∀ method ∈ ["getTime", "getDate", "getDateTime"],
      Inert ("m5unified_rtc_class_" ++ lowerString method ++ "_array") := by
    decide +kernel
  refine ⟨_, rfl, ?_⟩
  simp only [List.forall_mem_cons]
  refine ⟨⟨trivial, by decide⟩, ⟨trivial, by decide⟩, ⟨trivial, by decide⟩,
    ⟨fitting_beginOverride, by decide⟩, ⟨fitting_setAllColorOverride, by decide⟩,
    ⟨fitting_setColorOverride, by decide⟩, ⟨trivial, by decide⟩, ⟨trivial, by decide⟩,
    ⟨trivial, by decide⟩, ⟨trivial, by decide⟩, ⟨trivial, by decide⟩, ⟨trivial, by decide⟩,
    ⟨?_, by decide⟩, ⟨?_, by decide⟩, ⟨?_, by decide⟩, ⟨?_, by decide⟩, ⟨?_, by decide⟩,
    ⟨?_, by decide⟩, nofun⟩
  · exact fitting_tripleOverride (himu "getAccel" (by decide)) (by decide +kernel)
  · exact fitting_tripleOverride (himu "getGyro" (by decide)) (by decide +kernel)
  · exact fitting_tripleOverride (himu "getMag" (by decide)) (by decide +kernel)
  · exact fitting_fieldsOverride (hrtc "getTime" (by decide)) (by decide) (by decide +kernel)
  · exact fitting_fieldsOverride (hrtc "getDate" (by decide)) (by decide) (by decide +kernel)
  · exact fitting_fieldsOverride (hrtc "getDateTime" (by decide)) (by decide) (by decide +kernel)

/-- **BUILT-IN ACTIONS FIT**, and what they are for has no backslash in its
    name. -/
theorem builtin_fitting {owner method : String} {a : Action}
    (h : Registry.builtin.action? owner method = some a) :
    a.Fitting ∧ '\\' ∉ owner.toList ∧ '\\' ∉ method.toList := by
  obtain ⟨entries, hentries, hall⟩ := builtin_entries
  rw [hentries] at h
  obtain ⟨key, hmem, hkey⟩ := Registry.exists_entry_of_action? h
  obtain ⟨hfitting, hplain⟩ := hall _ hmem
  have hslash : '\\' ∉ (overrideKey owner method).toList := by
    rw [hkey, lowerString, String.toList_ofList]
    exact fun hin => hplain (mem_of_mem_lower isMark_backslash hin)
  have hfix : ∀ before after, lowerAt before '\\' after = ['\\'] := fun _ _ => rfl
  exact ⟨hfitting, fun hin => hslash (mem_overrideKey hfix (.inl hin)),
    fun hin => hslash (mem_overrideKey hfix (.inr hin))⟩

/-- What the built-in registry has for an overload: a pair, or nothing. -/
theorem builtin_codes (owner : String) (m : Method) :
    (Registry.builtin.nativeCode owner m = .ok none ∧
      Registry.builtin.bindingCode owner m = .ok none) ∨
    ∃ head body rest, Inert head ∧ WrapperRest rest ∧
      Registry.builtin.nativeCode owner m = .ok (some (codeLines (opening head :: body))) ∧
      Registry.builtin.bindingCode owner m = .ok (some (bindingText head m.vmName rest)) ∧
      '\\' ∉ owner.toList ∧ '\\' ∉ m.name.toList := by
  rw [Registry.nativeCode, Registry.bindingCode]
  cases haction : Registry.builtin.action? owner m.name with
  | none => exact .inl ⟨rfl, rfl⟩
  | some a =>
      obtain ⟨hfitting, howner, hname⟩ := builtin_fitting haction
      cases a with
      | skip reason => exact .inl ⟨rfl, rfl⟩
      | custom native binding =>
          rcases hfitting m with hnone | ⟨head, body, rest, hhead, hrest, hnative, hbinding⟩
          · exact .inl hnone
          · exact .inr ⟨head, body, rest, hhead, hrest, hnative, hbinding, howner, hname⟩

end GemBinder
