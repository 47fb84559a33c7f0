import GemBinder.Proofs.BaseTypes
import GemBinder.Proofs.NamingConventions
import GemBinder.Proofs.PlainTypes

/-! # Where a type is qualified

    The word that qualifies a type may be written before or behind it, and a
    pointer is qualified behind its last mark.  Before a type, behind the name
    of a reference and in the element of a pointer the word is dropped; behind
    a plain type or a pointer it stays, and hides the name from the rules for
    single types.  So the place matters to the types that have such a rule. -/

namespace GemBinder

open Text TypeSpelling

/-! ## What stands against a spelling -/

namespace TypeRules

open BaseType

variable {rules : TypeRules} {b : BaseType} {d : Declarator} {s : List Char}

theorem isRvalue_spelling (b : BaseType) (d : Declarator) : isRvalue (b.spelling d) = false := by
  obtain ⟨c, hlast, -, hne⟩ := b.exists_getLast?_stem d
  rw [isRvalue, Bool.eq_false_iff]
  intro hsuffix
  obtain ⟨front, heq⟩ := List.isSuffixOf_iff_suffix.mp hsuffix
  rcases d.ampersand_cases with h | h
  · rw [spelling, h, List.append_nil] at heq
    rw [← heq, List.getLast?_append] at hlast
    exact hne (Option.some.inj hlast).symm
  · -- the stem would end in the first of the two marks
    rw [spelling, h, ← List.singleton_append, ← List.append_assoc] at heq
    rw [← List.append_inj_left' heq rfl, List.getLast?_concat] at hlast
    exact hne (Option.some.inj hlast).symm

/-- Without the marks that stand against a type wherever it is used, references
    and pointers are all that can. -/
theorem obstacle?_eq_or (hother : ∀ c ∈ ['.', '>', '(', '<'], c ∉ s)
    (hrvalue : isRvalue s = false) :
    rules.obstacle? s = (if endsIn '&' s = true then rules.referenceObstacle? s else none).or
      (if isNumericPointer s = true then some .numericPointer else none) := by
  obtain ⟨hmalformed, hfunction, htemplate⟩ := unmarked_of_notMem hother
  rw [obstacle?_eq, hmalformed, hfunction, hrvalue, htemplate]
  rfl

/-- **WHAT STANDS AGAINST A BASE TYPE** with marks behind it: the conventions
    against a reference, and the rule for numbers against a pointer. -/
theorem obstacle?_spelling (b : BaseType) (d : Declarator) :
    rules.obstacle? (b.spelling d) =
      match d with
      | .value => none
      | .reference | .pointerReference => rules.referenceObstacle? (b.spelling d)
      | .pointer =>
          if isOneOf numericElements (pointerElement (b.text ++ ['*'])) = true then
            some .numericPointer
          else none := by
  have hother : ∀ c ∈ ['.', '>', '(', '<'], c ∉ b.spelling d := by
    have hkind : ∀ c ∈ ['.', '>', '(', '<'],
        c ≠ ' ' ∧ isNameChar c = false ∧ c ≠ '*' ∧ c ≠ '&' := by
      decide
    intro c hc
    obtain ⟨hspace, hname, hstar, hampersand⟩ := hkind c hc
    exact notMem_spelling hspace hname hstar hampersand
  rw [obstacle?_eq_or hother (isRvalue_spelling b d)]
  -- the last character tells which of the two rules is asked
  have hends : ∀ {c : Char}, (b.spelling d).getLast? = some c → ∀ mark,
      endsIn mark (b.spelling d) = (c == mark) := by
    intro c hlast mark
    rw [endsIn, hlast]
    rfl
  have hself : ∀ c : Char, (c == c) = true := fun c => beq_self_eq_true c
  cases d with
  | value =>
      obtain ⟨c, hlast, hc⟩ := b.exists_getLast?
      have hend : (b.spelling .value).getLast? = some c := by
        rw [spelling, stem, Declarator.stars, Declarator.ampersand, List.append_nil,
          List.append_nil, hlast]
      have hother : ∀ mark, isNameChar mark = false → (c == mark) = false :=
        fun mark hmark => beq_false_of_ne (ne_of_isNameChar hc hmark)
      rw [isNumericPointer, hends hend, hends hend, hother '&' (by decide), hother '*' (by decide)]
      rfl
  | reference =>
      have hend : (b.spelling .reference).getLast? = some '&' := List.getLast?_concat
      rw [isNumericPointer_of_getLast? hend (by decide), hends hend, hself, if_pos rfl,
        if_neg Bool.false_ne_true, Option.or_none]
  | pointerReference =>
      have hend : (b.spelling .pointerReference).getLast? = some '&' := List.getLast?_concat
      rw [isNumericPointer_of_getLast? hend (by decide), hends hend, hself, if_pos rfl,
        if_neg Bool.false_ne_true, Option.or_none]
  | pointer =>
      have hspelling : b.spelling .pointer = b.text ++ ['*'] := List.append_nil _
      have hend : (b.spelling .pointer).getLast? = some '*' := by
        rw [hspelling, List.getLast?_concat]
      rw [isNumericPointer, hends hend, hends hend, hself, Bool.true_and, hspelling,
        beq_false_of_ne (by decide), if_neg Bool.false_ne_true, Option.none_or]

/-! ## The two places -/

/-- A type in which the qualifier is no name. -/
abbrev Unqualified (b : BaseType) : Prop := constWord ∉ b.names

theorem dropConst_constBehind (h : Unqualified b) :
    dropConst b.constBehind.text = b.constBehind.text := by
  refine dropConst_text fun hhead => h ?_
  have hfirst : (b.names ++ [constWord]).head? = some constWord := hhead
  rw [List.head?_append_of_ne_nil _ b.ne_nil] at hfirst
  exact List.mem_of_mem_head? hfirst

theorem dropConstEnd_pointer (s : List Char) : dropConstEnd (s ++ ['*']) = s ++ ['*'] := by
  have hsuffix : ¬ constWord.isSuffixOf (s ++ ['*']) = true := by
    intro h
    obtain ⟨front, heq⟩ := List.isSuffixOf_iff_suffix.mp h
    have hlast := congrArg List.getLast? heq
    rw [List.getLast?_append, List.getLast?_concat] at hlast
    have hlast : some 't' = some '*' := hlast
    exact absurd hlast (by decide)
  rw [dropConstEnd, dropSuffix?, if_neg hsuffix]

/-- Behind the name of a reference the qualifier is dropped, as it is before
    it. -/
theorem referenceBase_places (h : Unqualified b) :
    referenceBase (b.constBefore.spelling .reference)
      = referenceBase (b.constBehind.spelling .reference) := by
  have hlast : b.names.getLast? ≠ some constWord := fun hlast => h (List.mem_of_getLast? hlast)
  rw [spelling, spelling, Declarator.ampersand, referenceBase_stem b.dropConst_constBefore,
    referenceBase_stem (dropConst_constBehind h), stem, stem, Declarator.stars, List.append_nil,
    List.append_nil, dropConstEnd_constBehind, dropConstEnd_text hlast]

/-- The name of a pointer that is referred to keeps a qualifier behind it. -/
theorem referenceBase_pointerReference (h : Unqualified b) :
    referenceBase (b.constBefore.spelling .pointerReference) = b.text ++ ['*'] ∧
      referenceBase (b.constBehind.spelling .pointerReference) = b.constBehind.text ++ ['*'] := by
  refine ⟨?_, ?_⟩
  · rw [spelling, Declarator.ampersand, referenceBase_stem b.dropConst_constBefore, stem,
      Declarator.stars, dropConstEnd_pointer]
  · rw [spelling, Declarator.ampersand, referenceBase_stem (dropConst_constBehind h), stem,
      Declarator.stars, dropConstEnd_pointer]

/-- In the element of a pointer no qualifier counts. -/
theorem pointerElement_places (b : BaseType) :
    pointerElement (b.constBefore.text ++ ['*'])
      = pointerElement (b.constBehind.text ++ ['*']) := by
  have hbefore : b.constBefore.names.filter (!isQualifier ·) = b.names.filter (!isQualifier ·) :=
    List.filter_cons_of_neg (by decide)
  have hbehind : b.constBehind.names.filter (!isQualifier ·) = b.names.filter (!isQualifier ·) := by
    rw [constBehind, List.filter_append, List.filter_cons_of_neg (by decide), List.filter_nil,
      List.append_nil]
  rw [pointerElement_text, pointerElement_text, hbefore, hbehind]

theorem referenceObstacle?_congr {s t : List Char} (h : referenceBase s = referenceBase t) :
    rules.referenceObstacle? s = rules.referenceObstacle? t := by
  rw [referenceObstacle?, h, referenceObstacle?]

/-- **THE SAME STANDS AGAINST A TYPE** wherever it is qualified, references to
    pointers aside. -/
theorem obstacle?_places (h : Unqualified b) (hd : d ≠ .pointerReference) :
    rules.obstacle? (b.constBefore.spelling d) = rules.obstacle? (b.constBehind.spelling d) := by
  rw [obstacle?_spelling, obstacle?_spelling]
  cases d with
  | value => rfl
  | reference => exact referenceObstacle?_congr (referenceBase_places h)
  | pointer =>
      dsimp only
      rw [pointerElement_places]
  | pointerReference => exact absurd rfl hd

/-- By the default conventions it stands against references to pointers too. -/
theorem obstacle?_places_default (h : Unqualified b) (d : Declarator) :
    TypeRules.default.obstacle? (b.constBefore.spelling d)
      = TypeRules.default.obstacle? (b.constBehind.spelling d) := by
  by_cases hd : d = .pointerReference
  · obtain ⟨hbefore, hbehind⟩ := referenceBase_pointerReference h
    have hfirst : capitalized.occursIn (b.text ++ ['*'])
        = capitalized.occursIn (b.constBehind.text ++ ['*']) := by
      obtain ⟨c, hhead, -⟩ := b.exists_head?
      rw [Bool.eq_iff_iff, occursIn_capitalized, occursIn_capitalized, text_constBehind,
        List.head?_append, List.head?_append, List.head?_append, hhead]
      rfl
    rw [hd, obstacle?_spelling, obstacle?_spelling]
    dsimp only
    rw [referenceObstacle?_default (by rw [hbefore, List.getLast?_concat]),
      referenceObstacle?_default (by rw [hbehind, List.getLast?_concat]), hbefore, hbehind, hfirst]
  · exact obstacle?_places h hd

/-! ## Rules for single types -/

/-- The names that rules for single types know. -/
def ruledTypes : List String :=
  ["void", "bool"] ++ floatTypes ++ stringTypes ++ integerTypes

theorem plainCategory_of_not_ruled {n : List Char} (h : isOneOf ruledTypes n = false) :
    plainCategory n = if endsIn '*' n = true then .handle else .integer := by
  have hsub : ∀ names : List String, names ⊆ ruledTypes → isOneOf names n = false := by
    intro names hnames
    rw [Bool.eq_false_iff, ne_eq, isOneOf_iff] at h ⊢
    exact fun hmem => h (hnames hmem)
  rw [plainCategory, hsub ["void"] (by decide), hsub ["bool"] (by decide),
    hsub floatTypes (by decide), hsub stringTypes (by decide), hsub integerTypes (by decide)]
  rfl

/-- **BEHIND A TYPE THE QUALIFIER HIDES IT**: what is qualified there is none of
    the types that have a rule of their own. -/
theorem plainCategory_constBehind (b : BaseType) (d : Declarator) :
    plainCategory (b.constBehind.stem d) = if d.stars = [] then .integer else .handle := by
  have hwords : (words (b.constBehind.stem d)).getLast? = some (constWord ++ d.stars) := by
    have hend : words (constWord ++ d.stars) = [constWord ++ d.stars] := by
      rcases d.stars_cases with h | h
      · rw [h]
        rfl
      · rw [h]
        rfl
    rw [stem, text_constBehind, List.append_assoc, List.cons_append,
      words_append_blank_cons isBlank_space, hend, List.getLast?_concat]
  have hruled : isOneOf ruledTypes (b.constBehind.stem d) = false := by
    refine not_isOneOf_of_ne (fun s => (words s).getLast?) ?_
    rw [hwords]
    rcases d.stars_cases with h | h
    · rw [h]
      decide +kernel
    · rw [h]
      decide +kernel
  rw [plainCategory_of_not_ruled hruled]
  rcases d.stars_cases with h | h
  · obtain ⟨c, hlast, hc⟩ := b.constBehind.exists_getLast?
    have hend : endsIn '*' (b.constBehind.stem d) = false := by
      refine endsIn_of_getLast? ?_ (ne_of_isNameChar hc (by decide))
      rw [stem, h, List.append_nil, hlast]
    rw [hend, h]
    rfl
  · have hend : endsIn '*' (b.constBehind.stem d) = true := by
      rw [stem, h, endsIn, List.getLast?_concat]
      rfl
    rw [hend, h]
    rfl

theorem plainCategory_text (b : BaseType) :
    plainCategory b.text = .integer ↔
      String.ofList b.text ∉ ["void", "bool", "float", "double"] := by
  constructor
  · intro hinteger hmem
    have hother : ∀ name ∈ ["void", "bool", "float", "double"],
        plainCategory name.toList ≠ .integer := by decide +kernel
    have hcategory := hother _ hmem
    rw [String.toList_ofList] at hcategory
    exact hcategory hinteger
  · intro hruled
    have hstar : '*' ∉ b.text := notMem_text (by decide) (by decide)
    have hsub : ∀ names : List String, names ⊆ ["void", "bool", "float", "double"] →
        isOneOf names b.text = false := by
      intro names hnames
      rw [Bool.eq_false_iff, ne_eq, isOneOf_iff]
      exact fun hmem => hruled (hnames hmem)
    have hstring : isOneOf stringTypes b.text = false := by
      refine not_isOneOf_of_ne (·.contains '*') ?_
      rw [Bool.eq_false_iff.mpr fun h => hstar (List.contains_iff_mem.mp h)]
      decide
    have hpointer : endsIn '*' b.text = false := by
      rw [endsIn, Bool.eq_false_iff, ne_eq, beq_iff_eq]
      exact fun hlast => hstar (List.mem_of_getLast? hlast)
    rw [plainCategory, hsub ["void"] (by decide), hsub ["bool"] (by decide),
      hsub floatTypes (by decide), hstring, hpointer]
    exact ite_self _

theorem plainCategory_pointer (h : Unqualified b) :
    plainCategory (b.text ++ ['*']) = .handle ↔ String.ofList b.text ∉ ["char"] := by
  have hname : b.text = "char".toList ↔ String.ofList b.text ∈ ["char"] := by
    rw [List.mem_singleton]
    constructor
    · intro htext
      rw [htext]
      rfl
    · intro htext
      rw [← htext, String.toList_ofList]
  rw [← hname]
  constructor
  · intro hhandle htext
    rw [htext] at hhandle
    exact absurd hhandle (by decide +kernel)
  · intro hother
    have hstar : '*' ∈ b.text ++ ['*'] := List.mem_concat_self
    have hstring : isOneOf stringTypes (b.text ++ ['*']) = false := by
      rw [Bool.eq_false_iff, ne_eq, isOneOf_iff]
      intro hmem
      rcases List.mem_pair.mp hmem with heq | heq
      · have hlist := congrArg String.toList heq
        rw [String.toList_ofList] at hlist
        have hlist : b.text ++ ['*'] = "char".toList ++ ['*'] := hlist
        exact hother (List.append_inj_left' hlist rfl)
      · -- the qualifier would be one of the names
        have hlist := congrArg String.toList heq
        rw [String.toList_ofList] at hlist
        have hlist : b.text ++ ['*'] = "const char".toList ++ ['*'] := hlist
        have hwords := b.words_text
        rw [List.append_inj_left' hlist rfl] at hwords
        refine h ?_
        rw [← hwords]
        decide +kernel
    have hpointer : endsIn '*' (b.text ++ ['*']) = true := by
      rw [endsIn, List.getLast?_concat]
      rfl
    rw [plainCategory, not_isOneOf (by decide) hstar, not_isOneOf (by decide) hstar,
      not_isOneOf (by decide) hstar, hstring, not_isOneOf (by decide) hstar, hpointer]
    rfl

/-- **THE RULES FOR SINGLE TYPES** are all that the place of the qualifier can
    matter to. -/
theorem plainCategory_stem (h : Unqualified b) (d : Declarator) :
    plainCategory (b.stem d) = plainCategory (b.constBehind.stem d) ↔
      String.ofList b.text ∉ d.ruled := by
  have htext : plainCategory (b.text ++ []) = .integer ↔
      String.ofList b.text ∉ ["void", "bool", "float", "double"] := by
    rw [List.append_nil]
    exact plainCategory_text b
  rw [plainCategory_constBehind]
  cases d with
  | value => exact htext
  | reference => exact htext
  | pointer => exact plainCategory_pointer h
  | pointerReference => exact plainCategory_pointer h

/-! ## Classification -/

theorem plainCategory_ne_unsupported (n : List Char) (why : Obstacle) :
    plainCategory n ≠ .unsupported why := by
  intro heq
  have hnone := obstacle?_plainCategory n
  rw [heq] at hnone
  exact nomatch hnone

/-- **QUALIFIED BEFORE OR BEHIND**: the category is the same just when the same
    stands against both, and if nothing does, the type has no rule of its
    own. -/
theorem classify_places (rules : TypeRules) (h : Unqualified b) (d : Declarator) :
    rules.classifyChars (b.constBefore.spelling d)
        = rules.classifyChars (b.constBehind.spelling d) ↔
      rules.obstacle? (b.constBefore.spelling d) = rules.obstacle? (b.constBehind.spelling d) ∧
        (rules.obstacle? (b.constBefore.spelling d) = none → String.ofList b.text ∉ d.ruled) := by
  have hplain : plainCategory (normalize (b.constBefore.spelling d))
      = plainCategory (normalize (b.constBehind.spelling d)) ↔ String.ofList b.text ∉ d.ruled := by
    rw [normalize_spelling b.dropConst_constBefore, normalize_spelling (dropConst_constBehind h)]
    exact plainCategory_stem h d
  rw [classifyChars, classifyChars, trim_spelling, trim_spelling]
  cases hbefore : rules.obstacle? (b.constBefore.spelling d) with
  | none =>
      cases hbehind : rules.obstacle? (b.constBehind.spelling d) with
      | none => exact hplain.trans ⟨fun h => ⟨rfl, fun _ => h⟩, fun h => h.2 rfl⟩
      | some why => exact iff_of_false (plainCategory_ne_unsupported _ why) fun h =>
          Option.some_ne_none why h.1.symm
  | some why =>
      cases hbehind : rules.obstacle? (b.constBehind.spelling d) with
      | none =>
          refine iff_of_false ?_ fun h => Option.some_ne_none why h.1
          exact fun heq => plainCategory_ne_unsupported _ why heq.symm
      | some other =>
          show Category.unsupported why = .unsupported other ↔ _
          rw [Category.unsupported.injEq, Option.some.injEq]
          exact ⟨fun h => ⟨h, fun hnone => absurd hnone (Option.some_ne_none why)⟩, fun h => h.1⟩

/-! ## Qualified pointers -/

section Pointers

variable {t : List Char}

/-- A mark that ends in a character which is not in the second text does not
    reach into it. -/
theorem contains_append_of_notMem {needle : List Char} {c : Char}
    (hlast : needle.getLast? = some c) (ht : c ∉ t) :
    contains needle (s ++ t) = contains needle s := by
  rw [Bool.eq_iff_iff, contains_eq_true_iff, contains_eq_true_iff]
  constructor
  · rintro ⟨front, back, heq⟩
    rcases List.append_eq_append_iff.mp heq with ⟨more, rfl, -⟩ | ⟨more, hmore, rfl⟩
    · exact ⟨front, more, rfl⟩
    · cases hend : more.getLast? with
      | none =>
          rw [List.getLast?_eq_none_iff.mp hend, List.append_nil] at hmore
          exact ⟨front, [], by rw [List.append_nil, hmore]⟩
      | some d =>
          -- the last character of the mark would be in the second text
          have hboth := congrArg List.getLast? hmore
          rw [List.getLast?_append, List.getLast?_append, hlast, hend] at hboth
          obtain rfl : c = d := Option.some.inj hboth
          exact absurd (List.mem_append_left back (List.mem_of_getLast? hend)) ht
  · intro h
    exact h.trans (List.prefix_append s t).isInfix

/-- The qualifier behind a type, with blanks before it, has none of the marks
    that stand against types. -/
structure Qualifies (t : List Char) : Prop where
  chars : ∀ c ∈ t, isBlank c = true ∨ c ∈ constWord
  ends : t.getLast? = some 't'

theorem Qualifies.notMem {c : Char} (h : Qualifies t) (hc : isBlank c = false)
    (hword : c ∉ constWord) : c ∉ t := by
  intro hmem
  rcases h.chars c hmem with hblank | hchar
  · exact Bool.false_ne_true (hc.symm.trans hblank)
  · exact hword hchar

/-- **BEHIND A POINTER THE QUALIFIER HIDES IT** from the rule for pointers to
    numbers, and from no other. -/
theorem obstacle?_qualified (h : Qualifies t) :
    rules.obstacle? (s ++ t) =
      if isMalformed s then some .malformed
      else if isFunctionPointer s then some .functionPointer
      else if isTemplate s then some .template
      else none := by
  have hlast : (s ++ t).getLast? = some 't' := by
    rw [List.getLast?_append, h.ends]
    rfl
  have hmalformed : isMalformed (s ++ t) = isMalformed s := by
    rw [isMalformed, isMalformed, contains_append_of_notMem rfl (h.notMem (by decide) (by decide)),
      contains_append_of_notMem rfl (h.notMem (by decide) (by decide))]
  have hfunction : isFunctionPointer (s ++ t) = isFunctionPointer s := by
    have hstar : '*' ∉ t.filter (· != ' ') :=
      fun hmem => h.notMem (by decide) (by decide) (List.mem_filter.mp hmem).1
    rw [isFunctionPointer, isFunctionPointer, List.filter_append,
      contains_append_of_notMem rfl hstar]
  have htemplate : isTemplate (s ++ t) = isTemplate s := by
    have hcontains : ∀ c, c ∉ t → (s ++ t).contains c = s.contains c := by
      intro c hc
      rw [Bool.eq_iff_iff, List.contains_iff_mem, List.contains_iff_mem, List.mem_append,
        or_iff_left hc]
    rw [isTemplate, isTemplate, hcontains '<' (h.notMem (by decide) (by decide)),
      hcontains '>' (h.notMem (by decide) (by decide))]
  rw [obstacle?_of_getLast? hlast (by decide) (by decide), hmalformed, hfunction, htemplate]

/-- The qualifier is written behind a type and the blanks that follow it. -/
theorem exists_trim_qualified {type : String} {c : Char}
    (hlast : (trim type.toList).getLast? = some c) :
    ∃ t, Qualifies t ∧ trim (type ++ " const").toList = trim type.toList ++ t := by
  obtain ⟨before, after, hbefore, hafter, htype⟩ := exists_append_trim_append type.toList
  have hqualifies : Qualifies (after ++ " const".toList) := by
    refine ⟨List.forall_mem_append.mpr ⟨fun d hd => .inl (hafter d hd), ?_⟩, ?_⟩
    · decide
    · rw [List.getLast?_append]
      rfl
  have hsplit : (type ++ " const").toList
      = before ++ (trim type.toList ++ (after ++ " const".toList)) := by
    rw [String.toList_append, ← List.append_assoc (trim type.toList), ← List.append_assoc before,
      ← htype]
  refine ⟨_, hqualifies, ?_⟩
  rw [hsplit, trim_blank_append hbefore,
    trim_append hlast (getLast?_trimEndWhere hlast) hqualifies.ends (by decide),
    blankFree_trim.trim]

/-- A qualified type with a pointer mark in it is an integer, if nothing stands
    against it. -/
theorem plainCategory_of_qualified {n t : List Char} (hqualifies : Qualifies t) (hstar : '*' ∈ n) :
    plainCategory (normalize (n ++ t)) = .integer := by
  have hend : (n ++ t).getLast? = some 't' := by
    rw [List.getLast?_append, hqualifies.ends]
    rfl
  have hkept : '*' ∈ normalize (n ++ t) :=
    mem_normalize (List.mem_append_left _ hstar) (by decide) (by decide) (by decide)
  rw [plainCategory_of_star hkept (normalize_ends hend (by decide) (by decide))]
  decide

/-- **A QUALIFIED POINTER** has the category of the pointer just when the
    spelling does not end in the mark, or when something stands against it
    that is no matter of its last character. -/
theorem classify_qualified_pointer (rules : TypeRules) {pointer : String}
    (hstar : '*' ∈ pointer.toList) (hreference : endsIn '&' (trim pointer.toList) = false) :
    rules.classify (pointer ++ " const") = rules.classify pointer ↔
      endsIn '*' (trim pointer.toList) = false ∨ isMalformed (trim pointer.toList) = true ∨
        isFunctionPointer (trim pointer.toList) = true ∨
        isTemplate (trim pointer.toList) = true := by
  have hmem : '*' ∈ trim pointer.toList := mem_trim hstar (by decide)
  obtain ⟨c, hlast⟩ : ∃ c, (trim pointer.toList).getLast? = some c :=
    ⟨_, List.getLast?_eq_some_getLast (List.ne_nil_of_mem hmem)⟩
  have hc : isBlank c = false := getLast?_trimEndWhere hlast
  have hne : c ≠ '&' := by
    rintro rfl
    rw [endsIn, hlast] at hreference
    exact absurd hreference (by decide)
  obtain ⟨t, hqualifies, htrim⟩ := exists_trim_qualified hlast
  have hqualified := plainCategory_of_qualified hqualifies hmem
  have hplain : plainCategory (normalize (trim pointer.toList)) = .integer ↔ c ≠ '*' := by
    have hkept : '*' ∈ normalize (trim pointer.toList) :=
      mem_normalize hmem (by decide) (by decide) (by decide)
    exact plainCategory_of_star hkept (normalize_ends hlast hc hne)
  rw [classify, classify, classifyChars, classifyChars, htrim, obstacle?_qualified hqualifies,
    obstacle?_of_not_reference hreference]
  cases isMalformed (trim pointer.toList) with
  | true => exact iff_of_true rfl (.inr (.inl rfl))
  | false =>
  cases isFunctionPointer (trim pointer.toList) with
  | true => exact iff_of_true rfl (.inr (.inr (.inl rfl)))
  | false =>
  cases isTemplate (trim pointer.toList) with
  | true => exact iff_of_true rfl (.inr (.inr (.inr rfl)))
  | false =>
  -- the last character decides
  have hend : endsIn '*' (trim pointer.toList) = (c == '*') := by
    rw [endsIn, hlast]
    rfl
  have hstars : (c == '*') = false ↔ c ≠ '*' := by
    rw [← Bool.not_eq_true, beq_iff_eq]
  rw [hend, or_iff_left (by decide), hstars]
  cases hnumeric : isNumericPointer (trim pointer.toList) with
  | false =>
      show plainCategory (normalize (trim pointer.toList ++ t))
        = plainCategory (normalize (trim pointer.toList)) ↔ _
      rw [hqualified]
      exact eq_comm.trans hplain
  | true =>
      refine iff_of_false (plainCategory_ne_unsupported _ .numericPointer) fun hother => ?_
      rw [isNumericPointer_of_getLast? hlast hother] at hnumeric
      exact Bool.false_ne_true hnumeric

end Pointers

/-! ## The place of the qualifier -/

/-- Nothing stands against the types that have a rule of their own. -/
theorem obstacle?_of_ruled (h : String.ofList b.text ∈ d.ruled) :
    TypeRules.default.obstacle? (b.constBefore.spelling d) = none := by
  have hall : ∀ name ∈ d.ruled, TypeRules.default.obstacle?
      (constWord ++ ' ' :: name.toList ++ d.stars ++ d.ampersand) = none := by
    cases d with
    | value => decide +kernel
    | reference => decide +kernel
    | pointer => decide +kernel
    | pointerReference => decide +kernel
  have hnone := hall _ h
  rw [String.toList_ofList, ← text_constBefore] at hnone
  exact hnone

/-- **WHERE THE PLACE OF THE QUALIFIER MATTERS.**  Before or behind a base type
    with marks, it makes no difference just when the same stands against both,
    and if nothing does, the type has no rule of its own; by the default
    conventions only the second can fail.  Behind a pointer it makes none just
    when the spelling does not end in the mark, or something stands against it
    that is no matter of its last character. -/
theorem const_places_iff (rules : TypeRules) :
    (∀ (b : BaseType) (d : Declarator), Unqualified b →
      (rules.classify (String.ofList (b.constBefore.spelling d))
          = rules.classify (String.ofList (b.constBehind.spelling d)) ↔
        rules.obstacle? (b.constBefore.spelling d) = rules.obstacle? (b.constBehind.spelling d) ∧
          (rules.obstacle? (b.constBefore.spelling d) = none → String.ofList b.text ∉ d.ruled)) ∧
      (d ≠ .pointerReference →
        rules.obstacle? (b.constBefore.spelling d) = rules.obstacle? (b.constBehind.spelling d)) ∧
      (TypeRules.default.classify (String.ofList (b.constBefore.spelling d))
          = TypeRules.default.classify (String.ofList (b.constBehind.spelling d)) ↔
        String.ofList b.text ∉ d.ruled)) ∧
    ∀ pointer : String, '*' ∈ pointer.toList → endsIn '&' (trim pointer.toList) = false →
      (rules.classify (pointer ++ " const") = rules.classify pointer ↔
        endsIn '*' (trim pointer.toList) = false ∨ isMalformed (trim pointer.toList) = true ∨
          isFunctionPointer (trim pointer.toList) = true ∨
          isTemplate (trim pointer.toList) = true) := by
  refine ⟨fun b d h => ⟨?_, fun hd => obstacle?_places h hd, ?_⟩, ?_⟩
  · rw [classify, classify, String.toList_ofList, String.toList_ofList]
    exact classify_places rules h d
  · rw [classify, classify, String.toList_ofList, String.toList_ofList,
      classify_places .default h d, and_iff_right (obstacle?_places_default h d)]
    exact ⟨fun hnone hruled => hnone (obstacle?_of_ruled hruled) hruled, fun hother _ => hother⟩
  · exact fun pointer hstar hreference => classify_qualified_pointer rules hstar hreference

/-- The type `float`. -/
def floatType : BaseType := ⟨["float".toList], by decide, by decide⟩

/-- A reference to a number loses its rule where it is qualified behind, and a
    pointer to numbers does not; a string is none if its pointer is qualified. -/
theorem const_places_iff_float :
    Unqualified floatType ∧
      TypeRules.default.classify "const float&" ≠ TypeRules.default.classify "float const&" ∧
      TypeRules.default.classify "const float*" = TypeRules.default.classify "float const*" ∧
      '*' ∈ "char*".toList ∧ endsIn '&' (trim "char*".toList) = false ∧
      TypeRules.default.classify "char* const" ≠ TypeRules.default.classify "char*" := by
  have hfloat : Unqualified floatType := by decide
  have hstar : '*' ∈ "char*".toList := by decide
  have hreference : endsIn '&' (trim "char*".toList) = false := by decide +kernel
  obtain ⟨hplaces, hpointer⟩ := const_places_iff .default
  refine ⟨hfloat, ?_, ?_, hstar, hreference, ?_⟩
  · have hreferences := (hplaces floatType .reference hfloat).2.2
    exact fun heq => hreferences.mp heq (by decide)
  · have hpointers := (hplaces floatType .pointer hfloat).2.2
    exact hpointers.mpr (by decide)
  · intro heq
    exact absurd ((hpointer "char*" hstar hreference).mp heq) (by decide +kernel)

/-- Qualified behind, a number is taken for an integer and a string for a
    handle, and a string that is qualified behind its mark for an integer. -/
theorem const_places_matter :
    TypeRules.default.classify "const float" = .float ∧
      TypeRules.default.classify "float const" = .integer ∧
      TypeRules.default.classify "const char*" = .cString ∧
      TypeRules.default.classify "char const*" = .handle ∧
      TypeRules.default.classify "char*" = .cString ∧
      TypeRules.default.classify "char* const" = .integer := by
  refine ⟨?_, ?_, ?_, ?_, ?_, ?_⟩
  · decide +kernel
  · decide +kernel
  · decide +kernel
  · decide +kernel
  · decide +kernel
  · decide +kernel

end TypeRules
end GemBinder
