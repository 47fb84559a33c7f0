import GemBinder.Marshal
import GemBinder.Proofs.TypeLayout
import GemBinder.Proofs.TypeRules

/-! # References that cross as copies

    A reference crosses the boundary as a copy, whose type lacks the mark of
    the reference, while its value is taken and returned by the category of
    the reference itself.  What stands against the type of a copy stands
    against the reference too, with two exceptions: the copy of a reference to
    a pointer to numbers is a pointer to numbers, and the copy of a reference
    whose mark is written twice with blanks between is a reference again. -/

namespace GemBinder

open Text TypeSpelling

namespace TypeRules

variable {rules : TypeRules} {type other : String} {s t : List Char}

/-! ## Types that cross alike -/

/-- **TYPES THAT CROSS ALIKE** are held by variables of one type, and are taken
    and returned by the same code, or cannot cross both. -/
structure CrossAlike (rules : TypeRules) (type other : String) : Prop where
  category : rules.classify type = rules.classify other
  cType : rules.cType type = rules.cType other
  marshal : (rules.marshal type).toOption = (rules.marshal other).toOption

/-- Category and normal form are all that the crossing depends on. -/
theorem CrossAlike.of_classify (hcategory : rules.classify type = rules.classify other)
    (hnormal : normalizeString type = normalizeString other) : rules.CrossAlike type other := by
  have hcType : rules.cType type = rules.cType other := by
    rw [TypeRules.cType, TypeRules.cType, hcategory, hnormal]
  refine ⟨hcategory, hcType, ?_⟩
  rw [TypeRules.marshal, TypeRules.marshal, hcategory, hcType]
  split
  · rfl
  · rfl

/-- Types cross alike if the same stands against them and they have one normal
    form. -/
theorem CrossAlike.of_obstacle?
    (hobstacle : rules.obstacle? (trim type.toList) = rules.obstacle? (trim other.toList))
    (hnormal : normalize type.toList = normalize other.toList) : rules.CrossAlike type other := by
  refine .of_classify ?_ ?_
  · rw [classify, classify, classifyChars, classifyChars, hobstacle, normalize_trim,
      normalize_trim, hnormal]
  · rw [normalizeString, normalizeString, hnormal]

/-! ## What stands against a copy -/

/-- What is not in a spelling is not in a part of it. -/
theorem contains_eq_false_of_isInfix {needle : List Char} (h : s <:+: t)
    (ht : contains needle t = false) : contains needle s = false := by
  rw [Bool.eq_false_iff, ne_eq, contains_eq_true_iff] at ht ⊢
  exact fun hneedle => ht (hneedle.trans h)

/-- **WHAT STANDS AGAINST A COPY** that is neither a reference nor a pointer to
    numbers stands against what is copied. -/
theorem obstacle?_byValue (h : rules.obstacle? (trim s) = none)
    (hreference : endsIn '&' (byValue s) = false)
    (hnumeric : isNumericPointer (byValue s) = false) :
    rules.obstacle? (byValue s) = none := by
  obtain ⟨hmalformed, hfunction, -, htemplate, -, -⟩ := obstacle?_eq_none_iff.mp h
  have hpart : byValue s <:+: trim s := (byValue_isPrefix s).isInfix
  refine obstacle?_eq_none_iff.mpr ⟨?_, ?_, ?_, ?_, ?_, hnumeric⟩
  · rw [isMalformed, Bool.or_eq_false_iff] at hmalformed ⊢
    exact hmalformed.imp (contains_eq_false_of_isInfix hpart) (contains_eq_false_of_isInfix hpart)
  · exact contains_eq_false_of_isInfix (hpart.filter _) hfunction
  · rw [isRvalue, Bool.eq_false_iff]
    intro hmarks
    obtain ⟨front, hfront⟩ := List.isSuffixOf_iff_suffix.mp hmarks
    rw [endsIn, ← hfront, List.getLast?_append] at hreference
    exact Bool.false_ne_true hreference.symm
  · rw [isTemplate, Bool.eq_false_iff] at htemplate ⊢
    simp only [ne_eq, Bool.and_eq_true, List.contains_iff_mem] at htemplate ⊢
    exact fun hboth => htemplate ⟨hpart.subset hboth.1, hpart.subset hboth.2⟩
  · intro hmark
    exact absurd hmark (Bool.eq_false_iff.mp hreference)

/-- A pointer to numbers cannot cross. -/
theorem isUnsupported_of_isNumericPointer (h : isNumericPointer (trim type.toList) = true) :
    rules.isUnsupported type = true := by
  rw [isUnsupported_eq, Option.isSome_iff_ne_none]
  intro hnone
  obtain ⟨-, -, -, -, -, hnumeric⟩ := obstacle?_eq_none_iff.mp hnone
  exact Bool.false_ne_true (hnumeric.symm.trans h)

/-! ## Reference marks that stay -/

/-- A type with a reference mark in its normal form is none that a rule
    knows. -/
theorem classify_of_reference (h : rules.isUnsupported type = false)
    (hmark : '&' ∈ normalize type.toList) :
    rules.classify type = .handle ∨ rules.classify type = .integer := by
  rw [classify_eq_plainCategory h, normalize_trim, plainCategory, not_isOneOf (by decide) hmark,
    not_isOneOf (by decide) hmark, not_isOneOf (by decide) hmark, not_isOneOf (by decide) hmark]
  cases isOneOf integerTypes (normalize type.toList)
  · cases endsIn '*' (normalize type.toList)
    · exact .inr rfl
    · exact .inl rfl
  · exact .inr rfl

theorem cType_eq_normalizeString
    (h : rules.classify type = .handle ∨ rules.classify type = .integer) :
    rules.cType type = normalizeString type := by
  rcases h with h | h
  · rw [TypeRules.cType, h]
  · rw [TypeRules.cType, h]

/-- A type whose copy is a reference again does not cross as the copy does. -/
theorem not_crossAlike_of_reference (h : rules.isUnsupported type = false)
    (hmark : endsIn '&' (byValue type.toList) = true) :
    ¬ rules.CrossAlike (byValueString type) type := by
  intro halike
  have hrvalue : isRvalue (trim type.toList) = false := by
    rw [isUnsupported_eq, Option.isSome_eq_false_iff, Option.isNone_iff_eq_none] at h
    exact (obstacle?_eq_none_iff.mp h).2.2.1
  have hcount := count_normalize_byValue hrvalue hmark
  -- the normal form of the type keeps a mark, so that no rule knows it
  have hleft : '&' ∈ normalize type.toList := List.count_pos_iff.mp (by omega)
  have hplain := classify_of_reference h hleft
  have hcopy := hplain
  rw [← halike.category] at hcopy
  have hnormal : normalizeString (byValueString type) = normalizeString type := by
    rw [← cType_eq_normalizeString hplain, ← cType_eq_normalizeString hcopy, halike.cType]
  have hsame := congrArg String.toList hnormal
  rw [normalizeString, normalizeString, byValueString, String.toList_ofList,
    String.toList_ofList, String.toList_ofList] at hsame
  rw [hsame] at hcount
  omega

/-! ## Copies -/

/-- **WHICH TYPES CROSS AS THEIR COPIES DO.**  The type of a copy can cross, and
    crosses as the type that is copied, just when it is neither a reference nor
    a pointer to numbers. -/
theorem copy_crossAlike_iff (h : rules.isUnsupported type = false) :
    (rules.isUnsupported (byValueString type) = false ∧
        rules.CrossAlike (byValueString type) type) ↔
      endsIn '&' (byValue type.toList) = false ∧
        isNumericPointer (byValue type.toList) = false := by
  have hspelling : trim (byValueString type).toList = byValue type.toList := by
    rw [byValueString, String.toList_ofList, trim_byValue]
  constructor
  · rintro ⟨hcopy, halike⟩
    refine ⟨?_, ?_⟩
    · rw [Bool.eq_false_iff]
      exact fun hmark => not_crossAlike_of_reference h hmark halike
    · rw [Bool.eq_false_iff]
      intro hnumeric
      rw [← hspelling] at hnumeric
      exact Bool.false_ne_true (hcopy.symm.trans (isUnsupported_of_isNumericPointer hnumeric))
  · rintro ⟨hreference, hnumeric⟩
    rw [isUnsupported_eq, Option.isSome_eq_false_iff, Option.isNone_iff_eq_none] at h
    have hcopy : rules.obstacle? (trim (byValueString type).toList) = none := by
      rw [hspelling]
      exact obstacle?_byValue h hreference hnumeric
    have hnormal : normalize (byValueString type).toList = normalize type.toList := by
      rw [byValueString, String.toList_ofList]
      exact normalize_byValue (obstacle?_eq_none_iff.mp h).2.2.1 hreference
    refine ⟨?_, .of_obstacle? (hcopy.trans h.symm) hnormal⟩
    rw [isUnsupported_eq, hcopy]
    rfl

/-- A string that is taken by reference crosses as a string. -/
theorem copy_crossAlike_string :
    TypeRules.default.isUnsupported "const char * &" = false ∧
      byValueString "const char * &" = "const char *" ∧
      TypeRules.default.isUnsupported "const char *" = false ∧
      TypeRules.default.CrossAlike "const char *" "const char * &" := by
  have hsupported : TypeRules.default.isUnsupported "const char * &" = false := by decide +kernel
  have hcopy : byValueString "const char * &" = "const char *" := by decide +kernel
  obtain ⟨hcrosses, halike⟩ :=
    (copy_crossAlike_iff hsupported).mpr ⟨by decide +kernel, by decide +kernel⟩
  exact ⟨hsupported, hcopy, hcopy ▸ hcrosses, hcopy ▸ halike⟩

/-- A pointer to numbers that is taken by reference crosses as a handle, while
    its copy cannot cross. -/
theorem numbers_reference_crosses :
    TypeRules.default.isUnsupported "int*&" = false ∧
      TypeRules.default.classify "int*&" = .handle ∧
      byValueString "int*&" = "int*" ∧
      TypeRules.default.isUnsupported (byValueString "int*&") = true ∧
      TypeRules.default.classify (byValueString "int*&") = .unsupported .numericPointer := by
  refine ⟨?_, ?_, ?_, ?_, ?_⟩
  · decide +kernel
  · decide +kernel
  · decide +kernel
  · decide +kernel
  · decide +kernel

end TypeRules
end GemBinder
