import GemBinder.Proofs.Text.Words
import GemBinder.TypeRules

/-! # What a category says about obstacles

    The category of a type has an obstacle just when one stands against its
    spelling, blanks at the ends aside: a type that nothing stands against is
    put into a category whose values can cross. -/

namespace GemBinder.TypeRules

open Text

/-- The rules of the default conventions are those that their patterns make,
    at any depth. -/
theorem compile_default (depth : Nat) : ({} : Conventions).compile depth = .ok .default := by
  with_unfolding_all rfl

variable {rules : TypeRules}

/-! ## Sets of spellings -/

theorem isOneOf_iff {names : List String} {s : List Char} :
    isOneOf names s = true ↔ String.ofList s ∈ names := by
  rw [isOneOf, List.any_eq_true]
  constructor
  · rintro ⟨name, hname, heq⟩
    rw [← beq_iff_eq.mp heq, String.ofList_toList]
    exact hname
  · intro h
    refine ⟨_, h, ?_⟩
    rw [String.toList_ofList]
    exact beq_self_eq_true s

/-- What can be told from every name of a set is none of them. -/
theorem not_isOneOf_of_ne {β : Type} {names : List String} {s : List Char} (f : List Char → β)
    (h : ∀ name ∈ names, f name.toList ≠ f s) : isOneOf names s = false := by
  rw [Bool.eq_false_iff, ne_eq, isOneOf_iff]
  intro hmem
  refine h _ hmem ?_
  rw [String.toList_ofList]

/-- What holds a character that no name of a set has is none of the set. -/
theorem not_isOneOf {names : List String} {s : List Char} {c : Char}
    (h : ∀ name ∈ names, c ∉ name.toList) (hs : c ∈ s) : isOneOf names s = false := by
  refine not_isOneOf_of_ne id fun name hname heq => h name hname ?_
  rw [show name.toList = s from heq]
  exact hs

theorem endsIn_of_getLast? {s : List Char} {mark c : Char} (h : s.getLast? = some c)
    (hne : c ≠ mark) : TypeSpelling.endsIn mark s = false := by
  rw [TypeSpelling.endsIn, h]
  exact beq_false_of_ne fun heq => hne (Option.some.inj heq)

/-! ## Obstacles -/

/-- The marks that stand against a type wherever it is used. -/
theorem unmarked_of_notMem {s : List Char} (h : ∀ c ∈ ['.', '>', '(', '<'], c ∉ s) :
    isMalformed s = false ∧ isFunctionPointer s = false ∧ isTemplate s = false := by
  refine ⟨?_, ?_, ?_⟩
  · rw [isMalformed, contains_eq_false List.mem_cons_self (h '.' (by decide)),
      contains_eq_false (List.mem_cons_of_mem _ List.mem_cons_self) (h '>' (by decide)),
      Bool.false_or]
  · exact contains_eq_false List.mem_cons_self
      fun hmem => h '(' (by decide) (List.mem_filter.mp hmem).1
  · have hopen : s.contains '<' = false :=
      Bool.eq_false_iff.mpr fun hmem => h '<' (by decide) (List.contains_iff_mem.mp hmem)
    rw [isTemplate, hopen, Bool.false_and]

/-- **WHAT STANDS AGAINST A TYPE**: the rules are asked in turn, those for
    references and for pointers after those for any type. -/
theorem obstacle?_eq (rules : TypeRules) (s : List Char) :
    rules.obstacle? s =
      if isMalformed s then some .malformed
      else if isFunctionPointer s then some .functionPointer
      else if TypeSpelling.isRvalue s then some .rvalueReference
      else if isTemplate s then some .template
      else (if TypeSpelling.endsIn '&' s then rules.referenceObstacle? s else none).or
        (if isNumericPointer s then some .numericPointer else none) := by
  rw [obstacle?]
  cases (if TypeSpelling.endsIn '&' s = true then rules.referenceObstacle? s else none) with
  | some why => rfl
  | none => rfl

theorem ite_some_eq_none_iff {α : Type} {b : Bool} {a : α} {o : Option α} :
    (if b = true then some a else o) = none ↔ b = false ∧ o = none := by
  cases b
  · exact (and_iff_right rfl).symm
  · exact iff_of_false (Option.some_ne_none a) fun h => Bool.false_ne_true h.1.symm

/-- Nothing stands against a type if none of the rules applies. -/
theorem obstacle?_eq_none_iff {s : List Char} :
    rules.obstacle? s = none ↔ isMalformed s = false ∧ isFunctionPointer s = false ∧
      TypeSpelling.isRvalue s = false ∧ isTemplate s = false ∧
      (TypeSpelling.endsIn '&' s = true → rules.referenceObstacle? s = none) ∧
      isNumericPointer s = false := by
  rw [obstacle?_eq, ite_some_eq_none_iff, ite_some_eq_none_iff, ite_some_eq_none_iff,
    ite_some_eq_none_iff, Option.or_eq_none_iff, ite_eq_right_iff, ite_some_eq_none_iff,
    and_iff_left rfl]

/-- Of what can stand against a type that ends in no reference mark, the rules
    for references are none. -/
theorem obstacle?_of_not_reference {s : List Char} (h : TypeSpelling.endsIn '&' s = false) :
    rules.obstacle? s =
      if isMalformed s then some .malformed
      else if isFunctionPointer s then some .functionPointer
      else if isTemplate s then some .template
      else if isNumericPointer s then some .numericPointer
      else none := by
  have hrvalue : TypeSpelling.isRvalue s = false := by
    rw [TypeSpelling.isRvalue, Bool.eq_false_iff]
    intro hsuffix
    obtain ⟨init, rfl⟩ := List.isSuffixOf_iff_suffix.mp hsuffix
    rw [TypeSpelling.endsIn, List.getLast?_append] at h
    exact nomatch h
  rw [obstacle?_eq, hrvalue, h]
  rfl

theorem isNumericPointer_of_getLast? {s : List Char} {c : Char} (h : s.getLast? = some c)
    (hne : c ≠ '*') : isNumericPointer s = false := by
  rw [isNumericPointer, endsIn_of_getLast? h hne, Bool.false_and]

/-- A type that ends in neither mark meets only the obstacles that are no matter
    of its last character. -/
theorem obstacle?_of_getLast? {s : List Char} {c : Char} (h : s.getLast? = some c)
    (hreference : c ≠ '&') (hpointer : c ≠ '*') :
    rules.obstacle? s =
      if isMalformed s then some .malformed
      else if isFunctionPointer s then some .functionPointer
      else if isTemplate s then some .template
      else none := by
  rw [obstacle?_of_not_reference (endsIn_of_getLast? h hreference),
    isNumericPointer_of_getLast? h hpointer]
  rfl

theorem obstacle?_plainCategory (n : List Char) : (plainCategory n).obstacle? = none := by
  unfold plainCategory
  repeat' split
  all_goals rfl

/-- The obstacle of the category of a type is what stands against the type. -/
theorem obstacle?_classify (type : String) :
    (rules.classify type).obstacle? = rules.obstacle? (trim type.toList) := by
  rw [classify, classifyChars]
  cases rules.obstacle? (trim type.toList) with
  | none => exact obstacle?_plainCategory _
  | some why => rfl

/-- A type cannot cross just when something stands against it. -/
theorem isUnsupported_eq (type : String) :
    rules.isUnsupported type = (rules.obstacle? (trim type.toList)).isSome := by
  rw [isUnsupported, Category.isUnsupported, obstacle?_classify]

theorem classify_eq_plainCategory {type : String} (h : rules.isUnsupported type = false) :
    rules.classify type = plainCategory (TypeSpelling.normalize (trim type.toList)) := by
  rw [isUnsupported_eq, Option.isSome_eq_false_iff, Option.isNone_iff_eq_none] at h
  rw [classify, classifyChars, h]

end GemBinder.TypeRules
