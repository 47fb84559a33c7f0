import GemBinder.Proofs.Header.MethodLayout
import GemBinder.Proofs.Header.Occurrences

/-! # Operators that read as methods

    The search for methods knows words by their characters only, so that the
    keyword of an operator can be taken for a return type.  A method is returned
    for each place where one is written and into which no earlier one reaches
    (`mem_parseMethods_iff`); such a place is at the beginning of a word.  From
    the keyword on, an operator is written like a method if its target, the text
    up to the parenthesis, is a single word, as in a conversion to a plain type;
    and a method can begin inside the target, if this ends in two words or more.
    -/

namespace GemBinder.Header

open Text

variable {s rest head after before behind : List Char} {c : Char} {owner : Option String}

/-! ## Places where a method is written -/

/-- What stands behind the opening parenthesis of a method: its parameters, and
    up to a semicolon the words that may be there. -/
inductive MethodTail (parameters : List Char) (isConst : Bool) : List Char → Prop where
  | mk {quals behind : List Char} (closing : ')' ∉ parameters)
      (qualifiers : Qualifiers isConst quals) :
      MethodTail parameters isConst (parameters ++ ')' :: (quals ++ ';' :: behind))

/-- **A METHOD AS IT IS WRITTEN** in a text: what stands before it, the nearest
    first, its head from the beginning of a word on, and what stands behind its
    opening parenthesis. -/
structure WrittenMethod (s : List Char) where
  before : List Char
  head : List Char
  after : List Char
  parts : MethodText
  text : before.reverse ++ (head ++ '(' :: after) = s
  boundary : before.head?.any isWordChar = false
  head_text : MethodHead parts.returnType parts.name head
  tail_text : MethodTail parts.parameters parts.isConst after

/-- A place into which no method reaches that begins before it. -/
def Unreached (s : List Char) (i : Nat) : Prop := ∀ o ∈ occurrences methodAt s, ¬ o.Covers i

/-- A method is found where its head stands before a parenthesis, if it goes on as
    one behind it. -/
theorem methodAt_paren_iff {m : MethodText} (hhead : '(' ∉ head) :
    (∃ behind, methodAt before (head ++ '(' :: after) = some (m, behind)) ↔
      MethodHead m.returnType m.name head ∧ MethodTail m.parameters m.isConst after := by
  simp only [methodAt_eq_some_iff]
  constructor
  · rintro ⟨behind, head', quals, htext, hhead', hclosing, hquals⟩
    rcases first_mark_cases htext hhead with ⟨rfl, rfl⟩ | ⟨z, hz, -⟩
    · exact ⟨hhead', .mk hclosing hquals⟩
    · have hparen := hhead'.paren_notMem
      simp [hz] at hparen
  · rintro ⟨hhead', htail⟩
    cases htail with
    | @mk quals behind hclosing hquals =>
        exact ⟨behind, head, quals, rfl, hhead', hclosing, hquals⟩

/-- A method needs a text to begin with. -/
theorem needy_methodAt : Needy methodAt := fun _ => rfl

/-- A method ends with a semicolon, behind at least one character. -/
theorem exists_semicolon_of_methodAt {m : MethodText}
    (h : methodAt before s = some (m, behind)) : ∃ t, s = t ++ ';' :: behind ∧ t ≠ [] := by
  obtain ⟨head, quals, rfl, -⟩ := methodAt_eq_some_iff.mp h
  exact ⟨head ++ '(' :: (m.parameters ++ ')' :: quals), by simp,
    List.append_ne_nil_of_right_ne_nil _ (List.cons_ne_nil _ _)⟩

/-- With one more character of its first word, a method is a method. -/
theorem methodAt_cons {m : MethodText} (hc : isWordChar c = true)
    (h : methodAt before s = some (m, behind)) (before' : List Char) :
    methodAt before' (c :: s)
      = some ({ m with returnType := c :: m.returnType }, behind) := by
  have hcons : ∀ {w}, WordText w → WordText (c :: w) := fun {w} hw =>
    ⟨List.cons_ne_nil c w, List.forall_mem_cons.mpr ⟨hc, hw.chars⟩⟩
  obtain ⟨head, quals, rfl, hhead, hclosing, hquals⟩ := methodAt_eq_some_iff.mp h
  refine methodAt_eq_some_iff.mpr ⟨c :: head, quals, rfl, ?_, hclosing, hquals⟩
  generalize m.returnType = returnType at hhead
  cases hhead with
  | @mk type gap gap' htype hgap hname hgap' =>
      have htype' : ReturnText (c :: returnType) (c :: type) := by
        cases htype with
        | word hw => exact .word (hcons hw)
        | pointer hw hblanks => exact .pointer (hcons hw) hblanks
      exact .mk htype' hgap hname hgap'

/-- The last character of a method that is found is a semicolon. -/
theorem eq_semicolon_of_stop {o : Located MethodText} (ho : o ∈ occurrences methodAt s)
    (hplace : before.reverse ++ c :: rest = s) (hstop : o.stop = before.length + 1) : c = ';' := by
  obtain ⟨hplace', hfound⟩ := of_mem_occurrences ho
  obtain ⟨t, htext, -⟩ := exists_semicolon_of_methodAt hfound
  have hend := Located.stop_of_text htext
  rw [htext, ← List.append_assoc] at hplace'
  have hlength : before.reverse.length = (o.before.reverse ++ t).length := by
    simp only [Located.start, List.length_append, List.length_reverse] at hend ⊢
    omega
  obtain ⟨-, hbehind⟩ := List.append_inj (hplace.trans hplace'.symm) hlength
  exact (List.cons.inj hbehind).1

/-- **A METHOD BEGINS WITH A WHOLE WORD**: where it begins inside a word, it would
    have begun before. -/
theorem boundary_of_mem_occurrences {o : Located MethodText}
    (ho : o ∈ occurrences methodAt s) : o.before.head?.any isWordChar = false := by
  obtain ⟨hplace, hfound⟩ := of_mem_occurrences ho
  cases hbefore : o.before with
  | nil => rfl
  | cons c before =>
      refine Bool.eq_false_iff.mpr fun hc : isWordChar c = true => ?_
      have hfind := methodAt_cons hc hfound before
      have hsame : before.reverse ++ (c :: o.text) = s := by
        rw [← hplace, hbefore, List.reverse_cons, List.append_assoc, List.singleton_append]
      have hstart : o.start = before.length + 1 := by
        rw [Located.start, hbefore, List.length_cons]
      by_cases hreached : ∃ o' ∈ occurrences methodAt s, o'.Covers before.length
      · -- an earlier one would end with a word character
        obtain ⟨o', ho', hlt, hgt⟩ := hreached
        have hnot := not_covers_start ho' ho
        simp only [Located.Covers, hstart] at hnot
        obtain rfl : c = ';' := eq_semicolon_of_stop ho' hsame (by omega)
        exact absurd hc (by decide)
      · simp only [not_exists, not_and] at hreached
        rw [← hsame] at hreached ho
        have ho' := mem_occurrences_of_not_covers (List.cons_ne_nil _ _) hfind hreached
        obtain ⟨t, htext, ht⟩ := exists_semicolon_of_methodAt hfound
        have hlength := List.length_pos_iff.mpr ht
        refine not_covers_start ho' ho ⟨?_, ?_⟩
        · rw [hstart]
          exact Nat.lt_succ_self _
        · have hmore : c :: o.text = (c :: t) ++ ';' :: o.behind := congrArg (c :: ·) htext
          rw [hstart, Located.stop_of_text hmore]
          show before.length + 1 < before.length + (t.length + 1) + 1
          omega

/-- **WHAT IS RETURNED FOR A TEXT**: the methods that are written at places into
    which no earlier one reaches, without those that are named like the class. -/
theorem mem_parseMethods_iff {m : Method} : m ∈ parseMethods s owner ↔
    ∃ d : WrittenMethod s, Unreached s d.before.length ∧ d.parts.toMethod = m ∧
      some m.name ≠ owner := by
  rw [parseMethods, List.mem_filter, bne_iff_ne, List.mem_map]
  constructor
  · rintro ⟨⟨parts, hscan, rfl⟩, howner⟩
    obtain ⟨o, ho, rfl⟩ := mem_scan_iff.mp hscan
    obtain ⟨hplace, hfound⟩ := of_mem_occurrences ho
    obtain ⟨head, quals, htext, hhead, hclosing, hquals⟩ := methodAt_eq_some_iff.mp hfound
    rw [htext] at hplace
    exact ⟨⟨o.before, head, _, o.thing, hplace, boundary_of_mem_occurrences ho, hhead,
      .mk hclosing hquals⟩, fun o' ho' => not_covers_start ho' ho, rfl, howner⟩
  · rintro ⟨⟨before, head, after, parts, rfl, hboundary, hhead, htail⟩, hfree, rfl, howner⟩
    obtain ⟨behind, hfound⟩ : ∃ behind, methodAt before (head ++ '(' :: after)
        = some (parts, behind) := (methodAt_paren_iff hhead.paren_notMem).mpr ⟨hhead, htail⟩
    have hmem := mem_occurrences_of_not_covers (by simp) hfound hfree
    exact ⟨⟨parts, mem_scan_iff.mpr ⟨_, hmem, rfl⟩, rfl⟩, howner⟩

/-! ## Operators -/

/-- The keyword of an operator. -/
def operatorWord : List Char := "operator".toList

theorem wordText_operatorWord : WordText operatorWord := by
  have hall : operatorWord ≠ [] ∧ ∀ c ∈ operatorWord, isWordChar c = true := by decide +kernel
  exact ⟨hall.1, hall.2⟩

/-- **AN OPERATOR AS IT IS WRITTEN** in a text: what stands before the keyword, the
    nearest first, its target up to the opening parenthesis, and what stands
    behind that. -/
structure OperatorText (s : List Char) where
  before : List Char
  target : List Char
  after : List Char
  text : before.reverse ++ ((operatorWord ++ target) ++ '(' :: after) = s
  boundary : before.head?.any isWordChar = false
  keyword : target.head?.any isWordChar = false
  opening : '(' ∉ target

namespace OperatorText

variable (k : OperatorText s)

/-- What stands before the parenthesis, from the keyword on. -/
def front : List Char := operatorWord ++ k.target

/-- The target is a single word. -/
def IsTo (name : List Char) : Prop :=
  ∃ gap gap', k.target = gap ++ (name ++ gap') ∧ Gap gap ∧ WordText name ∧ Blanks gap'

/-- Behind the parenthesis, the operator goes on as a method does. -/
def EndsAsMethod : Prop := ∃ parameters isConst, MethodTail parameters isConst k.after

/-- What stands before the parenthesis ends as the head of a method does. -/
def EndsInMethodHead : Prop :=
  ∃ skipped head type name, k.front = skipped ++ head ∧ MethodHead type name head

theorem paren_notMem_front : '(' ∉ k.front := by
  have hword := wordText_operatorWord.notMem (show isWordChar '(' = false by decide)
  simp [front, hword, k.opening]

end OperatorText

/-- The keyword is the return type of what has a single word as its target. -/
theorem methodHead_operator_iff {name : List Char} :
    MethodHead operatorWord name head ↔ ∃ gap gap', head = operatorWord ++ (gap ++ (name ++ gap')) ∧
      Gap gap ∧ WordText name ∧ Blanks gap' := by
  constructor
  · intro h
    generalize hword : operatorWord = word at h
    cases h with
    | @mk type gap gap' htype hgap hname hgap' =>
        cases htype with
        | word _ => exact ⟨gap, gap', rfl, hgap, hname, hgap'⟩
        | @pointer w _ _ _ =>
            have hstar : '*' ∈ operatorWord := by simp [hword]
            exact absurd hstar (by decide)
  · rintro ⟨gap, gap', rfl, hgap, hname, hgap'⟩
    exact .mk (.word wordText_operatorWord) hgap hname hgap'

/-- **METHODS THAT RETURN THE KEYWORD** are the operators whose target is a single
    word: they are named by it. -/
theorem exists_returnType_operator_iff (s : List Char) (owner : Option String) (name : String) :
    (∃ m ∈ parseMethods s owner, m.returnType = "operator" ∧ m.name = name) ↔
      some name ≠ owner ∧ ∃ k : OperatorText s, Unreached s k.before.length ∧
        k.IsTo name.toList ∧ k.EndsAsMethod := by
  constructor
  · rintro ⟨m, hm, htype, rfl⟩
    obtain ⟨⟨before, head, after, parts, htext, hboundary, hhead, htail⟩, hfree, rfl, howner⟩ :=
      mem_parseMethods_iff.mp hm
    have hreturn : parts.returnType = operatorWord := by
      have hlist := congrArg String.toList htype
      rwa [MethodText.toMethod, String.toList_ofList] at hlist
    rw [hreturn] at hhead
    obtain ⟨gap, gap', rfl, hgap, hname, hgap'⟩ := methodHead_operator_iff.mp hhead
    have hopening : '(' ∉ gap ++ (parts.name ++ gap') := by
      have hparen := hhead.paren_notMem
      rw [List.mem_append, not_or] at hparen
      exact hparen.2
    refine ⟨howner, ⟨before, gap ++ (parts.name ++ gap'), after, htext, hboundary,
      hgap.head?_isWordChar, hopening⟩, hfree, ⟨gap, gap', ?_, hgap, ?_, hgap'⟩, _, _, htail⟩
    · rw [MethodText.toMethod, String.toList_ofList]
    · rwa [MethodText.toMethod, String.toList_ofList]
  · rintro ⟨howner, k, hfree, ⟨gap, gap', htarget, hgap, hname, hgap'⟩, parameters, isConst, htail⟩
    let parts : MethodText := ⟨operatorWord, name.toList, parameters, isConst⟩
    have hhead : MethodHead operatorWord name.toList (operatorWord ++ k.target) :=
      methodHead_operator_iff.mpr ⟨gap, gap', by rw [htarget], hgap, hname, hgap'⟩
    have hnamed : parts.toMethod.name = name := String.ofList_toList
    exact ⟨parts.toMethod, mem_parseMethods_iff.mpr ⟨⟨k.before, _, k.after, parts, k.text, k.boundary,
      hhead, htail⟩, hfree, rfl, by rwa [hnamed]⟩, rfl, hnamed⟩

/-- **METHODS INSIDE AN OPERATOR**: where no method reaches over the keyword, one
    begins before the parenthesis just when the operator ends as a method, from some
    place on. -/
theorem exists_in_operator_iff (k : OperatorText s) (hfree : Unreached s k.before.length) :
    (∃ o ∈ occurrences methodAt s, k.before.length ≤ o.start ∧
        o.start < k.before.length + k.front.length) ↔ k.EndsInMethodHead ∧ k.EndsAsMethod := by
  have htext : k.before.reverse ++ (k.front ++ '(' :: k.after) = s := k.text
  have hstands : ∀ skipped head, k.front = skipped ++ head →
      (StandsAt methodAt s (k.before.length + skipped.length) ↔
        (∃ type name, MethodHead type name head) ∧ k.EndsAsMethod) := by
    intro skipped head hsplit
    have hparen : '(' ∉ head := by
      have hnot := k.paren_notMem_front
      rw [hsplit, List.mem_append, not_or] at hnot
      exact hnot.2
    have hplace : k.before.reverse ++ (skipped ++ (head ++ '(' :: k.after)) = s := by
      rw [← List.append_assoc skipped, ← hsplit, htext]
    have hat : StandsAt methodAt (k.before.reverse ++ (skipped ++ (head ++ '(' :: k.after)))
        (k.before.length + skipped.length) ↔ _ := standsAt_length_iff
    rw [hplace] at hat
    rw [hat, Option.isSome_iff_exists]
    constructor
    · rintro ⟨⟨m, behind⟩, hfound⟩
      obtain ⟨hhead, htail⟩ := (methodAt_paren_iff hparen).mp ⟨behind, hfound⟩
      exact ⟨⟨_, _, hhead⟩, _, _, htail⟩
    · rintro ⟨⟨type, name, hhead⟩, parameters, isConst, htail⟩
      obtain ⟨behind, hfound⟩ : ∃ behind, methodAt (skipped.reverse ++ k.before)
          (head ++ '(' :: k.after) = some (⟨type, name, parameters, isConst⟩, behind) :=
        (methodAt_paren_iff hparen).mpr ⟨hhead, htail⟩
      exact ⟨_, hfound⟩
  rw [exists_occurrence_iff needy_methodAt hfree]
  constructor
  · rintro ⟨i, hle, hlt, hi⟩
    obtain ⟨skipped, head, hsplit, hlength⟩ :
        ∃ skipped head, k.front = skipped ++ head ∧ k.before.length + skipped.length = i :=
      ⟨k.front.take (i - k.before.length), k.front.drop (i - k.before.length),
        (List.take_append_drop _ _).symm, by rw [List.length_take]; omega⟩
    rw [← hlength, hstands skipped head hsplit] at hi
    obtain ⟨⟨type, name, hhead⟩, htail⟩ := hi
    exact ⟨⟨skipped, head, type, name, hsplit, hhead⟩, htail⟩
  · rintro ⟨⟨skipped, head, type, name, hsplit, hhead⟩, htail⟩
    refine ⟨_, Nat.le_add_right _ _, ?_, (hstands skipped head hsplit).mpr ⟨⟨type, name, hhead⟩, htail⟩⟩
    have hsome : 0 < head.length := List.length_pos_iff.mpr hhead.ne_nil
    rw [hsplit, List.length_append]
    omega

/-! ## What the search makes of operators -/

/-- A method in whose declaration the keyword of an operator was taken for the
    return type or for the name. -/
def TakesOperator (m : Method) : Prop :=
  m.returnType = "operator" ∨ m.returnType = "operator*" ∨ m.name = "operator"

/-- **WHEN OPERATORS ARE TAKEN FOR METHODS**: a method takes the keyword just where
    it is written with it at a place that no earlier one reaches over; the methods
    that return the keyword are the operators to a single word, by the name of this
    word; and where no method reaches over the keyword of an operator, one begins
    between this and the parenthesis just when a return type and a name end there,
    and the rest is that of a method. -/
theorem operators_taken_iff (s : List Char) (owner : Option String) :
    ((∃ m ∈ parseMethods s owner, TakesOperator m) ↔
      ∃ d : WrittenMethod s, Unreached s d.before.length ∧ TakesOperator d.parts.toMethod ∧
        some d.parts.toMethod.name ≠ owner) ∧
    (∀ name : String, (∃ m ∈ parseMethods s owner, m.returnType = "operator" ∧ m.name = name) ↔
      some name ≠ owner ∧ ∃ k : OperatorText s, Unreached s k.before.length ∧
        k.IsTo name.toList ∧ k.EndsAsMethod) ∧
    ∀ k : OperatorText s, Unreached s k.before.length →
      ((∃ o ∈ occurrences methodAt s, k.before.length ≤ o.start ∧
          o.start < k.before.length + k.front.length) ↔ k.EndsInMethodHead ∧ k.EndsAsMethod) := by
  refine ⟨?_, exists_returnType_operator_iff s owner, exists_in_operator_iff⟩
  constructor
  · rintro ⟨m, hm, htakes⟩
    obtain ⟨d, hfree, rfl, howner⟩ := mem_parseMethods_iff.mp hm
    exact ⟨d, hfree, htakes, howner⟩
  · rintro ⟨d, hfree, htakes, howner⟩
    exact ⟨_, mem_parseMethods_iff.mpr ⟨d, hfree, rfl, howner⟩, htakes⟩

/-- A conversion to a plain type is returned as a method that is named by it. -/
theorem conversion_returned_as_method :
    parseMethods "  explicit operator bool() const;\n  void f();\n".toList (some "A")
      = [{ name := "bool", returnType := "operator", isConst := true },
        { name := "f", returnType := "void" }] := by
  decide +kernel

/-- Operators to a plain type and to one of two words. -/
def conversions : List Char :=
  "void f(); operator bool(); explicit operator unsigned int() const;".toList

/-- The first operator is returned by the name of its target; inside the second
    one, a method begins. -/
theorem operators_taken_iff_conversions :
    (∃ m ∈ parseMethods conversions none, m.returnType = "operator" ∧ m.name = "bool") ∧
      ∃ k : OperatorText conversions, k.target = " unsigned int".toList ∧
        ∃ o ∈ occurrences methodAt conversions, k.before.length ≤ o.start ∧
          o.start < k.before.length + k.front.length := by
  have hwords : (∀ c ∈ "bool".toList, isWordChar c = true) ∧
      (∀ c ∈ "unsigned".toList, isWordChar c = true) ∧
        ∀ c ∈ "int".toList, isWordChar c = true := by decide +kernel
  have hfree : ∀ i, (occurrences methodAt conversions).all
      (fun o => !(decide (o.start < i) && decide (i < o.stop))) = true →
        Unreached conversions i := by
    intro i hall o ho hcovers
    have hnot := List.all_eq_true.mp hall o ho
    simp [hcovers.1, hcovers.2] at hnot
  let k : OperatorText conversions :=
    { before := "void f(); ".toList.reverse
      target := " bool".toList
      after := "); explicit operator unsigned int() const;".toList
      text := by decide +kernel
      boundary := by decide +kernel
      keyword := by decide +kernel
      opening := by decide }
  let k' : OperatorText conversions :=
    { before := "void f(); operator bool(); explicit ".toList.reverse
      target := " unsigned int".toList
      after := ") const;".toList
      text := by decide +kernel
      boundary := by decide +kernel
      keyword := by decide +kernel
      opening := by decide }
  have hplain : k.EndsAsMethod := ⟨[], false, .mk List.not_mem_nil (.mk blanks_nil .absent .absent)⟩
  have hconst : k'.EndsAsMethod :=
    ⟨[], true, .mk List.not_mem_nil (.mk blanks_space (.present blanks_nil) .absent)⟩
  have hhead : k'.EndsInMethodHead :=
    ⟨"operator ".toList, "unsigned int".toList, "unsigned".toList, "int".toList, rfl,
      .mk (.word ⟨by decide, hwords.2.1⟩) gap_space ⟨by decide, hwords.2.2⟩ blanks_nil⟩
  obtain ⟨-, hnamed, hinside⟩ := operators_taken_iff conversions none
  refine ⟨(hnamed "bool").mpr ⟨nofun, k, hfree _ (by decide +kernel), ⟨[' '], [], rfl, gap_space,
    ⟨by decide, hwords.1⟩, blanks_nil⟩, hplain⟩, k', rfl, ?_⟩
  exact (hinside k' (hfree _ (by decide +kernel))).mpr ⟨hhead, hconst⟩

end GemBinder.Header
