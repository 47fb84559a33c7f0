import GemBinder.Proofs.TypeLayout
import GemBinder.Proofs.TypeRules

/-! # Base types

    A base type is what pointer and reference marks are written behind: names
    with single spaces between them.  Its layout is tight, with marks behind it
    or without, and all that the passes over spellings do to it is to drop the
    word that qualifies it, at its head or at its end, and the mark of a
    reference. -/

namespace GemBinder

open Text TypeSpelling

/-- A character of a name: a word character, or a colon of a scope mark. -/
def isNameChar (c : Char) : Bool := isWordChar c || c == ':'

/-- **A BASE TYPE** is written as names with single spaces between. -/
structure BaseType where
  names : List (List Char)
  ne_nil : names ≠ []
  isName : ∀ w ∈ names, w ≠ [] ∧ ∀ c ∈ w, isNameChar c = true

theorem not_isBlank_of_isNameChar {c : Char} (h : isNameChar c = true) : isBlank c = false := by
  rw [isNameChar, Bool.or_eq_true, beq_iff_eq] at h
  rcases h with hword | rfl
  · exact not_isBlank_of_isWordChar hword
  · decide

/-- A character of a name is none of the marks. -/
theorem ne_of_isNameChar {c mark : Char} (hc : isNameChar c = true)
    (hmark : isNameChar mark = false) : c ≠ mark := by
  rintro rfl
  exact Bool.false_ne_true (hmark.symm.trans hc)

/-! ## Joined names -/

namespace TypeSpelling

variable {ws : List (List Char)} {w s : List Char}

theorem squeeze_append_of_notMem (h : ' ' ∉ w) (s : List Char) :
    squeeze (w ++ s) = w ++ squeeze s := by
  induction w with
  | nil => rfl
  | cons c w ih =>
      obtain ⟨hc, hw⟩ := List.ne_and_not_mem_of_not_mem_cons h
      rw [List.cons_append, squeeze, beq_false_of_ne (Ne.symm hc), Bool.false_and,
        if_neg Bool.false_ne_true, ih hw, List.cons_append]

/-- There are no runs of spaces between joined tokens. -/
theorem squeeze_joinWith (h : ∀ w ∈ ws, IsToken w) :
    squeeze (joinWith [' '] ws) = joinWith [' '] ws := by
  have hspace : ∀ {w : List Char}, IsToken w → ' ' ∉ w := by
    intro w hw hmem
    exact absurd (hw.solid ' ' hmem) (by decide)
  induction ws with
  | nil => rfl
  | cons w ws ih =>
      obtain ⟨hw, hws⟩ := List.forall_mem_cons.mp h
      cases ws with
      | nil =>
          show squeeze w = w
          rw [← List.append_nil w, squeeze_append_of_notMem (hspace hw)]
          rfl
      | cons next more =>
          have hnext := hws next List.mem_cons_self
          have hhead : ((joinWith [' '] (next :: more)).head? == some ' ') = false := by
            rw [head?_joinWith hnext.ne_nil]
            refine beq_false_of_ne fun heq => hspace hnext ?_
            exact List.mem_of_mem_head? heq
          rw [joinWith_cons (List.cons_ne_nil next more), squeeze_append_of_notMem (hspace hw),
            squeeze, hhead, Bool.and_false, if_neg Bool.false_ne_true, ih hws]

end TypeSpelling

namespace BaseType

variable {b : BaseType} {c : Char}

/-- The spelling of a base type. -/
def text (b : BaseType) : List Char := joinWith [' '] b.names

theorem isToken (b : BaseType) : ∀ w ∈ b.names, IsToken w := by
  intro w hw
  obtain ⟨hne, hchars⟩ := b.isName w hw
  exact ⟨hne, fun c hc => not_isBlank_of_isNameChar (hchars c hc)⟩

theorem words_text (b : BaseType) : words b.text = b.names := words_joinWith b.isToken

theorem isNameChar_of_mem_text (h : c ∈ b.text) : c = ' ' ∨ isNameChar c = true := by
  obtain hsep | ⟨w, hw, hc⟩ := mem_joinWith h
  · exact .inl (List.mem_singleton.mp hsep)
  · exact .inr ((b.isName w hw).2 c hc)

/-- Other characters are not in a base type. -/
theorem notMem_text (hspace : c ≠ ' ') (hname : isNameChar c = false) : c ∉ b.text := by
  intro h
  rcases isNameChar_of_mem_text h with heq | hchar
  · exact hspace heq
  · exact Bool.false_ne_true (hname.symm.trans hchar)

theorem exists_head? (b : BaseType) : ∃ c, b.text.head? = some c ∧ isNameChar c = true := by
  obtain ⟨w, more, hnames⟩ := List.exists_cons_of_ne_nil b.ne_nil
  obtain ⟨hne, hchars⟩ := b.isName w (by rw [hnames]; exact List.mem_cons_self)
  obtain ⟨c, rest, rfl⟩ := List.exists_cons_of_ne_nil hne
  refine ⟨c, ?_, hchars c List.mem_cons_self⟩
  rw [text, hnames, head?_joinWith hne, List.head?_cons]

theorem exists_getLast? (b : BaseType) : ∃ c, b.text.getLast? = some c ∧ isNameChar c = true := by
  obtain ⟨init, w, hnames⟩ : ∃ init w, b.names = init ++ [w] :=
    ⟨_, _, (List.dropLast_concat_getLast b.ne_nil).symm⟩
  obtain ⟨hne, hchars⟩ := b.isName w (by rw [hnames]; exact List.mem_concat_self)
  refine ⟨w.getLast hne, ?_, hchars _ (List.getLast_mem hne)⟩
  rw [text, hnames, getLast?_joinWith_tokens hne, List.getLast?_eq_some_getLast hne]

/-- **THE LAYOUT OF A BASE TYPE** is tight. -/
theorem collapse_text (b : BaseType) : collapse b.text = b.text := by
  obtain ⟨c, hhead, hc⟩ := b.exists_head?
  obtain ⟨d, hlast, hd⟩ := b.exists_getLast?
  rw [collapse, tighten_of_notMem (notMem_text (by decide) (by decide)),
    tighten_of_notMem (notMem_text (by decide) (by decide)), text, squeeze_joinWith b.isToken,
    ← text]
  exact trim_of_ends hhead (not_isBlank_of_isNameChar hc) hlast (not_isBlank_of_isNameChar hd)

/-! ## The qualifier -/

/-- A type with the qualifier before it. -/
def constBefore (b : BaseType) : BaseType where
  names := constWord :: b.names
  ne_nil := List.cons_ne_nil _ _
  isName := List.forall_mem_cons.mpr ⟨by decide, b.isName⟩

/-- A type with the qualifier behind it. -/
def constBehind (b : BaseType) : BaseType where
  names := b.names ++ [constWord]
  ne_nil := List.append_ne_nil_of_right_ne_nil _ (List.cons_ne_nil _ _)
  isName := List.forall_mem_append.mpr ⟨b.isName, List.forall_mem_singleton.mpr (by decide)⟩

theorem text_constBefore (b : BaseType) : b.constBefore.text = constWord ++ ' ' :: b.text :=
  joinWith_cons b.ne_nil

theorem text_constBehind (b : BaseType) : b.constBehind.text = b.text ++ ' ' :: constWord :=
  joinWith_concat b.ne_nil

/-- The qualifier is dropped at the head of a type. -/
theorem dropConst_constBefore (b : BaseType) : dropConst b.constBefore.text = b.text := by
  obtain ⟨c, hhead, hc⟩ := b.exists_head?
  obtain ⟨rest, htext⟩ := List.head?_eq_some_iff.mp hhead
  rw [text_constBefore, dropConst_qualified isBlank_space, htext]
  exact List.dropWhile_cons_of_neg (Bool.eq_false_iff.mp (not_isBlank_of_isNameChar hc))

/-- Nothing is dropped there if another name is the first. -/
theorem dropConst_text (h : b.names.head? ≠ some constWord) : dropConst b.text = b.text := by
  refine dropConst_unqualified fun c t hc heq => h ?_
  have hwords := b.words_text
  rw [heq, words_append_blank_cons hc] at hwords
  rw [← hwords]
  rfl

/-- The qualifier is dropped at the end of a type. -/
theorem dropConstEnd_constBehind (b : BaseType) : dropConstEnd b.constBehind.text = b.text := by
  obtain ⟨c, hlast, hc⟩ := b.exists_getLast?
  have hsplit : b.constBehind.text = (b.text ++ [' ']) ++ constWord := by
    rw [text_constBehind, List.append_assoc, List.singleton_append]
  have hsuffix : constWord.isSuffixOf b.constBehind.text = true := by
    rw [List.isSuffixOf_iff_suffix, hsplit]
    exact List.suffix_append _ _
  have hfront : dropSuffix? constWord b.constBehind.text = some (b.text ++ [' ']) := by
    rw [dropSuffix?, if_pos hsuffix, hsplit, List.length_append, Nat.add_sub_cancel,
      List.take_left]
  rw [dropConstEnd, hfront]
  show (if (b.text ++ [' ']).getLast?.any isBlank = true then trimEnd (b.text ++ [' ']) else _) = _
  rw [List.getLast?_concat, if_pos (by decide), trimEnd, trimEndWhere, List.reverse_append]
  rw [List.dropWhile_append_of_pos (by decide)]
  exact trimEndWhere_of_getLast? hlast (not_isBlank_of_isNameChar hc)

/-- Nothing is dropped there if another name is the last. -/
theorem dropConstEnd_text (h : b.names.getLast? ≠ some constWord) :
    dropConstEnd b.text = b.text := by
  rw [dropConstEnd, dropSuffix?]
  by_cases hsuffix : constWord.isSuffixOf b.text = true
  · obtain ⟨front, heq⟩ := List.isSuffixOf_iff_suffix.mp hsuffix
    have hfront : b.text.take (b.text.length - constWord.length) = front := by
      rw [← heq, List.length_append, Nat.add_sub_cancel, List.take_left]
    have hsolid : ¬ front.getLast?.any isBlank = true := by
      intro hblank
      obtain ⟨c, hlast, hc⟩ := (Option.any_eq_true _ _).mp hblank
      obtain ⟨init, rfl⟩ := List.getLast?_eq_some_iff.mp hlast
      have hwords := b.words_text
      rw [← heq, List.append_assoc, List.singleton_append, words_append_blank_cons hc] at hwords
      rw [← hwords] at h
      exact h List.getLast?_concat
    rw [if_pos hsuffix, hfront]
    exact if_neg hsolid
  · rw [if_neg hsuffix]

end BaseType

/-! ## Declarators -/

/-- The marks that may stand behind a base type. -/
inductive Declarator where
  | value
  | reference
  | pointer
  | pointerReference
deriving Repr, DecidableEq

namespace Declarator

/-- The marks that stay in the normal form. -/
def stars : Declarator → List Char
  | value | reference => []
  | pointer | pointerReference => ['*']

/-- The mark that does not stay. -/
def ampersand : Declarator → List Char
  | value | pointer => []
  | reference | pointerReference => ['&']

/-- The base types that have a rule of their own. -/
def ruled : Declarator → List String
  | value | reference => ["void", "bool", "float", "double"]
  | pointer | pointerReference => ["char"]

theorem stars_cases (d : Declarator) : d.stars = [] ∨ d.stars = ['*'] := by
  cases d with
  | value => exact .inl rfl
  | reference => exact .inl rfl
  | pointer => exact .inr rfl
  | pointerReference => exact .inr rfl

theorem ampersand_cases (d : Declarator) : d.ampersand = [] ∨ d.ampersand = ['&'] := by
  cases d with
  | value => exact .inl rfl
  | reference => exact .inr rfl
  | pointer => exact .inl rfl
  | pointerReference => exact .inr rfl

end Declarator

namespace BaseType

variable {b u : BaseType} {d : Declarator}

/-- A base type with the marks behind it that stay. -/
def stem (b : BaseType) (d : Declarator) : List Char := b.text ++ d.stars

/-- A base type with marks behind it. -/
def spelling (b : BaseType) (d : Declarator) : List Char := b.stem d ++ d.ampersand

/-! ## Stems -/

theorem exists_getLast?_stem (b : BaseType) (d : Declarator) :
    ∃ c, (b.stem d).getLast? = some c ∧ isBlank c = false ∧ c ≠ '&' := by
  rcases d.stars_cases with hstars | hstars
  · obtain ⟨c, hlast, hc⟩ := b.exists_getLast?
    refine ⟨c, ?_, not_isBlank_of_isNameChar hc, ne_of_isNameChar hc (by decide)⟩
    rw [stem, hstars, List.append_nil, hlast]
  · refine ⟨'*', ?_, by decide, by decide⟩
    rw [stem, hstars, List.getLast?_concat]

theorem trim_stem (b : BaseType) (d : Declarator) : trim (b.stem d) = b.stem d := by
  obtain ⟨c, hhead, hc⟩ := b.exists_head?
  obtain ⟨e, hlast, he, -⟩ := b.exists_getLast?_stem d
  refine trim_of_ends ?_ (not_isBlank_of_isNameChar hc) hlast he
  rw [stem, List.head?_append, hhead]
  rfl

theorem collapse_stem (b : BaseType) (d : Declarator) : collapse (b.stem d) = b.stem d := by
  obtain ⟨c, hlast, hc⟩ := b.exists_getLast?
  rcases d.stars_cases with hstars | hstars
  · rw [stem, hstars, List.append_nil, b.collapse_text]
  · rw [stem, hstars, collapse_append_singleton hlast (not_isBlank_of_isNameChar hc) (by decide),
      b.collapse_text]

theorem dropConst_stem (h : dropConst b.text = u.text) (d : Declarator) :
    dropConst (b.stem d) = u.stem d := by
  obtain ⟨c, hlast, hc⟩ := b.exists_getLast?
  rcases d.stars_cases with hstars | hstars
  · rw [stem, stem, hstars, List.append_nil, List.append_nil, h]
  · rw [stem, stem, hstars,
      dropConst_append_singleton hlast (not_isBlank_of_isNameChar hc) (by decide), h]

theorem notMem_spelling {c : Char} (hspace : c ≠ ' ') (hname : isNameChar c = false)
    (hstar : c ≠ '*') (hampersand : c ≠ '&') : c ∉ b.spelling d := by
  have hstars : c ∉ d.stars := by
    rcases d.stars_cases with h | h
    · rw [h]
      exact List.not_mem_nil
    · rw [h]
      exact fun hmem => hstar (List.mem_singleton.mp hmem)
  have hmark : c ∉ d.ampersand := by
    rcases d.ampersand_cases with h | h
    · rw [h]
      exact List.not_mem_nil
    · rw [h]
      exact fun hmem => hampersand (List.mem_singleton.mp hmem)
  rw [spelling, stem, List.mem_append, List.mem_append]
  rintro ((htext | hmem) | hmem)
  · exact notMem_text hspace hname htext
  · exact hstars hmem
  · exact hmark hmem

theorem trim_spelling (b : BaseType) (d : Declarator) : trim (b.spelling d) = b.spelling d := by
  obtain ⟨c, hlast, hc, -⟩ := b.exists_getLast?_stem d
  rcases d.ampersand_cases with h | h
  · rw [spelling, h, List.append_nil, trim_stem]
  · rw [spelling, h, trim_append hlast hc rfl (by decide), trim_stem]

/-! ## The passes over a spelling -/

/-- **THE NORMAL FORM** of a base type with marks behind it: the qualifier at
    its head and the reference mark are gone. -/
theorem normalize_spelling (h : dropConst b.text = u.text) (d : Declarator) :
    normalize (b.spelling d) = u.stem d := by
  obtain ⟨c, hlast, hc, hne⟩ := b.exists_getLast?_stem d
  obtain ⟨_, hend, -, he⟩ := u.exists_getLast?_stem d
  have hstem : normalize (b.stem d) = u.stem d := by
    rw [TypeSpelling.normalize, collapse_stem, dropConst_stem h, TypeRules.endsIn_of_getLast? hend he,
      if_neg Bool.false_ne_true, trim_stem]
  rcases d.ampersand_cases with hmark | hmark
  · rw [spelling, hmark, List.append_nil, hstem]
  · rw [spelling, hmark, normalize_append_reference hlast hc hne, hstem]

/-- The name of a reference. -/
theorem referenceBase_stem (h : dropConst b.text = u.text) (d : Declarator) :
    referenceBase (b.stem d ++ ['&']) = dropConstEnd (u.stem d) := by
  obtain ⟨c, hlast, hc, -⟩ := b.exists_getLast?_stem d
  obtain ⟨e, hend, -, he⟩ := u.exists_getLast?_stem d
  have hstem : trimEndWhere (· == '&') (u.stem d) = u.stem d :=
    trimEndWhere_of_getLast? hend (beq_false_of_ne he)
  rw [referenceBase, collapse_append_singleton hlast hc (by decide), collapse_stem,
    dropConst_append_singleton hlast hc (by decide), dropConst_stem h,
    trimEndWhere_append_singleton rfl, hstem, trim_stem]

/-- The element of a pointer is made of the names that do not qualify it. -/
theorem pointerElement_text (b : BaseType) :
    pointerElement (b.text ++ ['*'])
      = trimEndWhere (· == '*') (joinWith [' '] (b.names.filter (!isQualifier ·))) := by
  obtain ⟨c, hlast, hc⟩ := b.exists_getLast?
  have hcollapse : collapse (b.text ++ ['*']) = b.text ++ ['*'] := b.collapse_stem .pointer
  have hstars : trimEndWhere (· == '*') b.text = b.text := by
    exact trimEndWhere_of_getLast? hlast (beq_false_of_ne (ne_of_isNameChar hc (by decide)))
  have htrim : trim b.text = b.text := by
    rw [← List.append_nil b.text]
    exact b.trim_stem .value
  rw [pointerElement, hcollapse, trimEndWhere_append_singleton rfl, hstars, htrim, words_text]

end BaseType

end GemBinder
