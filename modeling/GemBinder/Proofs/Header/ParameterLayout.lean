import GemBinder.Header.Declaration
import GemBinder.Proofs.BaseTypes
import GemBinder.Proofs.TypeCopies

/-! # The layout of parameters

    The marks of a parameter may be written against its type, against its name
    or between blanks.  The parser takes them for a part of the type in each of
    these layouts, and the types that it finds differ at most by a blank before
    the first mark, which no reading of a type looks at. -/

namespace GemBinder.Header

open Text TypeSpelling TypeRules

variable {b : BaseType} {p : List Char} {n : String}

/-! ## Named parameters -/

theorem not_isBlank_of_isMark {c : Char} (h : isMark c = true) : isBlank c = false := by
  rw [isMark, Bool.or_eq_true, beq_iff_eq, beq_iff_eq] at h
  rcases h with rfl | rfl
  · decide
  · decide

/-- **A NAMED PARAMETER** has all words but the last for its type, with the
    marks that are written against the name. -/
theorem parameterOfWords_named {front : List (List Char)} {name : List Char} (hfront : front ≠ [])
    (hp : ∀ c ∈ p, isMark c = true) (hne : name ≠ []) (hname : name.head?.any isMark = false) :
    parameterOfWords (front ++ [p ++ name])
      = some ⟨String.ofList (joinWith [' '] front ++ p), some (String.ofList name)⟩ := by
  obtain ⟨c, rest, rfl⟩ := List.exists_cons_of_ne_nil hne
  have hc : ¬ isMark c = true := Bool.eq_false_iff.mp hname
  have htake : (p ++ c :: rest).takeWhile isMark = p := by
    rw [List.takeWhile_append_of_pos hp, List.takeWhile_cons_of_neg hc, List.append_nil]
  have hdrop : (p ++ c :: rest).dropWhile isMark = c :: rest := by
    rw [List.dropWhile_append_of_pos hp, List.dropWhile_cons_of_neg hc]
  rw [parameterOfWords, List.getLast?_concat, List.dropLast_concat]
  dsimp only
  obtain ⟨first, more, rfl⟩ := List.exists_cons_of_ne_nil hfront
  dsimp only
  rw [htake, hdrop]
  rfl

theorem joinWith_concat_append (init : List (List Char)) (w p : List Char) :
    joinWith [' '] (init ++ [w ++ p]) = joinWith [' '] (init ++ [w]) ++ p := by
  cases init with
  | nil => rfl
  | cons first more =>
      have hne : first :: more ≠ [] := List.cons_ne_nil first more
      rw [joinWith_concat hne, joinWith_concat hne, List.append_assoc, List.cons_append]

/-! ## Words with marks -/

theorem isToken_marks (hne : p ≠ []) (hp : ∀ c ∈ p, isMark c = true) : IsToken p :=
  ⟨hne, fun c hc => not_isBlank_of_isMark (hp c hc)⟩

/-- Marks behind a type are a part of its last word. -/
theorem exists_words_marks (b : BaseType) (hp : ∀ c ∈ p, isMark c = true) :
    ∃ init w, b.names = init ++ [w] ∧ ∀ s c, isBlank c = true →
      words (b.text ++ (p ++ c :: s)) = init ++ [w ++ p] ++ words s := by
  obtain ⟨init, w, hnames⟩ : ∃ init w, b.names = init ++ [w] :=
    ⟨_, _, (List.dropLast_concat_getLast b.ne_nil).symm⟩
  refine ⟨init, w, hnames, fun s c hc => ?_⟩
  have htoken : ∀ v ∈ init ++ [w ++ p], IsToken v := by
    intro v hv
    rcases List.mem_append.mp hv with hinit | hlast
    · exact b.isToken v (by rw [hnames]; exact List.mem_append_left _ hinit)
    · obtain rfl := List.mem_singleton.mp hlast
      have hw := b.isToken w (by rw [hnames]; exact List.mem_concat_self)
      refine ⟨List.append_ne_nil_of_left_ne_nil hw.ne_nil p, ?_⟩
      exact List.forall_mem_append.mpr ⟨hw.solid, fun d hd => not_isBlank_of_isMark (hp d hd)⟩
  rw [← List.append_assoc, BaseType.text, hnames, ← joinWith_concat_append,
    words_append_blank_cons hc, words_joinWith htoken]

/-! ## The three layouts -/

/-- Where the marks of a parameter are written: against its name, against its
    type, or between blanks. -/
inductive MarkPlace where
  | onName
  | onType
  | between
deriving Repr, DecidableEq

/-- The text of a parameter with its marks at a place. -/
def MarkPlace.layout (b : BaseType) (p : List Char) (n : String) : MarkPlace → List Char
  | .onName => b.text ++ ' ' :: (p ++ n.toList)
  | .onType => b.text ++ (p ++ ' ' :: n.toList)
  | .between => b.text ++ ' ' :: (p ++ ' ' :: n.toList)

/-- The type that the parser finds there. -/
def MarkPlace.spelling (b : BaseType) (p : List Char) : MarkPlace → List Char
  | .onName | .onType => b.text ++ p
  | .between => b.text ++ ' ' :: p

/-- What is left between the type and its marks. -/
def MarkPlace.gap : MarkPlace → List Char
  | .onName | .onType => []
  | .between => [' ']

theorem MarkPlace.spelling_eq (place : MarkPlace) (b : BaseType) (p : List Char) :
    place.spelling b p = b.text ++ (place.gap ++ p) := by
  cases place with
  | onName => rfl
  | onType => rfl
  | between => rfl

theorem MarkPlace.eq_of_mem_gap {place : MarkPlace} {c : Char} (h : c ∈ place.gap) : c = ' ' := by
  cases place with
  | onName => exact absurd h List.not_mem_nil
  | onType => exact absurd h List.not_mem_nil
  | between => exact List.mem_singleton.mp h

theorem head?_word (hn : IsWord n) : n.toList.head?.any isMark = false := by
  rw [Bool.eq_false_iff]
  intro hmark
  obtain ⟨c, hhead, hc⟩ := (Option.any_eq_true _ _).mp hmark
  rw [isMark, Bool.or_eq_true, beq_iff_eq, beq_iff_eq] at hc
  rcases hc with rfl | rfl
  · exact hn.notMem (by decide) (List.mem_of_mem_head? hhead)
  · exact hn.notMem (by decide) (List.mem_of_mem_head? hhead)

theorem notMem_layout (hp : ∀ c ∈ p, isMark c = true) (hn : IsWord n) (place : MarkPlace) :
    '=' ∉ place.layout b p n := by
  have htext : '=' ∉ b.text := BaseType.notMem_text (by decide) (by decide)
  have hmarks : '=' ∉ p := fun hmem => absurd (hp '=' hmem) (by decide)
  have hname : '=' ∉ n.toList := hn.notMem (by decide)
  cases place with
  | onName => simp [MarkPlace.layout, htext, hmarks, hname]
  | onType => simp [MarkPlace.layout, htext, hmarks, hname]
  | between => simp [MarkPlace.layout, htext, hmarks, hname]

/-- **IN EACH LAYOUT** the marks are found to be a part of the type. -/
theorem parseParameter_layout (hp : ∀ c ∈ p, isMark c = true) (hne : p ≠ []) (hn : IsWord n)
    (place : MarkPlace) :
    parseParameter (place.layout b p n) = some ⟨String.ofList (place.spelling b p), some n⟩ := by
  have hbefore : beforeChar '=' (place.layout b p n) = place.layout b p n :=
    List.takeWhile_eq_self_iff.mpr fun c hc => bne_iff_ne.mpr fun heq =>
      notMem_layout hp hn place (heq ▸ hc)
  have hname : n.toList ≠ [] := fun hnil => hn.1 (String.toList_eq_nil_iff.mp hnil)
  have hsolid : ∀ c ∈ n.toList, isBlank c = false := fun c hc =>
    not_isBlank_of_isWordChar (List.all_eq_true.mp hn.2 c hc)
  have hwords : ∀ {front} marks, front ≠ [] → (∀ c ∈ marks, isMark c = true) →
      parameterOfWords (front ++ [marks ++ n.toList])
        = some ⟨String.ofList (joinWith [' '] front ++ marks), some n⟩ := by
    intro front marks hfront hmarks
    rw [parameterOfWords_named hfront hmarks hname (head?_word hn), String.ofList_toList]
  rw [parseParameter, hbefore]
  cases place with
  | onName =>
      have hlast : IsToken (p ++ n.toList) :=
        ⟨List.append_ne_nil_of_left_ne_nil hne _,
          List.forall_mem_append.mpr ⟨(isToken_marks hne hp).solid, hsolid⟩⟩
      rw [MarkPlace.layout, words_append_blank_cons isBlank_space, b.words_text, hlast.words_eq]
      exact hwords p b.ne_nil hp
  | onType =>
      obtain ⟨init, w, hnames, hmarks⟩ := exists_words_marks b hp
      rw [MarkPlace.layout, hmarks _ _ isBlank_space, IsToken.words_eq ⟨hname, hsolid⟩]
      have hspelling : joinWith [' '] (init ++ [w ++ p]) = b.text ++ p := by
        rw [joinWith_concat_append, BaseType.text, hnames]
      have hfront : init ++ [w ++ p] ≠ [] :=
        List.append_ne_nil_of_right_ne_nil init (List.cons_ne_nil _ _)
      have hparsed := hwords [] hfront (List.forall_mem_nil _)
      rw [hspelling, List.append_nil] at hparsed
      exact hparsed
  | between =>
      have hfront : b.names ++ [p] ≠ [] := List.append_ne_nil_of_left_ne_nil b.ne_nil _
      have hspelling : joinWith [' '] (b.names ++ [p]) = b.text ++ ' ' :: p :=
        joinWith_concat b.ne_nil
      have hparsed := hwords [] hfront (List.forall_mem_nil _)
      rw [hspelling, List.append_nil, List.append_assoc] at hparsed
      rw [MarkPlace.layout, words_append_blank_cons isBlank_space, b.words_text,
        words_append_blank_cons isBlank_space, (isToken_marks hne hp).words_eq,
        IsToken.words_eq ⟨hname, hsolid⟩]
      exact hparsed

/-! ## Types that are read alike -/

/-- **TYPES THAT ARE READ ALIKE** have one normal form and give one fragment of
    a name, and cross alike by any rules. -/
structure ReadAlike (type other : String) : Prop where
  normal : normalizeString type = normalizeString other
  fragment : nameFragmentString type = nameFragmentString other
  crosses : ∀ rules : TypeRules, rules.CrossAlike type other

/-- **THE TIGHT LAYOUT** of a spelling has its marks against the type. -/
theorem MarkPlace.collapse_spelling (hp : ∀ c ∈ p, isMark c = true) (hne : p ≠ [])
    (place : MarkPlace) : collapse (place.spelling b p) = collapse (b.text ++ p) := by
  obtain ⟨c, hlast, hc⟩ := b.exists_getLast?
  obtain ⟨mark, rest, rfl⟩ := List.exists_cons_of_ne_nil hne
  have hmark : mark = '*' ∨ mark = '&' := by
    have hfirst := hp mark List.mem_cons_self
    rw [isMark, Bool.or_eq_true, beq_iff_eq, beq_iff_eq] at hfirst
    exact hfirst
  have hgap : ∀ d ∈ place.gap, isBlank d = true := fun d hd => eq_of_mem_gap hd ▸ isBlank_space
  rw [spelling_eq]
  exact collapse_append_mark hmark hlast (not_isBlank_of_isNameChar hc) hgap rest

/-- Obstacles are told from the tight layout, the last characters, and marks
    that stand against a type wherever it is used. -/
theorem obstacle?_congr {rules : TypeRules} {s t : List Char}
    (hs : ∀ c ∈ ['.', '>', '(', '<'], c ∉ s) (ht : ∀ c ∈ ['.', '>', '(', '<'], c ∉ t)
    (hrvalue : isRvalue s = isRvalue t) (hends : ∀ mark, endsIn mark s = endsIn mark t)
    (hcollapse : collapse s = collapse t) : rules.obstacle? s = rules.obstacle? t := by
  obtain ⟨hmalformed, hfunction, htemplate⟩ := unmarked_of_notMem hs
  obtain ⟨hmalformed', hfunction', htemplate'⟩ := unmarked_of_notMem ht
  have hbase : referenceBase s = referenceBase t := by
    rw [referenceBase, hcollapse, referenceBase]
  have helement : pointerElement s = pointerElement t := by
    rw [pointerElement, hcollapse, pointerElement]
  rw [obstacle?, obstacle?, hmalformed, hmalformed', hfunction, hfunction', htemplate, htemplate',
    hrvalue, hends '&', isNumericPointer, isNumericPointer, hends '*', helement, referenceObstacle?,
    referenceObstacle?, hbase]

/-- Only what stands behind another character than a reference mark tells
    whether there are two at the end. -/
theorem isRvalue_append {s : List Char} {c : Char} (hlast : s.getLast? = some c) (hc : c ≠ '&')
    (p : List Char) : isRvalue (s ++ p) = isRvalue p := by
  rw [isRvalue, isRvalue, Bool.eq_iff_iff, List.isSuffixOf_iff_suffix, List.isSuffixOf_iff_suffix]
  constructor
  · intro h
    rcases List.suffix_or_suffix_of_suffix h (List.suffix_append s p) with hp | ⟨q, hq⟩
    · exact hp
    · -- the first text would end in the marks that the second lacks
      obtain ⟨front, heq⟩ := h
      rw [← hq, ← List.append_assoc] at heq
      have hs : front ++ q = s := List.append_cancel_right heq
      cases hend : q.getLast? with
      | none =>
          rw [List.getLast?_eq_none_iff.mp hend, List.nil_append] at hq
          rw [hq]
      | some d =>
          rw [← hs, List.getLast?_append, hend] at hlast
          obtain rfl : d = c := Option.some.inj hlast
          have hmem : d ∈ ['&', '&'] := hq ▸ List.mem_append_left p (List.mem_of_getLast? hend)
          refine absurd ?_ hc
          rcases List.mem_pair.mp hmem with heq | heq
          · exact heq
          · exact heq
  · exact fun h => h.trans (List.suffix_append s p)

namespace MarkPlace

/-- Wherever the marks are written, what stands before them is no reference
    mark. -/
theorem exists_spelling_eq (place : MarkPlace) :
    ∃ s c, place.spelling b p = s ++ p ∧ s.getLast? = some c ∧ c ≠ '&' := by
  obtain ⟨c, hlast, hc⟩ := b.exists_getLast?
  have htight : ∃ s c, b.text ++ p = s ++ p ∧ s.getLast? = some c ∧ c ≠ '&' :=
    ⟨b.text, c, rfl, hlast, ne_of_isNameChar hc (by decide)⟩
  cases place with
  | onName => exact htight
  | onType => exact htight
  | between =>
      refine ⟨b.text ++ [' '], ' ', ?_, List.getLast?_concat, by decide⟩
      rw [spelling, List.append_assoc, List.singleton_append]

theorem isRvalue_spelling (place : MarkPlace) : isRvalue (place.spelling b p) = isRvalue p := by
  obtain ⟨s, c, heq, hlast, hc⟩ := place.exists_spelling_eq (b := b) (p := p)
  rw [heq, isRvalue_append hlast hc]

theorem getLast?_spelling (hne : p ≠ []) (place : MarkPlace) :
    (place.spelling b p).getLast? = p.getLast? := by
  obtain ⟨s, c, heq, -, -⟩ := place.exists_spelling_eq (b := b) (p := p)
  rw [heq, List.getLast?_append, List.getLast?_eq_some_getLast hne, Option.some_or]

theorem notMem_spelling (hp : ∀ c ∈ p, isMark c = true) (place : MarkPlace) :
    ∀ c ∈ ['.', '>', '(', '<'], c ∉ place.spelling b p := by
  have hkind : ∀ c ∈ ['.', '>', '(', '<'], c ≠ ' ' ∧ isNameChar c = false ∧ isMark c = false := by
    decide
  intro c hc
  obtain ⟨hspace, hname, hmark⟩ := hkind c hc
  have htext : c ∉ b.text := BaseType.notMem_text hspace hname
  have hgap : c ∉ place.gap := fun hmem => hspace (eq_of_mem_gap hmem)
  have hmarks : c ∉ p := fun hmem => Bool.false_ne_true (hmark.symm.trans (hp c hmem))
  simp [spelling_eq, htext, hgap, hmarks]

theorem trim_spelling (hp : ∀ c ∈ p, isMark c = true) (hne : p ≠ []) (place : MarkPlace) :
    trim (place.spelling b p) = place.spelling b p := by
  obtain ⟨c, hhead, hc⟩ := b.exists_head?
  have hlast : (place.spelling b p).getLast? = some (p.getLast hne) := by
    rw [getLast?_spelling hne, List.getLast?_eq_some_getLast hne]
  have hsolid := not_isBlank_of_isMark (hp _ (List.getLast_mem hne))
  have hfirst : (place.spelling b p).head? = some c := by
    rw [spelling_eq, List.head?_append, hhead, Option.some_or]
  exact trim_of_ends hfirst (not_isBlank_of_isNameChar hc) hlast hsolid

/-- **THE PLACE OF THE MARKS** does not matter to the rules. -/
theorem crossAlike_spelling (rules : TypeRules) (hp : ∀ c ∈ p, isMark c = true) (hne : p ≠ [])
    (place other : MarkPlace) :
    rules.CrossAlike (String.ofList (place.spelling b p)) (String.ofList (other.spelling b p)) := by
  have hcollapse : collapse (place.spelling b p) = collapse (other.spelling b p) := by
    rw [collapse_spelling hp hne, collapse_spelling hp hne]
  have hends : ∀ mark, endsIn mark (place.spelling b p) = endsIn mark (other.spelling b p) := by
    intro mark
    rw [endsIn, endsIn, getLast?_spelling hne, getLast?_spelling hne]
  have hrvalue : isRvalue (place.spelling b p) = isRvalue (other.spelling b p) := by
    rw [isRvalue_spelling, isRvalue_spelling]
  have hobstacle : rules.obstacle? (place.spelling b p) = rules.obstacle? (other.spelling b p) :=
    obstacle?_congr (notMem_spelling hp place) (notMem_spelling hp other) hrvalue hends hcollapse
  refine .of_obstacle? ?_ ?_
  · rw [String.toList_ofList, String.toList_ofList, trim_spelling hp hne, trim_spelling hp hne,
      hobstacle]
  · rw [String.toList_ofList, String.toList_ofList, TypeSpelling.normalize,
      hcollapse, TypeSpelling.normalize]

end MarkPlace

/-! ## Fragments of names -/

/-- A spelling has the qualifier for its first word only if its base type has. -/
theorem spelling_ne_qualified (hfirst : b.names.head? ≠ some constWord)
    (hp : ∀ c ∈ p, isMark c = true) (hne : p ≠ []) (place : MarkPlace) {c : Char}
    (hc : isBlank c = true) (t : List Char) : place.spelling b p ≠ constWord ++ c :: t := by
  have hqualified : ∀ t, (words (constWord ++ c :: t)).head? = some constWord := by
    intro t
    rw [words_append_blank_cons hc]
    rfl
  have htight : b.text ++ p ≠ constWord ++ c :: t := by
    intro heq
    obtain ⟨init, w, hnames, hwords⟩ := exists_words_marks b hp
    have hhead := hqualified (t ++ [c])
    rw [← List.cons_append, ← List.append_assoc, ← heq, List.append_assoc, hwords [] c hc] at hhead
    cases init with
    | nil =>
        -- the qualifier holds no marks
        have hword : w ++ p = constWord := Option.some.inj hhead
        have hmarks : ∀ d ∈ constWord, isMark d = false := by decide
        have hmem : p.head hne ∈ constWord := hword ▸ List.mem_append_right w (List.head_mem hne)
        exact Bool.false_ne_true ((hmarks _ hmem).symm.trans (hp _ (List.head_mem hne)))
    | cons v init =>
        rw [hnames] at hfirst
        exact hfirst hhead
  cases place with
  | onName => exact htight
  | onType => exact htight
  | between =>
      intro heq
      have hhead := hqualified t
      rw [← heq, MarkPlace.spelling, words_append_blank_cons isBlank_space, b.words_text,
        List.head?_append_of_ne_nil _ b.ne_nil] at hhead
      exact hfirst hhead

/-- The qualifier is dropped from a base type alike, whatever marks stand
    behind it, unless it is all that the base type is. -/
theorem exists_dropConst_spelling (hb : b.names ≠ [constWord]) (hp : ∀ c ∈ p, isMark c = true)
    (hne : p ≠ []) :
    ∃ u : BaseType, ∀ place : MarkPlace, dropConst (place.spelling b p) = place.spelling u p := by
  by_cases hfirst : b.names.head? = some constWord
  · obtain ⟨more, hnames⟩ := List.head?_eq_some_iff.mp hfirst
    have hmore : more ≠ [] := by
      rintro rfl
      exact hb hnames
    let u : BaseType := ⟨more, hmore, fun w hw => b.isName w (by rw [hnames]; exact .tail _ hw)⟩
    have htext : b.text = constWord ++ ' ' :: u.text := by
      rw [BaseType.text, hnames, joinWith_cons hmore]
      rfl
    obtain ⟨c, hhead, hc⟩ := u.exists_head?
    obtain ⟨rest, hrest⟩ := List.head?_eq_some_iff.mp hhead
    have hdrop : ∀ t, dropConst (b.text ++ t) = u.text ++ t := by
      intro t
      rw [htext, List.append_assoc, List.cons_append, dropConst_qualified isBlank_space, hrest]
      exact List.dropWhile_cons_of_neg (Bool.eq_false_iff.mp (not_isBlank_of_isNameChar hc))
    refine ⟨u, fun place => ?_⟩
    rw [place.spelling_eq, place.spelling_eq]
    exact hdrop _
  · refine ⟨b, fun place => dropConst_unqualified fun c t hc => ?_⟩
    exact spelling_ne_qualified hfirst hp hne place hc t

theorem trimEndWhere_append_of_all {f : Char → Bool} {s t : List Char} {c : Char}
    (hlast : s.getLast? = some c) (hc : f c = false) (ht : ∀ d ∈ t, f d = true) :
    trimEndWhere f (s ++ t) = s := by
  have hnil : trimEndWhere f t = [] := by
    rw [trimEndWhere, List.dropWhile_eq_nil_iff.mpr fun d hd => ht d (List.mem_reverse.mp hd)]
    rfl
  rw [trimEndWhere_append hlast hc, hnil, List.append_nil]

/-- The marks at the end of a spelling are no part of a fragment of a name. -/
theorem trimEndWhere_spelling {u : BaseType} (hp : ∀ c ∈ p, isMark c = true) (place : MarkPlace) :
    trimEndWhere (fun c => c == '&' || c == '*' || isBlank c) (place.spelling u p) = u.text := by
  obtain ⟨c, hlast, hc⟩ := u.exists_getLast?
  have hkept : (c == '&' || c == '*' || isBlank c) = false := by
    have hother : ∀ mark, isNameChar mark = false → (c == mark) = false :=
      fun mark hmark => beq_false_of_ne (ne_of_isNameChar hc hmark)
    rw [hother '&' (by decide), hother '*' (by decide), not_isBlank_of_isNameChar hc]
    rfl
  have hmarks : ∀ d ∈ p, (d == '&' || d == '*' || isBlank d) = true := by
    intro d hd
    have hmark := hp d hd
    rw [isMark, Bool.or_comm] at hmark
    rw [hmark, Bool.true_or]
  have hgap : ∀ d ∈ place.gap, (d == '&' || d == '*' || isBlank d) = true := by
    intro d hd
    rw [MarkPlace.eq_of_mem_gap hd, isBlank_space, Bool.or_true]
  rw [place.spelling_eq]
  exact trimEndWhere_append_of_all hlast hkept (List.forall_mem_append.mpr ⟨hgap, hmarks⟩)

/-- **A BLANK BEFORE THE MARKS** does not matter to a fragment of a name. -/
theorem nameFragment_spelling (hb : b.names ≠ [constWord]) (hp : ∀ c ∈ p, isMark c = true)
    (hne : p ≠ []) (place other : MarkPlace) :
    nameFragment (place.spelling b p) = nameFragment (other.spelling b p) := by
  obtain ⟨u, hdrop⟩ := exists_dropConst_spelling hb hp hne
  rw [nameFragment, nameFragment, place.trim_spelling hp hne, other.trim_spelling hp hne, hdrop,
    hdrop, trimEndWhere_spelling hp, trimEndWhere_spelling hp]

/-! ## Parameters -/

theorem readAlike_spelling (hb : b.names ≠ [constWord]) (hp : ∀ c ∈ p, isMark c = true)
    (hne : p ≠ []) (place other : MarkPlace) :
    ReadAlike (String.ofList (place.spelling b p)) (String.ofList (other.spelling b p)) where
  normal := by
    rw [normalizeString, normalizeString, String.toList_ofList, String.toList_ofList,
      TypeSpelling.normalize, place.collapse_spelling hp hne, TypeSpelling.normalize,
      other.collapse_spelling hp hne]
  fragment := by
    rw [nameFragmentString, nameFragmentString, String.toList_ofList, String.toList_ofList,
      nameFragment_spelling hb hp hne place other]
  crosses := fun rules => place.crossAlike_spelling rules hp hne other

/-- **THE LAYOUT OF A PARAMETER DOES NOT MATTER**: wherever its marks are
    written, the parser finds the same name, and types that are read alike. -/
theorem parameter_layouts (b : BaseType) (p : List Char) (n : String) (hb : b.names ≠ [constWord])
    (hne : p ≠ []) (hp : ∀ c ∈ p, isMark c = true) (hn : IsWord n) (place other : MarkPlace) :
    ∃ type otherType, parseParameter (place.layout b p n) = some ⟨type, some n⟩ ∧
      parseParameter (other.layout b p n) = some ⟨otherType, some n⟩ ∧
      ReadAlike type otherType :=
  ⟨_, _, parseParameter_layout hp hne hn place, parseParameter_layout hp hne hn other,
    readAlike_spelling hb hp hne place other⟩

/-- The type of a constant character. -/
def constChar : BaseType := ⟨["const".toList, "char".toList], by decide, by decide⟩

theorem parameter_layouts_string :
    constChar.names ≠ [constWord] ∧ ['*'] ≠ [] ∧ (∀ c ∈ ['*'], isMark c = true) ∧ IsWord "text" ∧
      parseParameter "const char *text".toList = some ⟨"const char*", some "text"⟩ ∧
      parseParameter "const char * text".toList = some ⟨"const char *", some "text"⟩ ∧
      ReadAlike "const char*" "const char *" := by
  have hname : constChar.names ≠ [constWord] := by decide
  have hmarks : ∀ c ∈ ['*'], isMark c = true := by decide
  have hword : IsWord "text" := by decide +kernel
  obtain ⟨type, other, htype, hother, halike⟩ :=
    parameter_layouts constChar ['*'] "text" hname (by decide) hmarks hword .onName .between
  have htight : parseParameter "const char *text".toList = some ⟨"const char*", some "text"⟩ := by
    decide +kernel
  have hbetween : parseParameter "const char * text".toList
      = some ⟨"const char *", some "text"⟩ := by
    decide +kernel
  obtain ⟨rfl, -⟩ := Parameter.mk.inj (Option.some.inj (htype.symm.trans htight))
  obtain ⟨rfl, -⟩ := Parameter.mk.inj (Option.some.inj (hother.symm.trans hbetween))
  exact ⟨hname, by decide, hmarks, hword, htight, hbetween, halike⟩

end GemBinder.Header
