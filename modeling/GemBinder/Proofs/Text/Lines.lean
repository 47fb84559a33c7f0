import Mathlib.Data.List.Basic
import GemBinder.Text.Lines

/-! # The lines of a text that was written line by line

    A source is written as a list of lines that are joined by newlines, and
    read as the pieces between newlines.  `linesOf_joinStrings` says that
    reading gives back the lines of every piece that was written, so that a
    piece without a newline is a line of the text.  The second half collects
    which texts are without a newline. -/

namespace GemBinder.Text

/-! ## Splitting what was joined -/

/-- A text without the mark is one piece. -/
theorem splitAtChar_of_notMem {sep : Char} {s : List Char} (h : sep ∉ s) :
    splitAtChar sep s = [s] := by
  induction s with
  | nil => rfl
  | cons c rest ih =>
      have hc : ¬ (c == sep) = true := by
        intro heq
        exact h (beq_iff_eq.mp heq ▸ List.mem_cons_self)
      have hrest : sep ∉ rest := fun hm => h (List.mem_cons_of_mem _ hm)
      rw [splitAtChar]
      rw [if_neg hc, ih hrest]

/-- A mark ends the pieces before it and begins those behind it. -/
theorem splitAtChar_append (sep : Char) (s t : List Char) :
    splitAtChar sep (s ++ sep :: t) = splitAtChar sep s ++ splitAtChar sep t := by
  induction s with
  | nil =>
      show splitAtChar sep (sep :: t) = [] :: splitAtChar sep t
      rw [splitAtChar]
      exact if_pos (beq_self_eq_true sep)
  | cons c rest ih =>
      rw [List.cons_append, splitAtChar, splitAtChar, ih]
      by_cases hc : (c == sep) = true
      · rw [if_pos hc, if_pos hc, List.cons_append]
      · rw [if_neg hc, if_neg hc]
        cases hp : splitAtChar sep rest with
        | nil => exact absurd hp (splitAtChar_ne_nil sep rest)
        | cons piece more => rfl

/-- The first piece of a text goes on in the last one of the text before it. -/
theorem splitAtChar_append_of {sep : Char} {s t l f : List Char} {init rest : List (List Char)}
    (hs : splitAtChar sep s = init ++ [l]) (ht : splitAtChar sep t = f :: rest) :
    splitAtChar sep (s ++ t) = init ++ (l ++ f) :: rest := by
  induction s generalizing init l with
  | nil =>
      obtain ⟨rfl, rfl⟩ : init = [] ∧ l = [] := by
        cases init with
        | nil => exact ⟨rfl, (List.cons.inj hs).1.symm⟩
        | cons a init => exact absurd (List.cons.inj hs).2.symm (by simp)
      exact ht
  | cons c s ih =>
      rw [splitAtChar] at hs
      rw [List.cons_append, splitAtChar]
      by_cases hc : (c == sep) = true
      · rw [if_pos hc] at hs ⊢
        cases init with
        | nil => exact absurd (List.cons.inj hs).2 (splitAtChar_ne_nil sep s)
        | cons a init =>
            obtain ⟨rfl, hinit⟩ := List.cons.inj hs
            rw [ih hinit]
            rfl
      · rw [if_neg hc] at hs ⊢
        cases hp : splitAtChar sep s with
        | nil => exact absurd hp (splitAtChar_ne_nil sep s)
        | cons piece more =>
            rw [hp] at hs
            cases init with
            | nil =>
                obtain ⟨rfl, rfl⟩ := List.cons.inj hs
                rw [ih (show splitAtChar sep s = [] ++ [piece] from hp)]
                rfl
            | cons a init =>
                obtain ⟨rfl, rfl⟩ := List.cons.inj hs
                rw [ih (show splitAtChar sep s = piece :: init ++ [l] from hp)]
                rfl

/-- No piece holds the mark. -/
theorem notMem_of_mem_splitAtChar {sep : Char} {s piece : List Char}
    (h : piece ∈ splitAtChar sep s) : sep ∉ piece := by
  induction s generalizing piece with
  | nil =>
      rw [List.mem_singleton.mp h]
      exact List.not_mem_nil
  | cons c rest ih =>
      rw [splitAtChar] at h
      by_cases hc : (c == sep) = true
      · rw [if_pos hc] at h
        rcases List.mem_cons.mp h with rfl | hmore
        · exact List.not_mem_nil
        · exact ih hmore
      · rw [if_neg hc] at h
        have hne : sep ≠ c := fun heq => hc (beq_iff_eq.mpr heq.symm)
        cases hp : splitAtChar sep rest with
        | nil => exact absurd hp (splitAtChar_ne_nil sep rest)
        | cons first more =>
            rw [hp] at h
            rcases List.mem_cons.mp h with rfl | hmore
            · intro hm
              rcases List.mem_cons.mp hm with heq | htail
              · exact hne heq
              · exact ih (hp ▸ List.mem_cons_self) htail
            · exact ih (hp ▸ List.mem_cons_of_mem _ hmore)

/-! ## Texts without a newline -/

/-- A text of one line. -/
def OneLine (s : String) : Prop := '\n' ∉ s.toList

instance (s : String) : Decidable (OneLine s) :=
  inferInstanceAs (Decidable (_ ∉ _))

theorem oneLine_empty : OneLine "" := by decide

@[simp]
theorem oneLine_append {s t : String} : OneLine (s ++ t) ↔ OneLine s ∧ OneLine t := by
  unfold OneLine
  rw [String.toList_append, List.mem_append, not_or]

theorem oneLine_ofList {s : List Char} : OneLine (String.ofList s) ↔ '\n' ∉ s := by
  rw [OneLine]
  rw [String.toList_ofList]

theorem OneLine.append {s t : String} (hs : OneLine s) (ht : OneLine t) : OneLine (s ++ t) :=
  oneLine_append.mpr ⟨hs, ht⟩

/-- A mark that is neither in the pieces nor in the separator is not in what
    they are joined to. -/
theorem notMem_joinStrings {mark : Char} {sep : String} {pieces : List String}
    (hsep : mark ∉ sep.toList) (h : ∀ p ∈ pieces, mark ∉ p.toList) :
    mark ∉ (joinStrings sep pieces).toList := by
  induction pieces with
  | nil => exact List.not_mem_nil
  | cons p more ih =>
      obtain ⟨hp, hmore⟩ := List.forall_mem_cons.mp h
      cases more with
      | nil => exact hp
      | cons q others =>
          show mark ∉ (p ++ sep ++ joinStrings sep (q :: others)).toList
          simp only [String.toList_append, List.mem_append, not_or]
          exact ⟨⟨hp, hsep⟩, ih hmore⟩

/-- Joining lines on one line needs a separator without a newline. -/
theorem oneLine_joinStrings {sep : String} {pieces : List String} (hsep : OneLine sep)
    (h : ∀ p ∈ pieces, OneLine p) : OneLine (joinStrings sep pieces) :=
  notMem_joinStrings hsep h

/-- A text in a written line stands for itself. -/
@[simp]
theorem oneLine_toString {s : String} : OneLine (toString s) ↔ OneLine s := Iff.rfl

/-- A number is written with digits alone. -/
theorem notMem_repr {mark : Char} (h : mark.isDigit = false) (n : Nat) : mark ∉ n.repr.toList := by
  rw [Nat.toList_repr]
  intro hmem
  have hdigit := Nat.isDigit_of_mem_toDigits (by decide) (by decide) hmem
  exact Bool.false_ne_true (h.symm.trans hdigit)

/-- A number is written on one line. -/
@[simp]
theorem oneLine_repr (n : Nat) : OneLine n.repr := notMem_repr (by decide) n

theorem notMem_int_repr {mark : Char} (h : mark.isDigit = false) (hminus : mark ≠ '-') (n : Int) :
    mark ∉ n.repr.toList := by
  cases n with
  | ofNat k => exact notMem_repr h k
  | negSucc k =>
      show mark ∉ ("-" ++ (k + 1).repr).toList
      rw [String.toList_append, List.mem_append, not_or]
      exact ⟨fun hmem => hminus (List.mem_singleton.mp hmem), notMem_repr h (k + 1)⟩

@[simp]
theorem oneLine_int_repr (n : Int) : OneLine n.repr := notMem_int_repr (by decide) (by decide) n

/-! ## Texts without line ends of any kind -/

/-- A text without newlines and carriage returns. -/
def Unbroken (s : String) : Prop := '\n' ∉ s.toList ∧ '\r' ∉ s.toList

instance (s : String) : Decidable (Unbroken s) := inferInstanceAs (Decidable (_ ∧ _))

theorem Unbroken.oneLine {s : String} (h : Unbroken s) : OneLine s := h.1

@[simp]
theorem unbroken_append {s t : String} : Unbroken (s ++ t) ↔ Unbroken s ∧ Unbroken t := by
  simp only [Unbroken, String.toList_append, List.mem_append, not_or]
  exact and_and_and_comm

theorem unbroken_joinStrings {sep : String} {pieces : List String} (hsep : Unbroken sep)
    (h : ∀ p ∈ pieces, Unbroken p) : Unbroken (joinStrings sep pieces) :=
  ⟨notMem_joinStrings hsep.1 fun p hp => (h p hp).1,
    notMem_joinStrings hsep.2 fun p hp => (h p hp).2⟩

/-- Unified line ends are newlines. -/
theorem notMem_unifyLineEnds (s : List Char) : '\r' ∉ unifyLineEnds s := by
  fun_induction unifyLineEnds s with
  | case1 => exact List.not_mem_nil
  | case2 rest ih => simpa using ih
  | case3 c rest _ ih =>
      rw [List.mem_cons, not_or]
      refine ⟨?_, ih⟩
      split
      · decide
      · next hc => exact fun heq => hc (beq_iff_eq.mpr heq.symm)

theorem unifyLineEnds_of_notMem {s : List Char} (h : '\r' ∉ s) : unifyLineEnds s = s := by
  induction s with
  | nil => rfl
  | cons c s ih =>
      rw [List.mem_cons, not_or] at h
      have hc : ¬ (c == '\r') = true := fun heq => h.1 (beq_iff_eq.mp heq).symm
      rw [unifyLineEnds, if_neg hc, ih h.2]
      exact fun _ hreturn => absurd hreturn.symm h.1

/-- **UNIFIED LINE ENDS**, read along both texts: a carriage return, together
    with the newline behind it if there is one, has become a newline, and any
    other character is as it was. -/
inductive LineEndsUnified : List Char → List Char → Prop where
  | nil : LineEndsUnified [] []
  | pair {s t : List Char} :
      LineEndsUnified s t → LineEndsUnified ('\r' :: '\n' :: s) ('\n' :: t)
  | alone {s t : List Char} :
      s.head? ≠ some '\n' → LineEndsUnified s t → LineEndsUnified ('\r' :: s) ('\n' :: t)
  | other {c : Char} {s t : List Char} :
      c ≠ '\r' → LineEndsUnified s t → LineEndsUnified (c :: s) (c :: t)

/-- A text has just one reading with unified line ends. -/
theorem lineEndsUnified_iff {s t : List Char} : LineEndsUnified s t ↔ unifyLineEnds s = t := by
  constructor
  · intro h
    induction h with
    | nil => rfl
    | pair _ ih => rw [unifyLineEnds, ih]
    | @alone s t hhead _ ih =>
        rw [unifyLineEnds, if_pos (beq_self_eq_true _), ih]
        rintro rest - rfl
        exact hhead rfl
    | other hc _ ih =>
        rw [unifyLineEnds, if_neg (fun heq => hc (beq_iff_eq.mp heq)), ih]
        exact fun _ hreturn => absurd hreturn hc
  · rintro rfl
    fun_induction unifyLineEnds s with
    | case1 => exact .nil
    | case2 rest ih => exact .pair ih
    | case3 c rest hpair ih =>
        by_cases hc : c = '\r'
        · subst hc
          refine .alone ?_ ih
          intro hhead
          obtain ⟨more, rfl⟩ := List.head?_eq_some_iff.mp hhead
          exact hpair more rfl rfl
        · rw [if_neg (fun heq => hc (beq_iff_eq.mp heq))]
          exact .other hc ih

/-! ## Lines -/

/-- A text of one line is its only line. -/
theorem linesOf_of_oneLine {s : String} (h : OneLine s) : linesOf s = [s] := by
  rw [linesOf]
  rw [splitAtChar_of_notMem h, List.map_singleton, String.ofList_toList]

theorem linesOf_append (s t : String) :
    linesOf (s ++ "\n" ++ t) = linesOf s ++ linesOf t := by
  have htoList : (s ++ "\n" ++ t).toList = s.toList ++ '\n' :: t.toList := by
    rw [String.toList_append, String.toList_append, List.append_assoc]
    rfl
  unfold linesOf
  rw [htoList, splitAtChar_append, List.map_append]

/-- A text behind another goes on in its last line. -/
theorem linesOf_append_of {s t l f : String} {init rest : List String}
    (hs : linesOf s = init ++ [l]) (ht : linesOf t = f :: rest) :
    linesOf (s ++ t) = init ++ (l ++ f) :: rest := by
  rw [linesOf] at hs ht
  obtain ⟨init, last, hsplit, rfl, hlast⟩ := List.map_eq_append_iff.mp hs
  obtain ⟨l, rfl, rfl⟩ := List.map_eq_singleton_iff.mp hlast
  obtain ⟨f, rest, hsplit', rfl, rfl⟩ := List.map_eq_cons_iff.mp ht
  rw [linesOf, String.toList_append, splitAtChar_append_of hsplit hsplit', List.map_append,
    List.map_cons, String.ofList_append]

theorem linesOf_ne_nil (s : String) : linesOf s ≠ [] := by
  rw [linesOf]
  exact fun h => splitAtChar_ne_nil _ _ (List.map_eq_nil_iff.mp h)

/-- **READING WHAT WAS WRITTEN**: the lines of pieces joined by newlines are
    the lines of the pieces. -/
theorem linesOf_joinStrings {pieces : List String} (h : pieces ≠ []) :
    linesOf (joinStrings "\n" pieces) = pieces.flatMap linesOf := by
  induction pieces with
  | nil => exact absurd rfl h
  | cons p more ih =>
      cases more with
      | nil => rw [List.flatMap_singleton]; rfl
      | cons q others =>
          show linesOf (p ++ "\n" ++ joinStrings "\n" (q :: others)) = _
          rw [linesOf_append, ih (List.cons_ne_nil q others)]
          rfl

/-- A piece of one line is a line of the text. -/
theorem mem_linesOf_joinStrings {pieces : List String} {line : String}
    (hmem : line ∈ pieces) (hline : OneLine line) :
    line ∈ linesOf (joinStrings "\n" pieces) := by
  rw [linesOf_joinStrings (List.ne_nil_of_mem hmem)]
  refine List.mem_flatMap.mpr ⟨line, hmem, ?_⟩
  rw [linesOf_of_oneLine hline]
  exact List.mem_singleton_self line

/-- The lines of pieces that are lines are the pieces. -/
theorem flatMap_linesOf_of_oneLine {pieces : List String} (h : ∀ p ∈ pieces, OneLine p) :
    pieces.flatMap linesOf = pieces := by
  induction pieces with
  | nil => rfl
  | cons p more ih =>
      rw [List.flatMap_cons, linesOf_of_oneLine (h p List.mem_cons_self),
        ih (fun q hq => h q (List.mem_cons_of_mem _ hq))]
      rfl

/-- If all pieces are lines, they are the lines of the text. -/
theorem linesOf_joinStrings_of_oneLine {pieces : List String} (hne : pieces ≠ [])
    (h : ∀ p ∈ pieces, OneLine p) : linesOf (joinStrings "\n" pieces) = pieces := by
  rw [linesOf_joinStrings hne]
  exact flatMap_linesOf_of_oneLine h

/-- The last pieces are the last lines of the text, if they are lines. -/
theorem suffix_linesOf_joinStrings {pieces last : List String} (hne : last ≠ [])
    (h : ∀ p ∈ last, OneLine p) : last <:+ linesOf (joinStrings "\n" (pieces ++ last)) := by
  rw [linesOf_joinStrings (List.append_ne_nil_of_right_ne_nil _ hne), List.flatMap_append,
    flatMap_linesOf_of_oneLine h]
  exact List.suffix_append _ _

/-! ## Lines that are ended one by one -/

/-- The text of lines that are ended one by one. -/
def textOf (lines : List String) : String := String.join (lines.map (· ++ "\n"))

@[simp]
theorem textOf_cons (line : String) (lines : List String) :
    textOf (line :: lines) = line ++ "\n" ++ textOf lines := by
  rw [textOf, List.map_cons, String.join_cons]
  rfl

@[simp]
theorem textOf_append (lines more : List String) :
    textOf (lines ++ more) = textOf lines ++ textOf more := by
  rw [textOf, List.map_append, String.join_append]
  rfl

theorem textOf_map {α : Type} (f : α → String) (as : List α) :
    textOf (as.map f) = String.join (as.map fun a => f a ++ "\n") := by
  rw [textOf, List.map_map]
  rfl

theorem textOf_flatMap {α : Type} (f : α → List String) (as : List α) :
    textOf (as.flatMap f) = String.join (as.map fun a => textOf (f a)) := by
  induction as with
  | nil => rfl
  | cons a as ih => rw [List.flatMap_cons, textOf_append, ih, List.map_cons, String.join_cons]

/-- The lines of what was written line by line, and an empty one at its end. -/
theorem linesOf_textOf (lines : List String) :
    linesOf (textOf lines) = lines.flatMap linesOf ++ [""] := by
  induction lines with
  | nil => rfl
  | cons line lines ih =>
      rw [textOf_cons, linesOf_append, ih, List.flatMap_cons, List.append_assoc]

/-! ## How a text ends -/

theorem trimEndWhere_append_singleton {p : Char → Bool} {s : List Char} {c : Char}
    (h : p c = true) : trimEndWhere p (s ++ [c]) = trimEndWhere p s := by
  unfold trimEndWhere
  rw [List.reverse_append, List.reverse_singleton, List.singleton_append,
    List.dropWhile_cons_of_pos h]

/-- What stands before another character is not trimmed. -/
theorem trimEndWhere_append {p : Char → Bool} {s t : List Char} {c : Char}
    (hlast : s.getLast? = some c) (h : p c = false) :
    trimEndWhere p (s ++ t) = s ++ trimEndWhere p t := by
  obtain ⟨init, rfl⟩ := List.getLast?_eq_some_iff.mp hlast
  have hkeep : (init ++ [c]).reverse.dropWhile p = (init ++ [c]).reverse := by
    rw [List.reverse_append, List.reverse_singleton, List.singleton_append]
    exact List.dropWhile_cons_of_neg (by rw [h]; exact Bool.false_ne_true)
  unfold trimEndWhere
  rw [List.reverse_append, List.dropWhile_append, hkeep]
  by_cases hall : (t.reverse.dropWhile p).isEmpty = true
  · rw [if_pos hall, List.reverse_reverse, List.isEmpty_iff.mp hall, List.reverse_nil,
      List.append_nil]
  · rw [if_neg hall, List.reverse_append, List.reverse_reverse]

/-- A text that ends in another character is not trimmed. -/
theorem trimEndWhere_of_getLast? {p : Char → Bool} {s : List Char} {c : Char}
    (hlast : s.getLast? = some c) (h : p c = false) : trimEndWhere p s = s := by
  have happ : trimEndWhere p (s ++ []) = s ++ trimEndWhere p [] := trimEndWhere_append hlast h
  rw [List.append_nil] at happ
  rw [happ]
  exact List.append_nil s

theorem trimEndWhere_prefix (p : Char → Bool) (s : List Char) : trimEndWhere p s <+: s := by
  rw [trimEndWhere]
  have hsuffix := List.dropWhile_suffix p (l := s.reverse)
  rw [← List.reverse_prefix, List.reverse_reverse] at hsuffix
  exact hsuffix

/-- Joined lines end in what the last one ends in. -/
theorem getLast?_joinStrings {sep last : String} (lines : List String) (h : last ≠ "") :
    (joinStrings sep (lines ++ [last])).toList.getLast? = last.toList.getLast? := by
  have hne : last.toList ≠ [] := fun hnil => h (String.toList_eq_nil_iff.mp hnil)
  induction lines with
  | nil => rfl
  | cons line more ih =>
      have hjoin : joinStrings sep (line :: more ++ [last])
          = line ++ sep ++ joinStrings sep (more ++ [last]) := by
        cases more with
        | nil => rfl
        | cons next others => rfl
      rw [hjoin, String.toList_append, List.getLast?_append, ih]
      rw [List.getLast?_eq_some_getLast hne, Option.some_or]

/-! ## How a line begins -/

/-- A line begins with a mark. -/
def Begins (mark line : String) : Prop := mark.toList <+: line.toList

instance (mark line : String) : Decidable (Begins mark line) :=
  inferInstanceAs (Decidable (_ <+: _))

theorem begins_append (mark rest : String) : Begins mark (mark ++ rest) := by
  rw [Begins]
  rw [String.toList_append]
  exact List.prefix_append _ _

theorem Begins.append {mark line : String} (h : Begins mark line) (rest : String) :
    Begins mark (line ++ rest) := by
  rw [Begins] at h ⊢
  rw [String.toList_append]
  exact h.trans (List.prefix_append _ _)

/-- A line with one mark does not begin with another that is not compatible
    with it. -/
theorem Begins.not_begins {mark other line : String} (h : Begins mark line)
    (hshort : ¬ Begins other mark) (hlong : ¬ Begins mark other) : ¬ Begins other line := by
  intro hother
  rcases List.prefix_or_prefix_of_prefix hother h with hp | hp
  · exact hshort hp
  · exact hlong hp

/-! ## Lines by their marks -/

/-- The lines that begin with a mark. -/
def marked (mark : String) (lines : List String) : List String :=
  lines.filter fun line => Begins mark line

section Marked

variable {mark : String} {lines : List String}

theorem marked_append (more : List String) :
    marked mark (lines ++ more) = marked mark lines ++ marked mark more :=
  List.filter_append lines more

theorem marked_cons_of_begins {line : String} (h : Begins mark line) :
    marked mark (line :: lines) = line :: marked mark lines :=
  List.filter_cons_of_pos (decide_eq_true h)

theorem marked_cons_of_not {line : String} (h : ¬ Begins mark line) :
    marked mark (line :: lines) = marked mark lines :=
  List.filter_cons_of_neg (by rw [decide_eq_true_eq]; exact h)

theorem marked_eq_nil (h : ∀ line ∈ lines, ¬ Begins mark line) : marked mark lines = [] := by
  refine List.filter_eq_nil_iff.mpr fun line hline => ?_
  rw [decide_eq_true_eq]
  exact h line hline

theorem marked_eq_self (h : ∀ line ∈ lines, Begins mark line) : marked mark lines = lines :=
  List.filter_eq_self.mpr fun line hline => decide_eq_true (h line hline)

end Marked

end GemBinder.Text
