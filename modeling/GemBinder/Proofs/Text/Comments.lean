import GemBinder.Proofs.Text.Lines

/-! # Texts of comments only

    A line is a comment if it begins with the mark of comments.  What is put
    behind a text goes on in its last line, so the lines of a text that was
    put together are comments if each part begins its further lines with
    comments. -/

namespace GemBinder.Text

/-! ## Comments -/

/-- A line that is empty or a comment. -/
def Commented (line : String) : Prop := line = "" ∨ Begins "#" line

instance (line : String) : Decidable (Commented line) := inferInstanceAs (Decidable (_ ∨ _))

/-- **A TEXT OF COMMENTS ONLY**: all of its lines are empty or comments. -/
def CommentsOnly (s : String) : Prop := ∀ line ∈ linesOf s, Commented line

instance (s : String) : Decidable (CommentsOnly s) := inferInstanceAs (Decidable (∀ _ ∈ _, _))

/-- All lines of a text but the first are empty or comments. -/
def Continues (s : String) : Prop := ∀ line ∈ (linesOf s).tail, Commented line

instance (s : String) : Decidable (Continues s) := inferInstanceAs (Decidable (∀ _ ∈ _, _))

/-- A text whose last line is not an empty one behind others. -/
def EndsInLine (s : String) : Prop := s.toList.getLast? ≠ some '\n'

instance (s : String) : Decidable (EndsInLine s) := inferInstanceAs (Decidable (_ ≠ _))

variable {s t : String}

theorem continues_of_oneLine (h : OneLine s) : Continues s := by
  rw [Continues, linesOf_of_oneLine h]
  exact nofun

theorem endsInLine_of_oneLine (h : OneLine s) : EndsInLine s :=
  fun hlast => h (List.mem_of_mem_getLast? hlast)

/-- Where a text begins with the mark, only its further lines count. -/
theorem commentsOnly_iff_continues (h : Begins "#" s) : CommentsOnly s ↔ Continues s := by
  obtain ⟨rest, hrest⟩ := h
  obtain rfl : "#" ++ String.ofList rest = s := by
    rw [← String.toList_inj, String.toList_append]
    exact (congrArg _ String.toList_ofList).trans hrest
  obtain ⟨f, more, hf⟩ := List.exists_cons_of_ne_nil (linesOf_ne_nil (String.ofList rest))
  have hlines : linesOf ("#" ++ String.ofList rest) = ("#" ++ f) :: more :=
    linesOf_append_of (show linesOf "#" = [] ++ ["#"] from linesOf_of_oneLine (by decide)) hf
  rw [CommentsOnly, Continues, hlines, List.forall_mem_cons]
  exact and_iff_right (.inr (begins_append "#" f))

theorem commented_append (h : s ≠ "") : Commented (s ++ t) ↔ Commented s := by
  have hlist : s.toList ≠ [] := fun hnil => h (String.toList_eq_nil_iff.mp hnil)
  have hne : s ++ t ≠ "" := by
    intro hnil
    exact h (String.append_eq_empty_iff.mp hnil).1
  rw [Commented, Commented, or_iff_right h, or_iff_right hne, Begins, Begins,
    String.toList_append]
  obtain ⟨c, rest, hc⟩ := List.exists_cons_of_ne_nil hlist
  rw [hc]
  show ['#'] <+: c :: (rest ++ t.toList) ↔ ['#'] <+: c :: rest
  rw [List.cons_prefix_cons, List.cons_prefix_cons]
  exact and_congr_right fun _ => iff_of_true List.nil_prefix List.nil_prefix

/-- Pieces of which the last is empty are joined to a text that ends in the
    mark between them. -/
theorem getLast?_joinWith {sep : Char} {init : List (List Char)} (h : init ≠ []) :
    (joinWith [sep] (init ++ [[]])).getLast? = some sep := by
  induction init with
  | nil => exact absurd rfl h
  | cons piece init ih =>
      cases init with
      | nil =>
          show (piece ++ [sep] ++ []).getLast? = some sep
          rw [List.append_nil, List.getLast?_concat]
      | cons next init =>
          show (piece ++ [sep] ++ joinWith [sep] (next :: init ++ [[]])).getLast? = some sep
          rw [List.getLast?_append, ih (List.cons_ne_nil next init), Option.some_or]

/-- The last of several lines is not empty, if the text ends in it. -/
theorem ne_empty_of_endsInLine {init : List String} {l : String} (h : EndsInLine s)
    (hinit : init ≠ []) (hs : linesOf s = init ++ [l]) : l ≠ "" := by
  rintro rfl
  obtain ⟨init, last, hsplit, rfl, hlast⟩ := List.map_eq_append_iff.mp hs
  obtain ⟨l, rfl, hempty⟩ := List.map_eq_singleton_iff.mp hlast
  obtain rfl : l = [] := by
    rw [← String.toList_ofList (l := l), hempty]
    rfl
  refine h ?_
  rw [← joinWith_splitAtChar '\n' s.toList, hsplit]
  exact getLast?_joinWith fun hnil => hinit (by rw [hnil, List.map_nil])

/-- **FURTHER LINES OF TWO TEXTS** are those of each, if the first does not
    end in a newline. -/
theorem continues_append (h : EndsInLine s) : Continues (s ++ t) ↔ Continues s ∧ Continues t := by
  obtain ⟨f, rest, ht⟩ := List.exists_cons_of_ne_nil (linesOf_ne_nil t)
  obtain ⟨init, l, hs⟩ : ∃ init l, linesOf s = init ++ [l] :=
    ⟨_, _, (List.dropLast_append_getLast (linesOf_ne_nil s)).symm⟩
  rw [Continues, Continues, Continues, linesOf_append_of hs ht, ht, hs]
  cases init with
  | nil => exact (and_iff_right nofun).symm
  | cons a init =>
      have hl := ne_empty_of_endsInLine h (List.cons_ne_nil a init) hs
      simp only [List.cons_append, List.tail_cons, List.forall_mem_append, List.forall_mem_cons,
        List.not_mem_nil, IsEmpty.forall_iff, implies_true, true_and, commented_append hl,
        and_assoc]

theorem EndsInLine.append (hs : EndsInLine s) (ht : EndsInLine t) : EndsInLine (s ++ t) := by
  rw [EndsInLine, String.toList_append, List.getLast?_append]
  cases hlast : t.toList.getLast? with
  | none => exact hs
  | some c => exact fun heq => ht (hlast.trans heq)

/-- A separator of one line keeps the further lines apart. -/
theorem continues_joinStrings {sep : String} (hsep : OneLine sep) {pieces : List String}
    (h : ∀ p ∈ pieces, EndsInLine p) :
    Continues (joinStrings sep pieces) ↔ ∀ p ∈ pieces, Continues p := by
  induction pieces with
  | nil => exact iff_of_true (continues_of_oneLine oneLine_empty) nofun
  | cons p more ih =>
      obtain ⟨hp, hmore⟩ := List.forall_mem_cons.mp h
      cases more with
      | nil => simp [joinStrings]
      | cons q others =>
          have hhead : EndsInLine (p ++ sep) := hp.append (endsInLine_of_oneLine hsep)
          show Continues (p ++ sep ++ joinStrings sep (q :: others)) ↔ _
          rw [continues_append hhead, continues_append hp, ih hmore, List.forall_mem_cons (a := p),
            and_iff_left (continues_of_oneLine hsep)]

/-- A line that is empty or a comment is a text of comments only. -/
theorem Commented.commentsOnly (h : Commented s) (hs : OneLine s) : CommentsOnly s := by
  rw [CommentsOnly, linesOf_of_oneLine hs]
  exact List.forall_mem_singleton.mpr h

/-- **LINES OF COMMENTS** make a text of comments only. -/
theorem commentsOnly_textOf {lines : List String} :
    CommentsOnly (textOf lines) ↔ ∀ line ∈ lines, CommentsOnly line := by
  rw [CommentsOnly, linesOf_textOf, List.forall_mem_append, and_iff_left (by decide),
    List.forall_mem_flatMap]
  rfl

end GemBinder.Text
