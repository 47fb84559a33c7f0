import GemBinder.Header.Comments
import GemBinder.Proofs.Text.Tokens

/-! # A text without its comments

    Comments are looked for from the left, and each gives way to a blank.  So a
    text is cut into pieces of code with a comment between neighbours
    (`Cut`), and what is left are the pieces with blanks between them.  Nothing
    that is left opens a comment: two characters that meet stood side by side
    before, since a blank is in none of the marks, and where a block comment
    was not closed it is not closed by what is left either. -/

namespace GemBinder.Header

open Text

variable {s t u v rest piece : List Char} {a b c : Char}

/-! ## Comments -/

/-- What opens a line comment. -/
abbrev lineMark : List Char := ['/', '/']

/-- What opens a block comment. -/
abbrev openMark : List Char := ['/', '*']

/-- What closes a block comment. -/
abbrev closeMark : List Char := ['*', '/']

/-- **A COMMENT**, with what stands behind it: a line comment goes up to the
    end of its line, without it, and a block comment through the first mark
    that closes it, which does not share its star with the mark that opens. -/
inductive Comment : List Char → List Char → Prop where
  | line {body rest : List Char} (within : '\n' ∉ body)
      (ends : rest = [] ∨ rest.head? = some '\n') : Comment (lineMark ++ body) rest
  | block {body rest : List Char} (first : ¬ closeMark <:+: body ++ ['*']) :
      Comment (openMark ++ (body ++ closeMark)) rest

/-- **NO COMMENT STANDS IN A TEXT**: no line comment is opened, and no block
    comment is opened and closed. -/
structure CommentFree (s : List Char) : Prop where
  line : ¬ lineMark <:+: s
  block : ∀ u v, s = u ++ (openMark ++ v) → ¬ closeMark <:+: v

/-! ## Marks of two characters -/

theorem pair_prefix_cons_iff : [a, b] <+: c :: s ↔ c = a ∧ s.head? = some b := by
  rw [List.cons_prefix_cons, eq_comm]
  refine and_congr_right fun _ => ?_
  cases s with
  | nil => simp
  | cons d s => simp [List.cons_prefix_cons, eq_comm]

theorem pair_infix_cons_iff :
    [a, b] <:+: c :: s ↔ (c = a ∧ s.head? = some b) ∨ [a, b] <:+: s := by
  rw [List.infix_cons_iff, pair_prefix_cons_iff]

/-- A block comment that is opened goes up to the first mark that closes it. -/
theorem blockRest?_eq_some_iff :
    blockRest? s = some rest ↔
      ∃ body, s = body ++ (closeMark ++ rest) ∧ ¬ closeMark <:+: body ++ ['*'] := by
  fun_induction blockRest? s with
  | case1 => simp
  | case2 behind =>
      constructor
      · intro h
        cases h
        exact ⟨[], rfl, by decide⟩
      · rintro ⟨body, hs, hfirst⟩
        cases body with
        | nil =>
            have hbehind : closeMark ++ behind = closeMark ++ rest := hs
            exact congrArg some (List.append_cancel_left hbehind)
        | cons d body =>
            -- the mark at the head is the first one
            obtain ⟨rfl, hbehind⟩ := List.cons.inj hs
            refine absurd (pair_infix_cons_iff.mpr (.inl ⟨rfl, ?_⟩)) hfirst
            cases body with
            | nil => cases hbehind
            | cons e body => exact congrArg some (List.cons.inj hbehind).1.symm
  | case3 c behind hmark ih =>
      rw [ih]
      have hhead : ¬ (c = '*' ∧ behind.head? = some '/') := by
        rintro ⟨rfl, hslash⟩
        obtain ⟨more, rfl⟩ := List.head?_eq_some_iff.mp hslash
        exact hmark more rfl rfl
      constructor
      · rintro ⟨body, rfl, hfirst⟩
        refine ⟨c :: body, rfl, fun hmem => ?_⟩
        rcases pair_infix_cons_iff.mp hmem with ⟨rfl, hslash⟩ | hmem
        · refine hhead ⟨rfl, ?_⟩
          cases body with
          | nil => cases hslash
          | cons d body => exact hslash
        · exact hfirst hmem
      · rintro ⟨body, hs, hfirst⟩
        cases body with
        | nil =>
            obtain ⟨rfl, rfl⟩ := List.cons.inj hs
            exact absurd ⟨rfl, rfl⟩ hhead
        | cons d body =>
            obtain ⟨rfl, rfl⟩ := List.cons.inj hs
            exact ⟨body, rfl, fun hmem => hfirst (pair_infix_cons_iff.mpr (.inr hmem))⟩

theorem blockRest?_eq_none_iff : blockRest? s = none ↔ ¬ closeMark <:+: s := by
  fun_induction blockRest? s with
  | case1 => simp
  | case2 behind =>
      exact iff_of_false (Option.some_ne_none _)
        (not_not_intro (pair_infix_cons_iff.mpr (.inl ⟨rfl, rfl⟩)))
  | case3 c behind hmark ih =>
      rw [ih, pair_infix_cons_iff, or_iff_right]
      rintro ⟨rfl, hslash⟩
      obtain ⟨more, rfl⟩ := List.head?_eq_some_iff.mp hslash
      exact hmark more rfl rfl

/-- **WHAT IS FOUND AT THE HEAD OF A TEXT** is a comment with what stands behind
    it. -/
theorem commentRest?_eq_some_iff :
    commentRest? s = some rest ↔ ∃ comment, Comment comment rest ∧ s = comment ++ rest := by
  constructor
  · intro h
    unfold commentRest? at h
    split at h
    · next behind =>
        cases h
        refine ⟨lineMark ++ behind.takeWhile (· != '\n'), .line ?_ ?_, ?_⟩
        · intro hmem
          exact absurd (List.mem_takeWhile_imp hmem) (by decide)
        · cases hrest : behind.dropWhile (· != '\n') with
          | nil => exact .inl rfl
          | cons d more =>
              have hd := List.head?_dropWhile_not (· != '\n') behind
              rw [hrest] at hd
              exact .inr (congrArg some (by simpa using hd))
        · rw [List.append_assoc, List.takeWhile_append_dropWhile]
          rfl
    · obtain ⟨body, rfl, hfirst⟩ := blockRest?_eq_some_iff.mp h
      exact ⟨_, .block hfirst, by simp⟩
    · exact nomatch h
  · rintro ⟨comment, hcomment, rfl⟩
    cases hcomment with
    | @line body rest hwithin hends =>
        have hbody : ∀ c ∈ body, (c != '\n') = true := by
          intro c hc
          exact bne_iff_ne.mpr fun heq => hwithin (heq ▸ hc)
        show some ((body ++ rest).dropWhile (· != '\n')) = some rest
        rw [List.dropWhile_append_of_pos hbody]
        rcases hends with rfl | hhead
        · rfl
        · obtain ⟨more, rfl⟩ := List.head?_eq_some_iff.mp hhead
          rfl
    | @block body rest hfirst =>
        rw [List.append_assoc, List.append_assoc]
        exact blockRest?_eq_some_iff.mpr ⟨body, rfl, hfirst⟩

/-- No comment begins where none is opened, or one is opened that nothing
    closes. -/
theorem commentRest?_cons_eq_none_iff : commentRest? (c :: s) = none ↔
    ¬ lineMark <+: c :: s ∧ ∀ v, c :: s = openMark ++ v → ¬ closeMark <:+: v := by
  rw [pair_prefix_cons_iff]
  constructor
  · intro h
    constructor
    · rintro ⟨rfl, hslash⟩
      obtain ⟨more, rfl⟩ := List.head?_eq_some_iff.mp hslash
      exact nomatch h
    · rintro v hv
      rw [hv] at h
      exact blockRest?_eq_none_iff.mp h
  · rintro ⟨hline, hblock⟩
    unfold commentRest?
    split
    · next behind hs =>
        cases hs
        exact absurd ⟨rfl, rfl⟩ hline
    · next behind hs => exact blockRest?_eq_none_iff.mpr (hblock behind hs)
    · rfl

theorem commentFree_nil : CommentFree [] where
  line := by decide
  block := fun u v h => by simp at h

theorem commentFree_cons_iff :
    CommentFree (c :: s) ↔ commentRest? (c :: s) = none ∧ CommentFree s := by
  rw [commentRest?_cons_eq_none_iff]
  constructor
  · intro h
    refine ⟨⟨fun hmark => h.line hmark.isInfix, fun v hv => h.block [] v hv⟩, ⟨?_, ?_⟩⟩
    · exact fun hmark => h.line (List.infix_cons_iff.mpr (.inr hmark))
    · rintro u v rfl
      exact h.block (c :: u) v rfl
  · rintro ⟨⟨hline, hblock⟩, hs⟩
    refine ⟨fun hmark => ?_, fun u v huv => ?_⟩
    · exact (List.infix_cons_iff.mp hmark).elim hline hs.line
    · cases u with
      | nil => exact hblock v huv
      | cons d u => exact hs.block u v (List.cons.inj huv).2

/-! ## What is left -/

theorem stripComments_of_comment (h : commentRest? s = some rest) :
    stripComments s = ' ' :: stripComments rest := by
  cases s with
  | nil => cases h
  | cons c s =>
      rw [stripComments]
      split
      · next behind hbehind =>
          cases hbehind.symm.trans h
          rfl
      · next hnone => cases hnone.symm.trans h

theorem stripComments_cons (h : commentRest? (c :: s) = none) :
    stripComments (c :: s) = c :: stripComments s := by
  rw [stripComments]
  split
  · next behind hbehind => cases hbehind.symm.trans h
  · rfl

theorem stripComments_nil : stripComments [] = [] := by
  rw [stripComments]

/-- What is left begins with a blank or as the text does. -/
theorem head?_stripComments (h : (stripComments s).head? = some c) (hc : c ≠ ' ') :
    s.head? = some c := by
  cases s with
  | nil =>
      rw [stripComments_nil] at h
      exact h
  | cons d s =>
      cases hcomment : commentRest? (d :: s) with
      | some behind =>
          rw [stripComments_of_comment hcomment] at h
          exact absurd (Option.some.inj h).symm hc
      | none =>
          rw [stripComments_cons hcomment] at h
          exact h

/-- Characters that meet in what is left stood side by side in the text, unless
    one of them is a blank. -/
theorem pair_infix_of_stripComments (ha : a ≠ ' ') (hb : b ≠ ' ')
    (h : [a, b] <:+: stripComments s) : [a, b] <:+: s := by
  fun_induction stripComments s with
  | case1 => exact h
  | case2 c s behind hcomment ih =>
      rcases pair_infix_cons_iff.mp h with ⟨hblank, -⟩ | h
      · exact absurd hblank.symm ha
      · obtain ⟨comment, -, hs⟩ := commentRest?_eq_some_iff.mp hcomment
        rw [hs]
        exact (ih h).trans (List.suffix_append comment behind).isInfix
  | case3 c s _ ih =>
      rcases pair_infix_cons_iff.mp h with ⟨rfl, hhead⟩ | h
      · exact pair_infix_cons_iff.mpr (.inl ⟨rfl, head?_stripComments hhead hb⟩)
      · exact pair_infix_cons_iff.mpr (.inr (ih h))

/-- **NO COMMENT IS LEFT.** -/
theorem commentFree_stripComments (s : List Char) : CommentFree (stripComments s) := by
  fun_induction stripComments s with
  | case1 => exact commentFree_nil
  | case2 c s behind _ ih => exact commentFree_cons_iff.mpr ⟨rfl, ih⟩
  | case3 c s hnone ih =>
      refine commentFree_cons_iff.mpr ⟨commentRest?_cons_eq_none_iff.mpr ⟨?_, ?_⟩, ih⟩
      · intro hmark
        obtain ⟨hline, -⟩ := commentRest?_cons_eq_none_iff.mp hnone
        rw [pair_prefix_cons_iff] at hmark hline
        exact hline ⟨hmark.1, head?_stripComments hmark.2 (by decide)⟩
      · intro v hv
        obtain ⟨rfl, hstar⟩ := List.cons.inj hv
        obtain ⟨more, rfl⟩ : ∃ more, s = '*' :: more := by
          refine List.head?_eq_some_iff.mp (head?_stripComments ?_ (by decide))
          rw [hstar]
          rfl
        -- the star opens no comment itself
        rw [stripComments_cons (show commentRest? ('*' :: more) = none from rfl)] at hstar
        obtain rfl := (List.cons.inj hstar).2
        intro hclose
        exact (commentRest?_cons_eq_none_iff.mp hnone).2 more rfl
          (pair_infix_of_stripComments (by decide) (by decide) hclose)

/-- A text stays as it is just when no comment stands in it. -/
theorem stripComments_eq_self_iff : stripComments s = s ↔ CommentFree s := by
  constructor
  · intro h
    rw [← h]
    exact commentFree_stripComments s
  · intro h
    induction s with
    | nil => exact stripComments_nil
    | cons c s ih =>
        obtain ⟨hnone, hs⟩ := commentFree_cons_iff.mp h
        rw [stripComments_cons hnone, ih hs]

/-! ## Code and comments in turn -/

/-- A stretch in which no comment begins, given what stands behind it. -/
def CodeBefore (piece behind : List Char) : Prop :=
  ∀ u v, piece = u ++ v → v ≠ [] → ∀ comment rest, Comment comment rest →
    v ++ behind ≠ comment ++ rest

/-- **A TEXT IN ITS PIECES**: code, and behind each piece but the last the first
    comment that begins in what is left of the text. -/
inductive Cut : List Char → List (List Char) → Prop where
  | last {piece : List Char} (code : CodeBefore piece []) : Cut piece [piece]
  | comment {piece comment rest : List Char} {pieces : List (List Char)}
      (code : CodeBefore piece (comment ++ rest)) (found : Comment comment rest)
      (more : Cut rest pieces) : Cut (piece ++ (comment ++ rest)) (piece :: pieces)

theorem codeBefore_nil (behind : List Char) : CodeBefore [] behind := by
  intro u v huv hv
  exact absurd (List.append_eq_nil_iff.mp huv.symm).2 hv

theorem codeBefore_cons_iff : CodeBefore (c :: piece) t ↔
    commentRest? (c :: (piece ++ t)) = none ∧ CodeBefore piece t := by
  have hnone : commentRest? (c :: (piece ++ t)) = none ↔ ∀ comment rest, Comment comment rest →
      c :: (piece ++ t) ≠ comment ++ rest := by
    rw [Option.eq_none_iff_forall_ne_some]
    simp only [ne_eq, commentRest?_eq_some_iff, not_exists, not_and]
    exact ⟨fun h comment rest => h rest comment, fun h rest comment => h comment rest⟩
  rw [hnone]
  constructor
  · intro h
    exact ⟨h [] (c :: piece) rfl (List.cons_ne_nil c piece),
      fun u v huv hv => h (c :: u) v (congrArg (c :: ·) huv) hv⟩
  · rintro ⟨hhead, hmore⟩ u v huv hv
    cases u with
    | nil =>
        obtain rfl : c :: piece = v := huv
        exact hhead
    | cons d u => exact hmore u v (List.cons.inj huv).2 hv

/-- Code stays as it is. -/
theorem CodeBefore.stripComments_append (h : CodeBefore piece t) :
    stripComments (piece ++ t) = piece ++ stripComments t := by
  induction piece with
  | nil => rfl
  | cons c piece ih =>
      obtain ⟨hnone, hmore⟩ := codeBefore_cons_iff.mp h
      rw [List.cons_append, stripComments_cons hnone, ih hmore]
      rfl

/-- In code, no comment stands. -/
theorem CodeBefore.commentFree (h : CodeBefore piece t) : CommentFree piece := by
  induction piece with
  | nil => exact commentFree_nil
  | cons c piece ih =>
      obtain ⟨hnone, hmore⟩ := codeBefore_cons_iff.mp h
      obtain ⟨hline, hblock⟩ := commentRest?_cons_eq_none_iff.mp hnone
      refine commentFree_cons_iff.mpr ⟨commentRest?_cons_eq_none_iff.mpr ⟨?_, ?_⟩, ih hmore⟩
      · exact fun hmark => hline (hmark.trans (List.prefix_append (c :: piece) t))
      · intro v hv hclose
        refine hblock (v ++ t) ?_ (hclose.trans (List.prefix_append v t).isInfix)
        rw [← List.cons_append, hv, List.append_assoc]

theorem Cut.ne_nil {pieces : List (List Char)} (h : Cut s pieces) : pieces ≠ [] := by
  cases h <;> exact List.cons_ne_nil _ _

theorem Cut.commentFree {pieces : List (List Char)} (h : Cut s pieces) :
    ∀ piece ∈ pieces, CommentFree piece := by
  induction h with
  | last hcode => exact List.forall_mem_singleton.mpr hcode.commentFree
  | comment hcode _ _ ih => exact List.forall_mem_cons.mpr ⟨hcode.commentFree, ih⟩

/-- **WHAT IS LEFT** are the pieces with blanks between them. -/
theorem Cut.stripComments_eq {pieces : List (List Char)} (h : Cut s pieces) :
    stripComments s = joinWith [' '] pieces := by
  induction h with
  | @last piece hcode =>
      have happ := hcode.stripComments_append
      rw [List.append_nil] at happ
      rw [happ, stripComments_nil, List.append_nil]
      rfl
  | @comment piece comment rest pieces hcode hfound hmore ih =>
      rw [hcode.stripComments_append,
        stripComments_of_comment (commentRest?_eq_some_iff.mpr ⟨comment, hfound, rfl⟩), ih,
        joinWith_cons hmore.ne_nil]

/-- Every text can be cut into its pieces. -/
theorem exists_cut (s : List Char) : ∃ pieces, Cut s pieces := by
  fun_induction stripComments s with
  | case1 => exact ⟨[[]], .last (codeBefore_nil [])⟩
  | case2 c s behind hcomment ih =>
      obtain ⟨pieces, hpieces⟩ := ih
      obtain ⟨comment, hfound, hs⟩ := commentRest?_eq_some_iff.mp hcomment
      rw [hs]
      exact ⟨[] :: pieces, .comment (codeBefore_nil _) hfound hpieces⟩
  | case3 c s hnone ih =>
      -- the character goes to the first piece
      obtain ⟨pieces, hpieces⟩ := ih
      cases hpieces with
      | last hcode =>
          rw [← List.append_nil s] at hnone
          exact ⟨[c :: s], .last (codeBefore_cons_iff.mpr ⟨hnone, hcode⟩)⟩
      | @comment piece _ _ pieces hcode hfound hmore =>
          exact ⟨(c :: piece) :: pieces, .comment (codeBefore_cons_iff.mpr ⟨hnone, hcode⟩) hfound hmore⟩

/-- **COMMENTS AND NOTHING ELSE.**  Of any text, no comment is left, and a text
    stays as it is just when it has none; so doing it again changes nothing.
    The text can be cut into pieces of code with a comment between neighbours,
    and however that is done, no comment stands in a piece, and what is left are
    the pieces with single blanks between them. -/
theorem comments_stripped (s : List Char) :
    CommentFree (stripComments s) ∧ (stripComments s = s ↔ CommentFree s) ∧
      stripComments (stripComments s) = stripComments s ∧ (∃ pieces, Cut s pieces) ∧
      ∀ pieces, Cut s pieces →
        (∀ piece ∈ pieces, CommentFree piece) ∧ stripComments s = joinWith [' '] pieces :=
  ⟨commentFree_stripComments s, stripComments_eq_self_iff,
    stripComments_eq_self_iff.mpr (commentFree_stripComments s), exists_cut s,
    fun _ h => ⟨h.commentFree, h.stripComments_eq⟩⟩

/-- A block comment whose star closes it no sooner than the next one, a line
    comment that seems to open a block comment, and a block comment that nothing
    closes. -/
def overlapping : List Char := "a/*/*/b//*\n/*c".toList

theorem comments_stripped_overlapping :
    Cut overlapping ["a".toList, "b".toList, "\n/*c".toList] ∧
      stripComments overlapping = "a b \n/*c".toList ∧ CommentFree "\n/*c".toList := by
  have hfirst : Comment "/*/*/".toList "b//*\n/*c".toList :=
    @Comment.block ['/'] _ (by decide)
  have hsecond : Comment "//*".toList "\n/*c".toList :=
    @Comment.line ['*'] _ (by decide) (.inr rfl)
  have hlast : CodeBefore "\n/*c".toList [] := by
    refine codeBefore_cons_iff.mpr ⟨rfl, codeBefore_cons_iff.mpr ⟨rfl, ?_⟩⟩
    exact codeBefore_cons_iff.mpr ⟨rfl, codeBefore_cons_iff.mpr ⟨rfl, codeBefore_nil _⟩⟩
  have hletter : ∀ c t, commentRest? (c :: t) = none → CodeBefore [c] t := fun c t h =>
    codeBefore_cons_iff.mpr ⟨h, codeBefore_nil t⟩
  have hcut : Cut overlapping ["a".toList, "b".toList, "\n/*c".toList] :=
    .comment (hletter 'a' _ rfl) hfirst (.comment (hletter 'b' _ rfl) hsecond (.last hlast))
  obtain ⟨-, -, -, -, hpieces⟩ := comments_stripped overlapping
  obtain ⟨hfree, heq⟩ := hpieces _ hcut
  exact ⟨hcut, heq, hfree _ (by simp)⟩

end GemBinder.Header
