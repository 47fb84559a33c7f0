import Mathlib.Data.List.Infix
import Mathlib.Data.List.TakeWhile
import GemBinder.Proofs.Text.Lines

/-! # Trimming and words

    Trimming takes blanks from the ends of a text, and nothing else.  The
    words of a text do not depend on the blanks around it, so a list that is
    split at a mark has the same words in its pieces whether or not it was
    trimmed before. -/

namespace GemBinder.Text

variable {p : Char → Bool} {s : List Char} {c : Char}

/-! ## Joining and searching -/

/-- What holds of each character of a text is decided along the text, and not
    over all characters that there are. -/
instance (priority := high) decidableForallMem (s : List Char) (P : Char → Prop)
    [DecidablePred P] : Decidable (∀ c ∈ s, P c) :=
  List.decidableBAll P s

theorem contains_eq_true_iff {needle s : List Char} :
    contains needle s = true ↔ needle <:+: s := by
  induction s with
  | nil =>
      show needle.isEmpty = true ↔ _
      rw [List.isEmpty_iff, List.infix_nil]
  | cons c rest ih =>
      rw [contains, Bool.or_eq_true, List.isPrefixOf_iff_prefix, ih, List.infix_cons_iff]

theorem contains_eq_false {needle : List Char} (hc : c ∈ needle) (hs : c ∉ s) :
    contains needle s = false := by
  rw [Bool.eq_false_iff, ne_eq, contains_eq_true_iff]
  exact fun hpart => hs (hpart.subset hc)

theorem toList_joinStrings (sep : String) (pieces : List String) :
    (joinStrings sep pieces).toList = joinWith sep.toList (pieces.map String.toList) := by
  induction pieces with
  | nil => rfl
  | cons p more ih =>
      cases more with
      | nil => rfl
      | cons q others =>
          show (p ++ sep ++ joinStrings sep (q :: others)).toList = _
          rw [String.toList_append, String.toList_append, ih]
          rfl

/-! ## What trimming leaves -/

theorem mem_of_mem_trimEndWhere (h : c ∈ trimEndWhere p s) : c ∈ s := by
  have hrev := (List.dropWhile_sublist p).subset (List.mem_reverse.mp h)
  exact List.mem_reverse.mp hrev

theorem mem_of_mem_trim (h : c ∈ trim s) : c ∈ s :=
  (List.dropWhile_sublist _).subset (mem_of_mem_trimEndWhere h)

theorem mem_of_mem_trimEnd (h : c ∈ trimEnd s) : c ∈ s :=
  mem_of_mem_trimEndWhere h

theorem getLast?_trimEndWhere (h : (trimEndWhere p s).getLast? = some c) : p c = false := by
  rw [trimEndWhere, List.getLast?_reverse] at h
  have hfirst := List.head?_dropWhile_not p s.reverse
  rw [h] at hfirst
  exact hfirst

/-- What is trimmed from the end is of the trimmed kind. -/
theorem exists_trimEndWhere_append (p : Char → Bool) (s : List Char) :
    ∃ t, (∀ c ∈ t, p c = true) ∧ s = trimEndWhere p s ++ t := by
  refine ⟨(s.reverse.takeWhile p).reverse, ?_, ?_⟩
  · intro c hc
    exact List.mem_takeWhile_imp (List.mem_reverse.mp hc)
  · rw [trimEndWhere, ← List.reverse_append, List.takeWhile_append_dropWhile, List.reverse_reverse]

/-- What is not of the trimmed kind stays. -/
theorem mem_trimEndWhere_iff (hc : p c = false) :
    c ∈ trimEndWhere p s ↔ c ∈ s := by
  constructor
  · exact mem_of_mem_trimEndWhere
  · intro h
    obtain ⟨tail, htail, heq⟩ := exists_trimEndWhere_append p s
    rw [heq] at h
    rcases List.mem_append.mp h with hkept | hdropped
    · exact hkept
    · exact absurd (htail c hdropped) (Bool.eq_false_iff.mp hc)

/-- A text is what trimming leaves of it between blanks. -/
theorem exists_append_trim_append (s : List Char) :
    ∃ before after, (∀ c ∈ before, isBlank c = true) ∧ (∀ c ∈ after, isBlank c = true) ∧
      s = before ++ (trim s ++ after) := by
  obtain ⟨after, hafter, heq⟩ := exists_trimEndWhere_append isBlank (s.dropWhile isBlank)
  refine ⟨s.takeWhile isBlank, after, fun c hc => List.mem_takeWhile_imp hc, hafter, ?_⟩
  rw [trim, trimWhere, ← heq, List.takeWhile_append_dropWhile]

/-- What is no blank is not trimmed. -/
theorem mem_trim (h : c ∈ s) (hblank : isBlank c = false) : c ∈ trim s := by
  obtain ⟨before, after, hbefore, hafter, heq⟩ := exists_append_trim_append s
  have hother : ∀ t : List Char, (∀ d ∈ t, isBlank d = true) → c ∉ t := by
    intro t ht hc
    exact Bool.false_ne_true (hblank.symm.trans (ht c hc))
  rw [heq] at h
  rcases List.mem_append.mp h with hc | hc
  · exact absurd hc (hother before hbefore)
  · rcases List.mem_append.mp hc with hc | hc
    · exact hc
    · exact absurd hc (hother after hafter)

/-- A trimmed text does not begin with a blank. -/
theorem head?_trim (h : (trim s).head? = some c) : isBlank c = false := by
  obtain ⟨rest, hrest⟩ := List.head?_eq_some_iff.mp h
  obtain ⟨behind, hprefix⟩ := trimEndWhere_prefix isBlank (s.dropWhile isBlank)
  have hhead := List.head?_dropWhile_not isBlank s
  rw [← hprefix, show trimEndWhere isBlank (s.dropWhile isBlank) = c :: rest from hrest] at hhead
  exact hhead

theorem trim_blank_append {t : List Char} (ht : ∀ c ∈ t, isBlank c = true) (s : List Char) :
    trim (t ++ s) = trim s := by
  rw [trim, trim, trimWhere, trimWhere, List.dropWhile_append_of_pos ht]

theorem trim_append_blank {t : List Char} (ht : ∀ c ∈ t, isBlank c = true) (s : List Char) :
    trim (s ++ t) = trim s := by
  have hend : ∀ u : List Char, trimEndWhere isBlank (u ++ t) = trimEndWhere isBlank u := by
    intro u
    rw [trimEndWhere, trimEndWhere, List.reverse_append]
    rw [List.dropWhile_append_of_pos fun c hc => ht c (List.mem_reverse.mp hc)]
  rw [trim, trim, trimWhere, trimWhere, List.dropWhile_append]
  split
  · next hnil =>
      rw [List.isEmpty_iff.mp hnil, List.dropWhile_eq_nil_iff.mpr ht]
  · exact hend _

/-! ## Words between blanks -/

theorem words_cons_blank (h : isBlank c = true) : words (c :: s) = words s := by
  rw [words.eq_def]
  exact if_pos h

theorem words_of_blank {t : List Char} (h : ∀ c ∈ t, isBlank c = true) : words t = [] := by
  induction t with
  | nil => rfl
  | cons c t ih =>
      obtain ⟨hc, ht⟩ := List.forall_mem_cons.mp h
      rw [words_cons_blank hc, ih ht]

/-- Blanks behind a text are not in its words. -/
theorem words_append_blank {t : List Char} (h : ∀ c ∈ t, isBlank c = true) :
    words (s ++ t) = words s := by
  induction s with
  | nil => exact words_of_blank h
  | cons c s ih =>
      by_cases hc : isBlank c = true
      · rw [List.cons_append, words_cons_blank hc, words_cons_blank hc, ih]
      · rw [List.cons_append, words.eq_def, words.eq_def (c :: s)]
        dsimp only
        rw [if_neg hc, if_neg hc, ih]
        cases s with
        | cons d s => rfl
        | nil =>
            -- the last word ends where the blanks begin
            cases t with
            | nil => rfl
            | cons d t => exact if_pos (h d List.mem_cons_self)

theorem words_ne_nil (h : isBlank c = false) : words (c :: s) ≠ [] := by
  rw [words.eq_def]
  dsimp only
  rw [if_neg (Bool.eq_false_iff.mp h)]
  repeat' split
  all_goals exact List.cons_ne_nil _ _

/-- A character that is no blank is in one of the words. -/
theorem exists_mem_words (h : c ∈ s) (hblank : isBlank c = false) : ∃ w ∈ words s, c ∈ w := by
  have hsolid : ∀ {d : Char}, isBlank d = true → c ≠ d := by
    rintro d hd rfl
    exact Bool.false_ne_true (hblank.symm.trans hd)
  fun_induction words s with
  | case1 => exact nomatch h
  | case2 d rest hd ih => exact ih ((List.mem_cons.mp h).resolve_left (hsolid hd))
  | case3 d _ ih => exact ⟨[d], List.mem_cons_self, h⟩
  | case4 d _ e rest he ih =>
      rcases List.mem_cons.mp h with rfl | hrest
      · exact ⟨[c], List.mem_cons_self, List.mem_cons_self⟩
      · obtain ⟨w, hw, hc⟩ := ih hrest
        exact ⟨w, List.mem_cons_of_mem _ hw, hc⟩
  | case5 d _ e rest he hnone ih => exact absurd hnone (words_ne_nil (Bool.eq_false_iff.mpr he))
  | case6 d _ e rest he w more hfirst ih =>
      -- the character before the first word goes on with it
      rw [hfirst] at ih ⊢
      rcases List.mem_cons.mp h with rfl | hrest
      · exact ⟨c :: w, List.mem_cons_self, List.mem_cons_self⟩
      · obtain ⟨v, hv, hc⟩ := ih hrest
        rcases List.mem_cons.mp hv with rfl | hmore
        · exact ⟨d :: v, List.mem_cons_self, List.mem_cons_of_mem _ hc⟩
        · exact ⟨v, List.mem_cons_of_mem _ hmore, hc⟩

/-- **A BLANK ENDS A WORD**: the words before it and those behind it are told
    apart. -/
theorem words_append_blank_cons (h : isBlank c = true) (s t : List Char) :
    words (s ++ c :: t) = words s ++ words t := by
  induction s with
  | nil => exact words_cons_blank h
  | cons d s ih =>
      by_cases hd : isBlank d = true
      · rw [List.cons_append, words_cons_blank hd, words_cons_blank hd, ih]
      · rw [List.cons_append, words.eq_def, words.eq_def (d :: s)]
        dsimp only
        rw [if_neg hd, if_neg hd, ih]
        cases s with
        | nil => exact if_pos h
        | cons e s =>
            by_cases he : isBlank e = true
            · show (if isBlank e = true then _ else _) = (if isBlank e = true then _ else _) ++ _
              rw [if_pos he, if_pos he, List.cons_append]
            · -- the word goes on
              show (if isBlank e = true then _ else _) = (if isBlank e = true then _ else _) ++ _
              rw [if_neg he, if_neg he]
              obtain ⟨w, more, hw⟩ :=
                List.exists_cons_of_ne_nil (words_ne_nil (s := s) (Bool.eq_false_iff.mpr he))
              rw [hw]
              rfl

/-! ## Pieces between blanks -/

section Pieces

variable {β : Type} {f : List Char → β} {sep : Char}

/-- A reading of pieces to which blanks around them do not matter. -/
structure BlankFree (f : List Char → β) : Prop where
  before : ∀ c s, isBlank c = true → f (c :: s) = f s
  after : ∀ s t, (∀ c ∈ t, isBlank c = true) → f (s ++ t) = f s

theorem notMem_of_blank {t : List Char} (hsep : isBlank sep = false)
    (h : ∀ c ∈ t, isBlank c = true) : sep ∉ t :=
  fun hmem => Bool.false_ne_true (hsep.symm.trans (h sep hmem))

theorem BlankFree.map_splitAtChar_before (hf : BlankFree f) (hsep : isBlank sep = false)
    {t : List Char} (h : ∀ c ∈ t, isBlank c = true) :
    (splitAtChar sep (t ++ s)).map f = (splitAtChar sep s).map f := by
  induction t with
  | nil => rfl
  | cons c t ih =>
      obtain ⟨hc, ht⟩ := List.forall_mem_cons.mp h
      have hne : ¬ (c == sep) = true := by
        rw [beq_iff_eq]
        rintro rfl
        exact Bool.false_ne_true (hsep.symm.trans hc)
      rw [← ih ht, List.cons_append, splitAtChar, if_neg hne]
      cases hpieces : splitAtChar sep (t ++ s) with
      | nil => exact absurd hpieces (splitAtChar_ne_nil sep _)
      | cons piece more =>
          rw [List.map_cons, List.map_cons, hf.before c piece hc]

theorem BlankFree.map_splitAtChar_after (hf : BlankFree f) (hsep : isBlank sep = false)
    {t : List Char} (h : ∀ c ∈ t, isBlank c = true) :
    (splitAtChar sep (s ++ t)).map f = (splitAtChar sep s).map f := by
  obtain ⟨init, last, hlast⟩ : ∃ init last, splitAtChar sep s = init ++ [last] :=
    ⟨_, _, (List.dropLast_concat_getLast (splitAtChar_ne_nil sep s)).symm⟩
  rw [splitAtChar_append_of hlast (splitAtChar_of_notMem (notMem_of_blank hsep h)), hlast,
    List.map_append, List.map_append, List.map_singleton, List.map_singleton, hf.after last t h]

/-- **TRIMMING DOES NOT MATTER TO THE PIECES** of a text, as far as blanks
    around them do not. -/
theorem BlankFree.map_splitAtChar_trim (hf : BlankFree f) (hsep : isBlank sep = false)
    (s : List Char) : (splitAtChar sep (trim s)).map f = (splitAtChar sep s).map f := by
  obtain ⟨before, after, hbefore, hafter, heq⟩ := exists_append_trim_append s
  calc (splitAtChar sep (trim s)).map f
      = (splitAtChar sep (trim s ++ after)).map f := (hf.map_splitAtChar_after hsep hafter).symm
    _ = (splitAtChar sep (before ++ (trim s ++ after))).map f :=
        (hf.map_splitAtChar_before hsep hbefore).symm
    _ = (splitAtChar sep s).map f := by rw [← heq]

/-- **PIECES THAT WERE JOINED** by a mark and a blank are told apart again, as
    far as blanks around them do not matter. -/
theorem BlankFree.map_splitAtChar_joinWith (hf : BlankFree f) (hsep : isBlank sep = false)
    {pieces : List (List Char)} (hne : pieces ≠ []) (h : ∀ piece ∈ pieces, sep ∉ piece) :
    (splitAtChar sep (joinWith [sep, ' '] pieces)).map f = pieces.map f := by
  induction pieces with
  | nil => exact absurd rfl hne
  | cons piece more ih =>
      obtain ⟨hpiece, hmore⟩ := List.forall_mem_cons.mp h
      cases more with
      | nil =>
          show (splitAtChar sep piece).map f = [f piece]
          rw [splitAtChar_of_notMem hpiece, List.map_singleton]
      | cons next others =>
          have hjoin : joinWith [sep, ' '] (piece :: next :: others)
              = piece ++ sep :: ([' '] ++ joinWith [sep, ' '] (next :: others)) := by
            rw [joinWith, List.append_assoc]
            · rfl
            · exact List.cons_ne_nil _ _
          have hspace : ∀ c ∈ [' '], isBlank c = true := List.forall_mem_singleton.mpr isBlank_space
          rw [hjoin, splitAtChar_append, splitAtChar_of_notMem hpiece, List.map_append,
            hf.map_splitAtChar_before hsep hspace, ih (List.cons_ne_nil next others) hmore]
          rfl

end Pieces

end GemBinder.Text
