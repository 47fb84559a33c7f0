import GemBinder.Proofs.Text.Tokens
import GemBinder.Proofs.TypeSpelling

/-! # Blanks in spellings

    The tight layout of a spelling does not depend on the blanks around it,
    nor on those before a pointer or reference mark.  Each of the passes that
    make it is followed along a text that is cut behind a character that is no
    blank: what stands behind the cut does not change what was written before
    it (`tightenFrom_append`, `squeeze_append`). -/

namespace GemBinder

open Text

/-! ## Blanks at the ends -/

namespace Text

/-- A change of texts that leaves blanks at the ends there, or drops some. -/
structure KeepsEnds (f : List Char → List Char) : Prop where
  before : ∀ c s, isBlank c = true →
    ∃ b, (∀ d ∈ b, isBlank d = true) ∧ f (c :: s) = b ++ f s
  after : ∀ s t, (∀ c ∈ t, isBlank c = true) →
    ∃ b, (∀ d ∈ b, isBlank d = true) ∧ f (s ++ t) = f s ++ b

variable {β : Type} {f g : List Char → List Char}

theorem KeepsEnds.before_append (hf : KeepsEnds f) {t : List Char} (ht : ∀ c ∈ t, isBlank c = true)
    (s : List Char) : ∃ b, (∀ d ∈ b, isBlank d = true) ∧ f (t ++ s) = b ++ f s := by
  induction t with
  | nil => exact ⟨[], List.forall_mem_nil _, rfl⟩
  | cons c t ih =>
      obtain ⟨hc, hmore⟩ := List.forall_mem_cons.mp ht
      obtain ⟨first, hfirst, heq⟩ := hf.before c (t ++ s) hc
      obtain ⟨b, hb, hrest⟩ := ih hmore
      refine ⟨first ++ b, List.forall_mem_append.mpr ⟨hfirst, hb⟩, ?_⟩
      rw [List.cons_append, heq, hrest, List.append_assoc]

/-- Two such changes in turn are one. -/
theorem KeepsEnds.comp (hf : KeepsEnds f) (hg : KeepsEnds g) : KeepsEnds fun s => f (g s) where
  before := by
    intro c s hc
    obtain ⟨b, hb, heq⟩ := hg.before c s hc
    obtain ⟨b', hb', heq'⟩ := hf.before_append hb (g s)
    exact ⟨b', hb', by rw [heq, heq']⟩
  after := by
    intro s t ht
    obtain ⟨b, hb, heq⟩ := hg.after s t ht
    obtain ⟨b', hb', heq'⟩ := hf.after (g s) b hb
    exact ⟨b', hb', by rw [heq, heq']⟩

/-- Blanks at the ends do not matter to what is trimmed in the end. -/
theorem KeepsEnds.blankFree_trim (hf : KeepsEnds f) : BlankFree fun s => trim (f s) where
  before := by
    intro c s hc
    obtain ⟨b, hb, heq⟩ := hf.before c s hc
    show trim (f (c :: s)) = trim (f s)
    rw [heq, trim_blank_append hb]
  after := by
    intro s t ht
    obtain ⟨b, hb, heq⟩ := hf.after s t ht
    show trim (f (s ++ t)) = trim (f s)
    rw [heq, trim_append_blank hb]

theorem blankFree_trim : BlankFree trim where
  before := fun c s hc => trim_blank_append (t := [c]) (List.forall_mem_singleton.mpr hc) s
  after := fun s _ ht => trim_append_blank ht s

theorem BlankFree.append_left {f : List Char → β} (hf : BlankFree f) {t : List Char}
    (ht : ∀ c ∈ t, isBlank c = true) (s : List Char) : f (t ++ s) = f s := by
  induction t with
  | nil => rfl
  | cons c t ih =>
      obtain ⟨hc, hmore⟩ := List.forall_mem_cons.mp ht
      rw [List.cons_append, hf.before c _ hc, ih hmore]

theorem BlankFree.trim {f : List Char → β} (hf : BlankFree f) (s : List Char) :
    f (trim s) = f s := by
  obtain ⟨before, after, hbefore, hafter, heq⟩ := exists_append_trim_append s
  calc f (Text.trim s) = f (Text.trim s ++ after) := (hf.after _ _ hafter).symm
    _ = f (before ++ (Text.trim s ++ after)) := (hf.append_left hbefore _).symm
    _ = f s := by rw [← heq]

end Text

namespace TypeSpelling

variable {mark c : Char} {s t : List Char}

/-! ## Blanks around a mark -/

/-- **BEHIND A CHARACTER THAT IS NO BLANK** a text goes on for itself: all
    that counts is whether the character is the mark. -/
theorem tightenFrom_append (hlast : s.getLast? = some c) (hc : isBlank c = false) (t : List Char)
    (behind : Bool) :
    tightenFrom mark behind (s ++ t)
      = tightenFrom mark behind s ++ tightenFrom mark (c == mark) t := by
  induction s generalizing behind with
  | nil => exact nomatch hlast
  | cons d s ih =>
      cases s with
      | nil =>
          obtain rfl := Option.some.inj hlast
          have hd : ¬ isBlank d = true := Bool.eq_false_iff.mp hc
          rw [List.singleton_append, tightenFrom, if_neg hd, tightenFrom, if_neg hd]
          rfl
      | cons e s =>
          rw [List.getLast?_cons_cons] at hlast
          -- the next character that is no blank stands before the cut
          have hnext : ((e :: s ++ t).dropWhile isBlank).head?
              = ((e :: s).dropWhile isBlank).head? := by
            obtain ⟨d, rest, heq⟩ := List.exists_cons_of_ne_nil (dropWhile_ne_nil hlast hc)
            rw [List.dropWhile_append, if_neg (by rw [heq]; exact Bool.false_ne_true), heq]
            rfl
          rw [List.cons_append, tightenFrom, tightenFrom, hnext]
          split
          · split
            · exact ih hlast behind
            · rw [ih hlast false]
              rfl
          · rw [ih hlast (d == mark)]
            rfl

/-- Blanks before a mark are dropped. -/
theorem tightenFrom_blank_mark (hmark : isBlank mark = false) (hs : ∀ d ∈ s, isBlank d = true)
    (t : List Char) (behind : Bool) :
    tightenFrom mark behind (s ++ mark :: t) = mark :: tightenFrom mark true t := by
  induction s generalizing behind with
  | nil =>
      rw [List.nil_append, tightenFrom, if_neg (Bool.eq_false_iff.mp hmark), beq_self_eq_true]
  | cons d s ih =>
      obtain ⟨hd, hmore⟩ := List.forall_mem_cons.mp hs
      have hnext : ((s ++ mark :: t).dropWhile isBlank).head? = some mark := by
        rw [List.dropWhile_append_of_pos hmore,
          List.dropWhile_cons_of_neg (Bool.eq_false_iff.mp hmark), List.head?_cons]
      rw [List.cons_append, tightenFrom, if_pos hd, hnext, beq_self_eq_true, Bool.or_true,
        if_pos rfl, ih hmore]

/-- Blanks before another character stay, or are dropped behind a mark. -/
theorem tightenFrom_blank_solid (hc : isBlank c = false) (hne : c ≠ mark)
    (hs : ∀ d ∈ s, isBlank d = true) (behind : Bool) :
    ∃ b, (∀ d ∈ b, isBlank d = true) ∧ ∀ t,
      tightenFrom mark behind (s ++ c :: t) = b ++ c :: tightenFrom mark false t := by
  induction s generalizing behind with
  | nil =>
      refine ⟨[], List.forall_mem_nil _, fun t => ?_⟩
      rw [List.nil_append, tightenFrom, if_neg (Bool.eq_false_iff.mp hc), beq_false_of_ne hne]
      rfl
  | cons d s ih =>
      obtain ⟨hd, hmore⟩ := List.forall_mem_cons.mp hs
      have hnext : ∀ t : List Char, ((s ++ c :: t).dropWhile isBlank).head? = some c := by
        intro t
        rw [List.dropWhile_append_of_pos hmore,
          List.dropWhile_cons_of_neg (Bool.eq_false_iff.mp hc), List.head?_cons]
      have hother : (some c == some mark) = false :=
        beq_false_of_ne fun h => hne (Option.some.inj h)
      cases behind with
      | true =>
          obtain ⟨b, hb, heq⟩ := ih hmore true
          refine ⟨b, hb, fun t => ?_⟩
          rw [List.cons_append, tightenFrom, if_pos hd, Bool.true_or, if_pos rfl, heq]
      | false =>
          obtain ⟨b, hb, heq⟩ := ih hmore false
          refine ⟨d :: b, List.forall_mem_cons.mpr ⟨hd, hb⟩, fun t => ?_⟩
          rw [List.cons_append, tightenFrom, if_pos hd, hnext, hother, Bool.false_or,
            if_neg Bool.false_ne_true, heq]
          rfl

theorem getLast?_tightenFrom (hlast : s.getLast? = some c) (hc : isBlank c = false)
    (behind : Bool) : (tightenFrom mark behind s).getLast? = some c := by
  induction s generalizing behind with
  | nil => exact nomatch hlast
  | cons d s ih =>
      cases s with
      | nil =>
          obtain rfl : d = c := Option.some.inj hlast
          rw [tightenFrom, if_neg (Bool.eq_false_iff.mp hc)]
          rfl
      | cons e s =>
          rw [List.getLast?_cons_cons] at hlast
          rw [tightenFrom]
          split
          · split
            · exact ih hlast behind
            · rw [List.getLast?_cons, ih hlast false, Option.getD_some]
          · rw [List.getLast?_cons, ih hlast (d == mark), Option.getD_some]

theorem getLast?_tighten (mark : Char) (hlast : s.getLast? = some c) (hc : isBlank c = false) :
    (tighten mark s).getLast? = some c := getLast?_tightenFrom hlast hc false

theorem tighten_append_singleton {d : Char} (hlast : s.getLast? = some c)
    (hc : isBlank c = false) (hd : isBlank d = false) :
    tighten mark (s ++ [d]) = tighten mark s ++ [d] := by
  rw [tighten, tightenFrom_append hlast hc, tightenFrom, if_neg (Bool.eq_false_iff.mp hd)]
  rfl

/-- Without the mark nothing is dropped. -/
theorem tighten_of_notMem (h : mark ∉ s) : tighten mark s = s := by
  rw [tighten]
  induction s with
  | nil => rfl
  | cons d s ih =>
      obtain ⟨hd, hs⟩ := List.ne_and_not_mem_of_not_mem_cons h
      have hnext : ((s.dropWhile isBlank).head? == some mark) = false := by
        refine beq_false_of_ne fun hhead => hs ?_
        exact (List.dropWhile_sublist _).subset (List.mem_of_mem_head? hhead)
      rw [tightenFrom, hnext, beq_false_of_ne (Ne.symm hd), Bool.false_or,
        if_neg Bool.false_ne_true, ih hs]
      exact ite_self _

theorem isBlank_of_mem_tightenFrom (hs : ∀ d ∈ s, isBlank d = true) (behind : Bool) :
    ∀ d ∈ tightenFrom mark behind s, isBlank d = true := by
  induction s generalizing behind with
  | nil => exact List.forall_mem_nil _
  | cons d s ih =>
      obtain ⟨hd, hmore⟩ := List.forall_mem_cons.mp hs
      rw [tightenFrom, if_pos hd]
      split
      · exact ih hmore behind
      · exact List.forall_mem_cons.mpr ⟨hd, ih hmore false⟩

theorem keepsEnds_tighten (mark : Char) : KeepsEnds (tighten mark) where
  before := by
    intro c s hc
    rw [tighten, tighten, tightenFrom, if_pos hc]
    split
    · exact ⟨[], List.forall_mem_nil _, rfl⟩
    · exact ⟨[c], List.forall_mem_singleton.mpr hc, rfl⟩
  after := by
    intro s t ht
    have hfrom : ∀ behind, ∃ b, (∀ d ∈ b, isBlank d = true) ∧
        tightenFrom mark behind (s ++ t) = tightenFrom mark behind s ++ b := by
      induction s with
      | nil => exact fun behind => ⟨_, isBlank_of_mem_tightenFrom ht behind, rfl⟩
      | cons d s ih =>
          intro behind
          -- blanks at the end hide no mark
          have hnext : ((s ++ t).dropWhile isBlank).head? = (s.dropWhile isBlank).head? := by
            rw [List.dropWhile_append]
            split
            · next hnil =>
                rw [List.isEmpty_iff.mp hnil, List.dropWhile_eq_nil_iff.mpr ht]
            · next hsome =>
                rw [List.head?_append_of_ne_nil _ fun hnil => hsome (List.isEmpty_iff.mpr hnil)]
          rw [List.cons_append, tightenFrom, tightenFrom, hnext]
          split
          · split
            · exact ih behind
            · obtain ⟨b, hb, heq⟩ := ih false
              exact ⟨b, hb, by rw [heq, List.cons_append]⟩
          · obtain ⟨b, hb, heq⟩ := ih (d == mark)
            exact ⟨b, hb, by rw [heq, List.cons_append]⟩
    exact hfrom false

/-! ## Runs of spaces -/

theorem squeeze_singleton (c : Char) : squeeze [c] = [c] := by
  simp [squeeze]

theorem head?_squeeze (s : List Char) : (squeeze s).head? = s.head? := by
  induction s with
  | nil => rfl
  | cons c s ih =>
      rw [squeeze]
      split
      · next hdrop =>
          rw [Bool.and_eq_true, beq_iff_eq, beq_iff_eq] at hdrop
          rw [ih, hdrop.1, hdrop.2, List.head?_cons]
      · rfl

/-- A run of spaces ends where another character stands. -/
theorem squeeze_append (hc : c ≠ ' ') (s t : List Char) :
    squeeze (s ++ c :: t) = squeeze s ++ squeeze (c :: t) := by
  induction s with
  | nil => rfl
  | cons d s ih =>
      cases s with
      | nil =>
          have hend : (d == ' ' && (c :: t).head? == some ' ') = false := by
            rw [List.head?_cons, beq_false_of_ne fun h => hc (Option.some.inj h), Bool.and_false]
          rw [List.singleton_append, squeeze, hend, if_neg Bool.false_ne_true, squeeze_singleton]
          rfl
      | cons e s =>
          rw [List.cons_append, squeeze, squeeze, List.cons_append, List.head?_cons,
            List.head?_cons, ← List.cons_append, ih]
          split
          · rfl
          · rfl

theorem getLast?_squeeze (s : List Char) : (squeeze s).getLast? = s.getLast? := by
  induction s with
  | nil => rfl
  | cons c s ih =>
      rw [squeeze]
      split
      · next hdrop =>
          rw [Bool.and_eq_true, beq_iff_eq] at hdrop
          obtain ⟨rest, rfl⟩ := List.head?_eq_some_iff.mp (beq_iff_eq.mp hdrop.2)
          rw [ih, List.getLast?_cons_cons]
      · rw [List.getLast?_cons, List.getLast?_cons, ih]

theorem keepsEnds_squeeze : KeepsEnds squeeze where
  before := by
    intro c s hc
    rw [squeeze]
    split
    · exact ⟨[], List.forall_mem_nil _, rfl⟩
    · exact ⟨[c], List.forall_mem_singleton.mpr hc, rfl⟩
  after := by
    intro s t ht
    have hblank : ∀ d ∈ squeeze t, isBlank d = true := fun d hd => ht d (mem_of_mem_squeeze hd)
    induction s with
    | nil => exact ⟨_, hblank, rfl⟩
    | cons c s ih =>
        cases s with
        | cons e s =>
            obtain ⟨b, hb, heq⟩ := ih
            refine ⟨b, hb, ?_⟩
            rw [List.cons_append, squeeze, squeeze, List.cons_append, List.head?_cons,
              List.head?_cons, ← List.cons_append, heq]
            split
            · rfl
            · rfl
        | nil =>
            rw [List.singleton_append, squeeze]
            split
            · next hdrop =>
                -- of a run of spaces across the cut the last space is kept
                rw [Bool.and_eq_true, beq_iff_eq, beq_iff_eq, ← head?_squeeze] at hdrop
                obtain ⟨rest, hrest⟩ := List.head?_eq_some_iff.mp hdrop.2
                rw [hrest] at hblank ⊢
                exact ⟨rest, (List.forall_mem_cons.mp hblank).2, by rw [hdrop.1]; rfl⟩
            · exact ⟨_, hblank, by rw [squeeze_singleton]; rfl⟩

/-! ## The tight layout -/

theorem blankFree_collapse : BlankFree collapse :=
  (keepsEnds_squeeze.comp ((keepsEnds_tighten '&').comp (keepsEnds_tighten '*'))).blankFree_trim

/-- Blanks around a spelling do not matter to its normal form. -/
theorem normalize_trim (s : List Char) : normalize (trim s) = normalize s := by
  rw [normalize, normalize, blankFree_collapse.trim]

/-- A spelling that ends in no blank keeps its last character. -/
theorem collapse_ends (hlast : s.getLast? = some c) (hc : isBlank c = false) :
    (collapse s).getLast? = some c := by
  refine getLast?_trim ?_ hc
  rw [getLast?_squeeze]
  exact getLast?_tighten '&' (getLast?_tighten '*' hlast hc) hc

/-- What is no blank is written behind the tight layout. -/
theorem collapse_append_singleton {d : Char} (hlast : s.getLast? = some c)
    (hc : isBlank c = false) (hd : isBlank d = false) :
    collapse (s ++ [d]) = collapse s ++ [d] := by
  have hspace : d ≠ ' ' := by
    rintro rfl
    exact absurd hd (by decide)
  have hstars := getLast?_tighten '*' hlast hc
  have hmarks := getLast?_tighten '&' hstars hc
  rw [collapse, tighten_append_singleton hlast hc hd, tighten_append_singleton hstars hc hd,
    squeeze_append hspace, squeeze_singleton]
  exact trim_append ((getLast?_squeeze _).trans hmarks) hc rfl hd

/-- **BLANKS BEFORE A MARK** do not matter to the tight layout. -/
theorem collapse_append_mark {b : List Char} (hmark : mark = '*' ∨ mark = '&')
    (hlast : s.getLast? = some c) (hc : isBlank c = false) (hb : ∀ d ∈ b, isBlank d = true)
    (t : List Char) : collapse (s ++ (b ++ mark :: t)) = collapse (s ++ mark :: t) := by
  have hstar : isBlank '*' = false := by decide
  have hampersand : isBlank '&' = false := by decide
  rcases hmark with rfl | rfl
  · have hsame : tighten '*' (s ++ (b ++ '*' :: t)) = tighten '*' (s ++ '*' :: t) := by
      rw [tighten, tightenFrom_append hlast hc, tightenFrom_blank_mark hstar hb, tighten,
        tightenFrom_append hlast hc]
      exact congrArg _ (tightenFrom_blank_mark hstar (List.forall_mem_nil _) t _).symm
    rw [collapse, hsame, collapse]
  · -- the first pass may leave blanks before the mark, which the second drops
    have hpasses : ∀ b : List Char, (∀ d ∈ b, isBlank d = true) →
        tighten '&' (tighten '*' (s ++ (b ++ '&' :: t)))
          = tighten '&' (tighten '*' s)
            ++ '&' :: tightenFrom '&' true (tightenFrom '*' false t) := by
      intro b hb
      obtain ⟨kept, hkept, hfirst⟩ :=
        tightenFrom_blank_solid hampersand (show '&' ≠ '*' by decide) hb (c == '*')
      rw [tighten, tighten, tightenFrom_append hlast hc, hfirst]
      rw [tightenFrom_append (getLast?_tightenFrom hlast hc false) hc]
      rw [tightenFrom_blank_mark hampersand hkept]
      rfl
    rw [collapse, hpasses b hb, collapse, ← List.nil_append ('&' :: t), hpasses []
      (List.forall_mem_nil _)]

/-! ## The qualifier and the reference mark -/

theorem dropConst_qualified {b : Char} (hb : isBlank b = true) (s : List Char) :
    dropConst (constWord ++ b :: s) = s.dropWhile isBlank := by
  have hword : constWord.isPrefixOf (constWord ++ b :: s) = true :=
    List.isPrefixOf_iff_prefix.mpr (List.prefix_append _ _)
  unfold dropConst
  rw [List.drop_left, hword]
  show (if isBlank b = true then (b :: s).dropWhile isBlank else _) = _
  rw [if_pos hb, List.dropWhile_cons_of_pos hb]

theorem dropConst_unqualified (h : ∀ b t, isBlank b = true → s ≠ constWord ++ b :: t) :
    dropConst s = s := by
  unfold dropConst
  dsimp only
  split
  · next hword =>
      rw [Bool.and_eq_true, List.isPrefixOf_iff_prefix] at hword
      obtain ⟨⟨rest, rfl⟩, hblank⟩ := hword
      rw [List.drop_left] at hblank
      cases rest with
      | nil => exact nomatch hblank
      | cons b t => exact absurd rfl (h b t hblank)
  · rfl

/-- A qualified type ends as it does without the qualifier. -/
theorem getLast?_qualified {b : Char} (hb : isBlank b = true)
    (hlast : (constWord ++ b :: t).getLast? = some c) (hc : isBlank c = false) :
    t.getLast? = some c := by
  rw [List.getLast?_append, List.getLast?_cons, Option.some_or] at hlast
  cases ht : t.getLast? with
  | some d =>
      rw [ht] at hlast
      exact hlast
  | none =>
      rw [ht] at hlast
      obtain rfl : b = c := Option.some.inj hlast
      exact absurd hb (Bool.eq_false_iff.mp hc)

/-- What stands at the end does not depend on a qualifier at the front. -/
theorem dropConst_append_singleton {d : Char} (hlast : s.getLast? = some c)
    (hc : isBlank c = false) (hd : isBlank d = false) :
    dropConst (s ++ [d]) = dropConst s ++ [d] := by
  by_cases hqualified : ∃ b t, isBlank b = true ∧ s = constWord ++ b :: t
  · obtain ⟨b, t, hb, rfl⟩ := hqualified
    have hkept : ¬ (t.dropWhile isBlank).isEmpty = true := fun hnil =>
      dropWhile_ne_nil (getLast?_qualified hb hlast hc) hc (List.isEmpty_iff.mp hnil)
    rw [List.append_assoc, List.cons_append, dropConst_qualified hb, dropConst_qualified hb,
      List.dropWhile_append, if_neg hkept]
  · have hs : ∀ b t, isBlank b = true → s ≠ constWord ++ b :: t :=
      fun b t hb heq => hqualified ⟨b, t, hb, heq⟩
    have happ : ∀ b t, isBlank b = true → s ++ [d] ≠ constWord ++ b :: t := by
      intro b t hb heq
      rcases List.eq_nil_or_concat t with rfl | ⟨t, e, rfl⟩
      · have hends := List.append_inj_right' heq rfl
        obtain rfl : d = b := (List.cons.inj hends).1
        exact absurd hb (Bool.eq_false_iff.mp hd)
      · rw [List.concat_eq_append, ← List.cons_append, ← List.append_assoc] at heq
        exact hs b t hb (List.append_inj_left' heq rfl)
    rw [dropConst_unqualified hs, dropConst_unqualified happ]

theorem dropConst_ends (hlast : s.getLast? = some c) (hc : isBlank c = false) :
    (dropConst s).getLast? = some c := by
  by_cases hqualified : ∃ b t, isBlank b = true ∧ s = constWord ++ b :: t
  · obtain ⟨b, t, hb, rfl⟩ := hqualified
    rw [dropConst_qualified hb]
    exact getLast?_dropWhile (getLast?_qualified hb hlast hc) hc
  · rw [dropConst_unqualified fun b t hb heq => hqualified ⟨b, t, hb, heq⟩]
    exact hlast

/-- The last character of a spelling stays the last, if it is no reference
    mark. -/
theorem normalize_ends (hlast : s.getLast? = some c) (hc : isBlank c = false) (hne : c ≠ '&') :
    (normalize s).getLast? = some c := by
  have hkept := dropConst_ends (collapse_ends hlast hc) hc
  have hend : endsIn '&' (dropConst (collapse s)) = false := by
    rw [endsIn, hkept]
    exact beq_false_of_ne fun h => hne (Option.some.inj h)
  rw [normalize, hend, if_neg Bool.false_ne_true]
  exact getLast?_trim hkept hc

/-- A reference has the normal form of what it refers to. -/
theorem normalize_append_reference (hlast : s.getLast? = some c) (hc : isBlank c = false)
    (hne : c ≠ '&') : normalize (s ++ ['&']) = normalize s := by
  have hampersand : isBlank '&' = false := by decide
  have hcollapse := collapse_ends hlast hc
  have hkept := dropConst_ends hcollapse hc
  have hend : endsIn '&' (dropConst (collapse s)) = false := by
    rw [endsIn, hkept]
    exact beq_false_of_ne fun h => hne (Option.some.inj h)
  have hmark : endsIn '&' (dropConst (collapse s) ++ ['&']) = true := by
    rw [endsIn, List.getLast?_concat]
    rfl
  rw [normalize, normalize, collapse_append_singleton hlast hc hampersand,
    dropConst_append_singleton hcollapse hc hampersand, hend, hmark, if_pos rfl,
    if_neg Bool.false_ne_true, List.dropLast_concat]

/-- One reference mark more is one more in the normal form, if there was one
    before. -/
theorem count_normalize_append_reference (hlast : s.getLast? = some '&') :
    (normalize (s ++ ['&'])).count '&' = (normalize s).count '&' + 1 := by
  have hampersand : isBlank '&' = false := by decide
  have htrim : ∀ u : List Char, (trim u).count '&' = u.count '&' := by
    intro u
    obtain ⟨before, after, hbefore, hafter, heq⟩ := exists_append_trim_append u
    rw [heq, List.count_append, List.count_append,
      List.count_eq_zero.mpr (notMem_of_blank hampersand hbefore),
      List.count_eq_zero.mpr (notMem_of_blank hampersand hafter), ← heq]
    omega
  have hcollapse := collapse_ends hlast hampersand
  obtain ⟨front, hfront⟩ := List.getLast?_eq_some_iff.mp (dropConst_ends hcollapse hampersand)
  have hmark : ∀ u : List Char, endsIn '&' (u ++ ['&']) = true := by
    intro u
    rw [endsIn, List.getLast?_concat]
    rfl
  rw [normalize, normalize, collapse_append_singleton hlast hampersand hampersand,
    dropConst_append_singleton hcollapse hampersand hampersand, hfront, hmark, hmark, if_pos rfl,
    if_pos rfl, List.dropLast_concat, List.dropLast_concat, htrim, htrim, List.count_append]
  rfl

/-! ## Copies -/

theorem byValue_of_not_reference (h : endsIn '&' (trim s) = false) : byValue s = trim s := by
  rw [byValue, h, Bool.false_and]
  rfl

/-- A reference is spelled by what the type of a copy lacks: its mark, and
    blanks before it. -/
theorem exists_byValue_append (h : endsIn '&' (trim s) = true) (hr : isRvalue (trim s) = false) :
    ∃ b, (∀ d ∈ b, isBlank d = true) ∧ trim s = byValue s ++ (b ++ ['&']) := by
  obtain ⟨front, hfront⟩ := List.getLast?_eq_some_iff.mp (beq_iff_eq.mp h)
  obtain ⟨b, hb, heq⟩ := exists_trimEndWhere_append isBlank front
  refine ⟨b, hb, ?_⟩
  have hcopy : byValue s = trimEnd front := by
    rw [byValue, h, hr, Bool.not_false, Bool.and_true, if_pos rfl, hfront, List.dropLast_concat]
  rw [hcopy, ← List.append_assoc, trimEnd, ← heq, hfront]

theorem getLast?_byValue (h : (byValue s).getLast? = some c) : isBlank c = false := by
  rw [byValue] at h
  split at h
  · exact getLast?_trimEndWhere h
  · exact getLast?_trimEndWhere h

theorem byValue_isPrefix (s : List Char) : byValue s <+: trim s := by
  rw [byValue]
  split
  · exact ( trimEndWhere_prefix isBlank _).trans (List.dropLast_prefix _)
  · exact List.prefix_rfl

/-- The type of a copy has no blanks around it. -/
theorem trim_byValue (s : List Char) : trim (byValue s) = byValue s := by
  have hbegins : byValue s <+: s.dropWhile isBlank :=
    (byValue_isPrefix s).trans ( trimEndWhere_prefix isBlank _)
  cases hlast : (byValue s).getLast? with
  | none =>
      rw [List.getLast?_eq_none_iff.mp hlast]
      rfl
  | some d =>
      have hsome := List.ne_nil_of_mem (List.mem_of_getLast? hlast)
      obtain ⟨c, rest, hcopy⟩ := List.exists_cons_of_ne_nil hsome
      have hsolid : isBlank c = false := by
        obtain ⟨behind, heq⟩ := hbegins
        have hhead := List.head?_dropWhile_not isBlank s
        rw [← heq, hcopy] at hhead
        exact hhead
      rw [hcopy] at hlast ⊢
      exact trim_of_ends rfl hsolid hlast (getLast?_byValue (hcopy ▸ hlast))

/-- **THE NORMAL FORM OF A COPY** is that of the reference, if the copy is no
    reference. -/
theorem normalize_byValue (hr : isRvalue (trim s) = false)
    (h : endsIn '&' (byValue s) = false) : normalize (byValue s) = normalize s := by
  by_cases hreference : endsIn '&' (trim s) = true
  · obtain ⟨b, hb, heq⟩ := exists_byValue_append hreference hr
    rw [← normalize_trim s, heq]
    cases hcopy : (byValue s).getLast? with
    | none =>
        -- nothing but the mark
        rw [List.getLast?_eq_none_iff.mp hcopy, List.nil_append, normalize, normalize]
        rw [blankFree_collapse.append_left hb]
        rfl
    | some c =>
        have hc : c ≠ '&' := by
          rintro rfl
          rw [endsIn, hcopy] at h
          exact absurd h (by decide)
        have hblanks : normalize (byValue s ++ (b ++ ['&'])) = normalize (byValue s ++ ['&']) := by
          rw [normalize, collapse_append_mark (.inr rfl) hcopy (getLast?_byValue hcopy) hb]
          rfl
        rw [hblanks, normalize_append_reference hcopy (getLast?_byValue hcopy) hc]
  · rw [byValue_of_not_reference (Bool.eq_false_iff.mpr hreference), normalize_trim]

/-- Where the copy is a reference again, one of its marks is gone. -/
theorem count_normalize_byValue (hr : isRvalue (trim s) = false)
    (h : endsIn '&' (byValue s) = true) :
    (normalize s).count '&' = (normalize (byValue s)).count '&' + 1 := by
  have hlast : (byValue s).getLast? = some '&' := beq_iff_eq.mp h
  have hreference : endsIn '&' (trim s) = true := by
    cases hend : endsIn '&' (trim s) with
    | true => rfl
    | false => exact (byValue_of_not_reference hend ▸ hend).symm.trans h
  obtain ⟨b, hb, heq⟩ := exists_byValue_append hreference hr
  rw [← count_normalize_append_reference hlast, ← normalize_trim s, heq, normalize, normalize,
    collapse_append_mark (.inr rfl) hlast (by decide) hb]

end TypeSpelling
end GemBinder
