import Mathlib.Data.List.Chain
import GemBinder.Proofs.TypeLayout
import GemBinder.Proofs.TypeRules

/-! # Types that a name can follow

    A variable is declared by the normal form of its type with the name behind
    it.  So the form must hold no brackets, which stand around or behind a
    name, no reference marks, and no pointer marks but at its end.  A spelling
    has such a normal form just when it is plain: it has no brackets, only
    blanks behind a reference mark, and only marks and blanks behind a pointer
    mark.  Blanks do not matter to either, so both are told from the
    characters that are no blanks.

    The rules refuse some of the other spellings, but they look for certain
    texts only, and what is left over counts as an integer.  `Slips` says for
    which spellings no rule is made. -/

namespace GemBinder

open Text

namespace TypeSpelling

/-- The brackets of groups, parameter lists and arrays. -/
def brackets : List Char := ['(', ')', '[', ']']

/-- **A TYPE THAT A NAME CAN FOLLOW** has no brackets, no reference marks, and
    pointer marks at its end only. -/
structure IsDeclarable (n : List Char) : Prop where
  notBracket : ∀ c ∈ n, c ∉ brackets
  notReference : '&' ∉ n
  pointersLast : ∃ base k, n = base ++ List.replicate k '*' ∧ '*' ∉ base

/-- Whether a character may stand behind another one, with or without others
    between them: nothing behind a reference mark, and only marks behind a
    pointer mark. -/
def MayFollow (mark c : Char) : Prop := mark ≠ '&' ∧ (mark = '*' → c = '*' ∨ c = '&')

instance (mark c : Char) : Decidable (MayFollow mark c) :=
  inferInstanceAs (Decidable (_ ∧ _))

/-- **A PLAIN SPELLING** has no brackets, nothing but blanks behind a reference
    mark, and nothing but marks and blanks behind a pointer mark. -/
structure IsPlain (s : List Char) : Prop where
  notBracket : ∀ c ∈ s, c ∉ brackets
  marksLast : s.Pairwise fun mark c => isBlank c = true ∨ MayFollow mark c

/-! ## Texts without some of their blanks -/

/-- The characters that are no blanks. -/
def solid (s : List Char) : List Char := s.filter (!isBlank ·)

/-- The second text is the first without some of its blanks. -/
inductive Thins : List Char → List Char → Prop
  | nil : Thins [] []
  | keep {t u : List Char} (c : Char) (more : Thins t u) : Thins (c :: t) (c :: u)
  | drop {t u : List Char} {c : Char} (blank : isBlank c = true) (more : Thins t u) :
      Thins (c :: t) u

/-- No blank stands right behind a pointer mark. -/
def IsTight (s : List Char) : Prop := s.IsChain fun mark c => mark = '*' → isBlank c = false

variable {s t u t' u' n : List Char} {c d : Char}

theorem mem_solid : c ∈ solid s ↔ c ∈ s ∧ isBlank c = false := by
  rw [solid, List.mem_filter, Bool.not_eq_true']

theorem solid_append (s t : List Char) : solid (s ++ t) = solid s ++ solid t :=
  List.filter_append s t

theorem getLast?_solid (h : s.getLast? = some c) (hc : isBlank c = false) :
    (solid s).getLast? = some c := by
  obtain ⟨init, rfl⟩ := List.getLast?_eq_some_iff.mp h
  have hlast : solid [c] = [c] := by rw [solid, List.filter_singleton, hc]; rfl
  rw [solid_append, hlast, List.getLast?_append]
  rfl

namespace Thins

theorem refl : ∀ s : List Char, Thins s s
  | [] => nil
  | c :: s => keep c (refl s)

theorem trans {v : List Char} (h : Thins s t) (h' : Thins t v) : Thins s v := by
  induction h generalizing v with
  | nil => exact h'
  | keep c _ ih =>
      cases h' with
      | keep _ more => exact keep c (ih more)
      | drop blank more => exact drop blank (ih more)
  | drop blank _ ih => exact drop blank (ih h')

theorem append (h : Thins t u) (h' : Thins t' u') : Thins (t ++ t') (u ++ u') := by
  induction h with
  | nil => exact h'
  | keep c _ ih => exact keep c ih
  | drop blank _ ih => exact drop blank ih

theorem of_blank (h : ∀ c ∈ t, isBlank c = true) : Thins t [] := by
  induction t with
  | nil => exact nil
  | cons c t ih =>
      obtain ⟨hc, ht⟩ := List.forall_mem_cons.mp h
      exact drop hc (ih ht)

theorem solid_eq (h : Thins t u) : solid u = solid t := by
  induction h with
  | nil => rfl
  | keep c _ ih => rw [solid, solid, List.filter_cons, List.filter_cons, ← solid, ← solid, ih]
  | drop blank _ ih =>
      rw [ih, solid, solid, List.filter_cons, blank]
      rfl

/-- Where no blank stands behind a pointer mark, none gets there. -/
theorem isTight (h : Thins t u) (ht : IsTight t) : IsTight u := by
  induction h with
  | nil => exact ht
  | drop _ _ ih => exact ih ht.tail
  | keep c more ih =>
      refine List.isChain_cons.mpr ⟨?_, ih ht.tail⟩
      rintro d hd rfl
      cases more with
      | nil => exact nomatch hd
      | keep e _ =>
          rw [← Option.some.inj hd]
          exact (List.isChain_cons_cons.mp ht).1 rfl
      | drop blank _ =>
          -- a blank behind a pointer mark
          exact absurd blank (Bool.eq_false_iff.mp ((List.isChain_cons_cons.mp ht).1 rfl))

end Thins

/-! ## What the layout drops -/

theorem thins_tighten (mark : Char) (s : List Char) : Thins s (tighten mark s) := by
  have hfrom : ∀ (s : List Char) (behind : Bool), Thins s (tightenFrom mark behind s) := by
    intro s
    induction s with
    | nil => intro behind; exact .nil
    | cons c rest ih =>
        intro behind
        rw [tightenFrom]
        split
        · rename_i hblank
          split
          · exact .drop hblank (ih behind)
          · exact .keep c (ih false)
        · exact .keep c (ih (c == mark))
  exact hfrom s false

theorem thins_squeeze (s : List Char) : Thins s (squeeze s) := by
  induction s with
  | nil => exact .nil
  | cons c rest ih =>
      rw [squeeze]
      split
      · rename_i hdrop
        rw [Bool.and_eq_true, beq_iff_eq] at hdrop
        rw [hdrop.1]
        exact .drop isBlank_space ih
      · exact .keep c ih

theorem thins_trim (s : List Char) : Thins s (trim s) := by
  obtain ⟨before, after, hbefore, hafter, heq⟩ := exists_append_trim_append s
  have hkept : Thins (before ++ (trim s ++ after)) ([] ++ (trim s ++ [])) :=
    (Thins.of_blank hbefore).append ((Thins.refl _).append (Thins.of_blank hafter))
  rwa [← heq, List.nil_append, List.append_nil] at hkept

/-- Behind a pointer mark no blank is left. -/
theorem isTight_tighten (s : List Char) : IsTight (tighten '*' s) := by
  have hfrom : ∀ (s : List Char) (behind : Bool),
      (behind = true → ∀ c ∈ (tightenFrom '*' behind s).head?, isBlank c = false) ∧
        IsTight (tightenFrom '*' behind s) := by
    intro s
    induction s with
    | nil => intro behind; exact ⟨fun _ => nofun, List.isChain_nil⟩
    | cons c rest ih =>
        intro behind
        rw [tightenFrom]
        split
        · rename_i hblank
          split
          · exact ih behind
          · rename_i hkeep
            rw [Bool.or_eq_true, not_or] at hkeep
            refine ⟨fun hbehind => absurd hbehind hkeep.1, List.isChain_cons.mpr ⟨?_, (ih false).2⟩⟩
            rintro d - rfl
            exact absurd hblank (by decide)
        · rename_i hsolid
          refine ⟨?_, List.isChain_cons.mpr ⟨?_, (ih (c == '*')).2⟩⟩
          · rintro - d hd
            rw [← Option.some.inj hd]
            exact Bool.eq_false_iff.mpr hsolid
          · rintro d hd rfl
            exact (ih true).1 rfl d hd
  exact (hfrom s false).2

/-- The tight layout drops blanks and nothing else. -/
theorem thins_collapse (s : List Char) : Thins (tighten '*' s) (collapse s) :=
  ((thins_tighten '&' _).trans (thins_squeeze _)).trans (thins_trim _)

theorem isTight_collapse (s : List Char) : IsTight (collapse s) :=
  (thins_collapse s).isTight (isTight_tighten s)

theorem solid_collapse (s : List Char) : solid (collapse s) = solid s :=
  (thins_collapse s).solid_eq.trans (thins_tighten '*' s).solid_eq

/-- What stands before the type is a qualifier and blanks. -/
theorem exists_append_dropConst (s : List Char) :
    ∃ front, (∀ c ∈ solid front, c ∈ constWord) ∧ s = front ++ dropConst s := by
  unfold dropConst
  dsimp only
  split
  · rename_i hword
    rw [Bool.and_eq_true, List.isPrefixOf_iff_prefix] at hword
    obtain ⟨rest, rfl⟩ := hword.1
    rw [List.drop_left]
    refine ⟨constWord ++ rest.takeWhile isBlank, ?_, ?_⟩
    · intro c hc
      obtain ⟨hmem, hsolid⟩ := mem_solid.mp hc
      rcases List.mem_append.mp hmem with hconst | hblank
      · exact hconst
      · exact absurd (List.mem_takeWhile_imp hblank) (Bool.eq_false_iff.mp hsolid)
    · rw [List.append_assoc, List.takeWhile_append_dropWhile]
  · exact ⟨[], nofun, rfl⟩

/-- A spelling in its tight layout ends in no blank. -/
theorem getLast?_collapse (h : (collapse s).getLast? = some c) : isBlank c = false :=
  getLast?_trimEndWhere h

/-- **WHAT THE NORMAL FORM LACKS**, blanks aside: a qualifier at the front, and
    the last reference mark. -/
theorem exists_solid_normalize (s : List Char) :
    ∃ front back, (∀ c ∈ front, c ∈ constWord) ∧
      solid s = front ++ (solid (normalize s) ++ back) ∧
      (back = ['&'] ∨ back = [] ∧ (solid (normalize s)).getLast? ≠ some '&') := by
  obtain ⟨front, hfront, hcollapse⟩ := exists_append_dropConst (collapse s)
  generalize hbody : dropConst (collapse s) = body at hcollapse
  have hsolid : solid s = solid front ++ solid body := by
    rw [← solid_collapse, hcollapse, solid_append]
  have hnormal : solid (normalize s) = solid (if endsIn '&' body then body.dropLast else body) := by
    rw [normalize, hbody]
    exact (thins_trim _).solid_eq
  by_cases hend : endsIn '&' body = true
  · rw [if_pos hend] at hnormal
    obtain ⟨init, hinit⟩ := List.getLast?_eq_some_iff.mp (beq_iff_eq.mp hend)
    refine ⟨solid front, ['&'], hfront, ?_, .inl rfl⟩
    rw [hsolid, hnormal, hinit, List.dropLast_concat, solid_append]
    rfl
  · rw [if_neg hend] at hnormal
    refine ⟨solid front, [], hfront, by rw [hsolid, hnormal, List.append_nil], .inr ⟨rfl, ?_⟩⟩
    rw [hnormal]
    intro hlast
    cases hbodyLast : body.getLast? with
    | none =>
        rw [List.getLast?_eq_none_iff.mp hbodyLast] at hlast
        cases hlast
    | some c =>
        have hc : isBlank c = false := by
          refine @getLast?_collapse s c ?_
          rw [hcollapse, List.getLast?_append, hbodyLast]
          rfl
        have heq : c = '&' := Option.some.inj ((getLast?_solid hbodyLast hc).symm.trans hlast)
        exact hend (beq_iff_eq.mpr (heq ▸ hbodyLast))

theorem isTight_normalize (s : List Char) : IsTight (normalize s) := by
  obtain ⟨front, -, hcollapse⟩ := exists_append_dropConst (collapse s)
  have hbody : IsTight (dropConst (collapse s)) :=
    (hcollapse ▸ isTight_collapse s : IsTight (front ++ _)).right_of_append
  rw [normalize]
  refine (thins_trim _).isTight ?_
  split
  · exact hbody.dropLast
  · exact hbody

/-! ## Plain spellings and their normal forms -/

theorem isBlank_of_mem_brackets (h : c ∈ brackets) : isBlank c = false := by
  have hall : (brackets.all (!isBlank ·)) = true := by decide
  exact (Bool.not_eq_true' _).mp (List.all_eq_true.mp hall c h)

theorem notBracket_solid : (∀ c ∈ solid s, c ∉ brackets) ↔ ∀ c ∈ s, c ∉ brackets := by
  constructor
  · intro h c hc hbracket
    exact h c (mem_solid.mpr ⟨hc, isBlank_of_mem_brackets hbracket⟩) hbracket
  · intro h c hc
    exact h c (mem_solid.mp hc).1

/-- Whether a spelling is plain is told from the characters that are no
    blanks. -/
theorem isPlain_iff_solid :
    IsPlain s ↔ (∀ c ∈ solid s, c ∉ brackets) ∧ (solid s).Pairwise MayFollow := by
  have hmarks : (s.Pairwise fun mark c => isBlank c = true ∨ MayFollow mark c) ↔
      (solid s).Pairwise MayFollow := by
    rw [solid, List.pairwise_filter]
    refine List.Pairwise.iff fun mark c => ?_
    rw [Bool.not_eq_true', Bool.not_eq_true']
    constructor
    · rintro (hblank | hfollow) - hsolid
      · exact absurd hblank (Bool.eq_false_iff.mp hsolid)
      · exact hfollow
    · intro h
      by_cases hblank : isBlank c = true
      · exact .inl hblank
      · refine .inr ⟨?_, ?_⟩
        · rintro rfl
          exact (h (by decide) (Bool.eq_false_iff.mpr hblank)).1 rfl
        · rintro rfl
          exact (h (by decide) (Bool.eq_false_iff.mpr hblank)).2 rfl
  rw [notBracket_solid, ← hmarks]
  exact ⟨fun h => ⟨h.notBracket, h.marksLast⟩, fun h => ⟨h.1, h.2⟩⟩

/-- Marks stand at the end just when only marks stand behind them. -/
theorem exists_append_replicate_iff {mark : Char} :
    (∃ base k, n = base ++ List.replicate k mark ∧ mark ∉ base) ↔
      n.Pairwise fun a b => a = mark → b = mark := by
  constructor
  · rintro ⟨base, k, rfl, hbase⟩
    induction base with
    | nil => exact List.pairwise_replicate.mpr (.inr fun h => h)
    | cons c base ih =>
        obtain ⟨hc, hmore⟩ := List.ne_and_not_mem_of_not_mem_cons hbase
        exact List.pairwise_cons.mpr ⟨fun _ _ h => absurd h.symm hc, ih hmore⟩
  · intro h
    induction n with
    | nil => exact ⟨[], 0, rfl, List.not_mem_nil⟩
    | cons c rest ih =>
        obtain ⟨hbehind, hrest⟩ := List.pairwise_cons.mp h
        by_cases hc : c = mark
        · have hmarks : rest = List.replicate rest.length mark :=
            List.eq_replicate_iff.mpr ⟨rfl, fun b hb => hbehind b hb hc⟩
          refine ⟨[], rest.length + 1, ?_, List.not_mem_nil⟩
          rw [List.nil_append, List.replicate_succ, ← hmarks, hc]
        · obtain ⟨base, k, hbase, hnot⟩ := ih hrest
          exact ⟨c :: base, k, by rw [hbase, List.cons_append], List.not_mem_cons_of_ne_of_not_mem
            (Ne.symm hc) hnot⟩

/-- Behind a pointer mark, no blank is the first to break a run of marks. -/
theorem eq_of_isTight (hn : IsTight ('*' :: n)) (h : ∀ c ∈ solid n, c = '*') : ∀ c ∈ n, c = '*' := by
  induction n with
  | nil => exact nofun
  | cons d rest ih =>
      obtain ⟨hd, hrest⟩ := List.isChain_cons_cons.mp hn
      have hmark : d = '*' := h d (mem_solid.mpr ⟨List.mem_cons_self, hd rfl⟩)
      subst hmark
      refine List.forall_mem_cons.mpr ⟨rfl, ih hrest fun c hc => h c ?_⟩
      obtain ⟨hmem, hsolid⟩ := mem_solid.mp hc
      exact mem_solid.mpr ⟨List.mem_cons_of_mem _ hmem, hsolid⟩

theorem pairwise_iff_solid (hn : IsTight n) :
    (n.Pairwise fun a b => a = '*' → b = '*') ↔
      (solid n).Pairwise fun a b => a = '*' → b = '*' := by
  constructor
  · exact List.Pairwise.filter _
  · intro h
    induction n with
    | nil => exact .nil
    | cons c rest ih =>
        have hrest : (solid rest).Pairwise fun a b => a = '*' → b = '*' :=
          h.sublist ((List.sublist_cons_self c rest).filter _)
        refine List.pairwise_cons.mpr ⟨?_, ih hn.tail hrest⟩
        rintro b hb rfl
        exact eq_of_isTight hn (fun d hd => (List.pairwise_cons.mp h).1 d hd rfl) b hb

theorem isDeclarable_iff_solid (hn : IsTight n) :
    IsDeclarable n ↔ (∀ c ∈ solid n, c ∉ brackets) ∧ '&' ∉ solid n ∧
      (solid n).Pairwise fun a b => a = '*' → b = '*' := by
  rw [notBracket_solid, ← pairwise_iff_solid hn, ← exists_append_replicate_iff]
  constructor
  · intro h
    exact ⟨h.notBracket, fun hmem => h.notReference (mem_solid.mp hmem).1, h.pointersLast⟩
  · rintro ⟨hbracket, hreference, hpointers⟩
    exact ⟨hbracket, fun hmem => hreference (mem_solid.mpr ⟨hmem, by decide⟩), hpointers⟩

/-- Before a list of marks at its end, and without another reference mark,
    what is in order behind letters has its pointer marks last. -/
theorem pairwise_mayFollow_iff {front body back : List Char}
    (hfront : ∀ c ∈ front, c ≠ '&' ∧ c ≠ '*')
    (hback : back = ['&'] ∨ back = [] ∧ body.getLast? ≠ some '&') :
    (front ++ (body ++ back)).Pairwise MayFollow ↔
      '&' ∉ body ∧ body.Pairwise fun a b => a = '*' → b = '*' := by
  have hletter : ∀ c ∈ front, ∀ d, MayFollow c d := by
    intro c hc d
    exact ⟨(hfront c hc).1, fun h => absurd h (hfront c hc).2⟩
  constructor
  · intro h
    obtain ⟨-, hbehind, -⟩ := List.pairwise_append.mp h
    obtain ⟨hbody, -, hcross⟩ := List.pairwise_append.mp hbehind
    have hreference : '&' ∉ body := by
      intro hmem
      rcases hback with rfl | ⟨rfl, hend⟩
      · exact (hcross '&' hmem '&' (List.mem_singleton_self _)).1 rfl
      · -- the mark would have to be the last character
        obtain ⟨init, after, rfl⟩ := List.append_of_mem hmem
        cases after with
        | nil => exact hend List.getLast?_concat
        | cons d after =>
            have hfollow := (List.pairwise_cons.mp (List.pairwise_append.mp hbody).2.1).1
            exact (hfollow d List.mem_cons_self).1 rfl
    refine ⟨hreference, hbody.imp_of_mem fun {c d} _ hd hfollow hstar => ?_⟩
    rcases hfollow.2 hstar with hpointer | hampersand
    · exact hpointer
    · exact absurd (hampersand ▸ hd) hreference
  · rintro ⟨hreference, hpointers⟩
    have hother : ∀ c ∈ body, c ≠ '&' := fun c hc h => hreference (h ▸ hc)
    have hlast : ∀ c ∈ back, c = '&' := by
      rcases hback with rfl | ⟨rfl, -⟩
      · exact fun c hc => List.mem_singleton.mp hc
      · exact nofun
    refine List.pairwise_append.mpr ⟨?_, List.pairwise_append.mpr ⟨?_, ?_, ?_⟩, ?_⟩
    · exact List.pairwise_of_forall_mem_list fun c hc d _ => hletter c hc d
    · exact hpointers.imp_of_mem fun {c d} hc _ hstar => ⟨hother c hc, fun h => .inl (hstar h)⟩
    · rcases hback with rfl | ⟨rfl, -⟩
      · exact List.pairwise_singleton _ _
      · exact .nil
    · exact fun c hc d hd => ⟨hother c hc, fun _ => .inr (hlast d hd)⟩
    · exact fun c hc d _ => hletter c hc d

/-- **PLAIN SPELLINGS AND DECLARABLE NORMAL FORMS**: a name can follow the
    normal form of a spelling just when the spelling is plain. -/
theorem isDeclarable_normalize (s : List Char) : IsDeclarable (normalize s) ↔ IsPlain s := by
  obtain ⟨front, back, hfront, hsolid, hback⟩ := exists_solid_normalize s
  have hletters : ∀ c ∈ constWord, c ∉ brackets ∧ c ≠ '&' ∧ c ≠ '*' := by
    simp [constWord, brackets]
  have hbracket : (∀ c ∈ solid s, c ∉ brackets) ↔ ∀ c ∈ solid (normalize s), c ∉ brackets := by
    have hends : (∀ c ∈ front, c ∉ brackets) ∧ ∀ c ∈ back, c ∉ brackets := by
      refine ⟨fun c hc => (hletters c (hfront c hc)).1, ?_⟩
      rcases hback with rfl | ⟨rfl, -⟩
      · exact List.forall_mem_singleton.mpr (by decide)
      · exact nofun
    rw [hsolid, List.forall_mem_append, List.forall_mem_append, and_iff_right hends.1,
      and_iff_left hends.2]
  rw [isDeclarable_iff_solid (isTight_normalize s), isPlain_iff_solid, hbracket, hsolid,
    pairwise_mayFollow_iff (fun c hc => (hletters c (hfront c hc)).2) hback]

theorem mem_normalize (h : c ∈ s) (hblank : isBlank c = false) (hmark : c ≠ '&')
    (hconst : c ∉ constWord) : c ∈ normalize s := by
  obtain ⟨front, back, hfront, hsolid, hback⟩ := exists_solid_normalize s
  have hmem := mem_solid.mpr ⟨h, hblank⟩
  rw [hsolid] at hmem
  rcases List.mem_append.mp hmem with hletter | hmem
  · exact absurd (hfront c hletter) hconst
  · rcases List.mem_append.mp hmem with hbody | hlast
    · exact (mem_solid.mp hbody).1
    · rcases hback with rfl | ⟨rfl, -⟩
      · exact absurd (List.mem_singleton.mp hlast) hmark
      · exact nomatch hlast

/-- A spelling that ends in another character keeps its reference marks. -/
theorem mem_normalize_of_ends (h : d ∈ s) (hblank : isBlank d = false) (hconst : d ∉ constWord)
    (hlast : s.getLast? = some c) (hc : isBlank c = false) (hne : c ≠ '&') :
    d ∈ normalize s := by
  obtain ⟨front, back, hfront, hsolid, hback⟩ := exists_solid_normalize s
  obtain rfl : back = [] := by
    rcases hback with rfl | ⟨rfl, -⟩
    · have hend := getLast?_solid hlast hc
      rw [hsolid, ← List.append_assoc, List.getLast?_concat] at hend
      exact absurd (Option.some.inj hend).symm hne
    · rfl
  have hmem := mem_solid.mpr ⟨h, hblank⟩
  rw [hsolid, List.append_nil] at hmem
  rcases List.mem_append.mp hmem with hletter | hbody
  · exact absurd (hfront d hletter) hconst
  · exact (mem_solid.mp hbody).1

/-! ## What stands before the marks at the end -/

/-- The brackets and the marks of declarators. -/
def declaratorChars : List Char := brackets ++ ['&', '*']

theorem mem_declaratorChars : c ∈ declaratorChars ↔ c ∈ brackets ∨ c = '&' ∨ c = '*' := by
  simp [declaratorChars]

/-- **THE CORE OF A SPELLING**: its characters before the marks at its end,
    blanks aside.  The marks are pointer marks, and one reference mark behind
    them. -/
def core (s : List Char) : List Char :=
  trimEndWhere (· == '*') (solid (if endsIn '&' s then s.dropLast else s))

/-- A mark is trimmed away where only marks stand behind it. -/
theorem notMem_trimEndWhere_iff {mark : Char} :
    mark ∉ trimEndWhere (· == mark) n ↔ n.Pairwise fun a b => a = mark → b = mark := by
  constructor
  · intro h
    obtain ⟨tail, htail, heq⟩ := exists_trimEndWhere_append (· == mark) n
    refine exists_append_replicate_iff.mp ⟨_, tail.length, ?_, h⟩
    rw [← List.eq_replicate_iff.mpr ⟨rfl, fun c hc => beq_iff_eq.mp (htail c hc)⟩]
    exact heq
  · intro h hmem
    obtain ⟨before, behind, hsplit⟩ := List.append_of_mem hmem
    -- the last character that is kept would be the mark
    have hend : (trimEndWhere (· == mark) n).getLast? = some mark := by
      have hpart : (trimEndWhere (· == mark) n).Pairwise fun a b => a = mark → b = mark :=
        h.sublist ( trimEndWhere_prefix _ _).sublist
      rw [hsplit] at hpart ⊢
      have hmarks := (List.pairwise_cons.mp (List.pairwise_append.mp hpart).2.1).1
      rw [List.getLast?_append]
      cases hbehind : behind.getLast? with
      | none => rw [List.getLast?_eq_none_iff.mp hbehind]; rfl
      | some c => rw [List.getLast?_cons, hbehind, hmarks c (List.mem_of_getLast? hbehind) rfl]; rfl
    exact absurd (getLast?_trimEndWhere hend) (by simp)

/-- **PLAIN SPELLINGS** are those whose core has neither brackets nor marks. -/
theorem isPlain_iff_core (hends : ∀ c, s.getLast? = some c → isBlank c = false) :
    IsPlain s ↔ ∀ c ∈ core s, c ∉ declaratorChars := by
  obtain ⟨back, hsolid, hback⟩ : ∃ back,
      solid s = solid (if endsIn '&' s then s.dropLast else s) ++ back ∧
      (back = ['&'] ∨ back = [] ∧
        (solid (if endsIn '&' s then s.dropLast else s)).getLast? ≠ some '&') := by
    by_cases hend : endsIn '&' s = true
    · obtain ⟨init, rfl⟩ := List.getLast?_eq_some_iff.mp (beq_iff_eq.mp hend)
      refine ⟨['&'], ?_, .inl rfl⟩
      rw [if_pos hend, List.dropLast_concat, solid_append]
      rfl
    · rw [if_neg hend]
      refine ⟨[], (List.append_nil _).symm, .inr ⟨rfl, fun hlast => ?_⟩⟩
      cases hs : s.getLast? with
      | none =>
          rw [List.getLast?_eq_none_iff.mp hs] at hlast
          exact nomatch hlast
      | some c =>
          obtain rfl := Option.some.inj ((getLast?_solid hs (hends c hs)).symm.trans hlast)
          exact hend (beq_iff_eq.mpr hs)
  have hlast : ∀ c ∈ back, c = '&' := by
    rcases hback with rfl | ⟨rfl, -⟩
    · exact fun c hc => List.mem_singleton.mp hc
    · exact nofun
  have horder := @pairwise_mayFollow_iff [] _ back nofun hback
  rw [List.nil_append, ← hsolid, ← notMem_trimEndWhere_iff] at horder
  rw [isPlain_iff_solid, horder]
  constructor
  · rintro ⟨hbracket, hreference, hpointer⟩ c hc hmark
    have hbody := mem_of_mem_trimEndWhere hc
    rcases mem_declaratorChars.mp hmark with hmark | rfl | rfl
    · exact hbracket c (hsolid ▸ List.mem_append_left _ hbody) hmark
    · exact hreference hbody
    · exact hpointer hc
  · intro h
    refine ⟨?_, ?_, fun hc => h _ hc (by decide)⟩
    · intro c hc hbracket
      rw [hsolid] at hc
      rcases List.mem_append.mp hc with hbody | hmark
      · have hne : (c == '*') = false := by
          refine beq_false_of_ne ?_
          rintro rfl
          exact absurd hbracket (by decide)
        have hkept : c ∈ core s := (mem_trimEndWhere_iff (p := (· == '*')) hne).mpr hbody
        exact h c hkept (mem_declaratorChars.mpr (.inl hbracket))
      · rw [hlast c hmark] at hbracket
        exact absurd hbracket (by decide)
    · intro hbody
      exact h '&' ((mem_trimEndWhere_iff (by decide)).mpr hbody) (by decide)

/-- A trimmed text does not end in a blank. -/
theorem trim_ends (s : List Char) : ∀ c, (trim s).getLast? = some c → isBlank c = false :=
  fun _ => getLast?_trimEndWhere

theorem isPlain_trim : IsPlain (trim s) ↔ IsPlain s := by
  rw [isPlain_iff_solid, isPlain_iff_solid, (thins_trim s).solid_eq]

/-! ## The element of a pointer -/

/-- A colon is in the element of a pointer, if it is in its spelling. -/
theorem colon_mem_pointerElement (h : ':' ∈ s) : ':' ∈ pointerElement s := by
  have hcollapse : ':' ∈ collapse s := by
    have hsolid : ':' ∈ solid (collapse s) := by
      rw [solid_collapse]
      exact mem_solid.mpr ⟨h, by decide⟩
    exact (mem_solid.mp hsolid).1
  have helement : ':' ∈ trim (trimEndWhere (· == '*') (collapse s)) :=
    mem_trim ((mem_trimEndWhere_iff (by decide)).mpr hcollapse) (by decide)
  obtain ⟨w, hw, hcolon⟩ := exists_mem_words helement (by decide)
  -- no qualifier has a colon in it
  have hname : isQualifier w = false := by
    rw [isQualifier, Bool.or_eq_false_iff]
    refine ⟨beq_false_of_ne ?_, beq_false_of_ne ?_⟩
    · rintro rfl
      exact absurd hcolon (by decide)
    · rintro rfl
      exact absurd hcolon (by decide)
  have hkept : w ∈ (words (trim (trimEndWhere (· == '*') (collapse s)))).filter (!isQualifier ·) :=
    List.mem_filter.mpr ⟨hw, by rw [hname]; rfl⟩
  exact (mem_trimEndWhere_iff (by decide)).mpr (mem_joinWith_of_mem hkept hcolon)

end TypeSpelling

namespace TypeRules

open TypeSpelling

variable {rules : TypeRules} {s n : List Char}

/-- Of the types with a pointer mark in them, those that end in another
    character are integers. -/
theorem plainCategory_of_star {n : List Char} {c : Char} (hstar : '*' ∈ n)
    (hlast : n.getLast? = some c) : plainCategory n = .integer ↔ c ≠ '*' := by
  rw [plainCategory, not_isOneOf (by decide) hstar, not_isOneOf (by decide) hstar,
    not_isOneOf (by decide) hstar, (not_isOneOf (by decide) hstar : isOneOf integerTypes n = false)]
  constructor
  · rintro hinteger rfl
    have hend : endsIn '*' n = true := by
      rw [endsIn, hlast]
      rfl
    have hother : ∀ string : Bool,
        (if string = true then Category.cString else .handle) ≠ .integer := by
      decide
    rw [hend] at hinteger
    exact hother _ hinteger
  · intro hne
    have hstring : isOneOf stringTypes n = false := by
      refine not_isOneOf_of_ne List.getLast? ?_
      have hstars : ∀ name ∈ stringTypes, name.toList.getLast? = some '*' := by decide
      intro name hname heq
      rw [hstars name hname, hlast] at heq
      exact hne (Option.some.inj heq).symm
    rw [hstring, endsIn_of_getLast? hlast hne]
    rfl

/-- A type that ends in another character than a pointer mark, and has a mark
    or a bracket in it, is none that a rule knows. -/
theorem plainCategory_of_mark {c d : Char} (hmark : d ∈ declaratorChars) (hmem : d ∈ n)
    (hlast : n.getLast? = some c) (hne : c ≠ '*') : plainCategory n = .integer := by
  by_cases hstar : d = '*'
  · subst hstar
    exact (plainCategory_of_star hmem hlast).mpr hne
  · have hmarks : d ∈ ['(', ')', '[', ']', '&'] := by
      rcases mem_declaratorChars.mp hmark with hbracket | rfl | hstar'
      · exact List.mem_append_left ['&'] hbracket
      · decide
      · exact absurd hstar' hstar
    have hnone : ∀ mark ∈ ['(', ')', '[', ']', '&'],
        ∀ names ∈ [["void"], ["bool"], floatTypes, stringTypes, integerTypes],
          ∀ name ∈ names, mark ∉ name.toList := by
      decide
    have hother : ∀ names ∈ [["void"], ["bool"], floatTypes, stringTypes, integerTypes],
        isOneOf names n = false :=
      fun names hnames => not_isOneOf (hnone d hmarks names hnames) hmem
    rw [plainCategory, hother ["void"] (by simp), hother ["bool"] (by simp),
      hother floatTypes (by simp), hother stringTypes (by simp), endsIn_of_getLast? hlast hne]
    exact ite_self _

/-! ## What slips past the rules -/

/-- **WHAT SLIPS PAST THE RULES**: none of the texts that a rule looks for is in
    a spelling or at its end, and in its core there is a bracket or a mark,
    which no rule looks for. -/
structure Slips (rules : TypeRules) (s : List Char) : Prop where
  noPoint : '.' ∉ s
  noArrow : ¬ ['-', '>'] <:+: s
  noOpening : ¬ ['(', '*'] <:+: s.filter (· != ' ')
  noAngles : '<' ∈ s → '>' ∉ s
  noDouble : ¬ ['&', '&'] <:+ s
  noNamed : s.getLast? = some '&' → String.ofList (referenceBase s) ∉ rules.knownStructs ∧
    ∀ p ∈ rules.objectPatterns ++ rules.structPatterns, p.occursIn (referenceBase s) = false
  noNumbers : s.getLast? = some '*' → String.ofList (pointerElement s) ∉ numericElements
  inside : ∃ c ∈ core s, c ∈ declaratorChars

theorem isMalformed_eq_false_iff : isMalformed s = false ↔ '.' ∉ s ∧ ¬ ['-', '>'] <:+: s := by
  rw [isMalformed, Bool.or_eq_false_iff, Bool.eq_false_iff, Bool.eq_false_iff, ne_eq, ne_eq,
    contains_eq_true_iff, contains_eq_true_iff, List.singleton_infix_iff]

theorem isTemplate_eq_false_iff : isTemplate s = false ↔ ('<' ∈ s → '>' ∉ s) := by
  rw [isTemplate, Bool.eq_false_iff, ne_eq, Bool.and_eq_true, List.contains_iff_mem,
    List.contains_iff_mem, not_and]

theorem referenceObstacle?_eq_none_iff :
    rules.referenceObstacle? s = none ↔
      String.ofList (referenceBase s) ∉ rules.knownStructs ∧
        ∀ p ∈ rules.objectPatterns ++ rules.structPatterns,
          p.occursIn (referenceBase s) = false := by
  have hany : ∀ patterns : List Pattern.Compiled,
      patterns.any (·.occursIn (referenceBase s)) = false ↔
        ∀ p ∈ patterns, p.occursIn (referenceBase s) = false := by
    simp
  rw [referenceObstacle?, ite_some_eq_none_iff, ite_some_eq_none_iff, and_iff_left rfl,
    Bool.or_eq_false_iff, hany, hany, Bool.eq_false_iff, ne_eq, isOneOf_iff, List.forall_mem_append]
  exact and_left_comm

theorem isNumericPointer_eq_false_iff :
    isNumericPointer s = false ↔
      (s.getLast? = some '*' → String.ofList (pointerElement s) ∉ numericElements) := by
  rw [isNumericPointer, Bool.eq_false_iff, ne_eq, Bool.and_eq_true, isOneOf_iff, endsIn, beq_iff_eq,
    not_and]

/-- What slips past the rules meets no rule and is not plain. -/
theorem slips_iff (hends : ∀ c, s.getLast? = some c → isBlank c = false) :
    rules.Slips s ↔ rules.obstacle? s = none ∧ ¬ IsPlain s := by
  have hfunction : isFunctionPointer s = false ↔ ¬ ['(', '*'] <:+: s.filter (· != ' ') := by
    rw [isFunctionPointer, Bool.eq_false_iff, ne_eq, contains_eq_true_iff]
  have hrvalue : isRvalue s = false ↔ ¬ ['&', '&'] <:+ s := by
    rw [isRvalue, Bool.eq_false_iff, ne_eq, List.isSuffixOf_iff_suffix]
  have hplain : ¬ IsPlain s ↔ ∃ c ∈ core s, c ∈ declaratorChars := by
    rw [isPlain_iff_core hends]
    push Not
    exact Iff.rfl
  rw [obstacle?_eq_none_iff, isMalformed_eq_false_iff, hfunction, hrvalue, isTemplate_eq_false_iff,
    isNumericPointer_eq_false_iff, referenceObstacle?_eq_none_iff, endsIn, beq_iff_eq, hplain]
  constructor
  · intro h
    exact ⟨⟨⟨h.noPoint, h.noArrow⟩, h.noOpening, h.noDouble, h.noAngles, h.noNamed, h.noNumbers⟩,
      h.inside⟩
  · rintro ⟨⟨⟨hpoint, harrow⟩, hopening, hdouble, hangles, hnamed, hnumbers⟩, hinside⟩
    exact ⟨hpoint, harrow, hopening, hangles, hdouble, hnamed, hnumbers, hinside⟩

/-- What ends in another character than a mark, and has a mark or a bracket in
    it, is not plain, and it is an integer behind the rules for any type. -/
theorem classify_of_declaratorChar {c d : Char} {type : String}
    (hlast : (trim type.toList).getLast? = some c) (hreference : c ≠ '&') (hpointer : c ≠ '*')
    (hmem : d ∈ type.toList) (hmark : d ∈ declaratorChars) :
    ¬ IsPlain (trim type.toList) ∧ rules.classify type =
      if isMalformed (trim type.toList) then .unsupported .malformed
      else if isFunctionPointer (trim type.toList) then .unsupported .functionPointer
      else if isTemplate (trim type.toList) then .unsupported .template
      else .integer := by
  have hc : isBlank c = false := getLast?_trimEndWhere hlast
  obtain ⟨hblank, hconst⟩ : isBlank d = false ∧ d ∉ constWord := by
    have hall : ∀ d ∈ declaratorChars, isBlank d = false ∧ d ∉ constWord := by decide
    exact hall d hmark
  have hinside : d ∈ trim type.toList := mem_trim hmem hblank
  constructor
  · rw [isPlain_iff_core (trim_ends _)]
    intro h
    refine h d ?_ hmark
    have hkept : trimEndWhere (· == '*') (solid (trim type.toList)) = solid (trim type.toList) :=
      trimEndWhere_of_getLast? (getLast?_solid hlast hc) (beq_false_of_ne hpointer)
    rw [core, endsIn_of_getLast? hlast hreference, if_neg Bool.false_ne_true, hkept]
    exact mem_solid.mpr ⟨hinside, hblank⟩
  · have hkept : d ∈ normalize (trim type.toList) :=
      mem_normalize_of_ends hinside hblank hconst hlast hc hreference
    have hplain : plainCategory (normalize (trim type.toList)) = .integer :=
      plainCategory_of_mark hmark hkept (normalize_ends hlast hc hreference) hpointer
    rw [classify, classifyChars, obstacle?_of_getLast? hlast hreference hpointer]
    split_ifs
    · rfl
    · rfl
    · rfl
    · exact hplain

/-- A pointer whose spelling has a colon in it is a handle behind the rules for
    any type. -/
theorem classify_of_member {type : String} (hlast : (trim type.toList).getLast? = some '*')
    (hcolon : ':' ∈ type.toList) :
    rules.classify type =
      if isMalformed (trim type.toList) then .unsupported .malformed
      else if isFunctionPointer (trim type.toList) then .unsupported .functionPointer
      else if isTemplate (trim type.toList) then .unsupported .template
      else .handle := by
  have hmem : ':' ∈ trim type.toList := mem_trim hcolon (by decide)
  have hkept : ':' ∈ normalize (trim type.toList) :=
    mem_normalize hmem (by decide) (by decide) (by decide)
  have hend : endsIn '*' (normalize (trim type.toList)) = true := by
    rw [endsIn, normalize_ends hlast (by decide) (by decide)]
    rfl
  have hplain : plainCategory (normalize (trim type.toList)) = .handle := by
    rw [plainCategory, not_isOneOf (by decide) hkept, not_isOneOf (by decide) hkept,
      not_isOneOf (by decide) hkept, not_isOneOf (by decide) hkept,
      (not_isOneOf (by decide) hkept : isOneOf integerTypes _ = false), hend]
    rfl
  have hnumbers : isNumericPointer (trim type.toList) = false := by
    rw [isNumericPointer, not_isOneOf (by decide) (colon_mem_pointerElement hmem), Bool.and_false]
  rw [classify, classifyChars, obstacle?_of_not_reference (endsIn_of_getLast? hlast (by decide)),
    hnumbers, if_neg Bool.false_ne_true]
  split_ifs
  · rfl
  · rfl
  · rfl
  · exact hplain

/-- **WHICH SUPPORTED TYPES CANNOT BE DECLARED.**  A type can cross, and yet no
    name can follow its normal form, just when it slips past the rules.  So a
    bracket or a mark before a last character that is no mark, as arrays,
    references to arrays and qualified pointers have it, stands against no
    type: such a type is refused for an arrow or a point, for the opening of a
    pointer declarator or for both angle brackets in it, and is an integer
    otherwise.  A pointer to a member is refused for these alone, too, and is a
    handle otherwise. -/
theorem supported_undeclarable_iff (rules : TypeRules) (type : String) :
    (rules.isUnsupported type = false ∧ ¬ IsDeclarable (normalize type.toList) ↔
        rules.Slips (trim type.toList)) ∧
      (∀ c d, (trim type.toList).getLast? = some c → c ≠ '&' → c ≠ '*' →
        d ∈ type.toList → d ∈ declaratorChars →
          ¬ IsDeclarable (normalize type.toList) ∧
          rules.classify type =
            if isMalformed (trim type.toList) then .unsupported .malformed
            else if isFunctionPointer (trim type.toList) then .unsupported .functionPointer
            else if isTemplate (trim type.toList) then .unsupported .template
            else .integer) ∧
      ((trim type.toList).getLast? = some '*' → ':' ∈ type.toList →
          rules.classify type =
            if isMalformed (trim type.toList) then .unsupported .malformed
            else if isFunctionPointer (trim type.toList) then .unsupported .functionPointer
            else if isTemplate (trim type.toList) then .unsupported .template
            else .handle) := by
  have hplain : IsDeclarable (normalize type.toList) ↔ IsPlain (trim type.toList) :=
    (isDeclarable_normalize _).trans isPlain_trim.symm
  refine ⟨?_, ?_, classify_of_member⟩
  · rw [hplain, isUnsupported_eq, Option.isSome_eq_false_iff, Option.isNone_iff_eq_none,
      slips_iff (trim_ends _)]
  · intro c d hlast hreference hpointer hmem hmark
    rw [hplain]
    exact classify_of_declaratorChar hlast hreference hpointer hmem hmark

/-- An array, a reference to an array and a qualified pointer slip past the
    default rules, and a pointer to a member is a handle. -/
theorem supported_undeclarable_kinds :
    (TypeRules.default.isUnsupported "int[3]" = false ∧
        ¬ IsDeclarable (normalize "int[3]".toList)) ∧
      (¬ IsDeclarable (normalize "int (&)[3]".toList) ∧
        TypeRules.default.classify "int (&)[3]" = .integer) ∧
      (¬ IsDeclarable (normalize "char* const".toList) ∧
        TypeRules.default.classify "char* const" = .integer) ∧
      TypeRules.default.classify "int Foo::*" = .handle := by
  have hslips : TypeRules.default.Slips (trim "int[3]".toList) := by
    have hlast : (trim "int[3]".toList).getLast? = some ']' := by decide +kernel
    refine ⟨by decide +kernel, by decide +kernel, by decide +kernel, by decide +kernel,
      by decide +kernel, ?_, ?_, '[', by decide +kernel, by decide⟩
    · rw [hlast]
      exact nofun
    · rw [hlast]
      exact nofun
  obtain ⟨harray, -⟩ := supported_undeclarable_iff .default "int[3]"
  obtain ⟨-, hreference, -⟩ := supported_undeclarable_iff .default "int (&)[3]"
  obtain ⟨-, hqualified, -⟩ := supported_undeclarable_iff .default "char* const"
  obtain ⟨-, -, hmember⟩ := supported_undeclarable_iff .default "int Foo::*"
  refine ⟨harray.mpr hslips, ?_, ?_, ?_⟩
  · obtain ⟨hnot, hclass⟩ := hreference ']' '[' (by decide +kernel) (by decide) (by decide)
      (by decide) (by decide)
    exact ⟨hnot, hclass.trans (by decide +kernel)⟩
  · obtain ⟨hnot, hclass⟩ := hqualified 't' '*' (by decide +kernel) (by decide) (by decide)
      (by decide) (by decide)
    exact ⟨hnot, hclass.trans (by decide +kernel)⟩
  · exact (hmember (by decide +kernel) (by decide)).trans (by decide +kernel)

/-- The type of an array is supported, and its brackets stay. -/
theorem array_declared : TypeRules.default.isUnsupported "int[3]" = false ∧
    ¬ IsDeclarable (normalize "int[3]".toList) := by
  refine ⟨by decide +kernel, fun h => ?_⟩
  exact h.notBracket '[' (by decide +kernel) (by decide)

end TypeRules
end GemBinder
