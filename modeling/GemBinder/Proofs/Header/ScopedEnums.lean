import GemBinder.Header.Comments
import GemBinder.Proofs.Header.Braces
import GemBinder.Proofs.Header.HeadLayout
import GemBinder.Proofs.Header.Occurrences

/-! # Scoped enumerations and classes

    A scoped enumeration is written with a word that opens a class as well, so
    that the search for classes has to pass it over.  It looks for the word for
    an enumeration and one space in front of the word; other blanks between the
    two are not seen.  Which places inside an enumeration begin a class is
    settled piece by piece: none before the word that makes it scoped, this one
    just when other blanks stand in front of it (`classAt_behind_opening`), and none
    from there to the end of the name.  The rest is up to what is written for
    the underlying type and for the values. -/

namespace GemBinder.Header

open Text

variable {s t rest w gap scope name under before y : List Char} {c : Char} {e : Located EnumDecl}

/-! ## Places where no class begins -/

/-- A class begins with the first letter of one of its words. -/
theorem classAt_cons_eq_none (hc : c ≠ 'c') (hs : c ≠ 's') (before rest : List Char) :
    classAt before (c :: rest) = none := by
  have hword : behindClassWord (c :: rest) = none := by
    refine Option.eq_none_iff_forall_ne_some.mpr fun more hmore => ?_
    obtain ⟨word, hmem, htext⟩ := behindClassWord_eq_some_iff.mp hmore
    rcases List.mem_cons.mp hmem with rfl | hmem
    · exact hc (List.cons.inj htext).1
    · obtain rfl := List.mem_singleton.mp hmem
      exact hs (List.cons.inj htext).1
  rw [classAt_eq, classHead?, hword]
  split <;> rfl

theorem quiet_enum : Quiet classAt "enum".toList := by
  have hall : ∀ c ∈ "enum".toList, c ≠ 'c' ∧ c ≠ 's' := by decide
  exact fun c hc => classAt_cons_eq_none (hall c hc).1 (hall c hc).2

theorem quiet_blanks (h : Blanks gap) : Quiet classAt gap := by
  have hletter : isBlank 'c' = false ∧ isBlank 's' = false := by decide
  intro c hc
  refine classAt_cons_eq_none ?_ ?_
  · rintro rfl
    exact h.notMem hletter.1 hc
  · rintro rfl
    exact h.notMem hletter.2 hc

/-- No class begins inside a word. -/
theorem bare_word (hw : WordText (c :: w)) (before rest : List Char) :
    Bare classAt (c :: before) w rest := by
  rintro p q rfl -
  have hbarred : isBarred (p.reverse ++ c :: before) = true := by
    have hhead : (p.reverse ++ c :: before).head?.any isWordChar = true := by
      rcases List.eq_nil_or_concat p with rfl | ⟨p, d, rfl⟩
      · exact hw.chars c List.mem_cons_self
      · rw [List.concat_eq_append, List.reverse_append]
        exact hw.chars d (by simp)
    rw [isBarred, hhead, Bool.true_or]
  rw [classAt_eq, if_pos hbarred]

/-- Behind blanks, an underlying type goes on with a mark. -/
theorem Underlying.exists_mark (h : Underlying under) (y : List Char) :
    ∃ gap c more, under ++ '{' :: y = gap ++ c :: more ∧ Blanks gap ∧ isBlank c = false ∧
      isWordChar c = false := by
  cases h with
  | absent hblanks => exact ⟨under, '{', y, rfl, hblanks, by decide, by decide⟩
  | @type gap parts hblanks _ _ =>
      exact ⟨gap, ':', parts ++ '{' :: y, by simp, hblanks, by decide, by decide⟩

/-- No class begins at the name of an enumeration, also where this is the word
    for a class. -/
theorem classAt_name_eq_none (hname : WordText name) (hunder : Underlying under)
    (before y : List Char) : classAt before (name ++ (under ++ '{' :: y)) = none := by
  refine Option.eq_none_iff_forall_ne_some.mpr fun ⟨found, more⟩ hfind => ?_
  obtain ⟨-, head, body, htext, hhead, -⟩ := classAt_eq_some_iff.mp hfind
  obtain ⟨gap', mark, behind, hmark, hblanks, hblank, hword⟩ := hunder.exists_mark y
  cases hhead with
  | @mk word gap gap'' bases hmem hgap hname' _ _ =>
      -- the name would be the word for a class, and blanks would stand before a mark
      simp only [List.append_assoc] at htext
      have hend : (under ++ '{' :: y).head?.any isWordChar = false := hunder.head?_isWordChar y
      obtain ⟨-, hbehind⟩ := append_inj_of_head? htext hname.chars
        (wordText_of_mem_scopeWords hmem).chars hend hgap.head?_isWordChar
      rw [hmark] at hbehind
      obtain ⟨-, hname''⟩ := append_inj_of_head? hbehind hblanks hgap.blanks hblank
        hname'.head?_isBlank
      have hfirst : (mark :: behind).head?.any isWordChar = true := by
        rw [hname'']
        exact hname'.head?_isWordChar
      exact absurd (hfirst.symm.trans hword) (by simp)

theorem bare_name (hname : WordText name) (hunder : Underlying under) (before y : List Char) :
    Bare classAt before name (under ++ '{' :: y) := by
  have hfirst := classAt_name_eq_none hname hunder before y
  obtain ⟨c, w, rfl⟩ := List.exists_cons_of_ne_nil hname.ne_nil
  rintro p q hpq hq
  cases p with
  | nil =>
      obtain rfl : q = c :: w := hpq.symm
      exact hfirst
  | cons d p =>
      obtain ⟨rfl, rfl⟩ := List.cons.inj hpq
      have hfind := bare_word hname before (under ++ '{' :: y) p q rfl hq
      rwa [List.reverse_cons, List.append_assoc]

/-- Behind the word for an enumeration and blanks, a class is barred just when the
    blanks are one space. -/
theorem isBarred_behind_enum_iff (hgap : Gap gap) (before : List Char) :
    isBarred (gap.reverse ++ ("enum".toList.reverse ++ before)) = true ↔ gap = [' '] := by
  have hm : isBlank 'm' = false := by decide
  obtain ⟨b, more, hb⟩ := List.exists_cons_of_ne_nil
    (fun hnil => hgap.ne_nil (List.reverse_eq_nil_iff.mp hnil) : gap.reverse ≠ [])
  have hblanks : ∀ c ∈ b :: more, isBlank c = true :=
    fun c hc => hgap.blanks c (List.mem_reverse.mp (hb ▸ hc))
  have hgap' : gap = [' '] ↔ b :: more = [' '] := by
    rw [← hb, ← List.reverse_inj]
    rfl
  have hhead : ((b :: more) ++ ("enum".toList.reverse ++ before)).head?.any isWordChar = false :=
    not_isWordChar_of_isBlank (hblanks b List.mem_cons_self)
  have hbar : "enum ".toList.reverse = [' ', 'm', 'u', 'n', 'e'] := rfl
  have henum : "enum".toList.reverse = ['m', 'u', 'n', 'e'] := rfl
  rw [hgap', hb, isBarred, hhead, Bool.false_or, List.isPrefixOf_iff_prefix, hbar, henum]
  constructor
  · intro hprefix
    obtain ⟨rfl, hmore⟩ := List.cons_prefix_cons.mp hprefix
    cases more with
    | nil => rfl
    | cons d more =>
        obtain ⟨rfl, -⟩ := List.cons_prefix_cons.mp hmore
        exact absurd (hm.symm.trans (hblanks 'm' (by simp))) Bool.false_ne_true
  · intro hspace
    obtain ⟨rfl, rfl⟩ := List.cons.inj hspace
    exact ⟨before, rfl⟩

/-- **A SCOPED ENUMERATION READS AS A CLASS** from the word on that makes it
    scoped, unless one space stands between this and the word for it. -/
theorem classAt_scope (hgap : Gap gap) (hscope : ScopeText scope) (hname : WordText name)
    (hunder : Underlying under) (before y : List Char) :
    classAt (gap.reverse ++ ("enum".toList.reverse ++ before))
        (scope ++ (name ++ (under ++ '{' :: y)))
      = if gap = [' '] then none else some (⟨name, (takeBlock y).1⟩, (takeBlock y).2) := by
  cases hscope with
  | @mk word gap' hmem hgap' =>
      obtain ⟨gap'', bases, rfl, hgap'', hbases⟩ := hunder.exists_bases
      have hhead : classHead? (word ++ gap' ++ (name ++ (gap'' ++ bases ++ '{' :: y)))
          = some (name, y) :=
        classHead?_eq_some_iff.mpr ⟨_, by simp only [List.append_assoc],
          .mk hmem hgap' hname hgap'' hbases⟩
      rw [classAt_eq, hhead]
      simp only [isBarred_behind_enum_iff hgap]
      rfl

/-- A class ends with a closing brace, or with the text. -/
theorem exists_close_of_classAt {c : ClassText} (h : classAt before s = some (c, rest)) :
    (∃ t, s = t ++ '}' :: rest) ∨ rest = [] := by
  obtain ⟨-, head, y, rfl, -, hbody⟩ := classAt_eq_some_iff.mp h
  rcases takeBlock_cases y with ⟨w, rest', htake, rfl, -⟩ | ⟨htake, -⟩
  · obtain ⟨-, rfl⟩ := Prod.mk.inj (htake.symm.trans hbody)
    exact .inl ⟨head ++ '{' :: w, by rw [List.append_assoc, List.cons_append]⟩
  · exact .inr (Prod.mk.inj (htake.symm.trans hbody)).2.symm

/-! ## Enumerations as they are written -/

/-- **AN ENUMERATION AS IT IS WRITTEN**: the blanks behind the word for it, what
    makes it scoped if it is, its name, what stands before the opening brace, and
    its body. -/
structure EnumText (e : Located EnumDecl) where
  gap : List Char
  scope : List Char
  name : List Char
  under : List Char
  body : List Char
  text : e.text = "enum".toList ++ (gap ++ (scope ++ (name ++
    (under ++ '{' :: (body ++ '}' :: e.behind)))))
  blanks : Gap gap
  scope_text : scope = [] ∧ e.thing.isScoped = false ∨ ScopeText scope ∧ e.thing.isScoped = true
  word : WordText name
  underlying : Underlying under
  closing : '}' ∉ body

/-- Every enumeration is written in this way. -/
theorem nonempty_enumText (he : e ∈ occurrences enumAt s) : Nonempty (EnumText e) := by
  obtain ⟨-, hfound⟩ := of_mem_occurrences he
  obtain ⟨gap, scope, t, htext, hgap, hscope, hbody⟩ := enumAt_layout hfound
  obtain ⟨name, under, body, rfl, hname, hunder, hclose, -⟩ := enumBody_eq_some_iff.mp hbody
  exact ⟨⟨gap, scope, name, under, body, htext, hgap, hscope, hname, hunder, hclose⟩⟩

namespace EnumText

variable (l : EnumText e)

/-- What stands before the place where the word is that makes the enumeration
    scoped, or else its name. -/
def opening : List Char := "enum".toList ++ l.gap

/-- The place behind the opening. -/
def scopeStart : Nat := e.start + l.opening.length

/-- The place behind the name. -/
def nameStop : Nat := l.scopeStart + (l.scope ++ l.name).length

/-- What stands behind the name. -/
def behindName : List Char := l.under ++ '{' :: (l.body ++ '}' :: e.behind)

theorem text_eq : e.text = l.opening ++ ((l.scope ++ l.name) ++ l.behindName) := by
  rw [l.text, opening, behindName]
  simp only [List.append_assoc]

/-- No class begins in the opening. -/
theorem bare_opening (rest : List Char) : Bare classAt e.before l.opening rest :=
  (quiet_enum.bare _ _).append ((quiet_blanks l.blanks.blanks).bare _ _)

/-- Behind the opening, a class is found just when the enumeration is scoped and
    other blanks than one space stand in it; it has the name of the enumeration. -/
theorem classAt_behind_opening :
    classAt (l.opening.reverse ++ e.before) ((l.scope ++ l.name) ++ l.behindName)
      = if e.thing.isScoped = true ∧ l.gap ≠ [' '] then
          some (⟨l.name, (takeBlock (l.body ++ '}' :: e.behind)).1⟩,
            (takeBlock (l.body ++ '}' :: e.behind)).2)
        else none := by
  have hbefore : l.opening.reverse ++ e.before
      = l.gap.reverse ++ ("enum".toList.reverse ++ e.before) := by
    rw [opening, List.reverse_append, List.append_assoc]
  rw [hbefore, List.append_assoc]
  rcases l.scope_text with ⟨hscope, hscoped⟩ | ⟨hscope, hscoped⟩
  · rw [if_neg fun h => Bool.false_ne_true (hscoped.symm.trans h.1), hscope, List.nil_append,
      behindName, classAt_name_eq_none l.word l.underlying]
  · rw [behindName, classAt_scope l.blanks hscope l.word l.underlying, hscoped]
    by_cases hgap : l.gap = [' ']
    · rw [if_pos hgap, if_neg fun h => h.2 hgap]
    · rw [if_neg hgap, if_pos ⟨rfl, hgap⟩]

/-- From there to the end of the name, no class begins. -/
theorem bare_behind_opening : ∃ c w, l.scope ++ l.name = c :: w ∧
    Bare classAt (c :: (l.opening.reverse ++ e.before)) w l.behindName := by
  have hname := l.word
  rcases l.scope_text with ⟨hscope, -⟩ | ⟨hscope, -⟩
  · obtain ⟨c, w, hw⟩ := List.exists_cons_of_ne_nil l.word.ne_nil
    rw [hw] at hname
    exact ⟨c, w, by rw [hscope, hw, List.nil_append], bare_word hname _ _⟩
  · generalize l.scope = scope at hscope
    cases hscope with
    | @mk word gap hmem hgap =>
        have hword := wordText_of_mem_scopeWords hmem
        obtain ⟨c, w, rfl⟩ := List.exists_cons_of_ne_nil hword.ne_nil
        refine ⟨c, w ++ (gap ++ l.name), by simp, (bare_word hword _ _).append ?_⟩
        exact ((quiet_blanks hgap.blanks).bare _ _).append (bare_name l.word l.underlying _ _)

/-- The place of an enumeration in its text. -/
theorem append_eq (he : e ∈ occurrences enumAt s) :
    e.before.reverse ++ (l.opening ++ ((l.scope ++ l.name) ++ l.behindName)) = s := by
  rw [← l.text_eq]
  exact (of_mem_occurrences he).1

/-- **UP TO THE END OF THE NAME** a class begins at most at the word that makes the
    enumeration scoped, and there just when other blanks than one space stand in
    front of it. -/
theorem standsAt_iff (he : e ∈ occurrences enumAt s) {k : Nat} (hle : e.start ≤ k)
    (hlt : k < l.nameStop) : StandsAt classAt s k ↔
      k = l.scopeStart ∧ e.thing.isScoped = true ∧ l.gap ≠ [' '] := by
  rw [← l.append_eq he]
  rcases Nat.lt_trichotomy k l.scopeStart with hbefore | rfl | hbehind
  · exact iff_of_false ((l.bare_opening _).not_standsAt hle hbefore) fun h => by omega
  · rw [scopeStart, Located.start, standsAt_length_iff, l.classAt_behind_opening,
      and_iff_right rfl]
    split
    · next hother => exact iff_of_true rfl hother
    · next hother => exact iff_of_false Bool.false_ne_true hother
  · obtain ⟨c, w, hname, hbare⟩ := l.bare_behind_opening
    have hplace : e.before.reverse ++ (l.opening ++ ((l.scope ++ l.name) ++ l.behindName))
        = (c :: (l.opening.reverse ++ e.before)).reverse ++ (w ++ l.behindName) := by
      rw [hname]
      simp
    have hstop : l.nameStop = l.scopeStart + (w.length + 1) := by
      rw [nameStop, hname, List.length_cons]
    have hlength : (c :: (l.opening.reverse ++ e.before)).length = l.scopeStart + 1 := by
      simp [scopeStart, Located.start, Nat.add_comm]
    rw [hplace]
    exact iff_of_false (hbare.not_standsAt (by omega) (by omega)) fun h => by omega

/-- What stands before the closing brace. -/
def inside : List Char :=
  l.opening ++ ((l.scope ++ l.name) ++ (l.under ++ '{' :: l.body))

theorem text_eq_inside : e.text = l.inside ++ '}' :: e.behind := by
  rw [l.text_eq, inside, behindName]
  simp only [List.append_assoc, List.cons_append]

/-- The closing brace of an enumeration is the first one in it. -/
theorem close_notMem_inside : '}' ∉ l.inside := by
  have hword : isWordChar '}' = false := by decide
  have hblank : isBlank '}' = false := by decide
  have hscope : '}' ∉ l.scope := by
    rcases l.scope_text with ⟨hscope, -⟩ | ⟨hscope, -⟩
    · rw [hscope]
      exact List.not_mem_nil
    · generalize l.scope = scope at hscope
      cases hscope with
      | mk hmem hgap =>
          simp [(wordText_of_mem_scopeWords hmem).notMem hword, hgap.blanks.notMem hblank]
  have hunder : '}' ∉ l.under := by
    have hlayout := l.underlying
    generalize l.under = under at hlayout
    cases hlayout with
    | absent hblanks => exact hblanks.notMem hblank
    | type hblanks _ hparts =>
        have hpart : '}' ∉ _ := fun hmem => Bool.false_ne_true (hparts '}' hmem)
        simp [hblanks.notMem hblank, hpart]
  have henum : '}' ∉ "enum".toList := by decide
  simp only [inside, opening, List.mem_append, List.mem_cons, not_or]
  exact ⟨⟨henum, l.blanks.blanks.notMem hblank⟩, ⟨hscope, l.word.notMem hword⟩, hunder, by decide,
    l.closing⟩

theorem stop_eq : e.stop = e.start + l.inside.length + 1 :=
  Located.stop_of_text l.text_eq_inside

/-- The places of an enumeration, one behind the other. -/
theorem places : e.start ≤ l.scopeStart ∧ l.scopeStart < l.nameStop ∧ l.nameStop ≤ e.stop := by
  have hname : 0 < l.name.length := List.length_pos_iff.mpr l.word.ne_nil
  rw [l.stop_eq, nameStop, scopeStart, inside]
  simp only [List.length_append]
  omega

/-- **A CLASS THAT REACHES INTO AN ENUMERATION** from before reaches to its end: it
    ends with a closing brace, or with the text. -/
theorem stop_le_of_covers (l : EnumText e) {c : Located ClassText} (he : e ∈ occurrences enumAt s)
    (hc : c ∈ occurrences classAt s) (hcovers : c.Covers e.start) : e.stop ≤ c.stop := by
  obtain ⟨hplace, -⟩ := of_mem_occurrences he
  obtain ⟨hplace', hfound⟩ := of_mem_occurrences hc
  have hstop := l.stop_eq
  rw [l.text_eq_inside] at hplace
  rcases exists_close_of_classAt hfound with ⟨t, htext⟩ | hbehind
  · have hend := Located.stop_of_text htext
    rw [htext, ← List.append_assoc] at hplace'
    obtain ⟨-, hlt⟩ := hcovers
    have hprefix : e.before.reverse <+: c.before.reverse ++ t := by
      refine List.prefix_of_prefix_length_le ⟨_, hplace⟩ ⟨_, hplace'⟩ ?_
      simp only [Located.start, List.length_append, List.length_reverse] at hend hlt ⊢
      omega
    -- the brace of the enumeration is the first one behind its beginning
    obtain ⟨u, hu⟩ := hprefix
    rw [← hu, List.append_assoc] at hplace'
    have hinside : l.inside.length ≤ u.length := by
      have hsame := List.append_cancel_left (hplace.trans hplace'.symm)
      rcases first_mark_cases hsame l.close_notMem_inside with ⟨heq, -⟩ | ⟨z, heq, -⟩
      · rw [heq]
      · rw [heq, List.length_append]
        omega
    have hlength := congrArg List.length hu
    simp only [Located.start, List.length_append, List.length_reverse] at hstop hend hlength
    omega
  · have hlength := congrArg List.length (hplace.trans hplace'.symm)
    rw [hstop, Located.stop, hbehind]
    simp only [Located.start, List.length_append, List.length_reverse, List.length_cons,
      List.length_nil] at hlength ⊢
    omega

end EnumText

/-! ## Classes inside enumerations -/

/-- A class needs a text to begin with. -/
theorem needy_classAt : Needy classAt := by
  intro before
  rw [classAt_eq]
  split <;> rfl

/-- **WHETHER A CLASS BEGINS INSIDE AN ENUMERATION**: none does just when the
    enumeration is inside a class, or else the word that makes it scoped, if it is,
    stands one space behind the word for it, and no class is written behind its
    name.  A scoped enumeration outside of classes with other blanks there is found
    as a class of its name. -/
theorem no_class_in_enum_iff (he : e ∈ occurrences enumAt s) : ∃ l : EnumText e,
    ((∀ c ∈ occurrences classAt s, ¬ (e.start ≤ c.start ∧ c.start < e.stop)) ↔
      (∃ c ∈ occurrences classAt s, c.Covers e.start) ∨
        (e.thing.isScoped = true → l.gap = [' ']) ∧
          ∀ k, l.nameStop ≤ k → k < e.stop → ¬ StandsAt classAt s k) ∧
    (e.thing.isScoped = true → l.gap ≠ [' '] →
      (∀ c ∈ occurrences classAt s, ¬ c.Covers e.start) →
        ∃ c ∈ occurrences classAt s, c.start = l.scopeStart ∧ c.thing.name = l.name) := by
  obtain ⟨l⟩ := nonempty_enumText he
  have hplaces : e.start ≤ l.scopeStart ∧ l.scopeStart < l.nameStop ∧ l.nameStop ≤ e.stop :=
    l.places
  refine ⟨l, ?_, fun hscoped hgap hfree => ?_⟩
  · by_cases hcovered : ∃ c ∈ occurrences classAt s, c.Covers e.start
    · obtain ⟨c, hc, hcovers⟩ := hcovered
      refine iff_of_true (fun c' hc' hinside => ?_) (.inl ⟨c, hc, hcovers⟩)
      have hstop := l.stop_le_of_covers he hc hcovers
      exact not_covers_start hc hc' ⟨by have := hcovers.1; omega, by omega⟩
    · rw [or_iff_right hcovered]
      simp only [not_exists, not_and] at hcovered
      have hnone : (∀ c ∈ occurrences classAt s, ¬ (e.start ≤ c.start ∧ c.start < e.stop)) ↔
          ∀ k, e.start ≤ k → k < e.stop → ¬ StandsAt classAt s k := by
        have hfirst := not_congr (exists_occurrence_iff (j := e.stop) needy_classAt hcovered)
        simpa only [not_exists, not_and] using hfirst
      rw [hnone]
      constructor
      · intro hnothing
        refine ⟨fun hscoped => ?_, fun k hle hlt => hnothing k (by omega) hlt⟩
        by_contra hgap
        exact hnothing l.scopeStart hplaces.1 (by omega)
          ((l.standsAt_iff he hplaces.1 hplaces.2.1).mpr ⟨rfl, hscoped, hgap⟩)
      · rintro ⟨hgap, hrest⟩ k hle hlt
        rcases Nat.lt_or_ge k l.nameStop with hname | hname
        · rw [l.standsAt_iff he hle hname]
          exact fun h => h.2.2 (hgap h.2.1)
        · exact hrest k hname hlt
  · have hfound := l.classAt_behind_opening
    rw [if_pos ⟨hscoped, hgap⟩] at hfound
    have hplace : (l.opening.reverse ++ e.before).reverse ++
        ((l.scope ++ l.name) ++ l.behindName) = s := by
      rw [List.reverse_append, List.reverse_reverse, List.append_assoc, l.append_eq he]
    have hlength : (l.opening.reverse ++ e.before).length = l.scopeStart := by
      simp [EnumText.scopeStart, Located.start, Nat.add_comm]
    rw [← hplace] at hfree ⊢
    refine ⟨_, mem_occurrences_of_first ?_ hfound hfree (by omega) fun k hle hlt => ?_, hlength, rfl⟩
    · simp [l.word.ne_nil]
    · rw [hplace, l.standsAt_iff he hle (by omega)]
      exact fun h => by omega

/-- A scoped enumeration with two spaces in front of the word that makes it
    scoped. -/
def spacedEnum : List Char := "enum  class E \x7b A \x7d;\n".toList

/-- It is found as a class. -/
theorem scoped_enum_found_as_class :
    (parseClasses "a.h" (stripComments spacedEnum)).map (·.name) = ["E"] ∧
      ∃ e ∈ occurrences enumAt (stripComments spacedEnum),
        ∃ c ∈ occurrences classAt (stripComments spacedEnum),
          e.thing.isScoped = true ∧ e.start ≤ c.start ∧ c.start < e.stop := by
  decide +kernel

/-- A scoped enumeration beside one that is written with one space. -/
def twoEnums : List Char := "enum class D \x7b B \x7d; enum\tstruct E \x7b A \x7d;".toList

/-- No class begins inside the one with the space, and its gap is the space.  In
    the other one, whose gap is a tab, a class of its name does. -/
theorem no_class_in_enum_iff_twoEnums :
    (∃ d ∈ occurrences enumAt twoEnums, d.thing.name = "D" ∧ ∃ l : EnumText d, l.gap = [' '] ∧
      ∀ c ∈ occurrences classAt twoEnums, ¬ (d.start ≤ c.start ∧ c.start < d.stop)) ∧
    ∃ e ∈ occurrences enumAt twoEnums, e.thing.name = "E" ∧ ∃ l : EnumText e, l.gap ≠ [' '] ∧
      (¬ ∀ c ∈ occurrences classAt twoEnums, ¬ (e.start ≤ c.start ∧ c.start < e.stop)) ∧
      ∃ c ∈ occurrences classAt twoEnums, c.start = l.scopeStart ∧ c.thing.name = l.name := by
  let d : Located EnumDecl :=
    { before := []
      text := twoEnums
      thing := { name := "D", values := [⟨"B", none⟩], isScoped := true }
      behind := "; enum\tstruct E \x7b A \x7d;".toList }
  let e : Located EnumDecl :=
    { before := "enum class D \x7b B \x7d; ".toList.reverse
      text := "enum\tstruct E \x7b A \x7d;".toList
      thing := { name := "E", values := [⟨"A", none⟩], isScoped := true }
      behind := [';'] }
  have hd : d ∈ occurrences enumAt twoEnums := by decide +kernel
  have he : e ∈ occurrences enumAt twoEnums := by decide +kernel
  constructor
  · have hnone : ∀ c ∈ occurrences classAt twoEnums, ¬ (d.start ≤ c.start ∧ c.start < d.stop) := by
      decide +kernel
    have hfree : ∀ c ∈ occurrences classAt twoEnums, ¬ c.Covers d.start := by
      decide +kernel
    obtain ⟨l, hiff, -⟩ := no_class_in_enum_iff hd
    refine ⟨d, hd, rfl, l, ?_, hnone⟩
    rcases hiff.mp hnone with ⟨c, hc, hcovers⟩ | ⟨hgap, -⟩
    · exact absurd hcovers (hfree c hc)
    · exact hgap rfl
  · have hfree : ∀ c ∈ occurrences classAt twoEnums, ¬ c.Covers e.start := by
      decide +kernel
    obtain ⟨l, hiff, hclass⟩ := no_class_in_enum_iff he
    have hgap : l.gap ≠ [' '] := by
      intro hspace
      have htext := l.text
      rw [hspace] at htext
      have hfifth : some '\t' = some ' ' := congrArg (·[4]?) htext
      exact absurd hfifth (by decide)
    refine ⟨e, he, rfl, l, hgap, hiff.not.mpr ?_, hclass rfl hgap hfree⟩
    rintro (⟨c, hc, hcovers⟩ | ⟨hspace, -⟩)
    · exact hfree c hc hcovers
    · exact hgap (hspace rfl)

end GemBinder.Header
