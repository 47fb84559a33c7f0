import GemBinder.Proofs.Header.Scanning
import GemBinder.Proofs.Text.Tokens

/-! # What the pieces of a declaration take

    A scanner is put together from few pieces: a literal word, blanks, a word,
    a mark.  Each of them takes as much as it can from the head of the text, so
    that a text is cut at one place only.  For each piece one equivalence says
    where: what is taken, and what cannot stand behind it. -/

namespace GemBinder.Header

open Text

variable {s rest w gap : List Char} {c : Char} {p : Char → Bool}

/-! ## Runs of characters -/

/-- Nothing but blanks. -/
def Blanks (gap : List Char) : Prop := ∀ c ∈ gap, isBlank c = true

/-- At least one blank, and nothing else. -/
structure Gap (gap : List Char) : Prop where
  ne_nil : gap ≠ []
  blanks : Blanks gap

/-- At least one word character, and nothing else. -/
structure WordText (w : List Char) : Prop where
  ne_nil : w ≠ []
  chars : ∀ c ∈ w, isWordChar c = true

theorem blanks_nil : Blanks [] := List.forall_mem_nil _

theorem blanks_space : Blanks [' '] := List.forall_mem_singleton.mpr isBlank_space

theorem gap_space : Gap [' '] := ⟨List.cons_ne_nil _ _, blanks_space⟩

theorem wordText_of_isWord {t : String} (h : IsWord t) : WordText t.toList := ⟨h.ne_nil, h.chars⟩

/-- **A LONGEST RUN** of characters of a kind ends where another one stands. -/
theorem takeWhile_append_of_head? (hw : ∀ c ∈ w, p c = true) (hrest : rest.head?.any p = false) :
    (w ++ rest).takeWhile p = w ∧ (w ++ rest).dropWhile p = rest := by
  rw [List.takeWhile_append_of_pos hw, List.dropWhile_append_of_pos hw]
  cases rest with
  | nil => simp
  | cons d rest =>
      have hd : p d = false := hrest
      simp [hd]

/-- Two texts that begin with a longest run are cut behind it at the same
    place. -/
theorem append_inj_of_head? {w' rest' : List Char} (h : w ++ rest = w' ++ rest')
    (hw : ∀ c ∈ w, p c = true) (hw' : ∀ c ∈ w', p c = true) (hrest : rest.head?.any p = false)
    (hrest' : rest'.head?.any p = false) : w = w' ∧ rest = rest' := by
  obtain ⟨htake, hdrop⟩ := takeWhile_append_of_head? hw hrest
  obtain ⟨htake', hdrop'⟩ := takeWhile_append_of_head? hw' hrest'
  rw [h] at htake hdrop
  exact ⟨htake.symm.trans htake', hdrop.symm.trans hdrop'⟩

theorem head?_dropWhile_any (p : Char → Bool) (s : List Char) :
    (s.dropWhile p).head?.any p = false := by
  cases hs : s.dropWhile p with
  | nil => rfl
  | cons d rest =>
      have hd := List.head?_dropWhile_not p s
      rw [hs] at hd
      exact hd

/-- What lies at the head of a text lies before a character that it does not
    have. -/
theorem prefix_of_prefix_append {literal : List Char} (h : literal <+: w ++ c :: s)
    (hc : c ∉ literal) : literal <+: w := by
  have hrun : w ++ [c] <+: w ++ c :: s := ⟨s, by simp⟩
  rcases List.prefix_or_prefix_of_prefix h hrun with hword | hlonger
  · rcases List.prefix_concat_iff.mp hword with rfl | hprefix
    · simp at hc
    · exact hprefix
  · exact absurd (hlonger.subset (by simp)) hc

/-- A text up to the first place of a mark, compared with a text up to some place
    of it. -/
theorem first_mark_cases {head z y : List Char} (h : head ++ c :: rest = z ++ c :: y)
    (hhead : c ∉ head) : head = z ∧ rest = y ∨ ∃ z', z = head ++ c :: z' ∧ rest = z' ++ c :: y := by
  rcases List.append_eq_append_iff.mp h with ⟨t, rfl, hrest⟩ | ⟨t, rfl, hy⟩
  · cases t with
    | nil => exact .inl ⟨(List.append_nil head).symm, (List.cons.inj hrest).2⟩
    | cons d t =>
        obtain ⟨rfl, rfl⟩ := List.cons.inj hrest
        exact .inr ⟨t, rfl, rfl⟩
  · cases t with
    | nil => exact .inl ⟨List.append_nil z, ((List.cons.inj hy).2).symm⟩
    | cons d t =>
        obtain ⟨rfl, -⟩ := List.cons.inj hy
        simp at hhead

/-- A word character is no blank, so that blanks end where a word begins. -/
theorem WordText.head?_isBlank (h : WordText w) : (w ++ rest).head?.any isBlank = false := by
  obtain ⟨d, more, rfl⟩ := List.exists_cons_of_ne_nil h.ne_nil
  exact not_isBlank_of_isWordChar (h.chars d List.mem_cons_self)

theorem WordText.head?_isWordChar (h : WordText w) : (w ++ rest).head?.any isWordChar = true := by
  obtain ⟨d, more, rfl⟩ := List.exists_cons_of_ne_nil h.ne_nil
  exact h.chars d List.mem_cons_self

theorem not_isWordChar_of_isBlank (h : isBlank c = true) : isWordChar c = false := by
  refine Bool.eq_false_iff.mpr fun hword => Bool.false_ne_true ?_
  rw [← not_isBlank_of_isWordChar hword, h]

/-- A blank is no word character, so that a word ends where blanks begin. -/
theorem Blanks.head?_isWordChar (h : Blanks gap) (hrest : rest.head?.any isWordChar = false) :
    (gap ++ rest).head?.any isWordChar = false := by
  cases gap with
  | nil => exact hrest
  | cons d more => exact not_isWordChar_of_isBlank (h d List.mem_cons_self)

theorem Gap.head?_isWordChar (h : Gap gap) : (gap ++ rest).head?.any isWordChar = false := by
  obtain ⟨d, more, rfl⟩ := List.exists_cons_of_ne_nil h.ne_nil
  exact not_isWordChar_of_isBlank (h.blanks d List.mem_cons_self)

/-- A mark that is no blank does not stand among blanks. -/
theorem Blanks.notMem (h : Blanks gap) (hc : isBlank c = false) : c ∉ gap := by
  intro hmem
  rw [h c hmem] at hc
  exact Bool.false_ne_true hc.symm

/-- A mark that is no word character does not stand in a word. -/
theorem WordText.notMem (h : WordText w) (hc : isWordChar c = false) : c ∉ w := by
  intro hmem
  rw [h.chars c hmem] at hc
  exact Bool.false_ne_true hc.symm

/-! ## The pieces -/

theorem behind?_eq_some_iff {literal : List Char} :
    behind? literal s = some rest ↔ s = literal ++ rest := by
  rw [behind?]
  constructor
  · intro h
    split at h
    · next hprefix =>
        obtain ⟨t, rfl⟩ := List.isPrefixOf_iff_prefix.mp hprefix
        rw [← Option.some.inj h, List.drop_left]
    · cases h
  · rintro rfl
    rw [if_pos (List.isPrefixOf_iff_prefix.mpr (List.prefix_append _ _)), List.drop_left]

theorem behindChar_eq_some_iff : behindChar c s = some rest ↔ s = c :: rest := by
  cases s with
  | nil => simp [behindChar]
  | cons d s =>
      rw [behindChar]
      constructor
      · intro h
        split at h
        · next heq => rw [beq_iff_eq.mp heq, Option.some.inj h]
        · cases h
      · intro h
        obtain ⟨rfl, rfl⟩ := List.cons.inj h
        exact if_pos (beq_self_eq_true d)

theorem behindChar_cons (c : Char) (rest : List Char) : behindChar c (c :: rest) = some rest :=
  behindChar_eq_some_iff.mpr rfl

/-- A word ends where another character stands. -/
theorem takeWord_eq_some_iff : takeWord s = some (w, rest) ↔
    s = w ++ rest ∧ WordText w ∧ rest.head?.any isWordChar = false := by
  constructor
  · intro h
    obtain ⟨happend, hw⟩ := takeWord_eq_some h
    rw [takeWord] at h
    split at h
    · next hhead =>
        cases h
        refine ⟨happend.symm, ⟨?_, hw⟩, head?_dropWhile_any isWordChar s⟩
        cases s with
        | nil => simp at hhead
        | cons d s =>
            have hd : isWordChar d = true := hhead
            simp [hd]
    · cases h
  · rintro ⟨rfl, hw, hrest⟩
    obtain ⟨htake, hdrop⟩ := takeWhile_append_of_head? hw.chars hrest
    rw [takeWord, if_pos hw.head?_isWordChar, htake, hdrop]

theorem takeWord_eq_none (h : s.head?.any isWordChar = false) : takeWord s = none :=
  if_neg (Bool.eq_false_iff.mp h)

theorem skipBlanks_append (hgap : Blanks gap) (hrest : rest.head?.any isBlank = false) :
    skipBlanks (gap ++ rest) = rest :=
  (takeWhile_append_of_head? hgap hrest).2

theorem skipBlanks_cons (hgap : Blanks gap) (hc : isBlank c = false) :
    skipBlanks (gap ++ c :: rest) = c :: rest :=
  skipBlanks_append hgap hc

theorem exists_append_skipBlanks (s : List Char) :
    ∃ gap, s = gap ++ skipBlanks s ∧ Blanks gap ∧ (skipBlanks s).head?.any isBlank = false :=
  ⟨s.takeWhile isBlank, (List.takeWhile_append_dropWhile).symm,
    fun _ hc => List.mem_takeWhile_imp hc, head?_dropWhile_any isBlank s⟩

theorem skipSomeBlanks_eq_some_iff : skipSomeBlanks s = some rest ↔
    ∃ gap, s = gap ++ rest ∧ Gap gap ∧ rest.head?.any isBlank = false := by
  rw [skipSomeBlanks]
  constructor
  · intro h
    split at h
    · next hhead =>
        obtain ⟨gap, hs, hgap, hrest⟩ := exists_append_skipBlanks s
        rw [← Option.some.inj h]
        refine ⟨gap, hs, ⟨?_, hgap⟩, hrest⟩
        rintro rfl
        rw [List.nil_append] at hs
        rw [← hs, hhead] at hrest
        exact Bool.false_ne_true hrest.symm
    · cases h
  · rintro ⟨gap, rfl, hgap, hrest⟩
    obtain ⟨d, more, rfl⟩ := List.exists_cons_of_ne_nil hgap.ne_nil
    have hhead : (d :: more ++ rest).head?.any isBlank = true := hgap.blanks d List.mem_cons_self
    rw [if_pos hhead, skipBlanks_append hgap.blanks hrest]

end GemBinder.Header
