import GemBinder.Proofs.Text.Words

/-! # Words and tokens

    A word has word characters only, and a token no blanks; neither is empty.
    Tokens that are joined by single spaces are told apart again where the
    text that they make is split at its blanks (`words_joinWith`). -/

namespace GemBinder

open Text

/-! ## Words -/

/-- A text of word characters, and at least one. -/
def IsWord (s : String) : Prop := s ≠ "" ∧ s.toList.all isWordChar = true

instance (s : String) : Decidable (IsWord s) :=
  inferInstanceAs (Decidable (_ ∧ _))

theorem IsWord.notMem {s : String} {mark : Char} (h : IsWord s) (hmark : isWordChar mark = false) :
    mark ∉ s.toList := by
  intro hmem
  exact Bool.false_ne_true (hmark.symm.trans (List.all_eq_true.mp h.2 mark hmem))

theorem IsWord.ne_nil {s : String} (h : IsWord s) : s.toList ≠ [] :=
  fun hnil => h.1 (String.toList_eq_nil_iff.mp hnil)

theorem IsWord.chars {s : String} (h : IsWord s) : ∀ c ∈ s.toList, isWordChar c = true :=
  List.all_eq_true.mp h.2

theorem IsWord.oneLine {s : String} (h : IsWord s) : OneLine s := h.notMem (by decide)

namespace Text

theorem blankRanges_apart : ∀ r ∈ blankRanges, ∀ s ∈ alphanumericRanges, r.2 < s.1 ∨ s.2 < r.1 := by
  decide +kernel

/-- A word character is no blank. -/
theorem not_isBlank_of_isWordChar {c : Char} (h : isWordChar c = true) : isBlank c = false := by
  rw [Bool.eq_false_iff]
  intro hblank
  by_cases hascii : c.toNat < 128
  · have hall : ∀ n < 128,
        isWordChar (Char.ofNat n) = true → isBlank (Char.ofNat n) = false := by decide
    rw [← Char.ofNat_toNat c] at h hblank
    exact Bool.false_ne_true ((hall c.toNat hascii h).symm.trans hblank)
  · rw [isWordChar, if_neg hascii, inRanges_iff] at h
    rw [isBlank, if_neg hascii, inRanges_iff] at hblank
    obtain ⟨s, hs, hfirst, hlast⟩ := h
    obtain ⟨r, hr, hlow, hhigh⟩ := hblank
    have hapart := blankRanges_apart r hr s hs
    omega

/-! ## The ends of a text -/

section Ends

variable {s t : List Char} {c d : Char}

theorem dropWhile_ne_nil {p : Char → Bool} (hs : s.getLast? = some c) (hc : p c = false) :
    s.dropWhile p ≠ [] := by
  intro hnil
  have hall := List.dropWhile_eq_nil_iff.mp hnil c (List.mem_of_getLast? hs)
  exact Bool.false_ne_true (hc.symm.trans hall)

theorem getLast?_dropWhile {p : Char → Bool} (hs : s.getLast? = some c) (hc : p c = false) :
    (s.dropWhile p).getLast? = some c := by
  have hkept := dropWhile_ne_nil hs hc
  obtain ⟨front, hfront⟩ := List.dropWhile_suffix p (l := s)
  rw [← hfront, List.getLast?_append, List.getLast?_eq_some_getLast hkept, Option.some_or] at hs
  rw [List.getLast?_eq_some_getLast hkept]
  exact hs

/-- A text that ends in no blank is trimmed at its head only. -/
theorem trim_of_getLast? (hs : s.getLast? = some c) (hc : isBlank c = false) :
    trim s = s.dropWhile isBlank :=
  trimEndWhere_of_getLast? (getLast?_dropWhile hs hc) hc

theorem getLast?_trim (hs : s.getLast? = some c) (hc : isBlank c = false) :
    (trim s).getLast? = some c := by
  rw [trim_of_getLast? hs hc]
  exact getLast?_dropWhile hs hc

/-- What ends in no blank stays as it is behind what does not either. -/
theorem trim_append (hs : s.getLast? = some c) (hc : isBlank c = false)
    (ht : t.getLast? = some d) (hd : isBlank d = false) : trim (s ++ t) = trim s ++ t := by
  have hend : (s ++ t).getLast? = some d := by
    rw [List.getLast?_append, ht]
    rfl
  have hkept : ¬ (s.dropWhile isBlank).isEmpty = true :=
    fun hnil => dropWhile_ne_nil hs hc (List.isEmpty_iff.mp hnil)
  rw [trim_of_getLast? hend hd, trim_of_getLast? hs hc, List.dropWhile_append, if_neg hkept]

/-- A text with no blank at its ends is not trimmed. -/
theorem trim_of_ends (hs : s.head? = some c) (hc : isBlank c = false)
    (ht : s.getLast? = some d) (hd : isBlank d = false) : trim s = s := by
  obtain ⟨rest, rfl⟩ := List.head?_eq_some_iff.mp hs
  rw [trim_of_getLast? ht hd]
  exact List.dropWhile_cons_of_neg (by rw [hc]; exact Bool.false_ne_true)

end Ends

/-! ## Tokens -/

/-- A text without blanks that is not empty. -/
structure IsToken (w : List Char) : Prop where
  ne_nil : w ≠ []
  solid : ∀ c ∈ w, isBlank c = false

variable {w : List Char} {ws : List (List Char)}

/-- A token is its own only word. -/
theorem IsToken.words_eq (h : IsToken w) : words w = [w] := by
  induction w with
  | nil => exact absurd rfl h.ne_nil
  | cons c w ih =>
      obtain ⟨hc, hw⟩ := List.forall_mem_cons.mp h.solid
      cases w with
      | nil =>
          rw [words.eq_def]
          exact if_neg (Bool.eq_false_iff.mp hc)
      | cons d w =>
          have hd : ¬ isBlank d = true := Bool.eq_false_iff.mp (hw d List.mem_cons_self)
          rw [words.eq_def]
          dsimp only
          rw [if_neg (Bool.eq_false_iff.mp hc), ih ⟨List.cons_ne_nil d w, hw⟩]
          exact if_neg hd

theorem joinWith_cons (h : ws ≠ []) :
    joinWith [' '] (w :: ws) = w ++ ' ' :: joinWith [' '] ws := by
  rw [joinWith, List.append_assoc, List.singleton_append]
  exact h

theorem joinWith_concat (h : ws ≠ []) :
    joinWith [' '] (ws ++ [w]) = joinWith [' '] ws ++ ' ' :: w := by
  induction ws with
  | nil => exact absurd rfl h
  | cons v ws ih =>
      cases ws with
      | nil => exact joinWith_cons (List.cons_ne_nil w [])
      | cons next more =>
          have hne : next :: more ++ [w] ≠ [] := List.cons_ne_nil _ _
          rw [List.cons_append, joinWith_cons hne, ih (List.cons_ne_nil next more),
            joinWith_cons (List.cons_ne_nil next more), List.append_assoc, List.cons_append]

/-- **JOINED TOKENS** are told apart again. -/
theorem words_joinWith (h : ∀ w ∈ ws, IsToken w) : words (joinWith [' '] ws) = ws := by
  induction ws with
  | nil => rfl
  | cons w ws ih =>
      obtain ⟨hw, hws⟩ := List.forall_mem_cons.mp h
      cases ws with
      | nil => exact hw.words_eq
      | cons next more =>
          rw [joinWith_cons (List.cons_ne_nil next more), words_append_blank_cons isBlank_space,
            hw.words_eq, ih hws]
          rfl

/-- A joined text holds its pieces. -/
theorem mem_joinWith_of_mem {sep : List Char} {c : Char} (hw : w ∈ ws) (hc : c ∈ w) :
    c ∈ joinWith sep ws := by
  induction ws with
  | nil => exact nomatch hw
  | cons v ws ih =>
      cases ws with
      | nil =>
          obtain rfl := List.mem_singleton.mp hw
          exact hc
      | cons v' ws =>
          rw [joinWith.eq_3 _ _ _ (by simp)]
          rcases List.mem_cons.mp hw with rfl | hmore
          · exact List.mem_append_left _ (List.mem_append_left _ hc)
          · exact List.mem_append_right _ (ih hmore)

theorem mem_joinWith {sep : List Char} {c : Char} (h : c ∈ joinWith sep ws) :
    c ∈ sep ∨ ∃ w ∈ ws, c ∈ w := by
  induction ws with
  | nil => exact nomatch h
  | cons w ws ih =>
      cases ws with
      | nil => exact .inr ⟨w, List.mem_singleton_self w, h⟩
      | cons next more =>
          rw [joinWith, List.mem_append, List.mem_append] at h
          · rcases h with (hfirst | hsep) | hrest
            · exact .inr ⟨w, List.mem_cons_self, hfirst⟩
            · exact .inl hsep
            · obtain hsep | ⟨v, hv, hc⟩ := ih hrest
              · exact .inl hsep
              · exact .inr ⟨v, List.mem_cons_of_mem w hv, hc⟩
          · exact List.cons_ne_nil next more

/-- Joined tokens begin with the first of them. -/
theorem head?_joinWith (hw : w ≠ []) : (joinWith [' '] (w :: ws)).head? = w.head? := by
  cases ws with
  | nil => rfl
  | cons next more =>
      rw [joinWith_cons (List.cons_ne_nil next more), List.head?_append_of_ne_nil _ hw]

/-- Joined tokens end with the last of them. -/
theorem getLast?_joinWith_tokens (hw : w ≠ []) :
    (joinWith [' '] (ws ++ [w])).getLast? = w.getLast? := by
  have hend : w.getLast? = some (w.getLast hw) := List.getLast?_eq_some_getLast hw
  induction ws with
  | nil => rfl
  | cons v ws ih =>
      have hne : ws ++ [w] ≠ [] := List.append_ne_nil_of_right_ne_nil _ (List.cons_ne_nil _ _)
      rw [List.cons_append, joinWith_cons hne, List.getLast?_append, List.getLast?_cons, ih, hend]
      rfl

end Text
end GemBinder
