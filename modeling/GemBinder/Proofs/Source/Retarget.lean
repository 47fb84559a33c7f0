import Mathlib.Data.List.Basic
import Mathlib.Data.List.Infix
import GemBinder.Proofs.Text.Words
import GemBinder.Source

/-! # Renaming calls in code

    `replaceCalls` walks through a text and writes something else for every
    call that stands at a word boundary.  A stretch in which no call begins
    is kept (`replaceCalls_append_of_free`), and a call at a boundary is
    replaced as a whole (`replaceCalls_call`); a text that is cut into such
    stretches can be followed from cut to cut. -/

namespace GemBinder

open Text

/-! ## Occurrences -/

/-- No call begins in a stretch, given what follows it. -/
def FreeBefore (call s t : List Char) : Prop :=
  ∀ u v, s = u ++ v → v ≠ [] → ¬ call <+: v ++ t

/-- A stretch is free of a call if it is free of the letters that the call
    begins with, up to where what follows could complete them. -/
theorem freeBefore_of_tag {tag call s t : List Char} (htag : tag <+: call)
    (h : contains tag (s ++ t.take (tag.length - 1)) = false) : FreeBefore call s t := by
  intro u v hs hv hcall
  have htagvt : tag <+: v ++ t := htag.trans hcall
  have hlen : 1 ≤ v.length := List.length_pos_iff.mpr hv
  -- the letters end before the cut
  have hcut : tag <+: v ++ t.take (tag.length - 1) := by
    refine List.prefix_of_prefix_length_le htagvt
      ((List.prefix_append_right_inj v).mpr (List.take_prefix _ t)) ?_
    have htaglen := htagvt.length_le
    rw [List.length_append] at htaglen
    rw [List.length_append, List.length_take]
    omega
  have hstands : tag <:+: s ++ t.take (tag.length - 1) := by
    rw [hs, List.append_assoc]
    exact hcut.isInfix.trans (List.suffix_append u _).isInfix
  rw [contains_eq_true_iff.mpr hstands] at h
  exact nomatch h

/-! ## Stretches -/

variable {call replacement : List Char}

/-- The character before what follows a stretch. -/
def lastOr (before : Option Char) (s : List Char) : Option Char := s.getLast?.or before

theorem lastOr_cons (before : Option Char) (c : Char) (s : List Char) :
    lastOr before (c :: s) = lastOr (some c) s := by
  unfold lastOr
  cases s with
  | nil => rfl
  | cons d s => rw [List.getLast?_cons_cons, List.getLast?_cons, Option.some_or, Option.some_or]

/-- The rest of a call is passed over. -/
theorem replaceCalls_skip (u s : List Char) (before : Option Char) :
    replaceCalls call replacement u.length before (u ++ s)
      = replaceCalls call replacement 0 (lastOr before u) s := by
  induction u generalizing before with
  | nil => rfl
  | cons c u ih =>
      rw [lastOr_cons]
      exact ih (some c)

/-- A stretch in which no call begins is kept. -/
theorem replaceCalls_append_of_free {s t : List Char} (h : FreeBefore call s t)
    (before : Option Char) :
    replaceCalls call replacement 0 before (s ++ t)
      = s ++ replaceCalls call replacement 0 (lastOr before s) t := by
  induction s generalizing before with
  | nil => rfl
  | cons c s ih =>
      have hno : call.isPrefixOf (c :: (s ++ t)) = false := by
        rw [Bool.eq_false_iff, Ne, List.isPrefixOf_iff_prefix]
        exact h [] (c :: s) rfl (List.cons_ne_nil c s)
      have hs : FreeBefore call s t := fun u v huv hv => h (c :: u) v (by rw [huv]; rfl) hv
      rw [List.cons_append, replaceCalls, hno, Bool.false_and]
      rw [if_neg Bool.false_ne_true, ih hs, lastOr_cons]
      rfl

/-- A text in which no call begins is kept. -/
theorem replaceCalls_of_free {s : List Char} (h : FreeBefore call s []) (before : Option Char) :
    replaceCalls call replacement 0 before s = s := by
  have happ : replaceCalls call replacement 0 before (s ++ []) = s ++ [] :=
    replaceCalls_append_of_free h before
  rw [List.append_nil] at happ
  exact happ

/-- A call at a word boundary is replaced as a whole. -/
theorem replaceCalls_call {c : Char} {more t : List Char} {before : Option Char}
    (hbound : isWordBoundary before (some c) = true) :
    replaceCalls (c :: more) replacement 0 before (c :: more ++ t)
      = replacement ++ replaceCalls (c :: more) replacement 0 (lastOr (some c) more) t := by
  have hyes : (c :: more).isPrefixOf (c :: (more ++ t)) = true :=
    List.isPrefixOf_iff_prefix.mpr (List.prefix_append (c :: more) t)
  rw [List.cons_append, replaceCalls, hyes, hbound, Bool.true_and, if_pos rfl]
  rw [List.length_cons, Nat.add_sub_cancel, replaceCalls_skip]

/-- To a symbol without backslashes, code is renamed call by call. -/
theorem retarget_of_plain {m : Method} {symbol : String} (hne : m.vmName ≠ symbol)
    (hsymbol : '\\' ∉ symbol.toList) (code : String) :
    retarget code m symbol
      = .ok (String.ofList
          (replaceCalls (callOf m.vmName) (callOf symbol) 0 none code.toList)) := by
  have hplain : ¬ (callOf symbol).contains '\\' = true := by
    rw [List.contains_iff_mem]
    intro hmem
    rcases List.mem_append.mp hmem with hs | hp
    · exact hsymbol hs
    · exact absurd hp (by decide)
  have hexpand : Pattern.expand (callOf m.vmName) [.text (callOf symbol)] = callOf symbol :=
    List.append_nil _
  rw [retarget, if_neg fun h => hne (beq_iff_eq.mp h)]
  dsimp only
  rw [if_neg hplain]
  dsimp only
  rw [hexpand]

/-! ## Mentions -/

/-- A name and an opening parenthesis stand at a word boundary of a text. -/
def Mentions (name text : String) : Prop :=
  ∃ u v, text.toList = u ++ callOf name ++ v ∧
    isWordBoundary u.getLast? (callOf name).head? = true

theorem callsFrom_eq_true_iff {s : List Char} {before : Option Char} (hne : call ≠ []) :
    callsFrom call before s = true ↔
      ∃ u v, s = u ++ call ++ v ∧ isWordBoundary (lastOr before u) call.head? = true := by
  induction s generalizing before with
  | nil =>
      constructor
      · intro h
        rw [callsFrom] at h
        exact absurd (List.isEmpty_iff.mp (Bool.and_eq_true_iff.mp h).1) hne
      · rintro ⟨u, v, hs, -⟩
        exact absurd (List.append_eq_nil_iff.mp (List.append_eq_nil_iff.mp hs.symm).1).2 hne
  | cons c rest ih =>
      rw [callsFrom, Bool.or_eq_true, Bool.and_eq_true, List.isPrefixOf_iff_prefix, ih]
      have hhead : ∀ v, call ++ v = c :: rest → call.head? = some c := by
        intro v hv
        have heads := congrArg List.head? hv
        rw [List.head?_append_of_ne_nil _ hne] at heads
        exact heads
      -- the call stands at the start of the text or begins in the rest
      constructor
      · rintro (⟨⟨v, hv⟩, hbound⟩ | ⟨u, v, rfl, hbound⟩)
        · refine ⟨[], v, hv.symm, ?_⟩
          rw [hhead v hv]
          exact hbound
        · refine ⟨c :: u, v, rfl, ?_⟩
          rw [lastOr_cons]
          exact hbound
      · rintro ⟨u, v, hs, hbound⟩
        cases u with
        | nil =>
            rw [hhead v hs.symm] at hbound
            exact .inl ⟨⟨v, hs.symm⟩, hbound⟩
        | cons d u =>
            obtain ⟨rfl, hrest⟩ := List.cons.inj hs
            rw [lastOr_cons] at hbound
            exact .inr ⟨u, v, hrest, hbound⟩

/-- **CODE CALLS A NAME** just when it mentions it. -/
theorem calls_eq_true_iff {name code : String} : calls name code = true ↔ Mentions name code := by
  have hne : callOf name ≠ [] := List.append_ne_nil_of_right_ne_nil _ (List.cons_ne_nil _ _)
  rw [calls, callsFrom_eq_true_iff hne]
  unfold lastOr Mentions
  simp only [Option.or_none]

/-- The lines of code are its text without the newlines at the end. -/
theorem toList_joinStrings_linesOfCode (code : String) :
    (joinStrings "\n" (linesOfCode code)).toList
      = trimEndWhere (· == '\n') code.toList := by
  have hpieces : ∀ pieces : List (List Char),
      (pieces.map String.ofList).map String.toList = pieces := by
    intro pieces
    rw [List.map_map]
    refine (List.map_congr_left fun p _ => ?_).trans (List.map_id pieces)
    exact String.toList_ofList
  rw [toList_joinStrings, linesOfCode, hpieces]
  exact joinWith_splitAtChar '\n' _

/-- What code mentions, its lines do. -/
theorem Mentions.linesOfCode {name code : String} (h : Mentions name code) :
    Mentions name (joinStrings "\n" (linesOfCode code)) := by
  obtain ⟨u, v, hcode, hbound⟩ := h
  refine ⟨u, trimEndWhere (· == '\n') v, ?_, hbound⟩
  have hlast : (u ++ callOf name).getLast? = some '(' := by
    rw [callOf, ← List.append_assoc, List.getLast?_concat]
  rw [toList_joinStrings_linesOfCode, hcode]
  exact trimEndWhere_append hlast (by decide)

end GemBinder
