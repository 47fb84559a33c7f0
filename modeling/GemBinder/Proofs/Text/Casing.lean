import Mathlib.Data.List.Basic
import GemBinder.Proofs.Text.Lines
import GemBinder.Text.Casing

/-! # What lower case does not bring in

    The lower case of a character may be several others, and of a character
    outside ASCII it may be inside.  It is never a mark below the small
    letters, though, unless that mark was there before: no newline, no
    backslash and no colon comes from letter case.  Nor does it bring in
    anything that has another lower case itself. -/

namespace GemBinder.Text

/-- Every shift ends at the small letters or above. -/
theorem lowerShifts_floor : ∀ s ∈ lowerShifts, (97 : Int) ≤ s.first + s.delta := by
  decide +kernel

/-- What a code point outside ASCII is shifted to is no mark below the small
    letters. -/
theorem shifted_lower_floor {n : Nat} (hn : 97 ≤ n) : 97 ≤ shifted lowerShifts n := by
  rw [shifted]
  cases hfind : lowerShifts.find? (·.covers n) with
  | none => exact hn
  | some s =>
      have hfloor := lowerShifts_floor s (List.mem_of_find?_eq_some hfind)
      have hcovers := List.find?_some hfind
      have hfirst : s.first ≤ n := by
        rw [Shift.covers, Bool.and_eq_true, Bool.and_eq_true] at hcovers
        exact of_decide_eq_true hcovers.1.1
      show 97 ≤ ((n : Int) + s.delta).toNat
      omega

theorem toNat_ofNat_eq_or (n : Nat) : (Char.ofNat n).toNat = n ∨ (Char.ofNat n).toNat = 0 := by
  by_cases hv : n.isValidChar
  · refine Or.inl ?_
    rw [Char.ofNat, dif_pos hv]
    rfl
  · refine Or.inr ?_
    rw [Char.ofNat, dif_neg hv]
    rfl

/-- A mark: a character below the small letters. -/
def IsMark (c : Char) : Prop := 0 < c.toNat ∧ c.toNat < 97

instance (c : Char) : Decidable (IsMark c) :=
  inferInstanceAs (Decidable (_ ∧ _))

theorem isMark_newline : IsMark '\n' := by decide

theorem isMark_backslash : IsMark '\\' := by decide

/-- The lower case of a single character is no mark, unless it is that mark. -/
theorem eq_of_isMark_lowerChar {c : Char} (h : IsMark (lowerChar c)) : lowerChar c = c := by
  rw [lowerChar] at h ⊢
  by_cases hascii : c.toNat < 128
  · rw [if_pos hascii] at h ⊢
    by_cases hcap : ('A' ≤ c && c ≤ 'Z') = true
    · -- a capital letter becomes a small one
      rw [if_pos hcap] at h
      rw [Bool.and_eq_true, decide_eq_true_iff, decide_eq_true_iff] at hcap
      have hlow : 65 ≤ c.toNat := hcap.1
      rcases toNat_ofNat_eq_or (c.toNat + 32) with heq | heq
      · have := h.2
        omega
      · have := h.1
        omega
    · rw [if_neg hcap]
  · rw [if_neg hascii] at h ⊢
    by_cases hdot : (c.toNat == 0x130) = true
    · rw [if_pos hdot] at h
      exact absurd h (by decide)
    · rw [if_neg hdot] at h
      -- no shift leads below the small letters, where all marks are
      have hfloor : 97 ≤ shifted lowerShifts c.toNat := shifted_lower_floor (by omega)
      rcases toNat_ofNat_eq_or (shifted lowerShifts c.toNat) with heq | heq
      · have := h.2
        omega
      · have := h.1
        omega

theorem eq_of_mem_lowerAt {before after : List Char} {c mark : Char} (hmark : IsMark mark)
    (h : mark ∈ lowerAt before c after) : mark = c := by
  rw [lowerAt] at h
  by_cases hsigma : (c.toNat == 0x3A3) = true
  · rw [if_pos hsigma, List.mem_singleton] at h
    subst h
    by_cases hfinal : (meetsCased before && !meetsCased after) = true
    · rw [if_pos hfinal] at hmark
      exact absurd hmark (by decide)
    · rw [if_neg hfinal] at hmark
      exact absurd hmark (by decide)
  · rw [if_neg hsigma] at h
    by_cases hdot : (c.toNat == 0x130) = true
    · rw [if_pos hdot] at h
      rcases List.mem_cons.mp h with rfl | hrest
      · exact absurd hmark (by decide)
      · rw [List.mem_singleton.mp hrest] at hmark
        exact absurd hmark (by decide)
    · rw [if_neg hdot, List.mem_singleton] at h
      rw [h] at hmark
      rw [h, eq_of_isMark_lowerChar hmark]

/-- **NO MARK COMES FROM LETTER CASE.** -/
theorem mem_of_mem_lower {s : List Char} {mark : Char} (hmark : IsMark mark)
    (h : mark ∈ lower s) : mark ∈ s := by
  have hfrom : ∀ (s before : List Char), mark ∈ lowerFrom before s → mark ∈ s := by
    intro s
    induction s with
    | nil => intro before h; exact nomatch h
    | cons c rest ih =>
        intro before h
        rcases List.mem_append.mp h with hhere | hrest
        · rw [eq_of_mem_lowerAt hmark hhere]
          exact List.mem_cons_self
        · exact List.mem_cons_of_mem _ (ih (c :: before) hrest)
  exact hfrom s [] h

/-- Nor is one lost. -/
theorem mem_lower_of_mem {s : List Char} {mark : Char} (hfix : ∀ b a, lowerAt b mark a = [mark])
    (h : mark ∈ s) : mark ∈ lower s := by
  have hfrom : ∀ (s before : List Char), mark ∈ s → mark ∈ lowerFrom before s := by
    intro s
    induction s with
    | nil => intro before h; exact nomatch h
    | cons c rest ih =>
        intro before h
        rcases List.mem_cons.mp h with rfl | hrest
        · refine List.mem_append_left _ ?_
          rw [hfix]
          exact List.mem_singleton_self _
        · exact List.mem_append_right _ (ih (c :: before) hrest)
  exact hfrom s [] h

theorem OneLine.lowerString {s : String} (h : OneLine s) : OneLine (lowerString s) := by
  refine oneLine_ofList.mpr ?_
  intro hm
  exact h (mem_of_mem_lower isMark_newline hm)

/-! ## Identifiers -/

theorem toNat_lt_of_isIdentifierChar {c : Char} (h : isIdentifierChar c = true) :
    c.toNat < 128 := by
  have hle : ∀ d : Char, d.toNat < 128 → c ≤ d → c.toNat < 128 :=
    fun d hd hc => Nat.lt_of_le_of_lt hc hd
  rw [isIdentifierChar, isAsciiLetter, isAsciiDigit] at h
  simp only [Bool.or_eq_true, Bool.and_eq_true, decide_eq_true_eq, beq_iff_eq] at h
  rcases h with ((⟨-, hz⟩ | ⟨-, hz⟩) | ⟨-, hz⟩) | rfl
  · exact hle 'z' (by decide) hz
  · exact hle 'Z' (by decide) hz
  · exact hle '9' (by decide) hz
  · decide

/-- The sign for kelvin, whose lower case is the letter k. -/
def kelvin : Char := Char.ofNat 0x212A

/-- Inside ASCII, lower case neither makes nor spoils a character of
    identifiers. -/
theorem isIdentifierChar_lowerChar {c : Char} (h : c.toNat < 128) :
    isIdentifierChar (lowerChar c) = isIdentifierChar c := by
  have hall : ∀ n < 128,
      isIdentifierChar (lowerChar (Char.ofNat n)) = isIdentifierChar (Char.ofNat n) := by decide
  rw [← Char.ofNat_toNat c]
  exact hall c.toNat h

/-- Only the shift of the sign for kelvin leads into ASCII. -/
theorem lowerShifts_ascii : ∀ s ∈ lowerShifts,
    (128 : Int) ≤ s.first + s.delta ∨ s.first = kelvin.toNat ∧ s.last = kelvin.toNat := by
  decide +kernel

theorem shifted_lower_ascii {n : Nat} (hn : 128 ≤ n) (h : shifted lowerShifts n < 128) :
    n = kelvin.toNat := by
  rw [shifted] at h
  cases hfind : lowerShifts.find? (·.covers n) with
  | none =>
      rw [hfind] at h
      exact absurd hn (Nat.not_le.mpr h)
  | some s =>
      rw [hfind] at h
      have hcovers := List.find?_some hfind
      rw [Shift.covers, Bool.and_eq_true, Bool.and_eq_true, decide_eq_true_iff,
        decide_eq_true_iff] at hcovers
      obtain ⟨⟨hfirst, hlast⟩, -⟩ := hcovers
      have himage : ((n : Int) + s.delta).toNat < 128 := h
      rcases lowerShifts_ascii s (List.mem_of_find?_eq_some hfind) with hfloor | ⟨hlow, hhigh⟩
      · omega
      · omega

/-- Outside ASCII, lower case makes a character of identifiers of the sign for
    kelvin alone. -/
theorem isIdentifierChar_lowerChar_iff {c : Char} (h : 128 ≤ c.toNat) (hdot : c.toNat ≠ 0x130) :
    isIdentifierChar (lowerChar c) = true ↔ c = kelvin := by
  constructor
  · intro hid
    rw [lowerChar, if_neg (Nat.not_lt.mpr h), if_neg (by simpa using hdot)] at hid
    refine Char.toNat_inj.mp (shifted_lower_ascii h ?_)
    have hascii := toNat_lt_of_isIdentifierChar hid
    rcases toNat_ofNat_eq_or (shifted lowerShifts c.toNat) with heq | heq
    · omega
    · have hzero : Char.ofNat (shifted lowerShifts c.toNat) = Char.ofNat 0 := Char.toNat_inj.mp heq
      rw [hzero] at hid
      exact absurd hid (by decide)
  · rintro rfl
    decide +kernel

/-- What stands for one character in lower case is made of characters of
    identifiers just when the character is one, or is the sign for kelvin. -/
theorem isIdentifierChar_lowerAt_iff {before after : List Char} {c : Char} :
    (∀ d ∈ lowerAt before c after, isIdentifierChar d = true) ↔
      isIdentifierChar c = true ∨ c = kelvin := by
  by_cases hascii : c.toNat < 128
  · have hsigma : ¬ (c.toNat == 0x3A3) = true := by rw [beq_iff_eq]; omega
    have hdot : ¬ (c.toNat == 0x130) = true := by rw [beq_iff_eq]; omega
    have hkelvin : c ≠ kelvin := by
      rintro rfl
      exact absurd hascii (by decide)
    rw [lowerAt, if_neg hsigma, if_neg hdot, List.forall_mem_singleton,
      isIdentifierChar_lowerChar hascii, or_iff_left hkelvin]
  · have hnone : ¬ isIdentifierChar c = true := fun h => hascii (toNat_lt_of_isIdentifierChar h)
    rw [or_iff_right hnone, lowerAt]
    by_cases hsigma : c.toNat = 0x3A3
    · -- neither form of the small sigma is inside
      rw [if_pos (beq_iff_eq.mpr hsigma), List.forall_mem_singleton]
      refine iff_of_false ?_ ?_
      · split <;> decide
      · rintro rfl
        exact absurd hsigma (by decide)
    · rw [if_neg fun h => hsigma (beq_iff_eq.mp h)]
      by_cases hdot : c.toNat = 0x130
      · rw [if_pos (beq_iff_eq.mpr hdot)]
        refine iff_of_false ?_ ?_
        · intro h
          exact absurd (h (Char.ofNat 0x307) (List.mem_cons_of_mem _ List.mem_cons_self))
            (by decide)
        · rintro rfl
          exact absurd hdot (by decide)
      · rw [if_neg fun h => hdot (beq_iff_eq.mp h), List.forall_mem_singleton]
        exact isIdentifierChar_lowerChar_iff (Nat.not_lt.mp hascii) hdot

/-- **LOWER CASE AND IDENTIFIERS**: the lower case of a text is made of
    characters of identifiers just when the text is, signs for kelvin aside. -/
theorem isIdentifierChar_lower_iff {s : List Char} :
    (∀ d ∈ lower s, isIdentifierChar d = true) ↔
      ∀ c ∈ s, isIdentifierChar c = true ∨ c = kelvin := by
  have hfrom : ∀ (s before : List Char), (∀ d ∈ lowerFrom before s, isIdentifierChar d = true) ↔
      ∀ c ∈ s, isIdentifierChar c = true ∨ c = kelvin := by
    intro s
    induction s with
    | nil => intro before; exact iff_of_true nofun nofun
    | cons c rest ih =>
        intro before
        rw [lowerFrom, List.forall_mem_append, List.forall_mem_cons, isIdentifierChar_lowerAt_iff, ih]
  exact hfrom s []

/-! ## Lower case of lower case -/

/-- A set of code points as the bits of one number, which can be compared with
    another set at once. -/
def bitsOf (points : List Nat) : Nat := points.foldr (fun n bits => 1 <<< n ||| bits) 0

theorem testBit_bitsOf {points : List Nat} {n : Nat} :
    (bitsOf points).testBit n = true ↔ n ∈ points := by
  induction points with
  | nil => simp [bitsOf]
  | cons m points ih =>
      rw [bitsOf, List.foldr_cons, ← bitsOf, Nat.testBit_or, Bool.or_eq_true, ih, Nat.one_shiftLeft,
        Nat.testBit_two_pow, decide_eq_true_iff, List.mem_cons, eq_comm]

/-- The code points that a shift moves. -/
def Shift.points (s : Shift) : List Nat :=
  (List.range ((s.last - s.first) / s.step + 1)).map fun i => s.first + i * s.step

/-- The code points that a shift leads to. -/
def Shift.images (s : Shift) : List Nat := s.points.map fun n : Nat => ((n : Int) + s.delta).toNat

theorem Shift.mem_points {s : Shift} {n : Nat} (h : s.covers n = true) : n ∈ s.points := by
  rw [covers] at h
  simp only [Bool.and_eq_true, decide_eq_true_eq, beq_iff_eq] at h
  obtain ⟨⟨hfirst, hlast⟩, hstep⟩ := h
  refine List.mem_map.mpr ⟨(n - s.first) / s.step, List.mem_range.mpr ?_, ?_⟩
  · exact Nat.lt_succ_of_le (Nat.div_le_div_right (Nat.sub_le_sub_right hlast _))
  · rw [Nat.div_mul_cancel (Nat.dvd_of_mod_eq_zero hstep), Nat.add_sub_of_le hfirst]

/-- The sigma and the dotted capital I, whose lower case is not in the table. -/
def exceptions : List Shift := [⟨0x3A3, 0x3A3, 1, 0⟩, ⟨0x130, 0x130, 1, 0⟩]

theorem not_covers_exceptions {n : Nat} :
    (∀ t ∈ exceptions, t.covers n = false) ↔ n ≠ 0x3A3 ∧ n ≠ 0x130 := by
  have hpoint : ∀ m, (Shift.mk m m 1 0).covers n = false ↔ n ≠ m := by
    intro m
    rw [Shift.covers, Nat.mod_one, Bool.eq_false_iff, ne_eq, ne_eq, not_iff_not]
    simp only [BEq.rfl, Bool.and_true, Bool.and_eq_true, decide_eq_true_eq]
    omega
  simp only [exceptions, List.forall_mem_cons, List.not_mem_nil, false_implies, implies_true,
    and_true, hpoint]

/-- No shift leads to a code point with another lower case. -/
theorem lowerShifts_apart :
    bitsOf ((exceptions ++ lowerShifts).flatMap Shift.points) &&&
      bitsOf (lowerShifts.flatMap Shift.images) = 0 := by
  decide +kernel

/-- What a code point is shifted to stays where it is. -/
theorem not_covers_shifted {n : Nat} (hn : ∀ t ∈ exceptions, t.covers n = false) :
    ∀ t ∈ exceptions ++ lowerShifts, t.covers (shifted lowerShifts n) = false := by
  intro t ht
  rw [shifted]
  cases hfind : lowerShifts.find? (·.covers n) with
  | none =>
      rcases List.mem_append.mp ht with hexception | hshift
      · exact hn t hexception
      · exact Bool.eq_false_iff.mpr (List.find?_eq_none.mp hfind t hshift)
  | some s =>
      have hs := List.mem_of_find?_eq_some hfind
      have hcovers := List.find?_some hfind
      rw [Bool.eq_false_iff]
      intro hmoved
      -- the code point would be in both sets
      have hpoint := testBit_bitsOf.mpr (List.mem_flatMap.mpr ⟨t, ht, t.mem_points hmoved⟩)
      have hmem : ((n : Int) + s.delta).toNat ∈ s.images :=
        List.mem_map_of_mem (s.mem_points hcovers)
      have himage := testBit_bitsOf.mpr (List.mem_flatMap.mpr ⟨s, hs, hmem⟩)
      have hboth := congrArg (Nat.testBit · ((n : Int) + s.delta).toNat) lowerShifts_apart
      rw [Nat.testBit_and, hpoint, himage, Nat.zero_testBit] at hboth
      exact nomatch hboth

/-- A character that lower case leaves as it is, wherever it stands. -/
def IsSettled (c : Char) : Prop := c.toNat ≠ 0x3A3 ∧ c.toNat ≠ 0x130 ∧ lowerChar c = c

instance (c : Char) : Decidable (IsSettled c) :=
  inferInstanceAs (Decidable (_ ∧ _))

theorem IsSettled.lowerAt {c : Char} (h : IsSettled c) (before after : List Char) :
    lowerAt before c after = [c] := by
  obtain ⟨hsigma, hdot, hsame⟩ := h
  rw [Text.lowerAt, if_neg (by simpa using hsigma), if_neg (by simpa using hdot), hsame]

theorem isSettled_lowerChar {c : Char} (hsigma : c.toNat ≠ 0x3A3) (hdot : c.toNat ≠ 0x130) :
    IsSettled (lowerChar c) := by
  by_cases hascii : c.toNat < 128
  · have hall : ∀ n < 128, IsSettled (lowerChar (Char.ofNat n)) := by decide
    rw [← Char.ofNat_toNat c]
    exact hall c.toNat hascii
  · rw [lowerChar, if_neg hascii, if_neg (by simpa using hdot)]
    have hstays := not_covers_shifted (not_covers_exceptions.mpr ⟨hsigma, hdot⟩)
    generalize hm : shifted lowerShifts c.toNat = m at hstays
    rw [List.forall_mem_append] at hstays
    obtain ⟨hnone, hstays⟩ := hstays
    rcases toNat_ofNat_eq_or m with heq | hzero
    · by_cases hlow : m < 128
      · -- the small letter k, of the sign for kelvin
        rw [← hm, shifted_lower_ascii (Nat.not_lt.mp hascii) (hm ▸ hlow)]
        decide +kernel
      · obtain ⟨hs, hd⟩ := not_covers_exceptions.mp hnone
        refine ⟨heq.symm ▸ hs, heq.symm ▸ hd, ?_⟩
        have hfind : lowerShifts.find? (·.covers m) = none :=
          List.find?_eq_none.mpr fun t ht => Bool.eq_false_iff.mp (hstays t ht)
        rw [lowerChar, heq, if_neg hlow, if_neg (by simpa using hd), shifted, hfind]
    · rw [show Char.ofNat m = Char.ofNat 0 from Char.toNat_inj.mp hzero]
      decide

/-- Whatever stands for a character in lower case is settled. -/
theorem isSettled_of_mem_lowerAt {before after : List Char} {c d : Char}
    (h : d ∈ lowerAt before c after) : IsSettled d := by
  rw [lowerAt] at h
  by_cases hsigma : (c.toNat == 0x3A3) = true
  · rw [if_pos hsigma, List.mem_singleton] at h
    subst h
    split <;> decide +kernel
  · rw [if_neg hsigma] at h
    by_cases hdot : (c.toNat == 0x130) = true
    · rw [if_pos hdot] at h
      rcases List.mem_cons.mp h with rfl | hrest
      · decide
      · rw [List.mem_singleton.mp hrest]
        decide +kernel
    · rw [if_neg hdot, List.mem_singleton] at h
      rw [h]
      exact isSettled_lowerChar (by simpa using hsigma) (by simpa using hdot)

theorem lowerFrom_of_isSettled {s : List Char} (h : ∀ c ∈ s, IsSettled c) (before : List Char) :
    lowerFrom before s = s := by
  induction s generalizing before with
  | nil => rfl
  | cons c rest ih =>
      obtain ⟨hc, hrest⟩ := List.forall_mem_cons.mp h
      rw [lowerFrom, hc.lowerAt, ih hrest, List.singleton_append]

/-- **LOWER CASE IS REACHED AT ONCE**: the lower case of a text is its own. -/
theorem lower_lower (s : List Char) : lower (lower s) = lower s := by
  have hfrom : ∀ (s before : List Char), ∀ d ∈ lowerFrom before s, IsSettled d := by
    intro s
    induction s with
    | nil => intro before; exact nofun
    | cons c rest ih =>
        intro before
        exact List.forall_mem_append.mpr ⟨fun d => isSettled_of_mem_lowerAt, ih (c :: before)⟩
  exact lowerFrom_of_isSettled (hfrom s []) []

theorem lowerString_lowerString (s : String) : lowerString (lowerString s) = lowerString s := by
  rw [lowerString, lowerString, String.toList_ofList, lower_lower]

end GemBinder.Text
