import Mathlib.Data.List.Basic
import GemBinder.Proofs.Text.Casing
import GemBinder.Proofs.Text.Words
import GemBinder.Symbol

/-! # Spellings lose characters and gain none

    The normal form of a type and the type of a copy are made of characters
    of the spelling, and a fragment of a name is made of characters of
    identifiers.  What can be said of every character of a declaration can
    therefore be said of the texts that are made from it. -/

namespace GemBinder

open Text TypeSpelling

/-! ## Types -/

namespace TypeSpelling

theorem mem_of_mem_tighten {mark c : Char} {s : List Char} (h : c ∈ tighten mark s) :
    c ∈ s := by
  have hfrom : ∀ (s : List Char) (behind : Bool), c ∈ tightenFrom mark behind s → c ∈ s := by
    intro s
    induction s with
    | nil => intro behind h; exact nomatch h
    | cons d rest ih =>
        intro behind h
        rw [tightenFrom] at h
        by_cases hblank : isBlank d = true
        · rw [if_pos hblank] at h
          by_cases hdrop : (behind || (rest.dropWhile isBlank).head? == some mark) = true
          · rw [if_pos hdrop] at h
            exact List.mem_cons_of_mem _ (ih behind h)
          · rw [if_neg hdrop] at h
            rcases List.mem_cons.mp h with rfl | hrest
            · exact List.mem_cons_self
            · exact List.mem_cons_of_mem _ (ih false hrest)
        · rw [if_neg hblank] at h
          rcases List.mem_cons.mp h with rfl | hrest
          · exact List.mem_cons_self
          · exact List.mem_cons_of_mem _ (ih (d == mark) hrest)
  exact hfrom s false h

theorem mem_of_mem_squeeze {c : Char} {s : List Char} (h : c ∈ squeeze s) : c ∈ s := by
  induction s with
  | nil => exact nomatch h
  | cons d rest ih =>
      rw [squeeze] at h
      by_cases hdrop : (d == ' ' && rest.head? == some ' ') = true
      · rw [if_pos hdrop] at h
        exact List.mem_cons_of_mem _ (ih h)
      · rw [if_neg hdrop] at h
        rcases List.mem_cons.mp h with rfl | hrest
        · exact List.mem_cons_self
        · exact List.mem_cons_of_mem _ (ih hrest)

theorem mem_of_mem_collapse {c : Char} {s : List Char} (h : c ∈ collapse s) : c ∈ s :=
  mem_of_mem_tighten (mem_of_mem_tighten (mem_of_mem_squeeze (mem_of_mem_trim h)))

theorem mem_of_mem_dropConst {c : Char} {s : List Char} (h : c ∈ dropConst s) : c ∈ s := by
  unfold dropConst at h
  dsimp only at h
  split at h
  · exact List.mem_of_mem_drop ((List.dropWhile_sublist _).subset h)
  · exact h

/-- The normal form of a type is made of its characters. -/
theorem mem_of_mem_normalize {c : Char} {s : List Char} (h : c ∈ normalize s) : c ∈ s := by
  have htrim := mem_of_mem_trim h
  split at htrim
  · exact mem_of_mem_collapse (mem_of_mem_dropConst (List.dropLast_subset _ htrim))
  · exact mem_of_mem_collapse (mem_of_mem_dropConst htrim)

/-- The type of a copy is made of the characters of the type. -/
theorem mem_of_mem_byValue {c : Char} {s : List Char} (h : c ∈ byValue s) : c ∈ s := by
  unfold byValue at h
  dsimp only at h
  split at h
  · exact mem_of_mem_trim (List.dropLast_subset _ (mem_of_mem_trimEnd h))
  · exact mem_of_mem_trim h

theorem lowerAscii_eq_lowerChar {c : Char} (h : c.toNat < 128) : lowerAscii c = lowerChar c := by
  rw [lowerAscii, lowerChar, if_pos h]

/-- **A FRAGMENT OF A NAME** is made of characters of identifiers. -/
theorem isIdentifierChar_of_mem_nameFragment {c : Char} {s : List Char}
    (h : c ∈ nameFragment s) : isIdentifierChar c = true := by
  obtain ⟨d, hd, rfl⟩ := List.mem_map.mp h
  have hid : isIdentifierChar d = true := (List.mem_filter.mp hd).2
  have hascii := toNat_lt_of_isIdentifierChar hid
  rw [lowerAscii_eq_lowerChar hascii, isIdentifierChar_lowerChar hascii]
  exact hid

/-- A fragment of a name holds no newline. -/
theorem newline_notMem_nameFragment (s : List Char) : '\n' ∉ nameFragment s := by
  intro h
  exact absurd (isIdentifierChar_of_mem_nameFragment h) (by decide)

theorem oneLine_nameFragmentString (s : String) : OneLine (nameFragmentString s) :=
  oneLine_ofList.mpr (newline_notMem_nameFragment s.toList)

theorem oneLine_byValueString {s : String} (h : OneLine s) : OneLine (byValueString s) :=
  oneLine_ofList.mpr (fun hm => h (mem_of_mem_byValue hm))

theorem oneLine_normalizeString {s : String} (h : OneLine s) : OneLine (normalizeString s) :=
  oneLine_ofList.mpr (fun hm => h (mem_of_mem_normalize hm))

end TypeSpelling
end GemBinder
