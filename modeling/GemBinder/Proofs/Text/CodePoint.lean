import GemBinder.Text.CodePoint
import GemBinder.Proofs.Text.Lines

/-! # Texts that have bytes

    A text of code points has bytes just when all of them are characters, and
    then they are the bytes of a string (`encodePoints_cases`).  Unified line
    ends change nothing about that. -/

namespace GemBinder.Text

variable {s : List CodePoint} {n : Fin 0x800}

theorem CodePoint.ofString_inj {t u : String} (h : ofString t = ofString u) : t = u :=
  String.toList_inj.mp ((List.map_injective_iff.mpr fun _ _ => CodePoint.char.inj) h)

theorem CodePoint.half_notMem_ofString (n : Fin 0x800) (t : String) : .half n ∉ ofString t := by
  intro hn
  obtain ⟨c, -, hc⟩ := List.mem_map.mp hn
  exact nomatch hc

theorem CodePoint.half_mem_unifyLineEnds :
    .half n ∈ CodePoint.unifyLineEnds s ↔ .half n ∈ s := by
  fun_induction CodePoint.unifyLineEnds s with
  | case1 => rfl
  | case2 rest ih => simpa using ih
  | case3 c rest _ ih =>
      rw [List.mem_cons, List.mem_cons, ih]
      refine or_congr_left ?_
      split
      · next hc =>
          rw [beq_iff_eq.mp hc]
          exact iff_of_false nofun nofun
      · rfl

theorem CodePoint.unifyLineEnds_map_char (cs : List Char) :
    CodePoint.unifyLineEnds (cs.map .char) = (Text.unifyLineEnds cs).map .char := by
  fun_induction Text.unifyLineEnds cs with
  | case1 => rfl
  | case2 rest ih => simp [CodePoint.unifyLineEnds, ih]
  | case3 c rest hpair ih =>
      have hpoints : ∀ more, CodePoint.char c = .char '\r' →
          rest.map CodePoint.char = .char '\n' :: more → False := by
        intro more hc hrest
        obtain ⟨d, rest', rfl, hd, -⟩ := List.map_eq_cons_iff.mp hrest
        cases hc
        cases hd
        exact hpair rest' rfl rfl
      rw [List.map_cons, CodePoint.unifyLineEnds, ih, List.map_cons]
      · by_cases hc : c = '\r'
        · simp [hc]
        · simp [hc]
      · exact hpoints

theorem CodePoint.unifyLineEnds_ofString (s : String) :
    CodePoint.unifyLineEnds (CodePoint.ofString s) = CodePoint.ofString (unifyLineEndsOf s) := by
  rw [CodePoint.ofString, CodePoint.unifyLineEnds_map_char, CodePoint.ofString, unifyLineEndsOf,
    String.toList_ofList]

theorem encodeFrom_map_char (position : Nat) (cs : List Char) :
    encodeFrom position (cs.map .char) = .ok (cs.flatMap String.utf8EncodeChar) := by
  induction cs generalizing position with
  | nil => rfl
  | cons c cs ih =>
      rw [List.map_cons, encodeFrom, ih]
      rfl

/-- **A STRING IS ENCODED** as it is. -/
theorem encodePoints_ofString (s : String) : encodePoints (CodePoint.ofString s) = .ok (encode s) :=
  encodeFrom_map_char 0 s.toList

theorem exists_encodeFrom_error (hn : .half n ∈ s) (position : Nat) :
    ∃ e, encodeFrom position s = .error e := by
  induction s generalizing position with
  | nil => exact absurd hn List.not_mem_nil
  | cons c s ih =>
      cases c with
      | half m => exact ⟨_, rfl⟩
      | char c =>
          obtain ⟨e, he⟩ := ih ((List.mem_cons.mp hn).resolve_left nofun) (position + 1)
          refine ⟨e, ?_⟩
          rw [encodeFrom, he]
          rfl

theorem exists_ofString (h : ∀ n, .half n ∉ s) : ∃ t, s = CodePoint.ofString t := by
  induction s with
  | nil => exact ⟨"", rfl⟩
  | cons c s ih =>
      obtain ⟨t, rfl⟩ := ih fun n hn => h n (List.mem_cons_of_mem c hn)
      cases c with
      | half n => exact absurd List.mem_cons_self (h n)
      | char c => exact ⟨String.ofList (c :: t.toList), by simp [CodePoint.ofString]⟩

/-- **WHICH TEXTS HAVE BYTES**: strings do, and a text with half of a surrogate
    pair has none. -/
theorem encodePoints_cases (s : List CodePoint) :
    (∃ t, s = CodePoint.ofString t ∧
        encodePoints (CodePoint.unifyLineEnds s) = .ok (encode (unifyLineEndsOf t))) ∨
      (∀ t, s ≠ CodePoint.ofString t) ∧ ∃ e, encodePoints (CodePoint.unifyLineEnds s) = .error e := by
  by_cases hs : ∃ n, .half n ∈ s
  · obtain ⟨n, hn⟩ := hs
    refine .inr ⟨?_, exists_encodeFrom_error (CodePoint.half_mem_unifyLineEnds.mpr hn) 0⟩
    rintro t rfl
    exact CodePoint.half_notMem_ofString n t hn
  · obtain ⟨t, rfl⟩ := exists_ofString (not_exists.mp hs)
    exact .inl ⟨t, rfl, by rw [CodePoint.unifyLineEnds_ofString, encodePoints_ofString]⟩

end GemBinder.Text
