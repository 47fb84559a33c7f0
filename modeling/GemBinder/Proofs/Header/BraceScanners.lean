import GemBinder.Proofs.Header.Braces

/-! # The two scanners of braces

    One scanner looks for the brace that closes a block, the other cuts all
    blocks out of a text.  Each counts how deep it is, the second without ever
    going below the top level, so that a brace that closes nothing does not
    matter to it (`openFrom`).  Behind a balanced text both are as deep as before
    it, and so the scanners agree: at the top level, the block that the first
    one finds is the one that the second one leaves out (`scanners_agree`). -/

namespace GemBinder.Header

variable {s u v w rest : List Char} {c : Char} {d n k i : Nat}

/-! ## The top level of a text in parts -/

/-- How many blocks the search for the top level has open behind a text, where
    `d` were open before it. -/
def openFrom (d : Nat) : List Char → Nat
  | [] => d
  | c :: rest => openFrom (if c = '{' then d + 1 else if c = '}' then d - 1 else d) rest

/-- **THE TOP LEVEL IS TAKEN PART BY PART**: behind a text the search goes on
    with the blocks that are open there. -/
theorem topLevelFrom_parts (d : Nat) (u v : List Char) :
    topLevelFrom d (u ++ v) = topLevelFrom d u ++ topLevelFrom (openFrom d u) v := by
  induction u generalizing d with
  | nil => rfl
  | cons c u ih =>
      rw [List.cons_append]
      rcases brace_cases c with rfl | rfl | ⟨ho, hc⟩
      · exact ih (d + 1)
      · -- the brace closes the one open block, an inner one, or nothing
        match d with
        | 0 => exact ih 0
        | 1 => exact congrArg (';' :: ·) (ih 0)
        | d + 2 => exact ih (d + 1)
      · have hopen : openFrom d (c :: u) = openFrom d u := by
          rw [openFrom, if_neg ho, if_neg hc]
        rw [hopen]
        cases d with
        | zero =>
            have hshown : ∀ rest, topLevelFrom 0 (c :: rest) = c :: topLevelFrom 0 rest := by
              intro rest
              rw [topLevelFrom, if_neg (by simpa using ho), if_neg (by simpa using hc),
                if_pos (beq_self_eq_true 0)]
            rw [hshown, hshown, ih, List.cons_append]
        | succ d => rw [topLevelFrom_other ho hc, topLevelFrom_other ho hc, ih]

/-- A block of the top level is left out, and a semicolon marks its place. -/
theorem topLevelFrom_block (hw : Balanced w) (v : List Char) :
    topLevelFrom 0 (block w ++ v) = ';' :: topLevel v := by
  rw [block, List.cons_append, topLevelFrom_open, List.append_assoc, List.singleton_append,
    topLevelFrom_append (hw.depth 0)]
  rfl

/-- A block of the top level that nothing closes takes all that is left. -/
theorem topLevelFrom_open_block (h : (depthFrom? 0 w).isSome = true) :
    topLevelFrom 0 ('{' :: w) = [] := by
  obtain ⟨n, hn⟩ := Option.isSome_iff_exists.mp h
  have hall := topLevelFrom_append hn []
  rwa [List.append_nil] at hall

/-- **NO BRACE IS AT THE TOP LEVEL**. -/
theorem ne_brace_of_mem_topLevelFrom (h : c ∈ topLevelFrom d s) : c ≠ '{' ∧ c ≠ '}' := by
  induction s generalizing d with
  | nil => exact absurd h List.not_mem_nil
  | cons b s ih =>
      rcases brace_cases b with rfl | rfl | ⟨ho, hc⟩
      · exact ih (d := d + 1) h
      · match d with
        | 0 => exact ih (d := 0) h
        | 1 =>
            rcases List.mem_cons.mp (show c ∈ ';' :: topLevelFrom 0 s from h) with rfl | h
            · decide
            · exact ih h
        | d + 2 => exact ih (d := d + 1) h
      · cases d with
        | zero =>
            rw [topLevelFrom, if_neg (by simpa using ho), if_neg (by simpa using hc),
              if_pos (beq_self_eq_true 0)] at h
            rcases List.mem_cons.mp h with rfl | h
            · exact ⟨ho, hc⟩
            · exact ih h
        | succ d =>
            rw [topLevelFrom_other ho hc] at h
            exact ih h

/-! ## The end of a block in a text -/

/-- **THE BRACE AT `i` CLOSES THE BLOCK AT `k`**: the text strictly between is
    balanced. -/
structure ClosesAt (s : List Char) (k i : Nat) : Prop where
  behind : k < i
  brace : s[i]? = some '}'
  between : Balanced ((s.take i).drop (k + 1))

/-- A text at an opening brace: what stands before it, and what it opens. -/
theorem eq_append_open (hopen : s[k]? = some '{') : s = s.take k ++ '{' :: s.drop (k + 1) := by
  obtain ⟨hk, hbrace⟩ := List.getElem?_eq_some_iff.mp hopen
  rw [← hbrace, ← List.drop_eq_getElem_cons hk, List.take_append_drop]

/-- A brace closes a block just when what stands before it in the block is
    balanced. -/
theorem closesAt_iff : ClosesAt s k i ↔
    ∃ w rest, s.drop (k + 1) = w ++ '}' :: rest ∧ k + 1 + w.length = i ∧ Balanced w := by
  constructor
  · intro h
    obtain ⟨hi, hbrace⟩ := List.getElem?_eq_some_iff.mp h.brace
    have hk : k + 1 ≤ i := h.behind
    refine ⟨(s.take i).drop (k + 1), s.drop (i + 1), ?_, ?_, h.between⟩
    · rw [← hbrace, ← List.drop_eq_getElem_cons hi,
        show s.drop i = (s.drop (k + 1)).drop (i - (k + 1)) by
          rw [List.drop_drop, Nat.add_sub_cancel' hk],
        List.drop_take, List.take_append_drop]
    · rw [List.length_drop, List.length_take, Nat.min_eq_left hi.le]
      omega
  · rintro ⟨w, rest, hrest, rfl, hw⟩
    have hdrop : s.drop (k + 1 + w.length) = '}' :: rest := by
      rw [← List.drop_drop, hrest, List.drop_left]
    refine ⟨by omega, ?_, ?_⟩
    · rw [← List.head?_drop, hdrop]
      rfl
    · rw [List.drop_take, hrest, Nat.add_sub_cancel_left, List.take_left]
      exact hw

/-- **THE SEARCH FOR THE END OF A BLOCK** either finds the brace before which
    the text of the block is balanced, or nothing closes the block. -/
theorem closingBrace_cases (hopen : s[k]? = some '{') :
    (∃ w rest, s.drop (k + 1) = w ++ '}' :: rest ∧ Balanced w ∧
        closingBrace s k = k + 1 + w.length) ∨
      (depthFrom? 0 (s.drop (k + 1))).isSome = true ∧ closingBrace s k = s.length := by
  obtain ⟨hk, hbrace⟩ := List.getElem?_eq_some_iff.mp hopen
  have hoffset : closingOffset? 0 (s.drop k) =
      (closingOffset? 1 (s.drop (k + 1))).map (· + 1) := by
    rw [List.drop_eq_getElem_cons hk, hbrace, closingOffset?_open]
    rfl
  rw [closingBrace, hoffset]
  cases hend : closingOffset? 1 (s.drop (k + 1)) with
  | none => exact .inr ⟨closingOffset?_eq_none_iff.mp hend, rfl⟩
  | some n =>
      obtain ⟨w, rest, hrest, rfl, hw⟩ := closingOffset?_eq_some_iff.mp hend
      exact .inl ⟨w, rest, hrest, balanced_iff.mpr hw, by simp only [Option.map_some]; omega⟩

/-- Nothing closes a block in which no more is closed than was opened. -/
theorem not_closesAt (hs : (depthFrom? 0 (s.drop (k + 1))).isSome = true) (i : Nat) :
    ¬ ClosesAt s k i := by
  intro h
  obtain ⟨w, rest, hrest, -, hw⟩ := closesAt_iff.mp h
  rw [hrest, depthFrom?_append, hw.depth] at hs
  exact nomatch hs

/-- A block is closed by one brace. -/
theorem ClosesAt.unique {j : Nat} (hi : ClosesAt s k i) (hj : ClosesAt s k j) : i = j := by
  obtain ⟨w, rest, hrest, rfl, hw⟩ := closesAt_iff.mp hi
  obtain ⟨w', rest', hrest', rfl, hw'⟩ := closesAt_iff.mp hj
  have htaken := (takeBlock_closed hw rest).symm.trans
    ((congrArg takeBlock (hrest.symm.trans hrest')).trans (takeBlock_closed hw' rest'))
  rw [(Prod.mk.inj htaken).1]

/-- **THE END OF A BLOCK** is where the search stops inside the text. -/
theorem closingBrace_eq_iff (hopen : s[k]? = some '{') :
    closingBrace s k = i ∧ i < s.length ↔ ClosesAt s k i := by
  have hinside : ∀ {j}, ClosesAt s k j → j < s.length :=
    fun h => (List.getElem?_eq_some_iff.mp h.brace).1
  rcases closingBrace_cases hopen with ⟨w, rest, hrest, hw, hend⟩ | ⟨hs, hend⟩
  · have hcloses : ClosesAt s k (closingBrace s k) :=
      closesAt_iff.mpr ⟨w, rest, hrest, hend.symm, hw⟩
    constructor
    · rintro ⟨rfl, -⟩
      exact hcloses
    · intro h
      exact ⟨hcloses.unique h, hinside h⟩
  · refine iff_of_false ?_ (not_closesAt hs i)
    rintro ⟨rfl, hlt⟩
    exact absurd hend (Nat.ne_of_lt hlt)

/-- The search runs to the end of the text just when nothing closes the
    block. -/
theorem closingBrace_eq_length_iff (hopen : s[k]? = some '{') :
    closingBrace s k = s.length ↔ ∀ i, ¬ ClosesAt s k i := by
  constructor
  · intro hend i h
    obtain ⟨rfl, hlt⟩ := (closingBrace_eq_iff hopen).mpr h
    exact absurd hend (Nat.ne_of_lt hlt)
  · intro hnone
    rcases closingBrace_cases hopen with ⟨w, rest, hrest, hw, hend⟩ | ⟨-, hend⟩
    · exact absurd (closesAt_iff.mpr ⟨w, rest, hrest, rfl, hw⟩) (hnone _)
    · exact hend

/-! ## The scanners compared -/

/-- **ONE BLOCK FOR BOTH SCANNERS**: at an opening brace of the top level, what
    the search for the end of the block goes over is what is left out. -/
theorem topLevel_of_closingBrace (hopen : s[k]? = some '{') (htop : openFrom 0 (s.take k) = 0) :
    topLevel s = topLevel (s.take k) ++
      if closingBrace s k < s.length then ';' :: topLevel (s.drop (closingBrace s k + 1)) else [] := by
  have hparts : topLevel s = topLevel (s.take k) ++ topLevelFrom 0 ('{' :: s.drop (k + 1)) := by
    conv_lhs => rw [eq_append_open hopen]
    rw [topLevel, topLevelFrom_parts, htop]
    rfl
  rw [hparts]
  rcases closingBrace_cases hopen with ⟨w, rest, hrest, hw, hend⟩ | ⟨hs, hend⟩
  · have hcloses : ClosesAt s k (closingBrace s k) :=
      closesAt_iff.mpr ⟨w, rest, hrest, hend.symm, hw⟩
    have hdrop : s.drop (closingBrace s k + 1) = rest := by
      rw [hend, Nat.add_assoc, ← List.drop_drop, hrest, ← List.drop_drop, List.drop_left]
      rfl
    have hblock := topLevelFrom_block hw rest
    rw [block, List.cons_append, List.append_assoc, List.singleton_append] at hblock
    rw [if_pos (List.getElem?_eq_some_iff.mp hcloses.brace).1, hdrop, hrest, hblock]
  · rw [if_neg (by omega), topLevelFrom_open_block hs]

/-- **THE TWO SCANNERS AGREE.**  The search for the end of a block stops inside
    the text just at the brace that closes it, and at the length of the text
    just when there is none; a balanced block at the top level is left out for
    a semicolon, whatever stands around it, and no brace is left; and at an
    opening brace of the top level both take the same block. -/
theorem scanners_agree (hopen : s[k]? = some '{') (hu : openFrom 0 u = 0) (hw : Balanced w)
    (v : List Char) :
    (∀ i, closingBrace s k = i ∧ i < s.length ↔ ClosesAt s k i) ∧
      (closingBrace s k = s.length ↔ ∀ i, ¬ ClosesAt s k i) ∧
      topLevel (u ++ '{' :: (w ++ '}' :: v)) = topLevel u ++ ';' :: topLevel v ∧
      (∀ t, '{' ∉ topLevel t ∧ '}' ∉ topLevel t) ∧
      (openFrom 0 (s.take k) = 0 → topLevel s = topLevel (s.take k) ++
        if closingBrace s k < s.length then ';' :: topLevel (s.drop (closingBrace s k + 1))
        else []) := by
  refine ⟨fun i => closingBrace_eq_iff hopen, closingBrace_eq_length_iff hopen, ?_, ?_,
    topLevel_of_closingBrace hopen⟩
  · have hblock := topLevelFrom_block hw v
    rw [block, List.cons_append, List.append_assoc, List.singleton_append] at hblock
    rw [topLevel, topLevelFrom_parts, hu, hblock]
    rfl
  · exact fun t => ⟨fun h => (ne_brace_of_mem_topLevelFrom h).1 rfl,
      fun h => (ne_brace_of_mem_topLevelFrom h).2 rfl⟩

theorem scanners_agree_members :
    let s := "int f() \x7b if (a) \x7b b(); \x7d \x7d; int h();".toList
    let u := "\x7d int a; \x7b \x7d".toList
    let w := " x \x7b y \x7d ".toList
    s[8]? = some '{' ∧ openFrom 0 u = 0 ∧ Balanced w ∧ closingBrace s 8 = 26 ∧ ClosesAt s 8 26 ∧
      topLevel (u ++ '{' :: (w ++ '}' :: [])) = " int a; ;;".toList ∧
      topLevel s = "int f() ;; int h();".toList := by
  intro s u w
  have hopen : s[8]? = some '{' := by decide
  have hu : openFrom 0 u = 0 := by decide
  have hw : Balanced w := balanced_iff.mpr (by decide)
  obtain ⟨hend, -, hblock, -, htop⟩ := scanners_agree hopen hu hw []
  have hcloses : closingBrace s 8 = 26 := by decide
  refine ⟨hopen, hu, hw, hcloses, (hend 26).mp ⟨hcloses, by decide⟩, ?_, ?_⟩
  · rw [hblock]
    decide
  · rw [htop (by decide), hcloses]
    decide

end GemBinder.Header
