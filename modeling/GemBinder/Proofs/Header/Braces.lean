import Mathlib.Data.List.Infix
import GemBinder.Header.Braces

/-! # Depth

    The depth of a text is the number of blocks that it leaves open; a text
    that closes more than was opened has none.  Depths of texts one behind the
    other are depths one from the other (`depthFrom?_append`), and both scanners
    of braces only look at the depth: a block is closed by the first brace
    before which the depth is back where it was, and a text inside a block is
    left out as a whole. -/

namespace GemBinder.Header

variable {s u v w rest : List Char} {c : Char} {d n : Nat}

/-! ## Depth -/

/-- How many blocks are open behind a text, where `d` were open before it;
    nothing, if it closes one more than was opened. -/
def depthFrom? (d : Nat) : List Char → Option Nat
  | [] => some d
  | c :: rest =>
      if c = '{' then depthFrom? (d + 1) rest
      else if c = '}' then
        match d with
        | 0 => none
        | d + 1 => depthFrom? d rest
      else depthFrom? d rest

/-- **A BALANCED TEXT** closes what it opens, and none of its prefixes closes
    more than it opens. -/
structure Balanced (w : List Char) : Prop where
  closed : w.count '{' = w.count '}'
  opened : ∀ p, p <+: w → p.count '}' ≤ p.count '{'

/-- A text as a block. -/
def block (w : List Char) : List Char := '{' :: (w ++ ['}'])

/-- A character opens a block, closes one, or does neither. -/
theorem brace_cases (c : Char) : c = '{' ∨ c = '}' ∨ c ≠ '{' ∧ c ≠ '}' := by
  by_cases ho : c = '{'
  · exact .inl ho
  · by_cases hc : c = '}'
    · exact .inr (.inl hc)
    · exact .inr (.inr ⟨ho, hc⟩)

theorem depthFrom?_open (d : Nat) (rest : List Char) :
    depthFrom? d ('{' :: rest) = depthFrom? (d + 1) rest := rfl

theorem depthFrom?_close (d : Nat) (rest : List Char) :
    depthFrom? (d + 1) ('}' :: rest) = depthFrom? d rest := rfl

theorem depthFrom?_other (ho : c ≠ '{') (hc : c ≠ '}') (d : Nat) (rest : List Char) :
    depthFrom? d (c :: rest) = depthFrom? d rest := by
  rw [depthFrom?.eq_def]
  dsimp only
  rw [if_neg ho, if_neg hc]

/-- **DEPTHS ARE TAKEN ONE FROM THE OTHER** along a text. -/
theorem depthFrom?_append (d : Nat) (u v : List Char) :
    depthFrom? d (u ++ v) = (depthFrom? d u).bind (depthFrom? · v) := by
  induction u generalizing d with
  | nil => rfl
  | cons c u ih =>
      rw [List.cons_append]
      rcases brace_cases c with rfl | rfl | ⟨ho, hc⟩
      · exact ih (d + 1)
      · cases d with
        | zero => rfl
        | succ d => exact ih d
      · rw [depthFrom?_other ho hc, depthFrom?_other ho hc, ih]

/-- More open blocks before a text are more open blocks behind it. -/
theorem depthFrom?_add (h : depthFrom? d w = some n) (k : Nat) :
    depthFrom? (d + k) w = some (n + k) := by
  induction w generalizing d with
  | nil =>
      obtain rfl := Option.some.inj h
      rfl
  | cons c w ih =>
      rcases brace_cases c with rfl | rfl | ⟨ho, hc⟩
      · have hrest := ih (d := d + 1) h
        rwa [Nat.add_right_comm] at hrest
      · cases d with
        | zero => exact nomatch h
        | succ d =>
            rw [Nat.add_right_comm]
            exact ih (d := d) h
      · rw [depthFrom?_other ho hc] at h ⊢
        exact ih h

/-- The depth counts the braces, and is there as long as no prefix closes more
    than was opened. -/
theorem depthFrom?_eq_some_iff : depthFrom? d w = some n ↔
    n + w.count '}' = d + w.count '{' ∧ ∀ p, p <+: w → p.count '}' ≤ d + p.count '{' := by
  induction w generalizing d with
  | nil =>
      simp only [depthFrom?, Option.some.injEq, List.count_nil, Nat.add_zero, List.prefix_nil,
        forall_eq, Nat.zero_le, and_true]
      exact eq_comm
  | cons c w ih =>
      -- a prefix is empty, or has the first character
      have hstarts : ∀ {P : List Char → Prop}, P [] → ((∀ p, p <+: c :: w → P p) ↔
          ∀ p, p <+: w → P (c :: p)) := by
        intro P hnil
        constructor
        · exact fun h p hp => h _ (List.cons_prefix_cons.mpr ⟨rfl, hp⟩)
        · intro h p hp
          rcases List.prefix_cons_iff.mp hp with rfl | ⟨q, rfl, hq⟩
          · exact hnil
          · exact h q hq
      rw [hstarts (by simp)]
      rcases brace_cases c with rfl | rfl | ⟨ho, hc⟩
      · rw [depthFrom?_open, ih]
        simp only [List.count_cons_self, List.count_cons_of_ne (show '{' ≠ '}' by decide)]
        exact and_congr (by omega) (forall₂_congr fun p _ => by omega)
      · simp only [List.count_cons_self, List.count_cons_of_ne (show '}' ≠ '{' by decide)]
        cases d with
        | zero =>
            refine iff_of_false nofun fun h => ?_
            have hfirst := h.2 [] List.nil_prefix
            simp at hfirst
        | succ d =>
            rw [depthFrom?_close, ih]
            exact and_congr (by omega) (forall₂_congr fun p _ => by omega)
      · rw [depthFrom?_other ho hc, ih]
        simp only [List.count_cons_of_ne ho, List.count_cons_of_ne hc]

/-- A balanced text leaves the depth as it was. -/
theorem balanced_iff : Balanced w ↔ depthFrom? 0 w = some 0 := by
  rw [depthFrom?_eq_some_iff]
  simp only [Nat.zero_add]
  exact ⟨fun h => ⟨h.closed.symm, h.opened⟩, fun h => ⟨h.1.symm, h.2⟩⟩

theorem Balanced.depth (h : Balanced w) (d : Nat) : depthFrom? d w = some d := by
  have hdepth := depthFrom?_add (balanced_iff.mp h) d
  rwa [Nat.zero_add] at hdepth

/-- A block leaves the depth as it was. -/
theorem Balanced.depth_block (h : Balanced w) (d : Nat) : depthFrom? d (block w) = some d := by
  rw [block, depthFrom?_open, depthFrom?_append, h.depth]
  rfl

/-! ## The end of a block -/

theorem closingOffset?_open (d : Int) (rest : List Char) :
    closingOffset? d ('{' :: rest) = (closingOffset? (d + 1) rest).map (· + 1) := rfl

theorem closingOffset?_close (d : Nat) (rest : List Char) :
    closingOffset? ((d + 1 : Nat) + 1) ('}' :: rest)
      = (closingOffset? (d + 1) rest).map (· + 1) := by
  have hinner : ¬ (((d + 1 : Nat) : Int) + 1 == 1) = true := by
    rw [beq_iff_eq]
    omega
  have hdepth : ((d + 1 : Nat) : Int) + 1 - 1 = (d : Int) + 1 := by omega
  rw [closingOffset?, if_pos (beq_self_eq_true '}'), if_neg hinner, hdepth]

theorem closingOffset?_other (ho : c ≠ '{') (hc : c ≠ '}') (d : Int) (rest : List Char) :
    closingOffset? d (c :: rest) = (closingOffset? d rest).map (· + 1) := by
  rw [closingOffset?, if_neg (by simpa using hc), if_neg (by simpa using ho)]

/-- **INSIDE A BLOCK** the search for its end goes on behind a text that closes
    no more than was opened inside. -/
theorem closingOffset?_append (h : depthFrom? d w = some n) (rest : List Char) :
    closingOffset? (d + 1) (w ++ rest) = (closingOffset? (n + 1) rest).map (· + w.length) := by
  induction w generalizing d with
  | nil =>
      obtain rfl := Option.some.inj h
      simp
  | cons c w ih =>
      have hshift : ∀ o : Option Nat,
          (o.map (· + w.length)).map (· + 1) = o.map (· + (c :: w).length) := by
        intro o
        cases o <;> rfl
      rw [List.cons_append]
      rcases brace_cases c with rfl | rfl | ⟨ho, hc⟩
      · have hrest := ih (d := d + 1) h
        rw [closingOffset?_open, ← hshift, ← hrest]
        rfl
      · cases d with
        | zero => exact nomatch h
        | succ d => rw [closingOffset?_close, ih (d := d) h, hshift]
      · rw [depthFrom?_other ho hc] at h
        rw [closingOffset?_other ho hc, ih h, hshift]

/-- **THE END OF A BLOCK** is a closing brace before which all that was opened
    inside is closed again. -/
theorem closingOffset?_eq_some_iff : closingOffset? (d + 1) s = some n ↔
    ∃ w rest, s = w ++ '}' :: rest ∧ w.length = n ∧ depthFrom? d w = some 0 := by
  constructor
  · intro h
    induction s generalizing d n with
    | nil => exact nomatch h
    | cons c s ih =>
        rcases brace_cases c with rfl | rfl | ⟨ho, hc⟩
        · obtain ⟨m, hm, rfl⟩ := Option.map_eq_some_iff.mp h
          obtain ⟨w, rest, rfl, rfl, hw⟩ := ih (d := d + 1) hm
          exact ⟨'{' :: w, rest, rfl, rfl, hw⟩
        · cases d with
          | zero =>
              obtain rfl : 0 = n := Option.some.inj h
              exact ⟨[], s, rfl, rfl, rfl⟩
          | succ d =>
              rw [closingOffset?_close] at h
              obtain ⟨m, hm, rfl⟩ := Option.map_eq_some_iff.mp h
              obtain ⟨w, rest, rfl, rfl, hw⟩ := ih hm
              exact ⟨'}' :: w, rest, rfl, rfl, hw⟩
        · rw [closingOffset?_other ho hc] at h
          obtain ⟨m, hm, rfl⟩ := Option.map_eq_some_iff.mp h
          obtain ⟨w, rest, rfl, rfl, hw⟩ := ih hm
          exact ⟨c :: w, rest, rfl, rfl, by rwa [depthFrom?_other ho hc]⟩
  · rintro ⟨w, rest, rfl, rfl, hw⟩
    rw [closingOffset?_append hw]
    show Option.map (· + w.length) (some 0) = _
    simp

/-- A block has no end if nothing closes more than was opened inside. -/
theorem closingOffset?_eq_none_iff :
    closingOffset? (d + 1) s = none ↔ (depthFrom? d s).isSome = true := by
  induction s generalizing d with
  | nil => simp [closingOffset?, depthFrom?]
  | cons c s ih =>
      rcases brace_cases c with rfl | rfl | ⟨ho, hc⟩
      · rw [closingOffset?_open, Option.map_eq_none_iff, depthFrom?_open]
        exact ih (d := d + 1)
      · cases d with
        | zero => exact iff_of_false nofun Bool.false_ne_true
        | succ d => rw [closingOffset?_close, Option.map_eq_none_iff, ih, depthFrom?_close]
      · rw [closingOffset?_other ho hc, Option.map_eq_none_iff, ih, depthFrom?_other ho hc]

/-- **A BLOCK IS TAKEN** up to the brace that closes it, or as a whole if none
    does. -/
theorem takeBlock_cases (s : List Char) :
    (∃ w rest, takeBlock s = (w, rest) ∧ s = w ++ '}' :: rest ∧ Balanced w) ∨
      takeBlock s = (s, []) ∧ (depthFrom? 0 s).isSome = true := by
  rw [takeBlock]
  cases hend : closingOffset? 1 s with
  | none => exact .inr ⟨rfl, closingOffset?_eq_none_iff.mp hend⟩
  | some n =>
      obtain ⟨w, rest, rfl, rfl, hw⟩ := closingOffset?_eq_some_iff.mp hend
      refine .inl ⟨w, rest, ?_, rfl, balanced_iff.mpr hw⟩
      simp

theorem takeBlock_closed (hw : Balanced w) (rest : List Char) :
    takeBlock (w ++ '}' :: rest) = (w, rest) := by
  have hend : closingOffset? 1 (w ++ '}' :: rest) = some w.length :=
    closingOffset?_eq_some_iff.mpr ⟨w, rest, rfl, rfl, balanced_iff.mp hw⟩
  rw [takeBlock, hend]
  simp

theorem takeBlock_open (hs : (depthFrom? 0 s).isSome = true) : takeBlock s = (s, []) := by
  have hend : closingOffset? 1 s = none := closingOffset?_eq_none_iff.mpr hs
  rw [takeBlock, hend]

/-! ## The top level -/

theorem topLevelFrom_open (d : Nat) (rest : List Char) :
    topLevelFrom d ('{' :: rest) = topLevelFrom (d + 1) rest := rfl

theorem topLevelFrom_other (ho : c ≠ '{') (hc : c ≠ '}') (d : Nat) (rest : List Char) :
    topLevelFrom (d + 1) (c :: rest) = topLevelFrom (d + 1) rest := by
  rw [topLevelFrom, if_neg (by simpa using ho), if_neg (by simpa using hc)]
  rfl

/-- **INSIDE A BLOCK** nothing is at the top level. -/
theorem topLevelFrom_append (h : depthFrom? d w = some n) (rest : List Char) :
    topLevelFrom (d + 1) (w ++ rest) = topLevelFrom (n + 1) rest := by
  induction w generalizing d with
  | nil =>
      obtain rfl := Option.some.inj h
      rfl
  | cons c w ih =>
      rw [List.cons_append]
      rcases brace_cases c with rfl | rfl | ⟨ho, hc⟩
      · exact ih (d := d + 1) h
      · cases d with
        | zero => exact nomatch h
        | succ d => exact ih (d := d) h
      · rw [depthFrom?_other ho hc] at h
        rw [topLevelFrom_other ho hc, ih h]

/-- **WHAT STANDS IN A BLOCK DOES NOT MATTER**: two texts that differ in it have
    the same top level. -/
theorem topLevel_block (hw : Balanced w) (hw' : Balanced v) (u rest : List Char) :
    topLevelFrom d (u ++ (block w ++ rest)) = topLevelFrom d (u ++ (block v ++ rest)) := by
  induction u generalizing d with
  | nil =>
      have hblock : ∀ {w}, Balanced w → topLevelFrom d (block w ++ rest)
          = topLevelFrom (d + 1) ('}' :: rest) := by
        intro w hw
        rw [block, List.cons_append, topLevelFrom_open, List.append_assoc, List.singleton_append,
          topLevelFrom_append (hw.depth d)]
      rw [List.nil_append, List.nil_append, hblock hw, hblock hw']
  | cons c u ih =>
      rw [List.cons_append, List.cons_append, topLevelFrom, topLevelFrom, ih, ih, ih, ih]

end GemBinder.Header
