import Mathlib.Data.List.Pairwise
import GemBinder.Proofs.Header.Scanning

/-! # Where a scan finds something

    A scan gives what it finds, and not where.  The same scan with a scanner
    that notes its place (`located`) gives the occurrences.  They come in order
    and do not overlap, and the scanner is tried at every place that is not
    inside an earlier occurrence: what it finds there is an occurrence.  So
    whether anything is found in a stretch of the text only depends on the
    scanner, once no occurrence reaches into it from before. -/

namespace GemBinder.Header

variable {α β : Type} {find? : Scanner α} {before s t rest : List Char} {i j : Nat}

/-! ## Occurrences -/

/-- What a scanner found at a place: the characters before the place, the
    nearest first, the text from there on, the thing, and what is behind it. -/
structure Located (α : Type) where
  before : List Char
  text : List Char
  thing : α
  behind : List Char
deriving DecidableEq

namespace Located

/-- The place where an occurrence begins. -/
def start (o : Located α) : Nat := o.before.length

/-- The place behind an occurrence. -/
def stop (o : Located α) : Nat := o.start + (o.text.length - o.behind.length)

/-- An occurrence that begins before a place and ends behind it. -/
def Covers (o : Located α) (i : Nat) : Prop := o.start < i ∧ i < o.stop

instance (o : Located α) (i : Nat) : Decidable (o.Covers i) := inferInstanceAs (Decidable (_ ∧ _))

/-- Where an occurrence with a known last character ends. -/
theorem stop_of_text {o : Located α} {c : Char} (h : o.text = t ++ c :: o.behind) :
    o.stop = o.start + t.length + 1 := by
  rw [stop, h, List.length_append, List.length_cons]
  omega

end Located

/-- The scanner with a note of its place. -/
def located (find? : Scanner α) : Scanner (Located α) := fun before s =>
  (find? before s).map fun (a, behind) => (⟨before, s, a, behind⟩, behind)

/-- **THE OCCURRENCES** of what a scan finds. -/
def occurrences (find? : Scanner α) (s : List Char) : List (Located α) := scan (located find?) s

/-- A place of a text at which a scanner finds something. -/
def StandsAt (find? : Scanner α) (s : List Char) (i : Nat) : Prop :=
  ∃ before rest, before.reverse ++ rest = s ∧ before.length = i ∧ (find? before rest).isSome = true

theorem located_eq_some {a : α} {behind : List Char} (h : find? before s = some (a, behind)) :
    located find? before s = some (⟨before, s, a, behind⟩, behind) := by
  rw [located, h]
  rfl

theorem located_eq_none (h : find? before s = none) : located find? before s = none := by
  rw [located, h]
  rfl

/-- A scan finds the same with a scanner that makes something of what another
    one finds. -/
theorem scanFrom_map {find?' : Scanner β} (f : α → β)
    (h : ∀ before s, find?' before s = (find? before s).map fun (a, behind) => (f a, behind))
    (skip : Nat) : scanFrom find?' before skip s = (scanFrom find? before skip s).map f := by
  induction s generalizing before skip with
  | nil => rfl
  | cons c s ih =>
      cases skip with
      | succ skip => exact ih skip
      | zero =>
          rw [scanFrom, scanFrom, h]
          cases find? before (c :: s) with
          | none => exact ih 0
          | some found => exact congrArg (f found.1 :: ·) (ih _)

/-- The occurrences are those of what is found. -/
theorem map_thing_occurrences (find? : Scanner α) (s : List Char) :
    (occurrences find? s).map (·.thing) = scan find? s := by
  refine (scanFrom_map Located.thing (fun before s => ?_) 0).symm
  rw [located]
  cases find? before s <;> rfl

theorem mem_scan_iff {a : α} :
    a ∈ scan find? s ↔ ∃ o ∈ occurrences find? s, o.thing = a := by
  rw [← map_thing_occurrences, List.mem_map]

/-- **AN OCCURRENCE** is where the scanner finds it. -/
theorem of_mem_occurrences {o : Located α} (h : o ∈ occurrences find? s) :
    o.before.reverse ++ o.text = s ∧ find? o.before o.text = some (o.thing, o.behind) := by
  obtain ⟨before, rest, behind, hplace, -, hfound⟩ := mem_scan h
  obtain ⟨⟨a, behind'⟩, hfind, heq⟩ := Option.map_eq_some_iff.mp hfound
  obtain ⟨rfl, rfl⟩ := Prod.mk.inj heq
  exact ⟨hplace, hfind⟩

/-! ## Order -/

/-- What is passed over is no place of an occurrence. -/
theorem le_start_of_mem_scanFrom {skip : Nat} {o : Located α}
    (h : o ∈ scanFrom (located find?) before skip s) : before.length + skip ≤ o.start := by
  induction s generalizing before skip with
  | nil => exact nomatch h
  | cons c s ih =>
      cases skip with
      | succ skip =>
          have hrest := ih (show o ∈ scanFrom (located find?) (c :: before) skip s from h)
          simp only [List.length_cons] at hrest
          omega
      | zero =>
          have hstep : ∀ {skip}, o ∈ scanFrom (located find?) (c :: before) skip s →
              before.length + 0 ≤ o.start := by
            intro skip hmem
            have hrest := ih hmem
            simp only [List.length_cons] at hrest
            omega
          rw [scanFrom, located] at h
          cases hfind : find? before (c :: s) with
          | none =>
              rw [hfind] at h
              exact hstep h
          | some found =>
              rw [hfind] at h
              rcases List.mem_cons.mp h with rfl | hmem
              · exact Nat.le_refl _
              · exact hstep hmem

/-- An occurrence is at the head of what is left of the text. -/
theorem text_suffix_of_mem_scanFrom {skip : Nat} {o : Located α}
    (h : o ∈ scanFrom (located find?) before skip s) : o.text <:+ s := by
  obtain ⟨_, _, _, -, hsuffix, hfound⟩ := mem_scanFrom h
  obtain ⟨_, -, heq⟩ := Option.map_eq_some_iff.mp hfound
  obtain ⟨rfl, rfl⟩ := Prod.mk.inj heq
  exact hsuffix

theorem pairwise_scanFrom (find? : Scanner α) (before s : List Char) (skip : Nat) :
    (scanFrom (located find?) before skip s).Pairwise fun o o' => o.stop ≤ o'.start := by
  induction s generalizing before skip with
  | nil => exact List.Pairwise.nil
  | cons c s ih =>
      cases skip with
      | succ skip => exact ih (c :: before) skip
      | zero =>
          rw [scanFrom, located]
          cases hfind : find? before (c :: s) with
          | none => exact ih (c :: before) 0
          | some found =>
              refine List.pairwise_cons.mpr ⟨fun o ho => ?_, ih (c :: before) _⟩
              have hstart := le_start_of_mem_scanFrom ho
              simp only [Located.stop, Located.start, List.length_cons] at hstart ⊢
              omega

/-- **OCCURRENCES DO NOT OVERLAP**, and come in the order of the text. -/
theorem pairwise_occurrences (find? : Scanner α) (s : List Char) :
    (occurrences find? s).Pairwise fun o o' => o.stop ≤ o'.start :=
  pairwise_scanFrom find? [] s 0

/-- No occurrence begins inside another one. -/
theorem not_covers_start {o o' : Located α} (ho : o ∈ occurrences find? s)
    (ho' : o' ∈ occurrences find? s) : ¬ o.Covers o'.start := by
  let Apart (o o' : Located α) : Prop := ¬ o.Covers o'.start ∧ ¬ o'.Covers o.start
  have : Std.Symm Apart := ⟨fun _ _ h => h.symm⟩
  have hself : ∀ o ∈ occurrences find? s, Apart o o := by
    intro o _
    simp [Apart, Located.Covers]
  have hpair : (occurrences find? s).Pairwise Apart := by
    refine (pairwise_occurrences find? s).imp fun {o o'} hle => ?_
    simp only [Apart, Located.Covers, Located.stop] at hle ⊢
    omega
  exact (hpair.forall_of_forall hself ho ho').1

/-! ## Places that are tried -/

/-- A place behind what is passed over is inside an occurrence, or the scanner
    is tried there. -/
theorem covered_or_tried {skip : Nat} (hskip : skip ≤ t.length) (hrest : rest ≠ []) :
    (∃ o ∈ scanFrom (located find?) before skip (t ++ rest),
        o.Covers (t.reverse ++ before).length) ∨
      ∀ a behind, find? (t.reverse ++ before) rest = some (a, behind) →
        ⟨t.reverse ++ before, rest, a, behind⟩ ∈
          scanFrom (located find?) before skip (t ++ rest) := by
  induction t generalizing before skip with
  | nil =>
      obtain rfl : skip = 0 := Nat.le_zero.mp hskip
      refine .inr fun a behind hfind => ?_
      obtain ⟨c, rest, rfl⟩ := List.exists_cons_of_ne_nil hrest
      show _ ∈ scanFrom (located find?) before 0 (c :: rest)
      rw [scanFrom, located_eq_some (show find? before (c :: rest) = _ from hfind)]
      exact List.mem_cons_self
  | cons c t ih =>
      have hplace : (c :: t).reverse ++ before = t.reverse ++ c :: before := by simp
      rw [hplace]
      cases skip with
      | succ skip => exact ih (Nat.le_of_succ_le_succ hskip)
      | zero =>
          rw [List.cons_append, scanFrom, located]
          cases hfind : find? before (c :: (t ++ rest)) with
          | none => exact ih (Nat.zero_le _)
          | some found =>
              obtain ⟨b, behind⟩ := found
              dsimp only [Option.map_some]
              by_cases hinside : (t ++ rest).length - behind.length ≤ t.length
              · rcases ih hinside with ⟨o, ho, hcovers⟩ | htried
                · exact .inl ⟨o, List.mem_cons_of_mem _ ho, hcovers⟩
                · exact .inr fun a b h => List.mem_cons_of_mem _ (htried a b h)
              · -- what is found here reaches over the place
                refine .inl ⟨_, List.mem_cons_self, ?_⟩
                simp only [Located.Covers, Located.start, Located.stop, List.length_append,
                  List.length_reverse, List.length_cons] at hinside ⊢
                omega

/-- **WHERE NO OCCURRENCE REACHES OVER** a place, the scanner is tried, and what
    it finds is an occurrence. -/
theorem mem_occurrences_of_not_covers {a : α} {behind : List Char} (hrest : rest ≠ [])
    (hfind : find? before rest = some (a, behind))
    (hfree : ∀ o ∈ occurrences find? (before.reverse ++ rest), ¬ o.Covers before.length) :
    ⟨before, rest, a, behind⟩ ∈ occurrences find? (before.reverse ++ rest) := by
  have htried := @covered_or_tried α find? [] before.reverse rest 0 (Nat.zero_le _) hrest
  rw [List.append_nil, List.reverse_reverse] at htried
  rcases htried with ⟨o, ho, hcovers⟩ | htried
  · exact absurd hcovers (hfree o ho)
  · exact htried a behind hfind

/-- A scanner that takes nothing without a text. -/
def Needy (find? : Scanner α) : Prop := ∀ before, find? before [] = none

/-- **WHAT IS FOUND IN A STRETCH** of a text into which no occurrence reaches
    from before: something begins there just when the scanner finds something
    at one of its places. -/
theorem exists_occurrence_iff (hneedy : Needy find?)
    (hfree : ∀ o ∈ occurrences find? s, ¬ o.Covers i) :
    (∃ o ∈ occurrences find? s, i ≤ o.start ∧ o.start < j) ↔
      ∃ k, i ≤ k ∧ k < j ∧ StandsAt find? s k := by
  constructor
  · rintro ⟨o, ho, hle, hlt⟩
    obtain ⟨hplace, hfind⟩ := of_mem_occurrences ho
    exact ⟨o.start, hle, hlt, o.before, o.text, hplace, rfl, by rw [hfind]; rfl⟩
  · rintro ⟨k, hle, hlt, before, rest, rfl, rfl, hsome⟩
    obtain ⟨⟨a, behind⟩, hfind⟩ := Option.isSome_iff_exists.mp hsome
    have hrest : rest ≠ [] := by
      rintro rfl
      rw [hneedy] at hfind
      exact nomatch hfind
    by_cases hcovered : ∃ o ∈ occurrences find? (before.reverse ++ rest), o.Covers before.length
    · -- the occurrence around the place begins in the stretch as well
      obtain ⟨o, ho, hstart, hstop⟩ := hcovered
      refine ⟨o, ho, ?_, by omega⟩
      have hnot := hfree o ho
      simp only [Located.Covers] at hnot
      omega
    · simp only [not_exists, not_and] at hcovered
      exact ⟨_, mem_occurrences_of_not_covers hrest hfind hcovered, hle, hlt⟩

/-! ## Stretches in which nothing stands -/

/-- A stretch of a text at none of whose places the scanner finds anything. -/
def Bare (find? : Scanner α) (before t rest : List Char) : Prop :=
  ∀ p q, t = p ++ q → q ≠ [] → find? (p.reverse ++ before) (q ++ rest) = none

theorem Quiet.bare (h : Quiet find? t) (before rest : List Char) : Bare find? before t rest := by
  rintro p q rfl hq
  obtain ⟨c, q, rfl⟩ := List.exists_cons_of_ne_nil hq
  exact h c (List.mem_append_right p List.mem_cons_self) _ _

/-- **TWO STRETCHES** one behind the other are one. -/
theorem Bare.append {u : List Char} (ht : Bare find? before t (u ++ rest))
    (hu : Bare find? (t.reverse ++ before) u rest) : Bare find? before (t ++ u) rest := by
  intro p q hpq hq
  rcases List.append_eq_append_iff.mp hpq with ⟨v, rfl, rfl⟩ | ⟨v, rfl, rfl⟩
  · have hfind := hu v q rfl hq
    rwa [← List.append_assoc, ← List.reverse_append] at hfind
  · cases v with
    | nil =>
        have hfind := hu [] u rfl hq
        rwa [List.append_nil] at hfind
    | cons c v =>
        have hfind := ht p (c :: v) rfl (List.cons_ne_nil c v)
        rwa [← List.append_assoc] at hfind

/-- A place of a text, told by what stands before it. -/
theorem standsAt_length_iff :
    StandsAt find? (before.reverse ++ (t ++ rest)) (before.length + t.length) ↔
      (find? (t.reverse ++ before) rest).isSome = true := by
  constructor
  · rintro ⟨before', rest', hplace, hlength, hsome⟩
    rw [← List.append_assoc] at hplace
    obtain ⟨hbefore, rfl⟩ := List.append_inj hplace (by simp [hlength])
    have hreverse := congrArg List.reverse hbefore
    rw [List.reverse_reverse, List.reverse_append, List.reverse_reverse] at hreverse
    rwa [← hreverse]
  · exact fun hsome => ⟨t.reverse ++ before, rest, by simp, by simp [Nat.add_comm], hsome⟩

theorem Bare.not_standsAt {k : Nat} (h : Bare find? before t rest) (hle : before.length ≤ k)
    (hlt : k < before.length + t.length) : ¬ StandsAt find? (before.reverse ++ (t ++ rest)) k := by
  obtain ⟨p, q, rfl, hp⟩ : ∃ p q, t = p ++ q ∧ before.length + p.length = k :=
    ⟨t.take (k - before.length), t.drop (k - before.length), (List.take_append_drop _ _).symm,
      by rw [List.length_take]; omega⟩
  have hq : q ≠ [] := by
    rintro rfl
    simp only [List.append_nil] at hlt
    omega
  rw [List.append_assoc, ← hp, standsAt_length_iff, h p q rfl hq]
  exact Bool.false_ne_true

/-- **THE FIRST PLACE** of a stretch at which the scanner finds something is an
    occurrence, if no occurrence reaches into the stretch from before. -/
theorem mem_occurrences_of_first {a : α} {behind : List Char} (hrest : rest ≠ [])
    (hfind : find? before rest = some (a, behind))
    (hfree : ∀ o ∈ occurrences find? (before.reverse ++ rest), ¬ o.Covers i)
    (hle : i ≤ before.length)
    (hbare : ∀ k, i ≤ k → k < before.length → ¬ StandsAt find? (before.reverse ++ rest) k) :
    ⟨before, rest, a, behind⟩ ∈ occurrences find? (before.reverse ++ rest) := by
  refine mem_occurrences_of_not_covers hrest hfind fun o ho hcovers => ?_
  obtain ⟨hplace, hfound⟩ := of_mem_occurrences ho
  rcases Nat.lt_or_ge o.start i with hbefore | hinside
  · refine hfree o ho ⟨hbefore, ?_⟩
    exact Nat.lt_of_le_of_lt hle hcovers.2
  · exact hbare o.start hinside hcovers.1 ⟨o.before, o.text, hplace, rfl, by rw [hfound]; rfl⟩

end GemBinder.Header
