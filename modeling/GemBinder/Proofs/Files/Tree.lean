import Mathlib.Data.List.Induction
import Mathlib.Data.List.Nodup
import GemBinder.Files.Tree

/-! # Trees of files and directories

    What a tree holds is what stands at its places, and two trees that agree
    about that are the same to every operation.  The order in which entries
    were made is no part of it.

    A tree of a file system is well formed: every place is written once, what
    stands somewhere stands in a directory, and no name is `..`.  In such a
    tree nothing is below a place where no directory stands. -/

namespace GemBinder.Files

open Text

namespace FileTree

variable {t u v : FileTree} {place q : Place} {e : Entry}

@[simp] theorem at?_nil (t : FileTree) : t.at? [] = some .directory := rfl

theorem at?_eq_lookup (h : q ≠ []) : t.at? q = t.entries.lookup q := by
  cases q with
  | nil => exact absurd rfl h
  | cons s more => rfl

/-! ## What stands after a change -/

theorem lookup_cons_of_ne {l : List (Place × Entry)} {r : Place} (h : q ≠ r) :
    List.lookup q ((r, e) :: l) = List.lookup q l := by
  rw [List.lookup_cons, beq_eq_false_iff_ne.mpr h]

/-- Writing a new entry over those at a place changes what is looked up
    there. -/
theorem lookup_map_put (l : List (Place × Entry)) (place q : Place) (e : Entry) :
    (l.map fun (q, f) => if q == place then (q, e) else (q, f)).lookup q =
      if q = place then (l.lookup q).map fun _ => e else l.lookup q := by
  induction l with
  | nil => simp
  | cons entry l ih =>
      obtain ⟨r, f⟩ := entry
      rw [List.map_cons]
      by_cases hr : r = place
      · subst hr
        simp only [beq_self_eq_true, if_true]
        by_cases hq : q = r
        · simp [hq]
        · rw [lookup_cons_of_ne hq, lookup_cons_of_ne hq, ih]
      · simp only [beq_eq_false_iff_ne.mpr hr, Bool.false_eq_true, if_false]
        by_cases hq : q = r
        · simp [hq, hr]
        · rw [lookup_cons_of_ne hq, lookup_cons_of_ne hq, ih]

/-- Choosing entries by their place hides those that are not chosen. -/
theorem lookup_filter_place (l : List (Place × Entry)) (keep : Place → Bool) (q : Place) :
    (l.filter fun (r, _) => keep r).lookup q = if keep q then l.lookup q else none := by
  induction l with
  | nil => simp
  | cons entry l ih =>
      obtain ⟨r, f⟩ := entry
      by_cases hq : q = r
      · subst hq
        cases hk : keep q with
        | true => simp [hk]
        | false => simp [hk, ih]
      · cases hk : keep r with
        | true =>
            rw [List.filter_cons_of_pos (by simpa using hk), lookup_cons_of_ne hq, ih,
              lookup_cons_of_ne hq]
        | false =>
            rw [List.filter_cons_of_neg (by simpa using hk), ih, lookup_cons_of_ne hq]

theorem at?_put (hplace : place ≠ []) :
    (t.put place e).at? q = if q = place then some e else t.at? q := by
  by_cases hq : q = []
  · subst hq
    simp [Ne.symm hplace]
  · rw [at?_eq_lookup hq, at?_eq_lookup hq, put]
    cases hl : t.entries.lookup place with
    | some f =>
        simp only [Option.isSome_some, if_true, lookup_map_put]
        by_cases hqp : q = place
        · simp [hqp, hl]
        · simp [hqp]
    | none =>
        simp only [Option.isSome_none, Bool.false_eq_true, if_false, List.lookup_append]
        by_cases hqp : q = place
        · simp [hqp, hl]
        · simp [hqp, lookup_cons_of_ne hqp]

@[simp] theorem at?_put_self (hplace : place ≠ []) : (t.put place e).at? place = some e := by
  rw [at?_put hplace, if_pos rfl]

theorem at?_put_of_ne (hplace : place ≠ []) (hq : q ≠ place) :
    (t.put place e).at? q = t.at? q := by
  rw [at?_put hplace, if_neg hq]

theorem at?_prune (hplace : place ≠ []) :
    (t.prune place).at? q = if place <+: q then none else t.at? q := by
  by_cases hq : q = []
  · subst hq
    have hnot : ¬ place <+: [] := fun h => hplace (List.prefix_nil.mp h)
    simp [hnot]
  · rw [at?_eq_lookup hq, at?_eq_lookup hq, prune]
    show (t.entries.filter fun (r, _) => !place.isPrefixOf r).lookup q = _
    rw [lookup_filter_place t.entries fun r => !place.isPrefixOf r]
    by_cases hbelow : place <+: q
    · have hp : place.isPrefixOf q = true := List.isPrefixOf_iff_prefix.mpr hbelow
      simp only [hp, Bool.not_true, Bool.false_eq_true, if_false, if_pos hbelow]
    · have hp : place.isPrefixOf q = false :=
        Bool.eq_false_iff.mpr fun h => hbelow (List.isPrefixOf_iff_prefix.mp h)
      simp only [hp, Bool.not_false, if_true, if_neg hbelow]

theorem at?_prune_of_below (hplace : place ≠ []) (h : place <+: q) :
    (t.prune place).at? q = none := by
  rw [at?_prune hplace, if_pos h]

theorem at?_prune_of_apart (hplace : place ≠ []) (h : ¬ place <+: q) :
    (t.prune place).at? q = t.at? q := by
  rw [at?_prune hplace, if_neg h]

/-! ## Places written once -/

/-- No place has two entries. -/
def Once (t : FileTree) : Prop := (t.entries.map (·.1)).Nodup

theorem Once.lookup_eq_of_mem (once : t.Once) (h : (q, e) ∈ t.entries) :
    t.entries.lookup q = some e := by
  rw [Once] at once
  generalize t.entries = l at h once
  induction l with
  | nil => exact nomatch h
  | cons entry l ih =>
      obtain ⟨r, f⟩ := entry
      rw [List.map_cons, List.nodup_cons] at once
      rcases List.mem_cons.mp h with hhead | htail
      · cases hhead
        simp
      · have hne : q ≠ r := by
          rintro rfl
          exact once.1 (List.mem_map.mpr ⟨(q, e), htail, rfl⟩)
        rw [lookup_cons_of_ne hne]
        exact ih htail once.2

theorem Once.put (once : t.Once) (place : Place) (e : Entry) : (t.put place e).Once := by
  rw [Once, FileTree.put]
  split
  · rw [List.map_map, List.map_congr_left (g := (·.1))]
    · exact once
    · intro entry _
      simp only [Function.comp_apply]
      split <;> rfl
  · next hnew =>
      rw [List.map_append, List.nodup_append]
      refine ⟨once, by simp, ?_⟩
      rintro r hr _ hlast rfl
      obtain rfl := List.mem_singleton.mp hlast
      obtain ⟨⟨r', f⟩, hmem, hr'⟩ := List.mem_map.mp hr
      obtain rfl : r' = _ := hr'
      exact hnew (by simp [once.lookup_eq_of_mem hmem])

theorem Once.prune (once : t.Once) (place : Place) : (t.prune place).Once :=
  List.Nodup.sublist (List.filter_sublist.map _) once

/-! ## What is below a place -/

theorem below_eq_some {steps : List String} {f : Entry} :
    (if place.isPrefixOf q && place.length < q.length then some (q.drop place.length, e) else none)
        = some (steps, f) ↔ steps ≠ [] ∧ q = place ++ steps ∧ e = f := by
  constructor
  · intro h
    split at h
    · next hbelow =>
        obtain ⟨hpre, hlen⟩ := Bool.and_eq_true_iff.mp hbelow
        obtain ⟨rest, rfl⟩ := List.isPrefixOf_iff_prefix.mp hpre
        rw [List.drop_left] at h
        cases h
        refine ⟨?_, rfl, rfl⟩
        rintro rfl
        simp at hlen
    · exact nomatch h
  · rintro ⟨hne, rfl, rfl⟩
    have hpre : place.isPrefixOf (place ++ steps) = true :=
      List.isPrefixOf_iff_prefix.mpr (List.prefix_append _ _)
    simp [hpre, hne]

/-- Below a place is what stands some steps behind it. -/
theorem Once.mem_below (once : t.Once) {steps : List String} :
    (steps, e) ∈ t.below place ↔ steps ≠ [] ∧ t.at? (place ++ steps) = some e := by
  rw [below, List.mem_filterMap]
  constructor
  · rintro ⟨⟨q, f⟩, hmem, h⟩
    obtain ⟨hne, rfl, rfl⟩ := below_eq_some.mp h
    refine ⟨hne, ?_⟩
    rw [at?_eq_lookup (by simp [hne]), once.lookup_eq_of_mem hmem]
  · rintro ⟨hne, h⟩
    rw [at?_eq_lookup (by simp [hne]), List.lookup_eq_some_iff] at h
    obtain ⟨before, after, hentries, -⟩ := h
    refine ⟨(place ++ steps, e), ?_, below_eq_some.mpr ⟨hne, rfl, rfl⟩⟩
    rw [hentries]
    simp

/-- The steps to what is below a place are told once each. -/
theorem Once.pairwise_below (once : t.Once) (place : Place) :
    (t.below place).Pairwise fun a b => a.1 ≠ b.1 := by
  have apart : t.entries.Pairwise fun a b => a.1 ≠ b.1 := List.pairwise_map.mp once
  refine apart.filterMap _ ?_
  rintro ⟨q, e⟩ ⟨q', e'⟩ hne ⟨steps, f⟩ h ⟨steps', f'⟩ h' hsteps
  obtain ⟨-, rfl, -⟩ := below_eq_some.mp h
  obtain ⟨-, rfl, -⟩ := below_eq_some.mp h'
  exact hne (congrArg (place ++ ·) hsteps)

/-! ## Trees compared -/

/-- **THE SAME TREE**: at every place the same stands, or nothing. -/
def Same (t u : FileTree) : Prop := ∀ q, t.at? q = u.at? q

/-- A tree that has gained directories and is otherwise as it was. -/
def Gains (t u : FileTree) : Prop :=
  ∀ q, u.at? q = t.at? q ∨ (t.at? q = none ∧ u.at? q = some .directory)

/-- The directories of a tree are directories of another. -/
def Holds (t u : FileTree) : Prop := ∀ q, t.at? q = some .directory → u.at? q = some .directory

theorem Same.refl (t : FileTree) : t.Same t := fun _ => rfl

theorem Same.symm (h : t.Same u) : u.Same t := fun q => (h q).symm

theorem Same.trans (h : t.Same u) (k : u.Same v) : t.Same v := fun q => (h q).trans (k q)

theorem Gains.refl (t : FileTree) : t.Gains t := fun _ => .inl rfl

theorem Gains.trans (h : t.Gains u) (k : u.Gains v) : t.Gains v := by
  intro q
  rcases h q with hq | ⟨hnone, hdir⟩
  · rw [← hq]
    exact k q
  · rcases k q with kq | ⟨knone, -⟩
    · exact .inr ⟨hnone, kq.trans hdir⟩
    · rw [hdir] at knone
      exact nomatch knone

/-- What stands in a tree is not touched when directories are gained. -/
theorem Gains.at?_eq (h : t.Gains u) (hq : t.at? q ≠ none) : u.at? q = t.at? q := by
  rcases h q with hsame | ⟨hnone, -⟩
  · exact hsame
  · exact absurd hnone hq

/-- Directories that are gained are no files. -/
theorem Gains.file_iff (h : t.Gains u) {content : Bytes} :
    u.at? q = some (.file content) ↔ t.at? q = some (.file content) := by
  rcases h q with hsame | ⟨hnone, hdir⟩
  · rw [hsame]
  · rw [hnone, hdir]
    simp

theorem Holds.refl (t : FileTree) : t.Holds t := fun _ h => h

theorem Holds.trans (h : t.Holds u) (k : u.Holds v) : t.Holds v := fun q hq => k q (h q hq)

theorem Gains.holds (h : t.Gains u) : t.Holds u := by
  intro q hq
  rw [h.at?_eq (by rw [hq]; exact Option.some_ne_none _), hq]

/-! ## Walking -/

@[simp] theorem walk_nil (t : FileTree) (place : Place) : t.walk place [] = .ok place := rfl

/-- A walk takes a step in a directory, forward or back. -/
theorem walk_cons {s : String} {more : List String} :
    t.walk place (s :: more) = .ok q ↔
      t.at? place = some .directory ∧
        t.walk (if s == ".." then place.dropLast else place ++ [s]) more = .ok q := by
  rw [walk]
  cases hp : t.at? place with
  | none => simp
  | some f =>
      cases f with
      | file content => simp
      | directory => simp

theorem walk_append {names more : List String} :
    t.walk place (names ++ more) = .ok q ↔
      ∃ r, t.walk place names = .ok r ∧ t.walk r more = .ok q := by
  induction names generalizing place with
  | nil => simp
  | cons s names ih =>
      rw [List.cons_append, walk_cons, ih]
      constructor
      · rintro ⟨hp, r, hr, hq⟩
        exact ⟨r, walk_cons.mpr ⟨hp, hr⟩, hq⟩
      · rintro ⟨r, hr, hq⟩
        obtain ⟨hp, hr⟩ := walk_cons.mp hr
        exact ⟨hp, r, hr, hq⟩

theorem walk_singleton {s : String} :
    t.walk place [s] = .ok q ↔
      t.at? place = some .directory ∧
        q = if s == ".." then place.dropLast else place ++ [s] := by
  rw [walk_cons, walk_nil, Except.ok.injEq]
  exact and_congr_right fun _ => eq_comm

/-- A walk to a directory starts in one. -/
theorem directory_of_walk {names : List String} (h : t.walk place names = .ok q)
    (hq : t.at? q = some .directory) : t.at? place = some .directory := by
  cases names with
  | nil =>
      cases h
      exact hq
  | cons s names => exact (walk_cons.mp h).1

/-- A walk that never steps back ends behind its start. -/
theorem eq_append_of_walk {names : List String} (hback : ".." ∉ names)
    (h : t.walk place names = .ok q) : q = place ++ names := by
  induction names generalizing place with
  | nil =>
      cases h
      simp
  | cons s names ih =>
      obtain ⟨hs, hnames⟩ := List.ne_and_not_mem_of_not_mem_cons hback
      obtain ⟨-, hq⟩ := walk_cons.mp h
      have hstep : (s == "..") = false := beq_eq_false_iff_ne.mpr (Ne.symm hs)
      rw [hstep] at hq
      simpa using ih hnames hq

/-- A walk looks at directories only, so it goes the same way where they are
    kept. -/
theorem Holds.walk {names : List String} (hold : t.Holds u) (h : t.walk place names = .ok q) :
    u.walk place names = .ok q := by
  induction names generalizing place with
  | nil => exact h
  | cons s names ih =>
      obtain ⟨hp, hq⟩ := walk_cons.mp h
      exact walk_cons.mpr ⟨hold place hp, ih hq⟩

/-! ## Paths -/

variable {workDir : Place} {p : Path}

theorem locate_append {names : List String} :
    t.locate workDir { p with parts := p.parts ++ names } = .ok q ↔
      ∃ r, t.locate workDir p = .ok r ∧ t.walk r names = .ok q := walk_append

theorem Holds.locate (hold : t.Holds u) (h : t.locate workDir p = .ok q) :
    u.locate workDir p = .ok q := hold.walk h

theorem find?_eq_ok :
    t.find? workDir p = .ok e ↔ ∃ q, t.locate workDir p = .ok q ∧ t.at? q = some e := by
  rw [find?]
  cases hl : t.locate workDir p with
  | error fault => simp [bind, Except.bind]
  | ok r =>
      cases hr : t.at? r with
      | none => simp [bind, Except.bind, hr, throw, throwThe, MonadExceptOf.throw]
      | some f => simp [bind, Except.bind, hr, pure, Except.pure]

theorem isDirectory_iff :
    t.isDirectory workDir p = true ↔
      ∃ q, t.locate workDir p = .ok q ∧ t.at? q = some .directory := by
  rw [← find?_eq_ok, isDirectory]
  cases t.find? workDir p with
  | error fault => simp
  | ok f => cases f <;> simp

theorem isFile_iff :
    t.isFile workDir p = true ↔
      ∃ q content, t.locate workDir p = .ok q ∧ t.at? q = some (.file content) := by
  rw [exists_comm]
  simp only [← find?_eq_ok]
  rw [isFile]
  cases t.find? workDir p with
  | error fault => simp
  | ok f => cases f <;> simp

theorem read_eq_ok {content : Bytes} :
    t.read workDir p = .ok content ↔
      ∃ q, t.locate workDir p = .ok q ∧ t.at? q = some (.file content) := by
  rw [← find?_eq_ok, read]
  cases t.find? workDir p with
  | error fault => simp
  | ok f => cases f <;> simp

/-! ## Well-formed trees -/

/-- **THE TREE OF A FILE SYSTEM**: every place is written once, what stands
    somewhere stands in a directory, and no name on the way to it steps
    back. -/
structure WellFormed (t : FileTree) : Prop where
  once : t.Once
  inDirectory : ∀ place s, t.at? (place ++ [s]) ≠ none → t.at? place = some .directory
  plain : ∀ place, t.at? place ≠ none → ".." ∉ place

namespace WellFormed

theorem empty : ({} : FileTree).WellFormed := by
  have root : ∀ place, ({} : FileTree).at? place ≠ none → place = [] := by
    intro place h
    by_contra hne
    exact h (at?_eq_lookup hne)
  refine ⟨List.nodup_nil, ?_, ?_⟩
  · intro place s h
    exact absurd (root _ h) (by simp)
  · intro place h
    rw [root place h]
    exact List.not_mem_nil

/-- Everything on the way to what stands somewhere is a directory. -/
theorem above (ht : t.WellFormed) {more : List String} (hmore : more ≠ [])
    (h : t.at? (place ++ more) ≠ none) : t.at? place = some .directory := by
  induction more using List.reverseRecOn with
  | nil => exact absurd rfl hmore
  | append_singleton more s ih =>
      rw [← List.append_assoc] at h
      have hdir := ht.inDirectory (place ++ more) s h
      by_cases hnil : more = []
      · simpa [hnil] using hdir
      · refine ih hnil ?_
        rw [hdir]
        exact Option.some_ne_none _

/-- Nothing is below a place where no directory stands. -/
theorem nothing_below (ht : t.WellFormed) (hplace : t.at? place ≠ some .directory)
    (hbelow : place <+: q) (hne : q ≠ place) : t.at? q = none := by
  by_contra h
  obtain ⟨more, rfl⟩ := hbelow
  refine hplace (ht.above ?_ h)
  rintro rfl
  simp at hne

/-- Where no directory stands, nothing else is removed with a place. -/
theorem at?_prune_of_ne (ht : t.WellFormed) (hne : place ≠ [])
    (hplace : t.at? place ≠ some .directory) (hq : q ≠ place) :
    (t.prune place).at? q = t.at? q := by
  by_cases hbelow : place <+: q
  · rw [at?_prune_of_below hne hbelow, ht.nothing_below hplace hbelow hq]
  · exact at?_prune_of_apart hne hbelow

/-- What stands behind a directory is reached by its names. -/
theorem walk_eq (ht : t.WellFormed) {names : List String} (h : t.at? (place ++ names) ≠ none) :
    t.walk place names = .ok (place ++ names) := by
  induction names generalizing place with
  | nil => simp
  | cons s names ih =>
      have hdir : t.at? place = some .directory := ht.above (List.cons_ne_nil s names) h
      have hs : (s == "..") = false := by
        refine beq_eq_false_iff_ne.mpr fun hs => ?_
        exact ht.plain _ h (by simp [hs])
      have hnext : place ++ s :: names = (place ++ [s]) ++ names := by simp
      rw [hnext] at h
      refine walk_cons.mpr ⟨hdir, ?_⟩
      rw [hs, hnext]
      exact ih h

theorem of_same (ht : t.WellFormed) (same : u.Same t) (once : u.Once) : u.WellFormed := by
  refine ⟨once, ?_, ?_⟩
  · intro place s hstand
    rw [same] at hstand ⊢
    exact ht.inDirectory place s hstand
  · intro place hstand
    rw [same] at hstand
    exact ht.plain place hstand

theorem put (ht : t.WellFormed) (hdir : t.at? place = some .directory) {s : String} (hs : s ≠ "..")
    (he : e = .directory ∨ t.at? (place ++ [s]) ≠ some .directory) :
    (t.put (place ++ [s]) e).WellFormed := by
  have hne : place ++ [s] ≠ [] := by simp
  refine ⟨ht.once.put _ _, ?_, ?_⟩
  · intro r s' hstand
    -- the new entry stands in its directory; an older one may stand in the new one
    by_cases hnew : r ++ [s'] = place ++ [s]
    · obtain ⟨rfl, -⟩ := List.append_inj' hnew rfl
      rw [at?_put_of_ne hne (by simp), hdir]
    · rw [at?_put_of_ne hne hnew] at hstand
      have hr := ht.inDirectory r s' hstand
      rw [at?_put hne]
      split
      · next hrp =>
          rcases he with rfl | he
          · rfl
          · exact absurd (hrp ▸ hr) he
      · exact hr
  · intro r hstand
    by_cases hr : r = place ++ [s]
    · subst hr
      intro hmem
      rcases List.mem_append.mp hmem with hmem | hmem
      · exact ht.plain place (by rw [hdir]; exact Option.some_ne_none _) hmem
      · exact hs (List.mem_singleton.mp hmem).symm
    · rw [at?_put_of_ne hne hr] at hstand
      exact ht.plain r hstand

theorem prune (ht : t.WellFormed) (hplace : place ≠ []) : (t.prune place).WellFormed := by
  refine ⟨ht.once.prune place, ?_, ?_⟩
  · intro r s hstand
    rw [at?_prune hplace] at hstand ⊢
    split at hstand
    · exact absurd rfl hstand
    · next hapart =>
        rw [if_neg fun h => hapart (h.trans (List.prefix_append r [s]))]
        exact ht.inDirectory r s hstand
  · intro r hstand
    rw [at?_prune hplace] at hstand
    split at hstand
    · exact absurd rfl hstand
    · exact ht.plain r hstand

/-- Where a path leads to no directory, its last step was taken in one and
    did not step back. -/
theorem last_step (ht : t.WellFormed) (hwork : t.at? workDir = some .directory)
    (hp : t.locate workDir p = .ok place) (hplace : t.at? place ≠ some .directory) :
    ∃ d s, t.at? d = some .directory ∧ s ≠ ".." ∧ place = d ++ [s] := by
  rw [locate] at hp
  generalize hstart : (if p.isAbsolute = true then [] else workDir) = start at hp
  have hstand : t.at? start = some .directory := by
    rw [← hstart]
    split
    · rfl
    · exact hwork
  rcases List.eq_nil_or_concat' p.parts with hparts | ⟨before, s, hparts⟩
  · rw [hparts] at hp
    cases hp
    exact absurd hstand hplace
  · rw [hparts] at hp
    obtain ⟨d, -, hs⟩ := walk_append.mp hp
    obtain ⟨hd, rfl⟩ := walk_singleton.mp hs
    by_cases hback : s = ".."
    · -- a step back leads to a directory
      subst hback
      simp only [beq_self_eq_true, if_true] at hplace
      rcases List.eq_nil_or_concat' d with rfl | ⟨d, s, rfl⟩
      · exact absurd rfl hplace
      · rw [List.dropLast_concat] at hplace
        exact absurd (ht.inDirectory d s (by rw [hd]; exact Option.some_ne_none _)) hplace
    · exact ⟨d, s, hd, hback, by simp [hback]⟩

end WellFormed
end FileTree
end GemBinder.Files
