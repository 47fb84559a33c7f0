import GemBinder.Proofs.Files.Disk

/-! # A scratch directory beside a target

    A scratch directory has a new name in the directory that holds its
    target.  What is written below it changes nothing elsewhere, so removing
    it gives back the tree in which it was made.

    Moving a file from there into the target is different.  It may make
    directories on the way, and it replaces what the target has.  Both are
    outside the scratch directory and stay when it is removed. -/

namespace GemBinder.Files

open FileTree

/-! ## Last steps -/

namespace Path

/-- The last step of a path, if it has one. -/
def lastStep (p : Path) : List String := p.parts.getLast?.toList

theorem parent_parts_append (p : Path) : p.parent.parts ++ p.lastStep = p.parts := by
  rcases List.eq_nil_or_concat' p.parts with h | ⟨before, s, h⟩
  · simp [parent, lastStep, h]
  · simp [parent, lastStep, h]

theorem lastStep_cases (p : Path) : p.lastStep = [] ∨ p.lastStep = [p.name] := by
  rw [lastStep, name]
  cases p.parts.getLast? with
  | none => exact .inl rfl
  | some s => exact .inr rfl

theorem eq_name_of_mem_lastStep {p : Path} {s : String} (h : s ∈ p.lastStep) : s = p.name := by
  rw [lastStep, Option.mem_toList] at h
  rw [name, h]
  rfl

/-- What is behind a path is behind its parent. -/
theorem append_eq_parent_append (p : Path) (names : List String) :
    ({ p with parts := p.parts ++ names } : Path) =
      { p.parent with parts := p.parent.parts ++ (p.lastStep ++ names) } := by
  rw [← List.append_assoc, p.parent_parts_append]
  rfl

theorem parent_append {p : Path} {names : List String} (h : names ≠ []) :
    ({ p with parts := p.parts ++ names } : Path).parent =
      { p with parts := p.parts ++ names.dropLast } := by
  rw [parent, List.dropLast_append_of_ne_nil h]

end Path

/-! ## The scratch directory -/

/-- A name that begins with a point. -/
def Hidden (name : String) : Prop := name.toList.head? = some '.'

instance (name : String) : Decidable (Hidden name) := inferInstanceAs (Decidable (_ = _))

/-- Steps that lead onward: there is one, none steps back, and the first name
    shows. -/
structure Onward (names : List String) : Prop where
  some : names ≠ []
  forward : ".." ∉ names
  shown : ∀ s ∈ names.head?, ¬ Hidden s

/-- **A PLACE BESIDE A TARGET**: a new name in the directory that holds the
    target. -/
structure Beside (base : FileTree) (workDir : Place) (target staging : Path) (directory : Place)
    (name : String) : Prop where
  wellFormed : base.WellFormed
  working : base.at? workDir = some .directory
  found : base.locate workDir target.parent = .ok directory
  stands : base.at? directory = some .directory
  free : base.at? (directory ++ [name]) = none
  path : staging = { target.parent with parts := target.parent.parts ++ [name] }
  plain : name ≠ ".."

/-- **A SCRATCH DIRECTORY OF A TARGET**: a new name in the directory that
    holds the target, which no file of the target begins with. -/
structure Scratch (base : FileTree) (workDir : Place) (target staging : Path) (directory : Place)
    (name : String) : Prop where
  wellFormed : base.WellFormed
  working : base.at? workDir = some .directory
  found : base.locate workDir target.parent = .ok directory
  stands : base.at? directory = some .directory
  free : base.at? (directory ++ [name]) = none
  path : staging = { target.parent with parts := target.parent.parts ++ [name] }
  plain : name ≠ ".."
  hidden : Hidden name
  longer : target.name.length < name.length
  forward : target.name ≠ ".."

/-- Beside a target whose last step goes forward, a place with a hidden name
    that is longer is a scratch directory. -/
theorem Beside.scratch {base : FileTree} {workDir : Place} {target staging : Path}
    {directory : Place} {name : String}
    (hb : Beside base workDir target staging directory name) (hhidden : Hidden name)
    (hlonger : target.name.length < name.length) (hforward : target.name ≠ "..") :
    Scratch base workDir target staging directory name :=
  { wellFormed := hb.wellFormed, working := hb.working, found := hb.found, stands := hb.stands,
    free := hb.free, path := hb.path, plain := hb.plain, hidden := hhidden, longer := hlonger,
    forward := hforward }

/-- A tree that differs from another at most below a directory, where every
    first name shows. -/
structure Draft (base : FileTree) (place : Place) (t : FileTree) : Prop where
  wellFormed : t.WellFormed
  stands : t.at? place = some .directory
  outside : ∀ q, ¬ place <+: q → t.at? q = base.at? q
  shown : ∀ s more, t.at? (place ++ s :: more) ≠ none → ¬ Hidden s

namespace Draft

variable {base t t' : FileTree} {place : Place}

theorem put {e : Entry} {s : String} {more : List String} (ht : Draft base place t)
    (ht' : t'.WellFormed) (hshown : ¬ Hidden s)
    (same : t'.Same (t.put (place ++ s :: more) e)) : Draft base place t' where
  wellFormed := ht'
  stands := by
    rw [same, at?_put_of_ne (by simp) (by simp), ht.stands]
  outside := by
    intro q hq
    rw [same, at?_put_of_ne (by simp), ht.outside q hq]
    rintro rfl
    exact hq (List.prefix_append _ _)
  shown := by
    intro s' more' hstand
    by_cases hnew : place ++ s' :: more' = place ++ s :: more
    · obtain ⟨rfl, -⟩ := List.cons.inj (List.append_cancel_left hnew)
      exact hshown
    · rw [same, at?_put_of_ne (by simp) hnew] at hstand
      exact ht.shown s' more' hstand

/-- Trees that are the same are drafts together. -/
theorem of_same (ht : Draft base place t) (ht' : t'.WellFormed) (same : t'.Same t) :
    Draft base place t' where
  wellFormed := ht'
  stands := by rw [same, ht.stands]
  outside := by
    intro q hq
    rw [same, ht.outside q hq]
  shown := by
    intro s more hstand
    rw [same] at hstand
    exact ht.shown s more hstand

end Draft

namespace Beside

variable {base : FileTree} {workDir : Place} {target staging : Path} {directory : Place}
  {name : String} {t : FileTree} {q : Place}
  (hb : Beside base workDir target staging directory name)
include hb

/-- Nothing is below a new name. -/
theorem nothing_below (h : directory ++ [name] <+: q) : base.at? q = none := by
  by_cases hq : q = directory ++ [name]
  · rw [hq, hb.free]
  · exact hb.wellFormed.nothing_below (by rw [hb.free]; exact nofun) h hq

/-- A directory is not below a new name. -/
theorem apart_of_directory (hq : base.at? q = some .directory) : ¬ directory ++ [name] <+: q := by
  intro hbelow
  rw [hb.nothing_below hbelow] at hq
  exact nomatch hq

theorem holds_of_outside (h : ∀ q, ¬ directory ++ [name] <+: q → t.at? q = base.at? q) :
    base.Holds t := by
  intro q hq
  rw [h q (hb.apart_of_directory hq), hq]

/-- The new directory is found as long as the directories are there. -/
theorem locate_staging (hold : base.Holds t) :
    t.locate workDir staging = .ok (directory ++ [name]) := by
  rw [hb.path]
  refine locate_append.mpr ⟨directory, hold.locate hb.found, walk_singleton.mpr ⟨?_, ?_⟩⟩
  · exact hold _ hb.stands
  · rw [beq_eq_false_iff_ne.mpr hb.plain]
    rfl

end Beside

namespace Scratch

variable {base : FileTree} {workDir : Place} {target staging : Path} {directory : Place}
  {name : String} {t t' u : FileTree} {names steps : List String} {q : Place}

section

variable (hs : Scratch base workDir target staging directory name)
include hs

theorem beside : Beside base workDir target staging directory name :=
  ⟨hs.wellFormed, hs.working, hs.found, hs.stands, hs.free, hs.path, hs.plain⟩

theorem nothing_below (h : directory ++ [name] <+: q) : base.at? q = none :=
  hs.beside.nothing_below h

theorem holds_of_outside (h : ∀ q, ¬ directory ++ [name] <+: q → t.at? q = base.at? q) :
    base.Holds t := hs.beside.holds_of_outside h

theorem locate_staging (hold : base.Holds t) :
    t.locate workDir staging = .ok (directory ++ [name]) := hs.beside.locate_staging hold

/-! ## Drafts -/

theorem draft_start : Draft base (directory ++ [name]) (base.put (directory ++ [name]) .directory)
    where
  wellFormed := hs.wellFormed.put hs.stands hs.plain (.inl rfl)
  stands := at?_put_self (by simp)
  outside := by
    intro q hq
    refine at?_put_of_ne (by simp) ?_
    rintro rfl
    exact hq List.prefix_rfl
  shown := by
    intro s more hstand
    rw [at?_put_of_ne (by simp) (by simp), hs.nothing_below (List.prefix_append _ _)] at hstand
    exact absurd rfl hstand

/-- Removing the scratch directory gives back the tree in which it was
    made. -/
theorem draft_prune (ht : Draft base (directory ++ [name]) t) :
    (t.prune (directory ++ [name])).Same base := by
  intro q
  by_cases hbelow : directory ++ [name] <+: q
  · rw [at?_prune_of_below (by simp) hbelow, hs.nothing_below hbelow]
  · rw [at?_prune_of_apart (by simp) hbelow, ht.outside q hbelow]

/-- Directories on a way that begins in the scratch directory with a name
    that shows leave a draft. -/
theorem keeps_ensureDirectory (hback : ".." ∉ names) (hshown : ∀ s ∈ names.head?, ¬ Hidden s) :
    Keeps (Draft base (directory ++ [name]))
      (Disk.ensureDirectory workDir { staging with parts := staging.parts ++ names }) := by
  refine Disk.keeps_ensureDirectory fun parts hparts t t' ht h => ?_
  have hold := hs.holds_of_outside ht.outside
  have hwf := h.wellFormed ht.wellFormed (hold _ hs.working)
  rcases h with rfl | ⟨made, hmade, hnone, rfl⟩
  · exact ht
  · obtain ⟨rest, hrest, hnames, rfl⟩ :=
      Disk.behind_of_prefix hback (hs.locate_staging hold) ht.stands hparts hmade hnone
    cases rest with
    | nil => exact absurd rfl hrest
    | cons s more =>
        refine ht.put hwf (hshown s ?_) (Same.refl _)
        obtain ⟨rest, rfl⟩ := hnames
        rfl

/-- A file that is written onward from the scratch directory leaves a
    draft. -/
theorem keeps_writeAtomically {token : String} {content : Text.Bytes} (hon : Onward names) :
    Keeps (Draft base (directory ++ [name]))
      (Disk.writeAtomically workDir token { staging with parts := staging.parts ++ names }
        content) := by
  intro t ht
  have hold := hs.holds_of_outside ht.outside
  have hparent := Path.parent_append (p := staging) hon.some
  have hbefore : ∀ s ∈ names.dropLast.head?, ¬ Hidden s := by
    intro s hmem
    refine hon.shown s ?_
    rw [← List.dropLast_append_getLast hon.some, List.head?_append]
    simp [Option.mem_def.mp hmem]
  have hforward : ".." ∉ names.dropLast :=
    fun h => hon.forward ((List.dropLast_sublist names).subset h)
  -- the directories on the way are part of the draft already
  have hdraft := hs.keeps_ensureDirectory hforward hbefore t ht
  obtain ⟨hwf, h⟩ := Disk.outcome_writeAtomically ht.wellFormed (hold _ hs.working)
    (by rw [hparent]) (Prod.eta _).symm
  rcases h with ⟨e, -, same⟩ | ⟨place, -, hl, -, same⟩
  · exact hdraft.of_same hwf same
  · have hold' := hs.holds_of_outside hdraft.outside
    obtain ⟨r, hr, hwalk⟩ := locate_append.mp hl
    obtain rfl := Except.ok.inj ((hs.locate_staging hold').symm.trans hr)
    obtain rfl := eq_append_of_walk hon.forward hwalk
    cases names with
    | nil => exact absurd rfl hon.some
    | cons s more => exact hdraft.put hwf (hon.shown s rfl) same

end

/-! ## How it is made -/

/-- The names that scratch directories are given are new ones. -/
theorem lengthened_scratchName (target : Path) (token : String) (n : Nat) :
    Hidden (Disk.lengthened s!".{target.name}.staging-{token}" n) ∧
      Disk.lengthened s!".{target.name}.staging-{token}" n ≠ ".." ∧
      target.name.length < (Disk.lengthened s!".{target.name}.staging-{token}" n).length := by
  have hlonger : target.name.length + 2 <
      (Disk.lengthened s!".{target.name}.staging-{token}" n).length := by
    have h : ".staging-".length = 9 := by decide
    simp only [Disk.lengthened, String.length_append, String.length_ofList, toString, h]
    omega
  refine ⟨?_, ?_, by omega⟩
  · simp [Hidden, Disk.lengthened, show toString "." = "." from rfl]
  · intro h
    rw [h] at hlonger
    have h' : "..".length = 2 := by decide
    omega

/-- The operations that make the scratch directory of a target. -/
def make (workDir : Place) (target : Path) (token : String) : Disk Path := do
  Disk.ensureDirectory workDir target.parent
  let directory ← Disk.locate workDir target.parent
  let name := Disk.freshName (← get) directory s!".{target.name}.staging-{token}"
  let staging := { target.parent with parts := target.parent.parts ++ [name] }
  Disk.makeDirectory workDir staging
  return staging

/-- A new directory behind one that is found is made there, or nothing is. -/
theorem outcome_makeDirectory_behind {p : Path} {directory : Place} {name : String}
    {r : Except DiskError Unit} (hl : u.locate workDir p = .ok directory) (hplain : name ≠ "..")
    (hfree : u.at? (directory ++ [name]) = none)
    (h : outcome (Disk.makeDirectory workDir { p with parts := p.parts ++ [name] }) u = (r, t')) :
    (∃ e, r = .error e ∧ t' = u) ∨
      r = .ok () ∧ u.at? directory = some .directory ∧
        t' = u.put (directory ++ [name]) .directory := by
  cases hs : u.locate workDir { p with parts := p.parts ++ [name] } with
  | error fault =>
      rw [Disk.outcome_makeDirectory_of_error hs] at h
      cases h
      exact .inl ⟨_, rfl, rfl⟩
  | ok place =>
      obtain ⟨d, hd, hwalk⟩ := locate_append.mp hs
      obtain rfl := Except.ok.inj (hl.symm.trans hd)
      obtain ⟨hstands, hplace⟩ := walk_singleton.mp hwalk
      rw [beq_eq_false_iff_ne.mpr hplain] at hplace
      obtain rfl : place = directory ++ [name] := hplace
      rw [Disk.outcome_makeDirectory_of_ok hs, hfree] at h
      cases h
      exact .inr ⟨rfl, hstands, rfl⟩

/-- **HOW A PLACE BESIDE A TARGET IS MADE**: behind the directories that were
    made on the way to the target, either nothing is made or a new directory
    is.  Its name is hidden and longer than that of the target. -/
theorem outcome_make {token : String} {r : Except DiskError Path} (ht : t.WellFormed)
    (hwork : t.at? workDir = some .directory)
    (hu : (outcome (Disk.ensureDirectory workDir target.parent) t).2 = u)
    (h : outcome (make workDir target token) t = (r, t')) :
    (∃ e, r = .error e ∧ t' = u) ∨
      ∃ staging directory name, r = .ok staging ∧
        Beside u workDir target staging directory name ∧
        name = Disk.freshName u directory s!".{target.name}.staging-{token}" ∧
        Hidden name ∧ target.name.length < name.length ∧
        t' = u.put (directory ++ [name]) .directory := by
  have hwf : u.WellFormed := by
    rw [← hu]
    exact Disk.ensureDirectory_wellFormed ht hwork
  have hworking : u.at? workDir = some .directory := by
    rw [← hu]
    exact (Disk.ensureDirectory_gains workDir target.parent t).holds _ hwork
  rw [make] at h
  rcases hens : outcome (Disk.ensureDirectory workDir target.parent) t with ⟨made, u'⟩
  obtain rfl : u' = u := by rw [← hu, hens]
  cases made with
  | error e =>
      rw [outcome_bind_of_error hens] at h
      cases h
      exact .inl ⟨e, rfl, rfl⟩
  | ok _ =>
      rw [outcome_bind_of_ok hens] at h
      have hfound := Disk.outcome_locate workDir target.parent u'
      cases hl : u'.locate workDir target.parent with
      | error fault =>
          rw [hl] at hfound
          rw [outcome_bind_of_error hfound] at h
          cases h
          exact .inl ⟨_, rfl, rfl⟩
      | ok directory =>
          rw [hl] at hfound
          rw [outcome_bind_of_ok hfound, outcome_get_bind] at h
          obtain ⟨n, hn⟩ := Disk.freshName_eq u' directory s!".{target.name}.staging-{token}"
          have hfree := Disk.at?_freshName u' directory s!".{target.name}.staging-{token}"
          obtain ⟨hhidden, hplain, hlonger⟩ := lengthened_scratchName target token n
          rw [← hn] at hhidden hplain hlonger
          -- of the name, all that matters from here on is known
          generalize hname : Disk.freshName u' directory s!".{target.name}.staging-{token}" = name at *
          rcases hmake : outcome (Disk.makeDirectory workDir
            { target.parent with parts := target.parent.parts ++ [name] }) u' with ⟨made, v⟩
          rcases outcome_makeDirectory_behind hl hplain hfree hmake with
            ⟨e, rfl, rfl⟩ | ⟨rfl, hstands, rfl⟩
          · rw [outcome_bind_of_error hmake] at h
            cases h
            exact .inl ⟨e, rfl, rfl⟩
          · rw [outcome_bind_of_ok hmake] at h
            cases h
            exact .inr ⟨_, directory, name, rfl,
              ⟨hwf, hworking, hl, hstands, hfree, rfl, hplain⟩, hname.symm, hhidden, hlonger, rfl⟩

end Scratch
end GemBinder.Files
