import GemBinder.Proofs.Files.Scratch

/-! # Files that move out of a scratch directory

    A move makes the directories on the way to the place of a file and then
    puts the file there.  All of that is outside the scratch directory.  What
    a move has made is not touched by the moves of other files: directories
    stay, and every file has its own place. -/

namespace GemBinder.Files

open FileTree

/-- The operations that move a file of a scratch directory into the
    target. -/
def moveInto (workDir : Place) (staging target : Path) (steps : List String) : Disk Unit := do
  let source : Path := { staging with parts := staging.parts ++ steps }
  let final : Path := { target with parts := target.parts ++ steps }
  Disk.ensureDirectory workDir final.parent
  Disk.replace workDir (← Disk.locate workDir source) source final

/-- **HOW A MOVE ENDS**: behind the directories that were made on the way,
    either nothing has changed, or the file has left its place and stands
    where the path into the target leads. -/
theorem outcome_moveInto_cases {workDir : Place} {staging target : Path} {steps : List String}
    {t t' u : FileTree} {r : Except DiskError Unit}
    (hu : (outcome (Disk.ensureDirectory workDir
      ({ target with parts := target.parts ++ steps } : Path).parent) t).2 = u)
    (h : outcome (moveInto workDir staging target steps) t = (r, t')) :
    (∃ e, r = .error e ∧ t' = u) ∨
      ∃ source place e, r = .ok () ∧
        u.locate workDir { staging with parts := staging.parts ++ steps } = .ok source ∧
        u.locate workDir { target with parts := target.parts ++ steps } = .ok place ∧
        u.at? place ≠ some .directory ∧ u.at? source = some e ∧
        t' = (u.prune source).put place e := by
  rw [moveInto] at h
  rcases hens : outcome (Disk.ensureDirectory workDir
    ({ target with parts := target.parts ++ steps } : Path).parent) t with ⟨made, u'⟩
  obtain rfl : u' = u := by rw [← hu, hens]
  cases made with
  | error e =>
      rw [outcome_bind_of_error hens] at h
      cases h
      exact .inl ⟨e, rfl, rfl⟩
  | ok _ =>
      rw [outcome_bind_of_ok hens, Disk.locate, bind_assoc, outcome_get_bind] at h
      cases hl : u'.locate workDir { staging with parts := staging.parts ++ steps } with
      | error fault =>
          rw [hl] at h
          cases h
          exact .inl ⟨_, rfl, rfl⟩
      | ok source =>
          rw [hl] at h
          simp only [pure_bind] at h
          rcases Disk.outcome_replace h with ⟨e, rfl, rfl⟩ | ⟨place, e, rfl, hp, hdir, hsrc, rfl⟩
          · exact .inl ⟨e, rfl, rfl⟩
          · exact .inr ⟨source, place, e, rfl, rfl, hp, hdir, hsrc, rfl⟩

namespace Scratch

variable {base : FileTree} {workDir : Place} {target staging : Path} {directory : Place}
  {name : String} {t t' u : FileTree} {steps : List String} {q : Place}

section

variable (hs : Scratch base workDir target staging directory name)
include hs

/-- The way to the target and behind it never enters the scratch directory. -/
theorem apart {rest : List String} (hon : Onward steps)
    (hbelow : rest <+: target.lastStep ++ steps) : ¬ directory ++ [name] <+: directory ++ rest := by
  intro h
  have hname : [name] <+: target.lastStep ++ steps :=
    ((List.prefix_append_right_inj directory).mp h).trans hbelow
  have hhead : (target.lastStep ++ steps).head? = some name := by
    obtain ⟨more, hmore⟩ := hname
    rw [← hmore]
    rfl
  rw [List.head?_append] at hhead
  cases hlast : target.lastStep with
  | nil =>
      rw [hlast] at hhead
      exact hon.shown name (by simpa using hhead) hs.hidden
  | cons s more =>
      rw [hlast] at hhead
      obtain rfl : s = name := by simpa using hhead
      have hs' : s = target.name := Path.eq_name_of_mem_lastStep (by simp [hlast])
      have hlonger := hs.longer
      rw [← hs'] at hlonger
      exact absurd hlonger (Nat.lt_irrefl _)

theorem forward_steps (hback : ".." ∉ steps) : ".." ∉ target.lastStep ++ steps := by
  intro h
  rcases List.mem_append.mp h with h | h
  · exact hs.forward (Path.eq_name_of_mem_lastStep h).symm
  · exact hback h

/-- **WHAT A MOVE DOES**: it gains directories on the way, and if it ends
    well, the file has left the scratch directory and stands in the target. -/
theorem outcome_moveInto {r : Except DiskError Unit} (hold : base.Holds t) (hon : Onward steps)
    (h : outcome (moveInto workDir staging target steps) t = (r, t')) :
    ∃ u, t.Gains u ∧
      (∀ q, u.at? q ≠ t.at? q →
        ∃ rest, rest ≠ [] ∧ rest <+: target.lastStep ++ steps ∧ q = directory ++ rest) ∧
      ((∃ e, r = .error e ∧ t' = u) ∨
        ∃ e, r = .ok () ∧ u.at? (directory ++ [name] ++ steps) = some e ∧
          u.at? (directory ++ (target.lastStep ++ steps)) ≠ some .directory ∧
          t' = (u.prune (directory ++ [name] ++ steps)).put
            (directory ++ (target.lastStep ++ steps)) e) := by
  have hforward := hs.forward_steps hon.forward
  have hnames : target.lastStep ++ steps ≠ [] := by simp [hon.some]
  have hends := outcome_moveInto_cases rfl h
  rw [target.append_eq_parent_append steps, Path.parent_append hnames] at hends
  have hgains := Disk.ensureDirectory_gains workDir { target.parent with
      parts := target.parent.parts ++ (target.lastStep ++ steps).dropLast } t
  refine ⟨_, hgains, ?_, ?_⟩
  · intro q hq
    have hdrop := List.dropLast_prefix (target.lastStep ++ steps)
    obtain ⟨rest, hrest, hbelow, rfl⟩ :=
      Disk.ensureDirectory_behind (fun h => hforward (hdrop.subset h)) (hold.locate hs.found)
        (hold _ hs.stands) hq
    exact ⟨rest, hrest, hbelow.trans hdrop, rfl⟩
  · have hold' := hold.trans hgains.holds
    rcases hends with herror | ⟨source, place, e, rfl, hl, hp, hdir, hsrc, rfl⟩
    · exact .inl herror
    · -- without steps back, places are the names put behind each other
      obtain ⟨r', hr', hwalk⟩ := locate_append.mp hl
      obtain rfl := Except.ok.inj ((hs.locate_staging hold').symm.trans hr')
      obtain rfl := eq_append_of_walk hon.forward hwalk
      obtain ⟨r', hr', hwalk⟩ := locate_append.mp hp
      obtain rfl := Except.ok.inj ((hold'.locate hs.found).symm.trans hr')
      obtain rfl := eq_append_of_walk hforward hwalk
      exact .inr ⟨e, rfl, hsrc, hdir, rfl⟩

/-- **WHAT A MOVE LEAVES ALONE**: directories outside the scratch directory,
    and files there that have another place. -/
theorem keeps_moveInto {e : Entry} (hon : Onward steps)
    (hapart : ¬ directory ++ [name] <+: q)
    (he : e = .directory ∨ q ≠ directory ++ (target.lastStep ++ steps)) :
    Keeps (fun t => base.Holds t ∧ t.at? q = some e) (moveInto workDir staging target steps) := by
  rintro t ⟨hold, hq⟩
  obtain ⟨u, hgains, -, h⟩ := hs.outcome_moveInto hold hon (Prod.eta _).symm
  have hold' := hold.trans hgains.holds
  have hqu : u.at? q = some e := by
    rw [hgains.at?_eq (by rw [hq]; exact Option.some_ne_none _), hq]
  -- no place outside the scratch directory is lost, and no directory is replaced
  have kept : ∀ {q : Place} {e f : Entry}, ¬ directory ++ [name] <+: q → u.at? q = some e →
      u.at? (directory ++ (target.lastStep ++ steps)) ≠ some .directory →
      (e = .directory ∨ q ≠ directory ++ (target.lastStep ++ steps)) →
      ((u.prune (directory ++ [name] ++ steps)).put
        (directory ++ (target.lastStep ++ steps)) f).at? q = some e := by
    intro q e f hapart hq hdir he
    have hnew : q ≠ directory ++ (target.lastStep ++ steps) := by
      rcases he with rfl | he
      · rintro rfl
        exact hdir hq
      · exact he
    rw [at?_put_of_ne (by simp [hon.some]) hnew, at?_prune_of_apart (by simp), hq]
    intro hbelow
    exact hapart ((List.prefix_append _ _).trans hbelow)
  rcases h with ⟨_, -, h⟩ | ⟨f, -, -, hdir, h⟩
  · rw [h]
    exact ⟨hold', hqu⟩
  · rw [h]
    refine ⟨?_, kept hapart hqu hdir he⟩
    intro r hr
    refine kept ?_ (hold' r hr) hdir (.inl rfl)
    intro hbelow
    rw [hs.nothing_below hbelow] at hr
    exact nomatch hr

end
end Scratch
end GemBinder.Files
