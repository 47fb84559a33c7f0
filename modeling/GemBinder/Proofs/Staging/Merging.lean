import Mathlib.Data.List.Dedup
import GemBinder.Proofs.Files.Order
import GemBinder.Proofs.Staging.Commit
import GemBinder.Proofs.Staging.Writing

/-! # Merging a scratch directory into a target

    A commit goes through the files that were laid out, in the order of
    their steps.  What it has come to already is in its place, what it has
    still to come to is where it was laid out, and no other file has changed.
    So it moves just the files that the target had not before it began. -/

namespace GemBinder

open Files Text World

/-- The steps of some files, each once and in order. -/
def inOrder (files : List (List String × Bytes)) : List (List String) :=
  (files.map (·.1)).dedup.mergeSort namesLe

theorem mem_inOrder {files : List (List String × Bytes)} {steps : List String} :
    steps ∈ inOrder files ↔ ∃ content, files.lookup steps = some content := by
  rw [inOrder, (List.mergeSort_perm _ _).mem_iff, List.mem_dedup, List.mem_map]
  constructor
  · rintro ⟨⟨steps', content⟩, hmem, rfl⟩
    rw [← Option.isSome_iff_exists, List.lookup_isSome_iff]
    exact ⟨_, hmem, beq_self_eq_true _⟩
  · rintro ⟨content, h⟩
    exact ⟨(steps, content), mem_of_lookup_steps h, rfl⟩

theorem nodup_inOrder (files : List (List String × Bytes)) : (inOrder files).Nodup :=
  (List.mergeSort_perm _ _).nodup_iff.mpr (List.nodup_dedup _)

theorem pairwise_inOrder (files : List (List String × Bytes)) :
    (inOrder files).Pairwise fun p q => namesLe p q = true :=
  List.pairwise_mergeSort namesLe_trans namesLe_total _

namespace Step

variable {base t t' : FileTree} {workDir : Place} {target staging : Path} {source goal : Place}
  {files : List (List String × Bytes)} {steps : List String} {w w' : World}

/-- The files that are found below a place are those that were laid out
    there. -/
theorem filesBelow_of_laid (hfiles : ∀ file ∈ files, file.1 ≠ []) (ht : Laid base source files t)
    (hl : t.locate workDir staging = .ok source) :
    filesBelow t workDir staging = inOrder files := by
  have hmem : ∀ steps, steps ∈ filesBelow t workDir staging ↔ steps ∈ inOrder files := by
    intro steps
    rw [mem_filesBelow ht.wellFormed.once hl, mem_inOrder]
    simp only [ht.files]
    exact ⟨fun h => h.2, fun ⟨content, h⟩ => ⟨hfiles _ (mem_of_lookup_steps h), content, h⟩⟩
  have hperm := (List.perm_ext_iff_of_nodup (nodup_filesBelow ht.wellFormed.once hl)
    (nodup_inOrder files)).mpr hmem
  have hsorted : (filesBelow t workDir staging).Pairwise fun p q => namesLe p q = true :=
    List.pairwise_mergeSort namesLe_trans namesLe_total _
  exact hperm.eq_of_pairwise (fun p q _ _ => namesLe_antisymm p q) hsorted (pairwise_inOrder files)

/-- Two files are compared by what stands in their places. -/
theorem sameContent_iff_of_located (ht : t.WellFormed)
    (hsource : t.locate workDir staging = .ok source) (hgoal : t.locate workDir target = .ok goal)
    {content : Bytes} (hfile : t.at? (source ++ steps) = some (.file content)) :
    sameContent t workDir { staging with parts := staging.parts ++ steps }
        { target with parts := target.parts ++ steps } = true ↔
      t.at? (goal ++ steps) = t.at? (source ++ steps) := by
  have hback : ".." ∉ steps := by
    intro hmem
    exact ht.plain _ (by rw [hfile]; exact Option.some_ne_none _) (List.mem_append_right _ hmem)
  rw [sameContent_iff, hfile]
  constructor
  · rintro ⟨content', hread, hread'⟩
    rw [FileTree.read_behind ht hsource hback, hfile] at hread
    rw [FileTree.read_behind ht hgoal hback] at hread'
    rw [hread', hread]
  · intro hthere
    exact ⟨content, (FileTree.read_behind ht hsource hback).mpr hfile,
      (FileTree.read_behind ht hgoal hback).mpr hthere⟩

/-! ## A tree that is being merged -/

/-- **A COMMIT THAT IS UNDER WAY**: some files are in their place, others
    wait where they were laid out, and every other file is as it was. -/
structure Merging (laid : FileTree) (source goal : Place) (done waiting : List (List String))
    (t : FileTree) : Prop where
  wellFormed : t.WellFormed
  holds : laid.Holds t
  waiting : ∀ steps ∈ waiting, t.at? (source ++ steps) = laid.at? (source ++ steps)
  placed : ∀ steps ∈ done, t.at? (goal ++ steps) = laid.at? (source ++ steps)
  others : ∀ q, ¬ source <+: q → (∀ steps ∈ done, q ≠ goal ++ steps) →
    ∀ content, t.at? q = some (.file content) ↔ laid.at? q = some (.file content)

namespace Merging

variable {laid : FileTree} {done waiting : List (List String)} {content : Bytes}

theorem start (hlaid : laid.WellFormed) : Merging laid source goal [] waiting laid where
  wellFormed := hlaid
  holds := FileTree.Holds.refl laid
  waiting := fun _ _ => rfl
  placed := nofun
  others := fun _ _ _ _ => Iff.rfl

/-- A file that is in its place already is passed over. -/
theorem skip (h : Merging laid source goal done (steps :: waiting) t)
    (hthere : t.at? (goal ++ steps) = laid.at? (source ++ steps)) :
    Merging laid source goal (done ++ [steps]) waiting t where
  wellFormed := h.wellFormed
  holds := h.holds
  waiting := fun steps' hmem => h.waiting steps' (List.mem_cons_of_mem _ hmem)
  placed := by
    intro steps' hmem
    rcases List.mem_append.mp hmem with hmem | hmem
    · exact h.placed steps' hmem
    · rw [List.mem_singleton.mp hmem]
      exact hthere
  others := fun q hq hdone => h.others q hq fun steps' hmem => hdone steps' (by simp [hmem])

/-- Directories that are made on a way are no files. -/
theorem gains {u : FileTree} (h : Merging laid source goal done waiting t) (hu : u.WellFormed)
    (hgains : t.Gains u)
    (hfiles : ∀ steps ∈ done ++ waiting, ∃ content,
      laid.at? (source ++ steps) = some (.file content)) :
    Merging laid source goal done waiting u where
  wellFormed := hu
  holds := h.holds.trans hgains.holds
  waiting := by
    intro steps hmem
    obtain ⟨content, hfile⟩ := hfiles steps (List.mem_append_right _ hmem)
    have hstand := h.waiting steps hmem
    rw [hgains.at?_eq (by rw [hstand, hfile]; exact Option.some_ne_none _), hstand]
  placed := by
    intro steps hmem
    obtain ⟨content, hfile⟩ := hfiles steps (List.mem_append_left _ hmem)
    have hstand := h.placed steps hmem
    rw [hgains.at?_eq (by rw [hstand, hfile]; exact Option.some_ne_none _), hstand]
  others := by
    intro q hq hdone content
    rw [← h.others q hq hdone]
    exact hgains.file_iff

/-- A file that is moved has come to its place. -/
theorem move (h : Merging laid source goal done (steps :: waiting) t)
    (hfile : laid.at? (source ++ steps) = some (.file content))
    (hfiles : ∀ steps' ∈ waiting, ∃ content,
      laid.at? (source ++ steps') = some (.file content))
    (hnew : steps ∉ waiting)
    (hapart : ∀ steps' ∈ done ++ steps :: waiting, ¬ source <+: goal ++ steps')
    (hgoal : t.at? (goal ++ steps) ≠ some .directory)
    (ht' : ((t.prune (source ++ steps)).put (goal ++ steps) (.file content)).WellFormed)
    (hsome : steps ≠ []) :
    Merging laid source goal (done ++ [steps]) waiting
      ((t.prune (source ++ steps)).put (goal ++ steps) (.file content)) := by
  have hsource : source ++ steps ≠ [] := by simp [hsome]
  have hgoal' : goal ++ steps ≠ [] := by simp [hsome]
  have hthere : t.at? (source ++ steps) = some (.file content) := by
    rw [h.waiting steps List.mem_cons_self, hfile]
  -- nothing stands below a file, so nothing else is lost with it
  have kept : ∀ {q : Place} {e : Entry}, q ≠ goal ++ steps → q ≠ source ++ steps →
      t.at? q = some e →
      ((t.prune (source ++ steps)).put (goal ++ steps) (.file content)).at? q = some e := by
    intro q e hq hq' hstand
    rw [FileTree.at?_put_of_ne hgoal' hq,
      h.wellFormed.at?_prune_of_ne hsource (by rw [hthere]; exact nofun) hq', hstand]
  refine ⟨ht', ?_, ?_, ?_, ?_⟩
  · intro q hq
    have hdir := h.holds q hq
    refine kept ?_ ?_ hdir
    · rintro rfl
      exact hgoal hdir
    · rintro rfl
      rw [hthere] at hdir
      exact nomatch hdir
  · intro steps' hmem
    obtain ⟨content', hfile'⟩ := hfiles steps' hmem
    have hstand := (h.waiting steps' (List.mem_cons_of_mem _ hmem)).trans hfile'
    rw [hfile']
    refine kept ?_ ?_ hstand
    · intro heq
      exact hapart steps (by simp) (heq ▸ List.prefix_append _ _)
    · intro heq
      rw [List.append_cancel_left heq] at hmem
      exact hnew hmem
  · intro steps' hmem
    by_cases heq : steps' = steps
    · rw [heq, FileTree.at?_put_self hgoal', hfile]
    · have hmem' : steps' ∈ done := by simpa [heq] using hmem
      rw [FileTree.at?_put_of_ne hgoal' (by simpa using heq), FileTree.at?_prune_of_apart hsource,
        h.placed steps' hmem']
      intro hbelow
      exact hapart steps' (by simp [hmem']) ((List.prefix_append _ _).trans hbelow)
  · intro q hq hdone content'
    rw [FileTree.at?_put_of_ne hgoal' (hdone steps (by simp)),
      FileTree.at?_prune_of_apart hsource fun hbelow => hq ((List.prefix_append _ _).trans hbelow)]
    exact h.others q hq (fun steps' hmem => hdone steps' (by simp [hmem])) content'

end Merging

/-! ## The files that are merged -/

/-- **FILES THAT CAN BE MERGED**: they were laid out behind one place and have
    other places behind the target. -/
structure Mergeable (laid : FileTree) (workDir : Place) (staging target : Path)
    (source goal : Place) (files : List (List String)) : Prop where
  wellFormed : laid.WellFormed
  working : laid.at? workDir = some .directory
  staging : laid.locate workDir staging = .ok source
  target : laid.locate workDir target = .ok goal
  nodup : files.Nodup
  some : ∀ steps ∈ files, steps ≠ []
  file : ∀ steps ∈ files, ∃ content, laid.at? (source ++ steps) = .some (.file content)
  apart : ∀ steps ∈ files, ¬ source <+: goal ++ steps

/-- Whether the target has another file in the place of one that was laid
    out, or none. -/
def differs (laid : FileTree) (source goal : Place) (steps : List String) : Bool :=
  decide (laid.at? (goal ++ steps) ≠ laid.at? (source ++ steps))

/-- The moves of some files, one after the other. -/
def moveAll (workDir : Place) (staging target : Path) (files : List (List String)) : Disk Unit := do
  for steps in files do moveInto workDir staging target steps

theorem outcome_moveAll_cons {files : List (List String)}
    (h : outcome (moveInto workDir staging target steps) t = (.ok (), t')) :
    outcome (moveAll workDir staging target (steps :: files)) t =
      outcome (moveAll workDir staging target files) t' := by
  rw [moveAll, List.forIn_cons, bind_assoc, bind_assoc, outcome_bind_of_ok h]
  rfl

namespace Mergeable

variable {laid : FileTree} {done waiting : List (List String)}
  (hm : Mergeable laid workDir staging target source goal (done ++ steps :: waiting))
  (h : Merging laid source goal done (steps :: waiting) t)
include hm h

theorem sameContent_iff :
    sameContent t workDir { staging with parts := staging.parts ++ steps }
        { target with parts := target.parts ++ steps } = true ↔
      t.at? (goal ++ steps) = laid.at? (source ++ steps) := by
  obtain ⟨content, hfile⟩ := hm.file steps (by simp)
  have hthere := h.waiting steps List.mem_cons_self
  rw [← hthere]
  exact sameContent_iff_of_located h.wellFormed (h.holds.locate hm.staging)
    (h.holds.locate hm.target) (hthere.trans hfile)

/-- Until a file is come to, the target has in its place what it had before
    the commit. -/
theorem there_iff :
    t.at? (goal ++ steps) = laid.at? (source ++ steps) ↔
      laid.at? (goal ++ steps) = laid.at? (source ++ steps) := by
  obtain ⟨content, hfile⟩ := hm.file steps (by simp)
  rw [hfile]
  refine h.others _ (hm.apart steps (by simp)) ?_ content
  intro steps' hmem heq
  obtain rfl := List.append_cancel_left heq
  exact (List.nodup_append.mp hm.nodup).2.2 _ hmem _ List.mem_cons_self rfl

/-- **ONE MOVE** that ends well brings its file to its place. -/
theorem moveInto
    (hmove : outcome (moveInto workDir staging target steps) t = (.ok (), t')) :
    Merging laid source goal (done ++ [steps]) waiting t' := by
  obtain ⟨content, hfile⟩ := hm.file steps (by simp)
  have hwork := h.holds _ hm.working
  have hgains := Disk.ensureDirectory_gains workDir
    ({ target with parts := target.parts ++ steps } : Path).parent t
  have hwf := Disk.ensureDirectory_wellFormed
    (p := ({ target with parts := target.parts ++ steps } : Path).parent) h.wellFormed hwork
  have hu := h.gains hwf hgains hm.file
  rcases outcome_moveInto_cases rfl hmove with
    ⟨e, herror, -⟩ | ⟨source', goal', e, -, hl, hp, hdir, hstand, rfl⟩
  · exact nomatch herror
  · generalize (outcome (Disk.ensureDirectory workDir
      ({ target with parts := target.parts ++ steps } : Path).parent) t).2 = u at *
    have hthere := (hu.waiting steps List.mem_cons_self).trans hfile
    have hback : ".." ∉ steps := by
      intro hmem
      exact hwf.plain _ (by rw [hthere]; exact Option.some_ne_none _)
        (List.mem_append_right _ hmem)
    rw [FileTree.locate_append_of_ok (hu.holds.locate hm.staging)] at hl
    obtain rfl := FileTree.eq_append_of_walk hback hl
    have hgoal := hp
    rw [FileTree.locate_append_of_ok (hu.holds.locate hm.target)] at hgoal
    obtain rfl := FileTree.eq_append_of_walk hback hgoal
    obtain rfl : e = .file content := by
      rw [hthere] at hstand
      exact (Option.some.inj hstand).symm
    have hsome := hm.some steps (by simp)
    refine hu.move hfile (fun steps' hmem => hm.file steps' (by simp [hmem])) ?_ hm.apart hdir ?_
      hsome
    · exact (List.nodup_cons.mp (List.nodup_append.mp hm.nodup).2.1).1
    · -- the file is put into a directory, which is not lost with the file
      obtain ⟨d, s, hd, hs, heq⟩ := hwf.last_step (hgains.holds _ hwork) hp hdir
      rw [heq] at hdir ⊢
      have hsource : source ++ steps ≠ [] := by simp [hsome]
      refine (hwf.prune hsource).put ?_ hs (.inr ?_)
      · have hd' : d ≠ source ++ steps := by
          rintro rfl
          rw [hthere] at hd
          exact nomatch hd
        rw [hwf.at?_prune_of_ne hsource (by rw [hthere]; exact nofun) hd', hd]
      · rw [FileTree.at?_prune hsource]
        split
        · exact nofun
        · exact hdir

end Mergeable

/-! ## All of them -/

section

variable {laid : FileTree} {done waiting : List (List String)}

/-- **ONE FILE OF A COMMIT** that ends well is in its place, and it has been
    moved just when the target had not got it. -/
theorem merged_commitFile
    (hm : Mergeable laid workDir staging target source goal (done ++ steps :: waiting))
    (hw : w.Site workDir (Merging laid source goal done (steps :: waiting)))
    (h : outcome (commitFile staging target steps) w = (.ok (), w')) :
    w'.Site workDir (Merging laid source goal (done ++ [steps]) waiting) ∧
      w.Told [fileEntry target (differs laid source goal steps) steps] w' ∧
      ∀ rest, outcome (moveAll workDir staging target
          ((steps :: rest).filter (differs laid source goal))) w.tree =
        outcome (moveAll workDir staging target (rest.filter (differs laid source goal)))
          w'.tree := by
  have hthere := hm.there_iff hw.files
  have hsame := hm.sameContent_iff hw.files
  obtain ⟨hfiles, rfl, hlog⟩ := hw
  rcases commitFile_cases h with ⟨hskip, rfl⟩ | ⟨hother, t', hmove, rfl⟩
  · have hdiffers : differs laid source goal steps = false := by
      simpa [differs] using hthere.mp (hsame.mp hskip)
    have hsite : w.Site w.workDir (Merging laid source goal (done ++ [steps]) waiting) :=
      ⟨hfiles.skip (hsame.mp hskip), rfl, hlog⟩
    obtain ⟨htold, htree⟩ := World.told_tell hlog (fileEntry target false steps)
    rw [hdiffers, htree]
    refine ⟨hsite.tell _, htold, fun rest => ?_⟩
    rw [List.filter_cons_of_neg (by simp [hdiffers])]
  · have hdiffers : differs laid source goal steps = true := by
      simpa [differs] using fun heq => hother (hsame.mpr (hthere.mpr heq))
    have hsite : World.Site w.workDir (Merging laid source goal (done ++ [steps]) waiting)
        { w with tree := t' } :=
      ⟨hm.moveInto hfiles hmove, rfl, hlog⟩
    obtain ⟨htold, htree⟩ := World.told_tell hsite.onConsole (fileEntry target true steps)
    rw [hdiffers, htree]
    refine ⟨hsite.tell _, (World.told_of_tree w t').trans htold, fun rest => ?_⟩
    rw [List.filter_cons_of_pos hdiffers, outcome_moveAll_cons hmove]

/-- **A COMMIT THAT ENDS WELL** has brought every file to its place, and the
    ones that it has moved are those that the target had not. -/
theorem merged_commitFiles
    (hm : Mergeable laid workDir staging target source goal (done ++ waiting))
    (hw : w.Site workDir (Merging laid source goal done waiting))
    (h : outcome (commitFiles staging target waiting) w = (.ok (), w')) :
    w'.Site workDir (Merging laid source goal (done ++ waiting) []) ∧
      w.Told (waiting.map fun steps => fileEntry target (differs laid source goal steps) steps) w' ∧
      outcome (moveAll workDir staging target (waiting.filter (differs laid source goal))) w.tree =
        (.ok (), w'.tree) := by
  induction waiting generalizing done w with
  | nil =>
      cases h
      rw [List.append_nil]
      exact ⟨hw, World.Told.refl _, rfl⟩
  | cons steps waiting ih =>
      obtain ⟨w₁, hfirst, hrest⟩ := commitFiles_cons_cases h
      obtain ⟨hsite, htold, hmoves⟩ := merged_commitFile hm hw hfirst
      have hm' : Mergeable laid workDir staging target source goal ((done ++ [steps]) ++ waiting) := by
        rw [List.append_assoc]
        exact hm
      obtain ⟨hdone, htold', hmoves'⟩ := ih hm' hsite hrest
      rw [List.append_assoc] at hdone
      exact ⟨hdone, htold.trans htold', (hmoves waiting).trans hmoves'⟩

end

end Step
end GemBinder
