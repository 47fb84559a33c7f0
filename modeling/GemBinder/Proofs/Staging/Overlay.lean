import GemBinder.Proofs.Staging.Failure
import GemBinder.Proofs.Staging.Merging

/-! # Staged output laid over a target

    A staged run that ends well lays the files that were written over the
    target.  Each of them is in its place with its last content, every other
    file is as it was, and the scratch directory is gone.  The files that are
    moved are those that the target had not already, in the order of their
    steps, so a second run of the same writes moves none. -/

namespace GemBinder

open Files Text World

namespace Step

variable {base t : FileTree} {workDir : Place} {target staging : Path} {directory : Place}
  {name : String} {writes : List (List String × String)} {w w₁ w₂ w₃ w' : World}

/-! ## Places behind the target -/

/-- The place of the target is a step behind the directory that holds it, or
    that directory. -/
theorem resolve_target (hb : Beside base workDir target staging directory name) :
    target.resolve workDir = Path.normalizeFrom directory target.lastStep := by
  rw [FileTree.eq_resolve_of_locate hb.found, ← Path.resolve_append, target.parent_parts_append]
  rfl

/-- The target has a place as soon as the directory that holds it is there. -/
theorem locate_target (hb : Beside base workDir target staging directory name)
    (hold : base.Holds t) : t.locate workDir target = .ok (target.resolve workDir) := by
  have hstep : t.locate workDir target = t.walk directory target.lastStep := by
    rw [← FileTree.locate_append_of_ok (hold.locate hb.found), target.parent_parts_append]
    rfl
  have hfound : ∃ goal, t.walk directory target.lastStep = .ok goal := by
    rcases target.lastStep_cases with hlast | hlast
    · rw [hlast]
      exact ⟨directory, rfl⟩
    · rw [hlast]
      exact ⟨_, FileTree.walk_singleton.mpr ⟨hold _ hb.stands, rfl⟩⟩
  obtain ⟨goal, hgoal⟩ := hfound
  rw [hstep, hgoal, FileTree.eq_resolve_of_locate (hstep.trans hgoal)]

/-- **A TARGET WITH A NAME OF ITS OWN** keeps clear of its scratch directory,
    which has a longer name. -/
theorem apart_of_named (hw : w.Sound) (hnamed : target.parts ≠ []) (hforward : target.name ≠ "..")
    (hopen : outcome (openStaging target) w = (.ok staging, w₁)) (steps : List String) :
    ¬ staging.resolve w.workDir <+: target.resolve w.workDir ++ steps := by
  obtain ⟨base, directory, name, -, hb, -, -, hlonger, -⟩ := opened_beside hw hopen
  have hlast : target.lastStep = [target.name] := by
    rcases target.lastStep_cases with hlast | hlast
    · rw [Path.lastStep, List.getLast?_eq_some_getLast hnamed] at hlast
      cases hlast
    · exact hlast
  rw [← FileTree.eq_resolve_of_locate (hb.locate_staging (FileTree.Holds.refl _)),
    resolve_target hb, hlast, Path.normalizeFrom_of_forward (by simpa using Ne.symm hforward),
    List.append_assoc, List.prefix_append_right_inj]
  rintro ⟨more, hmore⟩
  obtain rfl : name = target.name := (List.cons.inj hmore).1
  exact absurd hlonger (Nat.lt_irrefl _)

/-! ## What a commit leaves -/

section

variable {files : List (List String × Bytes)} {laid : FileTree}
  (hb : Beside base workDir target staging directory name)
  (hlaid : Laid base (directory ++ [name]) files laid)
  (hapart : ∀ file ∈ files, ¬ directory ++ [name] <+: target.resolve workDir ++ file.1)
include hb hlaid hapart

/-- What was laid out can be merged. -/
theorem mergeable_of_laid (hsome : ∀ file ∈ files, file.1 ≠ []) :
    Mergeable laid workDir staging target (directory ++ [name]) (target.resolve workDir)
      (inOrder files) := by
  have hold := hlaid.holds hb
  have hmem : ∀ steps ∈ inOrder files, ∃ content, files.lookup steps = some content :=
    fun steps h => mem_inOrder.mp h
  refine ⟨hlaid.wellFormed, hold _ hb.working, hb.locate_staging hold, locate_target hb hold,
    nodup_inOrder files, ?_, ?_, ?_⟩
  · intro steps h
    obtain ⟨content, hlookup⟩ := hmem steps h
    exact hsome _ (mem_of_lookup_steps hlookup)
  · intro steps h
    obtain ⟨content, hlookup⟩ := hmem steps h
    exact ⟨content, (hlaid.files steps content).mpr hlookup⟩
  · intro steps h
    obtain ⟨content, hlookup⟩ := hmem steps h
    exact hapart _ (mem_of_lookup_steps hlookup)

/-- A commit of what was laid out that ends well. -/
theorem merged_of_commit (hsome : ∀ file ∈ files, file.1 ≠ [])
    (hw : w₂.tree = laid ∧ w₂.workDir = workDir ∧ w₂.log.OnConsole)
    (hcommit : outcome (commit staging target) w₂ = (.ok (), w₃)) :
    w₃.Site workDir (Merging laid (directory ++ [name]) (target.resolve workDir)
        (inOrder files) []) ∧
      w₂.Told ((inOrder files).map fun steps => fileEntry target
        (differs laid (directory ++ [name]) (target.resolve workDir) steps) steps) w₃ ∧
      outcome (moveAll workDir staging target ((inOrder files).filter
        (differs laid (directory ++ [name]) (target.resolve workDir)))) laid =
          (.ok (), w₃.tree) := by
  obtain ⟨rfl, hworkDir, hlog⟩ := hw
  rw [outcome_commit hworkDir,
    filesBelow_of_laid hsome hlaid (hb.locate_staging (hlaid.holds hb))] at hcommit
  have hmergeable : Mergeable w₂.tree workDir staging target (directory ++ [name])
      (target.resolve workDir) ([] ++ inOrder files) := mergeable_of_laid hb hlaid hapart hsome
  exact merged_commitFiles hmergeable
    ⟨Merging.start hlaid.wellFormed, hworkDir, hlog⟩ hcommit

/-- A commit of files that are all in the target already passes over them. -/
theorem commit_of_there (hsome : ∀ file ∈ files, file.1 ≠ [])
    (hw : w₂.tree = laid ∧ w₂.workDir = workDir ∧ w₂.log.OnConsole)
    (hthere : ∀ steps content, files.lookup steps = some content →
      base.at? (target.resolve workDir ++ steps) = some (.file content)) :
    ∃ w₃, outcome (commit staging target) w₂ = (.ok (), w₃) ∧ w₃.tree = laid ∧
      w₃.workDir = workDir := by
  obtain ⟨rfl, hworkDir, hlog⟩ := hw
  have hstaging := hb.locate_staging (hlaid.holds hb)
  have hsame : ∀ steps ∈ filesBelow w₂.tree workDir staging,
      sameContent w₂.tree workDir { staging with parts := staging.parts ++ steps }
        { target with parts := target.parts ++ steps } = true := by
    rw [filesBelow_of_laid hsome hlaid hstaging]
    intro steps hmem
    obtain ⟨content, hlookup⟩ := mem_inOrder.mp hmem
    have hfile := (hlaid.files steps content).mpr hlookup
    rw [sameContent_iff_of_located hlaid.wellFormed hstaging
      (locate_target hb (hlaid.holds hb)) hfile, hfile,
      hlaid.outside _ (hapart _ (mem_of_lookup_steps hlookup))]
    exact hthere steps content hlookup
  have hsite : w₂.Site workDir fun _ => True := ⟨trivial, hworkDir, hlog⟩
  obtain ⟨w₃, htree, hsite', hskip⟩ := outcome_commitFiles_of_same [] _ hsite hsame
  refine ⟨w₃, ?_, htree, hsite'.workDir⟩
  rw [outcome_commit hworkDir, ← List.append_nil (filesBelow _ _ _), hskip]
  rfl

omit hb in
/-- The files that a commit moves are those that the target had not. -/
theorem mem_filter_differs {steps : List String} :
    steps ∈ (inOrder files).filter
        (differs laid (directory ++ [name]) (target.resolve workDir)) ↔
      ∃ content, files.lookup steps = some content ∧
        base.at? (target.resolve workDir ++ steps) ≠ some (.file content) := by
  rw [List.mem_filter, mem_inOrder, differs, decide_eq_true_eq, ← exists_and_right]
  refine exists_congr fun content => and_congr_right fun h => not_congr ?_
  rw [(hlaid.files steps content).mpr h, hlaid.outside _ (hapart _ (mem_of_lookup_steps h))]

variable (hmerged : Merging laid (directory ++ [name]) (target.resolve workDir) (inOrder files) [] t)
include hmerged

omit hb in
theorem at?_of_written {steps : List String} {content : Bytes}
    (h : files.lookup steps = some content) :
    (t.prune (directory ++ [name])).at? (target.resolve workDir ++ steps) =
      some (.file content) := by
  rw [FileTree.at?_prune_of_apart (by simp) (hapart _ (mem_of_lookup_steps h)),
    hmerged.placed steps (mem_inOrder.mpr ⟨content, h⟩)]
  exact (hlaid.files steps content).mpr h

omit hapart in
theorem at?_of_kept {q : Place} (hq : ∀ file ∈ files, q ≠ target.resolve workDir ++ file.1)
    {content : Bytes} :
    (t.prune (directory ++ [name])).at? q = some (.file content) ↔
      base.at? q = some (.file content) := by
  by_cases hbelow : directory ++ [name] <+: q
  · rw [FileTree.at?_prune_of_below (by simp) hbelow, hb.nothing_below hbelow]
  · rw [FileTree.at?_prune_of_apart (by simp) hbelow, ← hlaid.outside q hbelow]
    refine hmerged.others q hbelow ?_ content
    intro steps hmem
    obtain ⟨content', h⟩ := mem_inOrder.mp hmem
    exact hq _ (mem_of_lookup_steps h)

omit hapart in
theorem holds_of_merged : base.Holds (t.prune (directory ++ [name])) := by
  intro q hq
  have hnot := hb.apart_of_directory hq
  rw [FileTree.at?_prune_of_apart (by simp) hnot]
  refine hmerged.holds q ?_
  rw [hlaid.outside q hnot, hq]

/-- After a commit the place beside the target is free again, and a new name
    there is the same. -/
theorem beside_of_merged :
    Beside (t.prune (directory ++ [name])) workDir target staging directory name ∧
      ∀ s, name = Disk.freshName base directory s →
        name = Disk.freshName (t.prune (directory ++ [name])) directory s := by
  have hold := holds_of_merged hb hlaid hmerged
  have hgone : (t.prune (directory ++ [name])).at? (directory ++ [name]) = none :=
    FileTree.at?_prune_of_below (by simp) List.prefix_rfl
  refine ⟨⟨hmerged.wellFormed.prune (by simp), hold _ hb.working, hold.locate hb.found,
    hold _ hb.stands, hgone, hb.path, hb.plain⟩, ?_⟩
  rintro s rfl
  refine (Disk.freshName_eq_of_taken ?_ hgone).symm
  intro n hn
  cases hstand : base.at? (directory ++ [Disk.lengthened s n]) with
  | none => exact absurd hstand hn
  | some e =>
      cases e with
      | directory =>
          rw [hold _ hstand]
          exact Option.some_ne_none _
      | file content =>
          by_cases hwritten : ∃ file ∈ files,
              directory ++ [Disk.lengthened s n] = target.resolve workDir ++ file.1
          · obtain ⟨⟨steps, content'⟩, hmem, heq⟩ := hwritten
            obtain ⟨content'', h⟩ : ∃ content'', files.lookup steps = some content'' := by
              rw [← Option.isSome_iff_exists, List.lookup_isSome_iff]
              exact ⟨_, hmem, beq_self_eq_true _⟩
            rw [heq, at?_of_written hlaid hapart hmerged h]
            exact Option.some_ne_none _
          · rw [(at?_of_kept hb hlaid hmerged
              (fun file hmem heq => hwritten ⟨file, hmem, heq⟩)).mpr hstand]
            exact Option.some_ne_none _

end

/-! ## The whole run -/

/-- **OUTPUT LAID OVER A TARGET**: the last write at its steps is in its
    place, every other file is as it was, and nothing is left of the scratch
    directory.  Just the files that the target had not were moved, in order,
    and that is what was told of the files that were written. -/
structure Overlaid (writes : List (List String × String)) (target staging : Path)
    (moved : List (List String)) (w w' : World) : Prop where
  written : ∀ steps content, LastWrite writes steps content →
    w'.tree.at? (target.resolve w.workDir ++ steps) = some (.file content)
  kept : ∀ q, (∀ e ∈ writes, q ≠ target.resolve w.workDir ++ Path.normalizeFrom [] e.1) →
    ∀ content, w'.tree.at? q = some (.file content) ↔ w.tree.at? q = some (.file content)
  gone : ∀ q, staging.resolve w.workDir <+: q → w'.tree.at? q = none
  exactly : ∀ steps, steps ∈ moved ↔ ∃ content, LastWrite writes steps content ∧
    w.tree.at? (target.resolve w.workDir ++ steps) ≠ some (.file content)
  ordered : moved.Pairwise fun p q => namesLe p q = true ∧ p ≠ q
  moves : ∃ w₁ w₂ merged, outcome (openStaging target) w = (.ok staging, w₁) ∧
    outcome (writeAll writes staging) w₁ = (.ok (), w₂) ∧
    outcome (moveAll w.workDir staging target moved) w₂.tree = (.ok (), merged) ∧
    w'.tree = merged.prune (staging.resolve w.workDir)
  told : ∃ files : List (List String),
    (files.Pairwise fun p q => namesLe p q = true ∧ p ≠ q) ∧
    (∀ steps, steps ∈ files ↔ ∃ e ∈ writes, Path.normalizeFrom [] e.1 = steps) ∧
    w.Told (writes.map (fun e => writeEntry { staging with parts := staging.parts ++ e.1 }) ++
      files.map fun steps => fileEntry target (decide (steps ∈ moved)) steps) w'

/-- What holds of the places of all writes holds of those that are laid out. -/
theorem forall_laidOut_of_writes (P : List String → Prop)
    (h : ∀ e ∈ writes, P (Path.normalizeFrom [] e.1)) : ∀ file ∈ laidOut writes, P file.1 := by
  intro file hfile
  obtain ⟨e, he, hsteps⟩ := mem_laidOut_steps.mp ⟨file, hfile, rfl⟩
  rw [← hsteps]
  exact h e he

/-- The files that are found in order are the places of the writes. -/
theorem mem_inOrder_laidOut {steps : List String} :
    steps ∈ inOrder (laidOut writes) ↔ ∃ e ∈ writes, Path.normalizeFrom [] e.1 = steps := by
  rw [mem_inOrder, ← Option.isSome_iff_exists, List.lookup_isSome_iff, ← mem_laidOut_steps]
  refine exists_congr fun file => and_congr_right fun _ => ?_
  rw [beq_iff_eq, eq_comm]

/-- What is told of some files says of each whether it is one of those that
    are moved. -/
theorem map_fileEntry_eq (files : List (List String)) (moves : List String → Bool) :
    files.map (fun steps => fileEntry target (moves steps) steps) =
      files.map fun steps => fileEntry target (decide (steps ∈ files.filter moves)) steps := by
  refine List.map_congr_left fun steps hmem => ?_
  rw [Bool.decide_congr (List.mem_filter.trans (and_iff_right hmem)), Bool.decide_eq_true]

/-- A staged run that ends well lays its output over the target, and the
    place of its scratch directory is free again. -/
theorem overlaid_of_staged (hw : w.Sound) (hin : ∀ e ∈ writes, Path.Inward e.1)
    (hapart : ∀ staging w₁, outcome (openStaging target) w = (.ok staging, w₁) →
      ∀ e ∈ writes,
        ¬ staging.resolve w.workDir <+: target.resolve w.workDir ++ Path.normalizeFrom [] e.1)
    (hopen : outcome (openStaging target) w = (.ok staging, w₁))
    (hbody : outcome (writeAll writes staging) w₁ = (.ok (), w₂))
    (hcommit : outcome (commit staging target) w₂ = (.ok (), w₃))
    (hdrop : outcome (dropStaging staging) w₃ = (.ok (), w')) :
    (∃ moved, Overlaid writes target staging moved w w') ∧ w'.Sound ∧
      ∃ base directory name,
        staging.resolve w.workDir = directory ++ [name] ∧
        Beside base w.workDir target staging directory name ∧
        Beside w'.tree w.workDir target staging directory name ∧
        name = Disk.freshName w'.tree directory s!".{target.name}.staging-{w.token}" ∧
        w₁ = { w with tree := base.put (directory ++ [name]) .directory } := by
  obtain ⟨base, directory, name, hgains, hb, hname, -, -, rfl⟩ := opened_beside hw hopen
  have hplace : directory ++ [name] = staging.resolve w.workDir :=
    FileTree.eq_resolve_of_locate (hb.locate_staging (FileTree.Holds.refl base))
  have hclear : ∀ file ∈ laidOut writes,
      ¬ directory ++ [name] <+: target.resolve w.workDir ++ file.1 := by
    rw [hplace]
    exact forall_laidOut_of_writes
      (fun steps => ¬ staging.resolve w.workDir <+: target.resolve w.workDir ++ steps)
      (hapart _ _ hopen)
  -- the files that were written, and then those that were merged
  have hstart : Site w.workDir (Laid base (directory ++ [name]) [])
      { w with tree := base.put (directory ++ [name]) .directory } :=
    ⟨hb.laid_start, rfl, hw.onConsole⟩
  obtain ⟨hsome, hsite, htold⟩ := laid_writeAll hb hin hstart hbody
  rw [List.append_nil] at hsite
  have hlaid := hsite.files
  obtain ⟨hsite', htold', hmoves⟩ := merged_of_commit hb hlaid hclear hsome
    ⟨rfl, hsite.workDir, hsite.onConsole⟩ hcommit
  have hmerged := hsite'.files
  have hfound := hb.locate_staging ((hlaid.holds hb).trans hmerged.holds)
  rw [← hsite'.workDir] at hfound
  cases (outcome_dropStaging hfound).symm.trans hdrop
  obtain ⟨hb', hfresh⟩ := beside_of_merged hb hlaid hclear hmerged
  have hexactly : ∀ steps, steps ∈ (inOrder (laidOut writes)).filter _ ↔ _ :=
    fun _ => mem_filter_differs hlaid hclear
  simp only [ne_eq, hgains.file_iff, lookup_laidOut_iff] at hexactly
  rw [map_fileEntry_eq] at htold'
  have htold'' := (htold.trans htold').trans
    (World.told_of_tree w₃ (w₃.tree.prune (directory ++ [name])))
  rw [List.append_nil] at htold''
  have hsound : World.Sound { w₃ with
      tree := w₃.tree.prune (directory ++ [name]) } := by
    refine ⟨hb'.wellFormed, ?_, hsite'.onConsole⟩
    rw [show World.workDir _ = w.workDir from hsite'.workDir]
    exact hb'.working
  refine ⟨⟨_, ?_, ?_, ?_, hexactly, ?_, ?_, ?_⟩, hsound, base, directory, name, hplace.symm, hb,
    hb', hfresh _ hname, rfl⟩
  · exact fun steps content h => at?_of_written hlaid hclear hmerged (lookup_laidOut_iff.mpr h)
  · intro q hq content
    have hothers := forall_laidOut_of_writes (fun steps => q ≠ target.resolve w.workDir ++ steps) hq
    rw [at?_of_kept hb hlaid hmerged hothers, hgains.file_iff]
  · intro q hq
    rw [← hplace] at hq
    exact FileTree.at?_prune_of_below (by simp) hq
  · exact ((pairwise_inOrder _).and (nodup_inOrder _)).filter _
  · rw [← hplace]
    exact ⟨_, w₂, w₃.tree, hopen, hbody, hmoves, rfl⟩
  · exact ⟨inOrder (laidOut writes), (pairwise_inOrder _).and (nodup_inOrder _),
      fun _ => mem_inOrder_laidOut, htold''.workDir, htold''.token, htold''.log, htold''.journal⟩

/-- A place that is free beside a target, with the name that is next, is
    opened. -/
theorem outcome_openStaging_of_beside
    (hb : Beside w.tree w.workDir target staging directory name)
    (hname : name = Disk.freshName w.tree directory s!".{target.name}.staging-{w.token}") :
    outcome (openStaging target) w =
      (.ok staging, { w with tree := w.tree.put (directory ++ [name]) .directory }) := by
  have hmake : outcome (Scratch.make w.workDir target w.token) w.tree =
      (.ok staging, w.tree.put (directory ++ [name]) .directory) := by
    obtain rfl := hb.path
    have hdirectory : outcome (Disk.locate w.workDir target.parent) w.tree =
        (.ok directory, w.tree) := by
      rw [Disk.outcome_locate, hb.found]
      rfl
    have hstaging : outcome (Disk.makeDirectory w.workDir
          { target.parent with parts := target.parent.parts ++ [name] }) w.tree =
        (.ok (), w.tree.put (directory ++ [name]) .directory) := by
      rw [Disk.outcome_makeDirectory_of_ok (hb.locate_staging (FileTree.Holds.refl _)), hb.free]
      rfl
    rw [Scratch.make, outcome_bind_of_ok (Disk.ensureDirectory_of_directory hb.found hb.stands),
      outcome_bind_of_ok hdirectory, outcome_get_bind, ← hname]
    exact outcome_bind_of_ok hstaging
  refine outcome_reporting_of_ok ?_
  rw [makeStaging_eq, outcome_get_bind, outcome_disk, hmake]
  rfl

/-- Below a new directory nothing stands, whatever the tree around it. -/
theorem twins_start {base' : FileTree} (hb : Beside base workDir target staging directory name)
    (hb' : Beside base' workDir target staging directory name) :
    FileTree.Twins base base' (directory ++ [name]) (base.put (directory ++ [name]) .directory)
      (base'.put (directory ++ [name]) .directory) where
  left := hb.laid_start.holds hb
  right := hb'.laid_start.holds hb'
  stands := hb.laid_start.stands
  below := by
    intro rest
    rw [FileTree.at?_put (by simp), FileTree.at?_put (by simp),
      hb.nothing_below (List.prefix_append _ _), hb'.nothing_below (List.prefix_append _ _)]

/-- **A STAGED RUN OVERLAYS ITS TARGET**: a run that ends well lays what it
    has written over the target and leaves every other file as it was, and
    the same run done again ends well too and moves no file.  No file may
    have its place inside the scratch directory, which a target with a name
    of its own rules out (`apart_of_named`). -/
theorem staged_overlays (hw : w.Sound) (hin : ∀ e ∈ writes, Path.Inward e.1)
    (hapart : ∀ staging w₁, outcome (openStaging target) w = (.ok staging, w₁) →
      ∀ e ∈ writes,
        ¬ staging.resolve w.workDir <+: target.resolve w.workDir ++ Path.normalizeFrom [] e.1)
    (h : outcome (staged false target (writeAll writes)) w = (.ok (), w')) :
    ∃ staging moved, Overlaid writes target staging moved w w' ∧
      ∃ w'', outcome (staged false target (writeAll writes)) w' = (.ok (), w'') ∧
        Overlaid writes target staging [] w' w'' ∧ w''.tree.Same w'.tree := by
  obtain ⟨staging, w₁, w₂, w₃, hopen, hbody, hcommit, hdrop⟩ := outcome_staged_eq_ok.mp h
  obtain ⟨⟨moved, hover⟩, hw', base, directory, name, hplace, hb, hb', hname, rfl⟩ :=
    overlaid_of_staged hw hin hapart hopen hbody hcommit hdrop
  refine ⟨staging, moved, hover, ?_⟩
  obtain ⟨_, -, -, htold⟩ := hover.told
  have hworkDir := htold.workDir
  have hclear : ∀ file ∈ laidOut writes,
      ¬ directory ++ [name] <+: target.resolve w.workDir ++ file.1 := by
    rw [← hplace]
    exact forall_laidOut_of_writes
      (fun steps => ¬ staging.resolve w.workDir <+: target.resolve w.workDir ++ steps)
      (hapart _ _ hopen)
  -- the same place is opened again
  have hopen' : outcome (openStaging target) w' =
      (.ok staging, { w' with tree := w'.tree.put (directory ++ [name]) .directory }) := by
    refine outcome_openStaging_of_beside ?_ ?_
    · rw [hworkDir]
      exact hb'
    · rw [htold.token]
      exact hname
  -- the writes can be done there again
  have hstart : Site w.workDir (Laid base (directory ++ [name]) [])
      { w with tree := base.put (directory ++ [name]) .directory } :=
    ⟨hb.laid_start, rfl, hw.onConsole⟩
  have hsome := (laid_writeAll hb hin hstart hbody).1
  have hin' : ∀ e ∈ writes, Path.Inward e.1 ∧ e.1 ≠ [] := by
    intro e he
    refine ⟨hin e he, ?_⟩
    intro hnil
    refine hsome (Path.normalizeFrom [] e.1, encode (unifyLineEndsOf e.2)) ?_ ?_
    · exact List.mem_reverse.mpr (List.mem_map.mpr ⟨e, he, rfl⟩)
    · rw [hnil, Path.normalizeFrom]
  have hwv : Abreast (FileTree.Twins base w'.tree (directory ++ [name]))
      { w with tree := base.put (directory ++ [name]) .directory }
      { w' with tree := w'.tree.put (directory ++ [name]) .directory } :=
    ⟨hworkDir, htold.token, hw.onConsole, hw'.onConsole, twins_start hb hb'⟩
  obtain ⟨v₂, hbody'⟩ := exists_writeAll hb hb' hin' hwv rfl hbody
  have hstart' : Site w.workDir (Laid w'.tree (directory ++ [name]) [])
      { w' with tree := w'.tree.put (directory ++ [name]) .directory } :=
    ⟨hb'.laid_start, hworkDir, hw'.onConsole⟩
  obtain ⟨-, hsite, -⟩ := laid_writeAll hb' hin hstart' hbody'
  rw [List.append_nil] at hsite
  have hlaid := hsite.files
  obtain ⟨v₃, hcommit', htree, hworkDir'⟩ := commit_of_there hb' hlaid hclear hsome
    ⟨rfl, hsite.workDir, hsite.onConsole⟩
    fun steps content h => hover.written steps content (lookup_laidOut_iff.mp h)
  have hfound := hb'.locate_staging (hlaid.holds hb')
  rw [← htree, ← hworkDir'] at hfound
  have hdrop' := outcome_dropStaging hfound
  have h' : outcome (staged false target (writeAll writes)) w' = (.ok (), _) :=
    outcome_staged_eq_ok.mpr ⟨staging, _, v₂, v₃, hopen', hbody', hcommit', hdrop'⟩
  refine ⟨_, h', ?_, ?_⟩
  · have hapart' : ∀ staging' w₁, outcome (openStaging target) w' = (.ok staging', w₁) →
        ∀ e ∈ writes, ¬ staging'.resolve w'.workDir <+:
          target.resolve w'.workDir ++ Path.normalizeFrom [] e.1 := by
      intro staging' w₁ hagain
      cases hopen'.symm.trans hagain
      rw [hworkDir]
      exact hapart _ _ hopen
    obtain ⟨⟨moved', hover'⟩, -⟩ :=
      overlaid_of_staged hw' hin hapart' hopen' hbody' hcommit' hdrop'
    obtain rfl : moved' = [] := by
      refine List.eq_nil_iff_forall_not_mem.mpr fun steps hmem => ?_
      obtain ⟨content, hlookup, hother⟩ := (hover'.exactly steps).mp hmem
      rw [hworkDir] at hother
      exact hother (hover.written steps content hlookup)
    exact hover'
  · intro q
    show (v₃.tree.prune (directory ++ [name])).at? q = _
    rw [htree]
    by_cases hbelow : directory ++ [name] <+: q
    · rw [FileTree.at?_prune_of_below (by simp) hbelow, hb'.nothing_below hbelow]
    · rw [FileTree.at?_prune_of_apart (by simp) hbelow, hlaid.outside q hbelow]

/-- A world with two files in a directory. -/
def shelf : World where
  tree := ((({} : FileTree).put ["out"] .directory).put ["out", "a"] (.file (encode "old"))).put
    ["out", "b"] (.file (encode "z"))
  log := { ownLevel := Level.debug }

theorem sound_shelf : shelf.Sound where
  wellFormed := by
    have root : ({} : FileTree).at? [] = some .directory := rfl
    have out : (({} : FileTree).put ["out"] .directory).WellFormed :=
      FileTree.WellFormed.empty.put root (by decide) (.inl rfl)
    have first : ((({} : FileTree).put ["out"] .directory).put (["out"] ++ ["a"])
        (.file (encode "old"))).WellFormed := out.put rfl (by decide) (.inr (by decide))
    have second : (((({} : FileTree).put ["out"] .directory).put (["out"] ++ ["a"])
        (.file (encode "old"))).put (["out"] ++ ["b"]) (.file (encode "z"))).WellFormed :=
      first.put rfl (by decide) (.inr (by decide))
    exact second
  working := rfl
  onConsole := fun _ h => absurd h List.not_mem_nil

/-- A file that is written twice, the second time with a carriage return, is
    moved with a newline alone, and its neighbour stays. -/
theorem staged_overlays_shelf :
    ∃ w' staging moved,
      outcome (staged false ⟨"", ["out"]⟩
        (writeAll [(["a"], "one"), (["c", "..", "a"], "two\r\n")])) shelf = (.ok (), w') ∧
      Overlaid [(["a"], "one"), (["c", "..", "a"], "two\r\n")] ⟨"", ["out"]⟩ staging moved
        shelf w' ∧
      w'.tree.at? ["out", "a"] = some (.file (encode "two\n")) ∧
      w'.tree.at? ["out", "b"] = some (.file (encode "z")) ∧
      ∀ steps, steps ∈ moved ↔ steps = ["a"] := by
  obtain ⟨_, hrun⟩ := outcome_eq_ok (x := staged false ⟨"", ["out"]⟩
    (writeAll [(["a"], "one"), (["c", "..", "a"], "two\r\n")])) (s := shelf)
    (by decide +kernel)
  obtain ⟨staging, moved, hover, -⟩ := staged_overlays sound_shelf (by decide)
    (fun _ _ hopen e _ => apart_of_named sound_shelf (by decide) (by decide) hopen _) hrun
  have hlines : LineEndsUnified "two\r\n".toList "two\n".toList :=
    .other (by decide) (.other (by decide) (.other (by decide) (.pair .nil)))
  have hlast : LastWrite [(["a"], "one"), (["c", "..", "a"], "two\r\n")] ["a"]
      (encode "two\n") := .later (.here (by decide) hlines)
  refine ⟨_, staging, moved, hrun, hover, hover.written _ _ hlast,
    (hover.kept _ (by decide) _).mpr rfl, ?_⟩
  intro steps
  rw [hover.exactly]
  constructor
  · rintro ⟨content, hwrite, -⟩
    obtain ⟨e, he, hsteps⟩ :=
      mem_laidOut_steps.mp ⟨_, mem_of_lookup_steps (lookup_laidOut_iff.mpr hwrite), rfl⟩
    revert e
    simp +contextual [Path.normalizeFrom, eq_comm]
  · rintro rfl
    exact ⟨_, hlast, by decide⟩

/-- **OUTPUT WITHOUT A PLACE** behind the target.  Where the target is the
    directory that holds the scratch directory, what is written into a
    directory of the same name is moved into the scratch directory and goes
    with it.  A path that leads into a directory and back names nothing where
    that directory is not made. -/
theorem staged_misplaces :
    (∃ w', outcome (staged false ⟨"", []⟩ (writeAll [(["..staging-tmp", "f"], "1")])) {} =
        (.ok (), w') ∧ w'.tree.hasEntry [] ⟨"", ["..staging-tmp", "f"]⟩ = false) ∧
    ∃ w', outcome (staged false ⟨"", ["t"]⟩ (writeAll [(["x", "..", "f"], "1")])) {} =
        (.ok (), w') ∧ w'.tree.hasEntry [] ⟨"", ["t", "x", "..", "f"]⟩ = false := by
  constructor
  · obtain ⟨_, hrun⟩ := outcome_eq_ok (x := staged false ⟨"", []⟩
      (writeAll [(["..staging-tmp", "f"], "1")])) (s := {}) (by decide +kernel)
    exact ⟨_, hrun, by decide +kernel⟩
  · obtain ⟨_, hrun⟩ := outcome_eq_ok (x := staged false ⟨"", ["t"]⟩
      (writeAll [(["x", "..", "f"], "1")])) (s := {}) (by decide +kernel)
    exact ⟨_, hrun, by decide +kernel⟩

end Step
end GemBinder
