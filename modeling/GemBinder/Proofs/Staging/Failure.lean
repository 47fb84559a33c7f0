import GemBinder.Proofs.Staging.Commit
import GemBinder.Proofs.Staging.Writing

/-! # What a failed staged run leaves

    Until the first move a failure leaves the target as it was, because the
    scratch directory is removed with all that was written.  From then on it
    does not: what has been moved stays, and so do the directories that were
    made for it. -/

namespace GemBinder

open Files Text World

namespace Step

variable {workDir : Place} {t : FileTree} {place q : Place} {steps : List String}
  {staging target : Path} {w w' : World}

/-- **A COMMIT THAT IS STUCK**: its first move changes nothing.  It has made
    no directory on its way and does not put the file in its place. -/
def Stuck (workDir : Place) (staging target : Path) (t : FileTree) : Prop :=
  ∀ steps, firstMove? t workDir staging target = some steps →
    (outcome (moveInto workDir staging target steps) t).2.Same t

/-- Removing a scratch directory that is found. -/
theorem outcome_dropStaging (h : w.tree.locate w.workDir staging = .ok place) :
    outcome (dropStaging staging) w = (.ok (), { w with tree := w.tree.prune place }) := by
  rw [dropStaging, outcome_modify, h]

section

variable {base : FileTree} {directory : Place} {name : String}
  (hs : Scratch base workDir target staging directory name)
include hs

/-! ## Commits that fail -/

/-- A move that fails has changed nothing just when it has made no directory
    outside the scratch directory. -/
theorem same_iff_of_move_error (hdraft : Draft base (directory ++ [name]) t)
    (hon : Onward steps) {e : DiskError}
    {t' : FileTree} (h : outcome (moveInto workDir staging target steps) t = (.error e, t')) :
    t'.Same t ↔ ∀ q, ¬ directory ++ [name] <+: q → t'.at? q = base.at? q := by
  obtain ⟨u, -, hgained, hmoved⟩ :=
    hs.outcome_moveInto (hs.holds_of_outside hdraft.outside) hon h
  have hu : t' = u := by
    rcases hmoved with ⟨_, -, hu⟩ | ⟨_, hok, -⟩
    · exact hu
    · exact nomatch hok
  subst hu
  constructor
  · intro same q hq
    rw [same q, hdraft.outside q hq]
  · intro hout q
    by_contra hq
    obtain ⟨rest, -, hbelow, rfl⟩ := hgained q hq
    have hapart := hs.apart hon hbelow
    exact hq ((hout _ hapart).trans (hdraft.outside _ hapart).symm)

/-- A move that ends well has put the file in its place and taken it from
    where it was. -/
theorem at?_of_move_ok (hdraft : Draft base (directory ++ [name]) t)
    (hon : Onward steps) {content : Bytes}
    (hfile : t.at? (directory ++ [name] ++ steps) = some (.file content)) {t' : FileTree}
    (h : outcome (moveInto workDir staging target steps) t = (.ok (), t')) :
    t'.at? (directory ++ (target.lastStep ++ steps)) = some (.file content) ∧
      t'.at? (directory ++ [name] ++ steps) = none := by
  obtain ⟨u, hgains, -, hmoved⟩ :=
    hs.outcome_moveInto (hs.holds_of_outside hdraft.outside) hon h
  rcases hmoved with ⟨_, herr, -⟩ | ⟨e, -, hsource, -, rfl⟩
  · exact nomatch herr
  · have hu : u.at? (directory ++ [name] ++ steps) = some (.file content) := by
      rw [hgains.at?_eq (by rw [hfile]; exact Option.some_ne_none _), hfile]
    rw [hu] at hsource
    cases hsource
    refine ⟨FileTree.at?_put_self (by simp [hon.some]), ?_⟩
    rw [FileTree.at?_put_of_ne (by simp [hon.some]), FileTree.at?_prune_of_below (by simp) List.prefix_rfl]
    intro heq
    refine hs.apart hon List.prefix_rfl ?_
    rw [← heq]
    exact List.prefix_append _ _

/-- A commit, on every way out of it, leaves the directories that were there
    before the scratch directory. -/
theorem commit_holds (hw : w.Site workDir (Draft base (directory ++ [name])))
    {r : Except Failure Unit} (h : outcome (commit staging target) w = (r, w')) :
    w'.Site workDir base.Holds := by
  have hfiles : ∀ steps ∈ filesBelow w.tree workDir staging, Onward steps :=
    fun _ hmem => onward_of_mem_filesBelow hs hw.files hmem
  have hkept := keeps_commitFiles hs (q := []) (e := .directory) hfiles (by simp) (.inl rfl) w
    ⟨⟨hs.holds_of_outside hw.files.outside, rfl⟩, hw.workDir, hw.onConsole⟩
  rw [outcome_commit hw.workDir] at h
  rw [h] at hkept
  exact hkept.imp fun _ ht => ht.1

/-- A file that has been moved stays in its place through the other moves. -/
theorem at?_of_moved {content : Bytes} {rest : List (List String)} {t' : FileTree}
    {r : Except Failure Unit} (hsite : w.Site workDir base.Holds) (htree : w.tree = t')
    (hplaced : t'.at? (directory ++ (target.lastStep ++ steps)) = some (.file content))
    (hon : Onward steps) (hrest : ∀ steps' ∈ rest, Onward steps') (hnew : steps ∉ rest)
    (h : outcome (commitFiles staging target rest) w = (r, w')) :
    w'.tree.at? (directory ++ (target.lastStep ++ steps)) = some (.file content) := by
  have hothers : ∀ steps' ∈ rest,
      directory ++ (target.lastStep ++ steps) ≠ directory ++ (target.lastStep ++ steps') := by
    intro steps' hmem heq
    obtain rfl := List.append_cancel_left (List.append_cancel_left heq)
    exact hnew hmem
  have hkept := keeps_commitFiles hs hrest (hs.apart hon List.prefix_rfl) (.inr hothers) w
    ⟨⟨hsite.files, by rw [htree, hplaced]⟩, hsite.workDir, hsite.onConsole⟩
  rw [h] at hkept
  exact hkept.files.2

/-- The first file to move, with the files that are passed over before it and
    those that are come to behind it. -/
theorem firstMove_split (hdraft : Draft base (directory ++ [name]) t)
    (hfirst : firstMove? t workDir staging target = some steps) :
    ∃ skipped rest content, filesBelow t workDir staging = skipped ++ steps :: rest ∧
      (∀ steps' ∈ skipped, sameContent t workDir
        { staging with parts := staging.parts ++ steps' }
        { target with parts := target.parts ++ steps' } = true) ∧
      ¬ sameContent t workDir { staging with parts := staging.parts ++ steps }
        { target with parts := target.parts ++ steps } = true ∧
      Onward steps ∧ (∀ steps' ∈ rest, Onward steps') ∧ steps ∉ rest ∧
      t.at? (directory ++ [name] ++ steps) = some (.file content) := by
  obtain ⟨hdiffers, skipped, rest, hfiles, hskipped⟩ := List.find?_eq_some_iff_append.mp hfirst
  have hmem : ∀ steps' ∈ steps :: rest, steps' ∈ filesBelow t workDir staging := by
    intro steps' hmem
    rw [hfiles]
    exact List.mem_append_right _ hmem
  have hnodup := nodup_filesBelow hdraft.wellFormed.once
    (hs.locate_staging (hs.holds_of_outside hdraft.outside))
  rw [hfiles] at hnodup
  obtain ⟨-, content, hfile⟩ :=
    (mem_filesBelow_of_draft hs hdraft).mp (hmem steps List.mem_cons_self)
  exact ⟨skipped, rest, content, hfiles, fun steps' h => by simpa using hskipped steps' h,
    by simpa using hdiffers, onward_of_mem_filesBelow hs hdraft (hmem _ List.mem_cons_self),
    fun steps' h => onward_of_mem_filesBelow hs hdraft (hmem _ (List.mem_cons_of_mem _ h)),
    (List.nodup_cons.mp (List.nodup_append.mp hnodup).2.1).1, hfile⟩

/-- Once a file has been moved to a place that had not this content, the tree
    outside the scratch directory is another one, however the commit ends. -/
theorem outside_changed_of_move {content : Bytes} {rest : List (List String)} {t' : FileTree}
    {w₁ : World} {r : Except Failure Unit} (e : LogEntry)
    (hdraft : Draft base (directory ++ [name]) t)
    (hon : Onward steps) (hrest : ∀ steps' ∈ rest, Onward steps') (hnew : steps ∉ rest)
    (hfile : t.at? (directory ++ [name] ++ steps) = some (.file content))
    (hnot : ¬ sameContent t workDir { staging with parts := staging.parts ++ steps }
      { target with parts := target.parts ++ steps } = true)
    (hmove : outcome (moveInto workDir staging target steps) t = (.ok (), t'))
    (hw₁ : w₁.workDir = workDir) (hlog : w₁.log.OnConsole)
    (h : outcome (commitFiles staging target rest) ({ w₁ with tree := t' }.tell e) = (r, w')) :
    ¬ ∀ q, ¬ directory ++ [name] <+: q → w'.tree.at? q = base.at? q := by
  obtain ⟨hplaced, -⟩ := at?_of_move_ok hs hdraft hon hfile hmove
  have hkept := hs.keeps_moveInto hon (q := []) (by simp) (.inl rfl) t
    ⟨hs.holds_of_outside hdraft.outside, rfl⟩
  rw [hmove] at hkept
  have hsite : Site workDir base.Holds { w₁ with tree := t' } := ⟨hkept.1, hw₁, hlog⟩
  have hafter : ({ w₁ with tree := t' }.tell e).tree = t' := (told_tell hsite.onConsole e).2
  have hlast := at?_of_moved hs (hsite.tell e) hafter hplaced hon hrest hnew h
  intro hout
  have hapart := hs.apart hon List.prefix_rfl
  refine hnot ((sameContent_of_draft hs hdraft hon hfile).mpr ?_)
  rw [hdraft.outside _ hapart, ← hout _ hapart, hlast]

/-- **A COMMIT THAT FAILS** has a first file to move, and outside the scratch
    directory the tree is as it was just when that first move changes
    nothing. -/
theorem commit_failed (hw : w.Site workDir (Draft base (directory ++ [name]))) {f : Failure}
    (h : outcome (commit staging target) w = (.error f, w')) :
    ∃ steps, firstMove? w.tree workDir staging target = some steps ∧
      ((outcome (moveInto workDir staging target steps) w.tree).2.Same w.tree ↔
        ∀ q, ¬ directory ++ [name] <+: q → w'.tree.at? q = base.at? q) := by
  have hdraft := hw.files
  rw [outcome_commit hw.workDir] at h
  cases hfirst : firstMove? w.tree workDir staging target with
  | none =>
      -- every file is passed over, which does not fail
      have hall : ∀ steps ∈ filesBelow w.tree workDir staging, _ := List.find?_eq_none.mp hfirst
      obtain ⟨w₁, -, -, hskip⟩ := outcome_commitFiles_of_same [] (filesBelow w.tree workDir staging)
        hw fun steps hmem => by simpa using hall steps hmem
      rw [List.append_nil, h] at hskip
      exact nomatch congrArg Prod.fst hskip
  | some steps =>
      refine ⟨steps, rfl, ?_⟩
      obtain ⟨skipped, rest, content, hfiles, hskipped, hnot, hon, hrest, hnew, hfile⟩ :=
        firstMove_split hs hdraft hfirst
      obtain ⟨w₁, htree, hw₁, hskip⟩ := outcome_commitFiles_of_same (steps :: rest) skipped hw hskipped
      rw [hfiles, hskip] at h
      -- files that are passed over leave the tree as it is, so this is the first move
      rcases hmove : outcome (moveInto workDir staging target steps) w.tree with ⟨r, t'⟩
      have hnot₁ := hnot
      rw [← htree, ← hw₁.workDir] at hnot₁
      have hmove₁ : outcome (moveInto w₁.workDir staging target steps) w₁.tree = (r, t') := by
        rw [htree, hw₁.workDir, hmove]
      rcases outcome_commitFile_of_not_same hnot₁ hmove₁ with
        ⟨e, f', rfl, hfailed⟩ | ⟨e, rfl, hmoved⟩
      · rw [outcome_commitFiles_of_error hfailed] at h
        cases h
        exact same_iff_of_move_error hs hdraft hon hmove
      · -- the file has been moved, so neither side holds
        rw [outcome_commitFiles_of_ok hmoved] at h
        have hchanged := outside_changed_of_move hs e hdraft hon hrest hnew hfile hnot hmove
          hw₁.workDir hw₁.onConsole h
        refine iff_of_false ?_ hchanged
        intro same
        have htaken := (at?_of_move_ok hs hdraft hon hfile hmove).2
        rw [same, hfile] at htaken
        exact nomatch htaken

/-- Removing the scratch directory after work that has failed gives back the
    tree in which it was made. -/
theorem same_of_work_failed (hw : w.Site workDir (Draft base (directory ++ [name])))
    (hdrop : outcome (dropStaging staging) w = (.ok (), w')) : w'.tree.Same base := by
  have hfound := hs.locate_staging (hs.holds_of_outside hw.files.outside)
  rw [← hw.workDir] at hfound
  cases (outcome_dropStaging hfound).symm.trans hdrop
  exact hs.draft_prune hw.files

/-- Removing it after a commit that has failed gives back an older tree just
    when no directory had been made on the way and the commit was stuck. -/
theorem same_iff_of_commit_failed {init : FileTree} {w₁ w₂ : World} {f : Failure}
    (hgains : init.Gains base) (hw : w₁.Site workDir (Draft base (directory ++ [name])))
    (hcommit : outcome (commit staging target) w₁ = (.error f, w₂))
    (hdrop : outcome (dropStaging staging) w₂ = (.ok (), w')) :
    w'.tree.Same init ↔ base.Same init ∧ Stuck workDir staging target w₁.tree := by
  have hsite := commit_holds hs hw hcommit
  obtain ⟨steps, hfirst, hiff⟩ := commit_failed hs hw hcommit
  have hfound := hs.locate_staging hsite.files
  rw [← hsite.workDir] at hfound
  cases (outcome_dropStaging hfound).symm.trans hdrop
  have hprune : ∀ q, ¬ directory ++ [name] <+: q →
      (w₂.tree.prune (directory ++ [name])).at? q = w₂.tree.at? q :=
    fun q hq => FileTree.at?_prune_of_apart (by simp) hq
  constructor
  · intro hsame
    have hway : base.Same init := by
      intro q
      rcases hgains q with heq | ⟨hnone, hdir⟩
      · exact heq
      · -- a directory that was made on the way is still there
        have hapart : ¬ directory ++ [name] <+: q := by
          intro hbelow
          rw [hs.nothing_below hbelow] at hdir
          exact nomatch hdir
        have hlast := hsame q
        rw [hprune q hapart, hsite.files q hdir, hnone] at hlast
        exact nomatch hlast
    refine ⟨hway, ?_⟩
    intro steps' hfirst'
    cases hfirst.symm.trans hfirst'
    refine hiff.mpr fun q hq => ?_
    rw [← hprune q hq, hsame q, hway q]
  · rintro ⟨hway, hstuck⟩ q
    by_cases hbelow : directory ++ [name] <+: q
    · rw [FileTree.at?_prune_of_below (by simp) hbelow, ← hway q, hs.nothing_below hbelow]
    · rw [hprune q hbelow, hiff.mp (hstuck steps hfirst) q hbelow, hway q]

end

/-! ## The way in and out -/

theorem makeStaging_eq (target : Path) :
    makeStaging target =
      get >>= fun w => disk fun workDir => Scratch.make workDir target w.token := rfl

/-- A place beside the target is opened behind the directories that are made
    on the way to the target, or those are all that has been made. -/
theorem outcome_openStaging_beside {u : FileTree} {r : Except Failure Path}
    (ht : w.tree.WellFormed) (hwork : w.tree.at? w.workDir = some .directory)
    (hu : (outcome (Disk.ensureDirectory w.workDir target.parent) w.tree).2 = u)
    (h : outcome (openStaging target) w = (r, w')) :
    (∃ f, r = .error f ∧ w' = { w with tree := u }) ∨
      ∃ staging directory name, r = .ok staging ∧
        Beside u w.workDir target staging directory name ∧
        name = Disk.freshName u directory s!".{target.name}.staging-{w.token}" ∧
        Hidden name ∧ target.name.length < name.length ∧
        w' = { w with tree := u.put (directory ++ [name]) .directory } := by
  rcases hmake : outcome (Scratch.make w.workDir target w.token) w.tree with ⟨made, t'⟩
  have hstep : outcome (makeStaging target) w =
      (made.mapError .disk, { w with tree := t' }) := by
    rw [makeStaging_eq, outcome_get_bind, outcome_disk, hmake]
  rcases Scratch.outcome_make ht hwork hu hmake with
    ⟨e, rfl, rfl⟩ | ⟨staging, directory, name, rfl, hb, hname, hhidden, hlonger, rfl⟩
  · obtain ⟨f, hf⟩ := outcome_reporting_of_error _ hstep
    cases hf.symm.trans h
    exact .inl ⟨f, rfl, rfl⟩
  · cases (outcome_reporting_of_ok hstep).symm.trans h
    exact .inr ⟨staging, directory, name, rfl, hb, hname, hhidden, hlonger, rfl⟩

/-- A place that has been opened beside the target is a new directory in a tree
    that has only gained directories. -/
theorem opened_beside (hw : w.Sound) (h : outcome (openStaging target) w = (.ok staging, w')) :
    ∃ base directory name, w.tree.Gains base ∧
      Beside base w.workDir target staging directory name ∧
      name = Disk.freshName base directory s!".{target.name}.staging-{w.token}" ∧
      Hidden name ∧ target.name.length < name.length ∧
      w' = { w with tree := base.put (directory ++ [name]) .directory } := by
  have hgains := Disk.ensureDirectory_gains w.workDir target.parent w.tree
  rcases outcome_openStaging_beside hw.wellFormed hw.working rfl h with
    ⟨f, herror, -⟩ | ⟨_, directory, name, hr, hb, hname, hhidden, hlonger, hw'⟩
  · exact nomatch herror
  · obtain rfl := Except.ok.inj hr
    exact ⟨_, directory, name, hgains, hb, hname, hhidden, hlonger, hw'⟩

/-- A scratch directory is opened in the same way. -/
theorem outcome_openStaging {u : FileTree} {r : Except Failure Path} (ht : w.tree.WellFormed)
    (hwork : w.tree.at? w.workDir = some .directory) (hforward : target.name ≠ "..")
    (hu : (outcome (Disk.ensureDirectory w.workDir target.parent) w.tree).2 = u)
    (h : outcome (openStaging target) w = (r, w')) :
    (∃ f, r = .error f ∧ w' = { w with tree := u }) ∨
      ∃ staging directory name, r = .ok staging ∧
        Scratch u w.workDir target staging directory name ∧
        w' = { w with tree := u.put (directory ++ [name]) .directory } := by
  rcases outcome_openStaging_beside ht hwork hu h with
    hfailed | ⟨staging, directory, name, hr, hb, -, hhidden, hlonger, hw'⟩
  · exact .inl hfailed
  · exact .inr ⟨staging, directory, name, hr, hb.scratch hhidden hlonger hforward, hw'⟩

/-- **A STAGED RUN THAT ENDS WELL** has opened the scratch directory, done its
    work there, committed it, and removed the directory. -/
theorem outcome_staged_eq_ok {α : Type} {body : Path → Step α} {a : α} :
    outcome (staged false target body) w = (.ok a, w') ↔
      ∃ staging w₁ w₂ w₃, outcome (openStaging target) w = (.ok staging, w₁) ∧
        outcome (body staging) w₁ = (.ok a, w₂) ∧
        outcome (commit staging target) w₂ = (.ok (), w₃) ∧
        outcome (dropStaging staging) w₃ = (.ok (), w') := by
  rw [staged, if_neg Bool.false_ne_true]
  constructor
  · intro h
    obtain ⟨staging, w₁, hopen, h⟩ := outcome_bind_eq_ok.mp h
    rcases hwork : outcome (do
        let result ← body staging
        reporting
          (fun e => outputReport s!"Failed to move generated files into {target}: {e.message}" target)
          (commit staging target)
        return result) w₁ with ⟨r, w₃⟩
    have hdrop : outcome (dropStaging staging) w₃ = (.ok (), _) := outcome_modify _ _
    cases (outcome_ensuring hwork hdrop).symm.trans h
    obtain ⟨_, w₂, hbody, hrest⟩ := outcome_bind_eq_ok.mp hwork
    rcases hcommit : outcome (commit staging target) w₂ with ⟨r, w₄⟩
    cases r with
    | error f =>
        obtain ⟨f', hreport⟩ := outcome_reporting_of_error (fun e => outputReport
          s!"Failed to move generated files into {target}: {e.message}" target) hcommit
        rw [outcome_bind_of_error hreport] at hrest
        exact nomatch congrArg Prod.fst hrest
    | ok _ =>
        rw [outcome_bind_of_ok (outcome_reporting_of_ok hcommit)] at hrest
        cases hrest
        exact ⟨staging, w₁, w₂, _, hopen, hbody, hcommit, hdrop⟩
  · rintro ⟨staging, w₁, w₂, w₃, hopen, hbody, hcommit, hdrop⟩
    rw [outcome_bind_of_ok hopen]
    refine outcome_ensuring ?_ hdrop
    rw [outcome_bind_of_ok hbody, outcome_bind_of_ok (outcome_reporting_of_ok hcommit),
      outcome_pure]

/-- **HOW A STAGED RUN FAILS**: at the making of the scratch directory, or in
    the work on it or the commit, after which it is removed. -/
theorem staged_failed {α : Type} {body : Path → Step α} {f : Failure}
    (h : outcome (staged false target body) w = (.error f, w')) :
    outcome (openStaging target) w = (.error f, w') ∨
      ∃ staging w₁ w₂, outcome (openStaging target) w = (.ok staging, w₁) ∧
        outcome (dropStaging staging) w₂ = (.ok (), w') ∧
        (outcome (body staging) w₁ = (.error f, w₂) ∨
          ∃ a w₃ f', outcome (body staging) w₁ = (.ok a, w₃) ∧
            outcome (commit staging target) w₃ = (.error f', w₂)) := by
  rw [staged, if_neg Bool.false_ne_true] at h
  rcases outcome_bind_eq_error.mp h with h | ⟨staging, w₁, hopen, h⟩
  · exact .inl h
  · refine .inr ⟨staging, w₁, ?_⟩
    have hdrop : ∀ w₂, ∃ w₃, outcome (dropStaging staging) w₂ = (.ok (), w₃) :=
      fun w₂ => ⟨_, outcome_modify _ _⟩
    rcases hwork : outcome (do
        let result ← body staging
        reporting
          (fun e => outputReport s!"Failed to move generated files into {target}: {e.message}" target)
          (commit staging target)
        return result) w₁ with ⟨r, w₂⟩
    -- the scratch directory is dropped on every way out, and that never fails
    obtain ⟨w₃, hlast⟩ := hdrop w₂
    cases (outcome_ensuring hwork hlast).symm.trans h
    refine ⟨w₂, hopen, hlast, ?_⟩
    rcases outcome_bind_eq_error.mp hwork with hbody | ⟨a, w₃, hbody, hrest⟩
    · exact .inl hbody
    · right
      rcases hcommit : outcome (commit staging target) w₃ with ⟨r, w₄⟩
      cases r with
      | error f' =>
          obtain ⟨f'', hreport⟩ := outcome_reporting_of_error (fun e => outputReport
            s!"Failed to move generated files into {target}: {e.message}" target) hcommit
          rw [outcome_bind_of_error hreport] at hrest
          cases hrest
          exact ⟨a, w₃, f', hbody, hcommit⟩
      | ok _ =>
          rw [outcome_bind_of_ok (outcome_reporting_of_ok hcommit)] at hrest
          exact nomatch congrArg Prod.fst hrest

/-- **WHAT A FAILED STAGED RUN LEAVES**: the tree is the same as before just
    when the way to the target was there, as far as it can be, and a commit
    that was come to was stuck. -/
theorem staged_same_iff {α : Type} {body : Path → Step α} {u : FileTree} {f : Failure}
    (ht : w.tree.WellFormed) (hwork : w.tree.at? w.workDir = some .directory)
    (hlog : w.log.OnConsole) (hforward : target.name ≠ "..")
    (hu : (outcome (Disk.ensureDirectory w.workDir target.parent) w.tree).2 = u)
    (hbody : ∀ {staging directory name}, Scratch u w.workDir target staging directory name →
      Keeps (Site w.workDir (Draft u (directory ++ [name]))) (body staging))
    (h : outcome (staged false target body) w = (.error f, w')) :
    w'.tree.Same w.tree ↔ u.Same w.tree ∧
      ∀ staging w₁ a w₂, outcome (openStaging target) w = (.ok staging, w₁) →
        outcome (body staging) w₁ = (.ok a, w₂) → Stuck w.workDir staging target w₂.tree := by
  rcases staged_failed h with hopen | ⟨staging, w₁, w₂, hopen, hdrop, hrest⟩
  · rcases outcome_openStaging ht hwork hforward hu hopen with ⟨_, -, rfl⟩ | ⟨_, _, _, hok, -⟩
    · constructor
      · intro hsame
        refine ⟨hsame, ?_⟩
        intro staging w₁ a w₂ hok
        exact nomatch congrArg Prod.fst (hopen.symm.trans hok)
      · exact fun hsame => hsame.1
    · exact nomatch hok
  · rcases outcome_openStaging ht hwork hforward hu hopen with
      ⟨_, herr, -⟩ | ⟨_, directory, name, hok, hs, rfl⟩
    · exact nomatch herr
    · cases hok
      have hstart : Site w.workDir (Draft u (directory ++ [name]))
          { w with tree := u.put (directory ++ [name]) .directory } :=
        ⟨hs.draft_start, rfl, hlog⟩
      -- the work leaves a draft, whichever way it ends
      have hkept := hbody hs _ hstart
      rcases hrest with hfailed | ⟨a, w₃, f', hdone, hcommit⟩
      · rw [hfailed] at hkept
        have hrestored := same_of_work_failed hs hkept hdrop
        constructor
        · intro hsame
          refine ⟨hrestored.symm.trans hsame, ?_⟩
          intro staging' w₁ a w₂ hopen' hok
          cases hopen.symm.trans hopen'
          exact nomatch congrArg Prod.fst (hfailed.symm.trans hok)
        · exact fun hsame => hrestored.trans hsame.1
      · rw [hdone] at hkept
        have hgains := Disk.ensureDirectory_gains w.workDir target.parent w.tree
        rw [hu] at hgains
        rw [same_iff_of_commit_failed hs hgains hkept hcommit hdrop]
        constructor
        · rintro ⟨hway, hstuck⟩
          refine ⟨hway, ?_⟩
          intro staging' w₁ a' w₄ hopen' hdone'
          cases hopen.symm.trans hopen'
          cases hdone.symm.trans hdone'
          exact hstuck
        · rintro ⟨hway, hstuck⟩
          exact ⟨hway, hstuck staging _ a w₃ hopen hdone⟩

end Step
end GemBinder
