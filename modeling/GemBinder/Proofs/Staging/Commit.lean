import GemBinder.Proofs.Files.Moving
import GemBinder.Proofs.World
import GemBinder.Staging

/-! # The commit of staged output

    A commit goes through the files of a scratch directory in order.  A file
    that the target has already is passed over, and any other is moved.  What
    has been moved stays in its place through the moves that follow. -/

namespace GemBinder

open Files Text World

namespace Step

variable {workDir : Place} {t : FileTree} {p : Path} {place q : Place} {steps : List String}

/-! ## The files of a directory -/

/-- The steps of a file. -/
def fileSteps : List String × Entry → Option (List String)
  | (steps, .file _) => some steps
  | (_, .directory) => none

theorem filesBelow_perm (hp : t.locate workDir p = .ok place) :
    (filesBelow t workDir p).Perm ((t.below place).filterMap fileSteps) := by
  refine (List.mergeSort_perm _ _).trans ?_
  rw [FileTree.descendants, hp]
  simp only [List.filterMap_map]
  refine List.Perm.of_eq (List.filterMap_congr ?_)
  rintro ⟨steps, e⟩ -
  cases e with
  | file content => simp [fileSteps]
  | directory => simp [fileSteps]

theorem mem_filesBelow (once : t.Once) (hp : t.locate workDir p = .ok place) :
    steps ∈ filesBelow t workDir p ↔
      steps ≠ [] ∧ ∃ content, t.at? (place ++ steps) = some (.file content) := by
  rw [(filesBelow_perm hp).mem_iff, List.mem_filterMap]
  constructor
  · rintro ⟨⟨rest, e⟩, hmem, h⟩
    obtain ⟨hne, hstands⟩ := once.mem_below.mp hmem
    cases e with
    | directory => exact nomatch h
    | file content =>
        cases h
        exact ⟨hne, content, hstands⟩
  · rintro ⟨hne, content, h⟩
    exact ⟨(steps, .file content), once.mem_below.mpr ⟨hne, h⟩, rfl⟩

theorem nodup_filesBelow (once : t.Once) (hp : t.locate workDir p = .ok place) :
    (filesBelow t workDir p).Nodup := by
  rw [(filesBelow_perm hp).nodup_iff]
  refine (once.pairwise_below place).filterMap _ ?_
  rintro ⟨steps, e⟩ ⟨steps', e'⟩ hne r hr r' hr' heq
  cases e with
  | directory => exact nomatch hr
  | file content =>
      cases e' with
      | directory => exact nomatch hr'
      | file content' =>
          cases hr
          cases hr'
          exact hne heq

/-! ## Moving one file -/

/-- **THE FIRST MOVE**: the first file of a scratch directory that the target
    does not have already. -/
def firstMove? (t : FileTree) (workDir : Place) (staging target : Path) : Option (List String) :=
  (filesBelow t workDir staging).find? fun steps =>
    !sameContent t workDir { staging with parts := staging.parts ++ steps }
      { target with parts := target.parts ++ steps }

theorem sameContent_iff {p q : Path} :
    sameContent t workDir p q = true ↔
      ∃ content, t.read workDir p = .ok content ∧ t.read workDir q = .ok content := by
  rw [sameContent]
  cases t.read workDir p with
  | error e => simp
  | ok a =>
      cases t.read workDir q with
      | error e => simp
      | ok b =>
          simp only [beq_iff_eq, Except.ok.injEq]
          constructor
          · rintro rfl
            exact ⟨a, rfl, rfl⟩
          · rintro ⟨content, rfl, rfl⟩
            rfl

theorem outcome_disk_bind {α β : Type} (d : Place → Disk α) (d' : Place → α → Disk β) (w : World) :
    outcome (disk d >>= fun a => disk fun workDir => d' workDir a) w =
      outcome (disk fun workDir => d workDir >>= d' workDir) w := by
  rw [outcome_disk]
  rcases hd : outcome (d w.workDir) w.tree with ⟨r, t⟩
  have hdisk : outcome (disk d) w = (r.mapError .disk, { w with tree := t }) := by
    rw [outcome_disk, hd]
  cases r with
  | error e =>
      rw [outcome_bind_of_error hdisk, outcome_bind_of_error hd]
      rfl
  | ok a =>
      rw [outcome_bind_of_ok hdisk, outcome_bind_of_ok hd, outcome_disk]

variable {staging target : Path} {w w' : World}

/-- What is told of a file that is moved or passed over. -/
def fileEntry (target : Path) (moved : Bool) (steps : List String) : LogEntry :=
  let final : Path := { target with parts := target.parts ++ steps }
  if moved then { level := Level.info, message := s!"[write] {final}" }
  else { level := Level.debug, message := s!"[skip] {final} (unchanged)" }

/-- A file that the target has already is passed over. -/
theorem outcome_commitFile_skip
    (hsame : sameContent w.tree w.workDir { staging with parts := staging.parts ++ steps }
      { target with parts := target.parts ++ steps } = true) :
    outcome (commitFile staging target steps) w =
      (.ok (), w.tell (fileEntry target false steps)) := by
  rw [commitFile, outcome_bind_of_ok (show outcome (look _) w = (.ok _, w) from rfl), if_pos hsame]
  rfl

theorem outcome_commitFile_of_same
    (hsame : sameContent w.tree w.workDir { staging with parts := staging.parts ++ steps }
      { target with parts := target.parts ++ steps } = true) :
    ∃ e, outcome (commitFile staging target steps) w = (.ok (), w.tell e) :=
  ⟨_, outcome_commitFile_skip hsame⟩

/-- Any other file is moved. -/
theorem outcome_commitFile_move
    (hsame : ¬ sameContent w.tree w.workDir { staging with parts := staging.parts ++ steps }
      { target with parts := target.parts ++ steps } = true)
    {r : Except DiskError Unit} {t' : FileTree}
    (hmove : outcome (moveInto w.workDir staging target steps) w.tree = (r, t')) :
    (∃ e f, r = .error e ∧
        outcome (commitFile staging target steps) w = (.error f, { w with tree := t' })) ∨
      r = .ok () ∧ outcome (commitFile staging target steps) w =
        (.ok (), { w with tree := t' }.tell (fileEntry target true steps)) := by
  have hdisk : outcome (disk fun workDir => moveInto workDir staging target steps) w =
      (r.mapError .disk, { w with tree := t' }) := by
    rw [outcome_disk, hmove]
  rw [commitFile, outcome_bind_of_ok (show outcome (look _) w = (.ok _, w) from rfl),
    if_neg hsame, ensureDirectory, ← bind_assoc]
  have hboth := (outcome_disk_bind (fun workDir => Disk.ensureDirectory workDir
      ({ target with parts := target.parts ++ steps } : Path).parent)
    (fun workDir _ => do
      Disk.replace workDir
        (← Disk.locate workDir { staging with parts := staging.parts ++ steps })
        { staging with parts := staging.parts ++ steps }
        { target with parts := target.parts ++ steps }) w).trans hdisk
  cases r with
  | error e => exact .inl ⟨e, _, rfl, outcome_bind_of_error hboth⟩
  | ok _ => exact .inr ⟨rfl, outcome_bind_of_ok hboth⟩

theorem outcome_commitFile_of_not_same
    (hsame : ¬ sameContent w.tree w.workDir { staging with parts := staging.parts ++ steps }
      { target with parts := target.parts ++ steps } = true)
    {r : Except DiskError Unit} {t' : FileTree}
    (hmove : outcome (moveInto w.workDir staging target steps) w.tree = (r, t')) :
    (∃ e f, r = .error e ∧
        outcome (commitFile staging target steps) w = (.error f, { w with tree := t' })) ∨
      ∃ e, r = .ok () ∧
        outcome (commitFile staging target steps) w = (.ok (), { w with tree := t' }.tell e) :=
  (outcome_commitFile_move hsame hmove).imp_right fun h => ⟨_, h⟩

/-- A file whose commit ends well has been passed over or moved. -/
theorem commitFile_cases (h : outcome (commitFile staging target steps) w = (.ok (), w')) :
    (sameContent w.tree w.workDir { staging with parts := staging.parts ++ steps }
        { target with parts := target.parts ++ steps } = true ∧
      w' = w.tell (fileEntry target false steps)) ∨
    ¬ sameContent w.tree w.workDir { staging with parts := staging.parts ++ steps }
        { target with parts := target.parts ++ steps } = true ∧
      ∃ t', outcome (moveInto w.workDir staging target steps) w.tree = (.ok (), t') ∧
        w' = { w with tree := t' }.tell (fileEntry target true steps) := by
  by_cases hsame : sameContent w.tree w.workDir { staging with parts := staging.parts ++ steps }
      { target with parts := target.parts ++ steps } = true
  · cases (outcome_commitFile_skip hsame).symm.trans h
    exact .inl ⟨hsame, rfl⟩
  · rcases hmove : outcome (moveInto w.workDir staging target steps) w.tree with ⟨r, t'⟩
    rcases outcome_commitFile_move hsame hmove with ⟨e, f, -, hfailed⟩ | ⟨rfl, hmoved⟩
    · exact nomatch congrArg Prod.fst (hfailed.symm.trans h)
    · cases hmoved.symm.trans h
      exact .inr ⟨hsame, t', rfl, rfl⟩

/-! ## Moving all files -/

/-- The moves of some files, one after the other. -/
def commitFiles (staging target : Path) (files : List (List String)) : Step Unit := do
  for steps in files do commitFile staging target steps

theorem outcome_commit (hwork : w.workDir = workDir) :
    outcome (commit staging target) w =
      outcome (commitFiles staging target (filesBelow w.tree workDir staging)) w := by
  subst hwork
  exact outcome_bind_of_ok rfl

theorem outcome_commitFiles_of_ok {rest : List (List String)}
    (h : outcome (commitFile staging target steps) w = (.ok (), w')) :
    outcome (commitFiles staging target (steps :: rest)) w =
      outcome (commitFiles staging target rest) w' := by
  rw [commitFiles, List.forIn_cons, bind_assoc, bind_assoc, outcome_bind_of_ok h]
  rfl

theorem outcome_commitFiles_of_error {rest : List (List String)} {f : Failure}
    (h : outcome (commitFile staging target steps) w = (.error f, w')) :
    outcome (commitFiles staging target (steps :: rest)) w = (.error f, w') := by
  rw [commitFiles, List.forIn_cons, bind_assoc, bind_assoc, outcome_bind_of_error h]

/-- The first file of a commit that ends well, and the others behind it. -/
theorem commitFiles_cons_cases {rest : List (List String)}
    (h : outcome (commitFiles staging target (steps :: rest)) w = (.ok (), w')) :
    ∃ w₁, outcome (commitFile staging target steps) w = (.ok (), w₁) ∧
      outcome (commitFiles staging target rest) w₁ = (.ok (), w') := by
  rcases hfirst : outcome (commitFile staging target steps) w with ⟨r, w₁⟩
  cases r with
  | error f =>
      rw [outcome_commitFiles_of_error hfirst] at h
      exact nomatch congrArg Prod.fst h
  | ok _ =>
      rw [outcome_commitFiles_of_ok hfirst] at h
      exact ⟨w₁, rfl, h⟩

/-- Files that the target has already are passed over in a row. -/
theorem outcome_commitFiles_of_same {P : FileTree → Prop} (rest : List (List String)) :
    ∀ (skipped : List (List String)) {w : World}, w.Site workDir P →
      (∀ steps ∈ skipped,
        sameContent w.tree workDir { staging with parts := staging.parts ++ steps }
          { target with parts := target.parts ++ steps } = true) →
      ∃ w', w'.tree = w.tree ∧ w'.Site workDir P ∧
        outcome (commitFiles staging target (skipped ++ rest)) w =
          outcome (commitFiles staging target rest) w'
  | [], w, hw, _ => ⟨w, rfl, hw, rfl⟩
  | steps :: skipped, w, hw, hsame => by
      have hfirst := hsame steps List.mem_cons_self
      rw [← hw.workDir] at hfirst
      obtain ⟨e, h⟩ := outcome_commitFile_of_same hfirst
      have htree : (w.tell e).tree = w.tree := by
        obtain ⟨journal, console, htell⟩ := tell_eq hw.onConsole e
        rw [htell]
      obtain ⟨w', htree', hw', hrest⟩ :=
        outcome_commitFiles_of_same rest skipped (hw.tell e) fun steps' hmem => by
          rw [htree]
          exact hsame steps' (List.mem_cons_of_mem _ hmem)
      exact ⟨w', htree'.trans htree, hw', (outcome_commitFiles_of_ok h).trans hrest⟩

section

variable {base : FileTree} {directory : Place} {name : String}
  (hs : Scratch base workDir target staging directory name)
include hs

theorem keeps_commitFile {e : Entry} (hon : Onward steps)
    (hapart : ¬ directory ++ [name] <+: q)
    (he : e = .directory ∨ q ≠ directory ++ (target.lastStep ++ steps)) :
    Keeps (Site workDir fun t => base.Holds t ∧ t.at? q = some e)
      (commitFile staging target steps) := by
  intro w hw
  obtain ⟨hfiles, rfl, hlog⟩ := hw
  by_cases hsame : sameContent w.tree w.workDir { staging with parts := staging.parts ++ steps }
      { target with parts := target.parts ++ steps } = true
  · obtain ⟨entry, h⟩ := outcome_commitFile_of_same hsame
    rw [h]
    exact Site.tell ⟨hfiles, rfl, hlog⟩ entry
  · have hmoved := hs.keeps_moveInto hon hapart he w.tree hfiles
    have hsite : Site w.workDir (fun t => base.Holds t ∧ t.at? q = some e)
        { w with tree := (outcome (moveInto w.workDir staging target steps) w.tree).2 } :=
      ⟨hmoved, rfl, hlog⟩
    rcases outcome_commitFile_of_not_same hsame (Prod.eta _).symm with
      ⟨_, f, -, h⟩ | ⟨entry, -, h⟩
    · rw [h]
      exact hsite
    · rw [h]
      exact hsite.tell entry

/-- The moves of other files leave what stands outside the scratch
    directory. -/
theorem keeps_commitFiles {e : Entry} {files : List (List String)}
    (hon : ∀ steps ∈ files, Onward steps)
    (hapart : ¬ directory ++ [name] <+: q)
    (he : e = .directory ∨ ∀ steps ∈ files, q ≠ directory ++ (target.lastStep ++ steps)) :
    Keeps (Site workDir fun t => base.Holds t ∧ t.at? q = some e)
      (commitFiles staging target files) := by
  refine (Keeps.forIn _ _ fun steps hsteps _ => ?_).bind fun _ => Keeps.pure _
  refine (keeps_commitFile hs (hon steps hsteps) hapart ?_).bind fun _ => Keeps.pure _
  exact he.imp_right fun h => h steps hsteps

/-- Where a file below the scratch directory is, in a draft. -/
theorem mem_filesBelow_of_draft (hdraft : Draft base (directory ++ [name]) t) :
    steps ∈ filesBelow t workDir staging ↔
      steps ≠ [] ∧ ∃ content, t.at? (directory ++ [name] ++ steps) = some (.file content) :=
  mem_filesBelow hdraft.wellFormed.once (hs.locate_staging (hs.holds_of_outside hdraft.outside))

theorem onward_of_mem_filesBelow (hdraft : Draft base (directory ++ [name]) t)
    (h : steps ∈ filesBelow t workDir staging) : Onward steps := by
  obtain ⟨hne, content, hfile⟩ := (mem_filesBelow_of_draft hs hdraft).mp h
  have hstand : t.at? (directory ++ [name] ++ steps) ≠ none := by
    rw [hfile]
    exact Option.some_ne_none _
  refine ⟨hne, fun hmem => hdraft.wellFormed.plain _ hstand (List.mem_append_right _ hmem), ?_⟩
  intro s hmem
  cases steps with
  | nil => exact nomatch hmem
  | cons s' more =>
      cases hmem
      exact hdraft.shown s more hstand

/-- The target has a file of a draft already just when the same file stands
    in its place. -/
theorem sameContent_of_draft (hdraft : Draft base (directory ++ [name]) t) {content : Bytes}
    (hon : Onward steps)
    (hfile : t.at? (directory ++ [name] ++ steps) = some (.file content)) :
    sameContent t workDir { staging with parts := staging.parts ++ steps }
        { target with parts := target.parts ++ steps } = true ↔
      t.at? (directory ++ (target.lastStep ++ steps)) = some (.file content) := by
  have hold := hs.holds_of_outside hdraft.outside
  have hsource : t.locate workDir { staging with parts := staging.parts ++ steps } =
      .ok (directory ++ [name] ++ steps) := by
    refine FileTree.locate_append.mpr ⟨_, hs.locate_staging hold, hdraft.wellFormed.walk_eq ?_⟩
    rw [hfile]
    exact Option.some_ne_none _
  rw [target.append_eq_parent_append steps, sameContent_iff]
  constructor
  · rintro ⟨content', hs', ht'⟩
    obtain ⟨r, hr, hfile'⟩ := FileTree.read_eq_ok.mp hs'
    obtain rfl := Except.ok.inj (hsource.symm.trans hr)
    obtain rfl : content = content' := by
      rw [hfile] at hfile'
      exact Entry.file.inj (Option.some.inj hfile')
    obtain ⟨r, hr, hgoal⟩ := FileTree.read_eq_ok.mp ht'
    -- both paths are named from one directory, which the draft has kept
    obtain ⟨d, hd, hwalk⟩ := FileTree.locate_append.mp hr
    obtain rfl := Except.ok.inj ((hold.locate hs.found).symm.trans hd)
    obtain rfl := FileTree.eq_append_of_walk (hs.forward_steps hon.forward) hwalk
    exact hgoal
  · intro hgoal
    refine ⟨content, FileTree.read_eq_ok.mpr ⟨_, hsource, hfile⟩,
      FileTree.read_eq_ok.mpr ⟨_, FileTree.locate_append.mpr ⟨_, hold.locate hs.found,
        hdraft.wellFormed.walk_eq ?_⟩, hgoal⟩⟩
    rw [hgoal]
    exact Option.some_ne_none _

end

end Step
end GemBinder
