import GemBinder.Generation
import GemBinder.Proofs.Files.Order
import GemBinder.Proofs.Staging.Failure

/-! # What a failed generation leaves

    All files of a gem are written below a scratch directory, as long as the
    names that the configuration gives to them do not lead out of it.  So a
    failure before the first move is without a trace, apart from the
    directories that were made on the way to the output directory.  A failure
    between two moves is not. -/

namespace GemBinder

open Files Template Text World

/-! ## Paths of a gem -/

/-- A written path that leads to a place behind the one it is taken from. -/
def Inner (s : String) : Prop :=
  (Path.ofString s).isAbsolute = false ∧ ".." ∉ (Path.ofString s).parts

instance (s : String) : Decidable (Inner s) := inferInstanceAs (Decidable (_ ∧ _))

/-- **NAMES THAT STAY INSIDE**: the names that a configuration gives to files
    and directories of a gem do not lead out of it. -/
structure GemConfig.Contained (c : GemConfig) : Prop where
  platform : Inner c.platform
  bindings : Inner c.bindingsFile
  wrapper : Inner c.wrapperFile
  mrblib : Inner c.mrblibFile

theorem contained_default : ({} : GemConfig).Contained :=
  ⟨by decide, by decide, by decide, by decide⟩

/-- A path that leads onward from another. -/
def Behind (root p : Path) : Prop :=
  ∃ names, Onward names ∧ p = { root with parts := root.parts ++ names }

theorem child_eq {s : String} (h : Inner s) (p : Path) :
    p.child s = { p with parts := p.parts ++ (Path.ofString s).parts } := by
  rw [Path.child, Path.join, h.1]
  rfl

theorem Behind.child {root p : Path} {s : String} (h : Behind root p) (hs : Inner s) :
    Behind root (p.child s) := by
  obtain ⟨names, hon, rfl⟩ := h
  refine ⟨names ++ (Path.ofString s).parts, ⟨by simp [hon.some], ?_, ?_⟩, ?_⟩
  · intro hmem
    rcases List.mem_append.mp hmem with hmem | hmem
    · exact hon.forward hmem
    · exact hs.2 hmem
  · intro s' hmem
    refine hon.shown s' ?_
    rwa [List.head?_append_of_ne_nil _ hon.some] at hmem
  · rw [child_eq hs, List.append_assoc]

/-- A name of one step that shows. -/
theorem behind_child (root : Path) {s : String} (hs : Path.ofString s = ⟨"", [s]⟩)
    (hback : s ≠ "..") (hshown : ¬ Hidden s) : Behind root (root.child s) := by
  have hinner : Inner s := by
    rw [Inner, hs]
    exact ⟨rfl, by simpa using Ne.symm hback⟩
  refine ⟨[s], ⟨by simp, by simpa using Ne.symm hback, ?_⟩, ?_⟩
  · intro s' hmem
    cases hmem
    exact hshown
  · rw [child_eq hinner, hs]

namespace RunSettings

theorem behind_bindingsDir (s : RunSettings) : Behind s.outputDir s.bindingsDir :=
  behind_child _ (by decide) (by decide) (by decide)

theorem behind_mrblibDir (s : RunSettings) : Behind s.outputDir s.mrblibDir :=
  behind_child _ (by decide) (by decide) (by decide)

theorem behind_nativeDir {s : RunSettings} (hs : s.config.Contained) :
    Behind s.outputDir s.nativeDir :=
  (behind_child _ (by decide) (by decide) (by decide)).child hs.platform

end RunSettings

namespace GemWriter

/-- The files that a run writes: the sources, the files from templates and
    the manifest. -/
def paths (g : GemWriter) (root : Path) : List Path :=
  let s := g.settings.under root
  [s.bindingsDir.child s.config.bindingsFile, s.nativeDir.child s.config.wrapperFile] ++
    (g.under root).templateFiles.map (·.2) ++ [root.child "manifest.json"]

/-- **THE FILES OF A GEM ARE BELOW ITS DIRECTORY**, each behind a name that
    shows. -/
theorem behind_of_mem_paths {g : GemWriter} (hg : g.settings.config.Contained) {root p : Path}
    (hp : p ∈ g.paths root) : Behind root p := by
  have hlast : ∀ s ∈ ["mrbgem.rake", "CMakeLists.txt", "README.md", "manifest.json"],
      Behind root (root.child s) := by
    intro s hs
    simp only [List.mem_cons, List.not_mem_nil, or_false] at hs
    rcases hs with rfl | rfl | rfl | rfl
    all_goals exact behind_child _ (by decide) (by decide) (by decide)
  simp only [paths, templateFiles, List.map_cons, List.map_nil, List.cons_append, List.nil_append,
    List.mem_cons, List.not_mem_nil, or_false] at hp
  rcases hp with rfl | rfl | rfl | rfl | rfl | rfl | rfl
  · exact (g.settings.under root).behind_bindingsDir.child hg.bindings
  · exact (RunSettings.behind_nativeDir (s := g.settings.under root) hg).child hg.wrapper
  · exact hlast _ (by simp)
  · exact hlast _ (by simp)
  · exact hlast _ (by simp)
  · exact (g.settings.under root).behind_mrblibDir.child hg.mrblib
  · exact hlast _ (by simp)

theorem behind_of_mem_directories {g : GemWriter} (hg : g.settings.config.Contained)
    {root p : Path} (hp : p ∈ (g.settings.under root).directories) : p = root ∨ Behind root p := by
  simp only [RunSettings.directories, List.mem_cons, List.not_mem_nil, or_false] at hp
  rcases hp with rfl | rfl | rfl | rfl
  · exact .inl rfl
  · exact .inr (g.settings.under root).behind_mrblibDir
  · exact .inr (g.settings.under root).behind_bindingsDir
  · exact .inr (RunSettings.behind_nativeDir (s := g.settings.under root) hg)

end GemWriter

/-! ## What the steps keep -/

namespace Step

variable {α : Type} {workDir : Place} {P : FileTree → Prop}

theorem keeps_reporting {report : DiskError → Report} {x : Step α} (h : Keeps (Site workDir P) x) :
    Keeps (Site workDir P) (reporting report x) := by
  refine h.tryCatch fun f => ?_
  cases f with
  | disk e => exact Keeps.throw _
  | _ => exact Keeps.throw _

/-- A file that is written, or only told in a dry run. -/
theorem keeps_writeText {dryRun : Bool} {p : Path} (text : String)
    (h : dryRun = false → ∀ token content, Keeps P (Disk.writeAtomically workDir token p content)) :
    Keeps (Site workDir P) (writeText dryRun p text) := by
  cases dryRun with
  | true => exact keeps_info _
  | false =>
      refine (keeps_reporting ?_).bind fun _ => keeps_debug _
      exact Keeps.get_bind fun w hw => keeps_disk (h rfl w.token _) w hw

theorem keeps_cSource (g : Generator) (classes : List ClassDecl) :
    Keeps (Site workDir P) (cSource g classes) := by
  refine (Keeps.forIn _ _ fun r _ _ => ?_).bind fun _ => keeps_ofAttempt _
  exact (keeps_warning _).bind fun _ => Keeps.pure _

theorem keeps_nativeSource (g : Generator) (classes : List ClassDecl) :
    Keeps (Site workDir P) (nativeSource g classes) := by
  refine (Keeps.forIn _ _ fun notice _ _ => ?_).bind fun _ => keeps_ofAttempt _
  exact (keeps_debug _).bind fun _ => Keeps.pure _

theorem keeps_render (l : Library) (env : Env) (past : List Filled) (name : String) :
    Keeps (Site workDir P) (l.render env past name) :=
  (keeps_look _).bind fun _ => keeps_ofAttempt _

theorem keeps_select (registry : Registry) (rules : TypeRules) (classes : List ClassDecl) :
    Keeps (Site workDir P) (select registry rules classes) := by
  refine (Keeps.forIn _ _ fun e _ _ => ?_).bind fun _ => keeps_ofAttempt _
  exact (keeps_tellEntry e).bind fun _ => Keeps.pure _

/-- A selection ends as it does without a journal. -/
theorem outcome_select (registry : Registry) (rules : TypeRules) (classes : List ClassDecl)
    (w : World) :
    ∃ w', outcome (select registry rules classes) w =
      (selectMethods registry rules classes, w') := by
  rw [select, outcome_bind_of_ok (outcome_tellEntries _ w), outcome_ofAttempt]
  exact ⟨_, rfl⟩

end Step

namespace GemWriter

variable {workDir : Place} {P : FileTree → Prop}

/-- The directories of a gem keep what each of them keeps. -/
theorem keeps_makeDirectories {g : GemWriter}
    (hdirs : g.settings.isDryRun = false →
      ∀ p ∈ g.settings.directories, Keeps P (Disk.ensureDirectory workDir p)) :
    Keeps (Site workDir P) g.makeDirectories := by
  rw [makeDirectories]
  split
  · exact Keeps.pure _
  · next hdry =>
      have hwet : g.settings.isDryRun = false := Bool.eq_false_iff.mpr hdry
      refine (Keeps.forIn _ _ fun p hp _ => ?_).bind fun _ => Keeps.pure _
      have hp' : Keeps (Site workDir P) (Step.ensureDirectory p) :=
        Step.keeps_disk (d := fun place => Disk.ensureDirectory place p) (hdirs hwet p hp)
      exact hp'.bind fun _ => Keeps.pure _

/-- A row of files keeps what each of them keeps. -/
theorem keeps_writeRow {dry : Bool} (l : Library) (env : Env) (past : List Filled)
    {files : List (String × Path)}
    (hfiles : ∀ file ∈ files, ∀ text, Keeps (Site workDir P) (Step.writeText dry file.2 text)) :
    Keeps (Site workDir P) (writeRow dry l env past files) := by
  induction files generalizing past with
  | nil => exact Keeps.pure _
  | cons file files ih =>
      obtain ⟨hfirst, hmore⟩ := List.forall_mem_cons.mp hfiles
      exact (Step.keeps_render l env past file.1).bind fun filled =>
        (hfirst filled.1).bind fun _ => ih _ hmore

/-- **WRITING A GEM** keeps what each directory and each file of it keeps.
    In a dry run there are none. -/
theorem keeps_writeFiles {g : GemWriter} {root : Path} (classes : List ClassDecl)
    (enums : List EnumDecl) (stats : Stats)
    (hdirs : g.settings.isDryRun = false →
      ∀ p ∈ (g.settings.under root).directories, Keeps P (Disk.ensureDirectory workDir p))
    (hfiles : g.settings.isDryRun = false →
      ∀ p ∈ g.paths root, ∀ token content,
        Keeps P (Disk.writeAtomically workDir token p content)) :
    Keeps (Site workDir P) (g.writeFiles root classes enums stats) := by
  have hwrite : ∀ p ∈ g.paths root, ∀ text,
      Keeps (Site workDir P) (Step.writeText g.settings.isDryRun p text) :=
    fun p hp text => Step.keeps_writeText text fun hdry => hfiles hdry p hp
  have hmake : Keeps (Site workDir P) (g.under root).makeDirectories :=
    keeps_makeDirectories hdirs
  have hsources : Keeps (Site workDir P) ((g.under root).writeSources classes stats) := by
    refine (Step.keeps_cSource _ _).bind fun c => (hwrite _ ?_ c).bind fun _ =>
      (Step.keeps_nativeSource _ _).bind fun n => (hwrite _ ?_ n).bind fun _ => Keeps.pure _
    · exact List.mem_append_left _ (List.mem_append_left _ List.mem_cons_self)
    · exact List.mem_append_left _
        (List.mem_append_left _ (List.mem_cons_of_mem _ List.mem_cons_self))
  have htemplates : ∀ view, Keeps (Site workDir P) ((g.under root).writeTemplates view) := by
    intro view
    refine keeps_writeRow _ _ _ fun file hfile text => hwrite file.2 ?_ text
    exact List.mem_append_left _
      (List.mem_append_right _ (List.mem_map.mpr ⟨file, hfile, rfl⟩))
  have hmanifest : ∀ stats, Keeps (Site workDir P)
      (Step.writeManifest g.invocation g.settings classes stats root) := by
    intro stats
    refine Step.keeps_now.bind fun time => Keeps.get_bind fun w hw => ?_
    exact hwrite _ (List.mem_append_right _ List.mem_cons_self) _ w hw
  -- the manifest is written last, if at all
  refine hmake.bind fun _ => hsources.bind fun stats' => (htemplates _).bind fun _ => ?_
  split
  · exact (hmanifest stats').bind fun _ => Keeps.pure _
  · exact Keeps.pure _

/-- A gem that has been written: its directories were made, then its sources
    and its files from templates were written, and last its manifest, if it
    has one. -/
theorem exists_of_writeFiles {g : GemWriter} {root : Path} {classes : List ClassDecl}
    {enums : List EnumDecl} {stats stats' : Stats} {w w' : World}
    (h : outcome (g.writeFiles root classes enums stats) w = (.ok stats', w')) :
    ∃ w₁ w₂ w₃, outcome (g.under root).makeDirectories w = (.ok (), w₁) ∧
      outcome ((g.under root).writeSources classes stats) w₁ = (.ok stats', w₂) ∧
      outcome ((g.under root).writeTemplates
        ⟨g.settings.config, classes, topLevelEnums classes enums, stats'⟩) w₂ = (.ok (), w₃) ∧
      (w' = w₃ ∨ outcome (Step.writeManifest g.invocation g.settings classes stats' root) w₃ =
        (.ok (), w')) := by
  rw [writeFiles] at h
  obtain ⟨_, w₁, hmake, h⟩ := outcome_bind_eq_ok.mp h
  obtain ⟨stats₁, w₂, hsources, h⟩ := outcome_bind_eq_ok.mp h
  obtain ⟨_, w₃, htemplates, h⟩ := outcome_bind_eq_ok.mp h
  split at h
  · obtain ⟨_, w₄, hmanifest, h⟩ := outcome_bind_eq_ok.mp h
    cases h
    exact ⟨w₁, w₂, w₃, hmake, hsources, htemplates, .inr hmanifest⟩
  · cases h
    exact ⟨w₁, w₂, _, hmake, hsources, htemplates, .inl rfl⟩

/-- In a dry run the tree is left alone. -/
theorem keeps_writeFiles_of_dryRun {g : GemWriter} (hdry : g.settings.isDryRun = true)
    (root : Path) (classes : List ClassDecl) (enums : List EnumDecl) (stats : Stats) :
    Keeps (Site workDir P) (g.writeFiles root classes enums stats) := by
  refine keeps_writeFiles classes enums stats ?_ ?_
  · intro hwet
    rw [hdry] at hwet
    exact nomatch hwet
  · intro hwet
    rw [hdry] at hwet
    exact nomatch hwet

/-- Below a scratch directory, writing a gem leaves a draft. -/
theorem keeps_draft {g : GemWriter} (hg : g.settings.config.Contained) {base : FileTree}
    {target staging : Path} {directory : Place} {name : String}
    (hs : Scratch base workDir target staging directory name) (classes : List ClassDecl)
    (enums : List EnumDecl) (stats : Stats) :
    Keeps (Site workDir (Draft base (directory ++ [name])))
      (g.writeFiles staging classes enums stats) := by
  refine keeps_writeFiles classes enums stats ?_ ?_
  · intro _ p hp
    rcases behind_of_mem_directories hg hp with rfl | ⟨names, hon, rfl⟩
    · have h := hs.keeps_ensureDirectory (List.not_mem_nil : ".." ∉ ([] : List String)) nofun
      rwa [List.append_nil] at h
    · exact hs.keeps_ensureDirectory hon.forward hon.shown
  · intro _ p hp token content
    obtain ⟨names, hon, rfl⟩ := behind_of_mem_paths hg hp
    exact hs.keeps_writeAtomically hon

/-! ## Failed runs -/

/-- The work of a run on a directory: all files are written, and a failure is
    told. -/
def work (g : GemWriter) (classes : List ClassDecl) (enums : List EnumDecl) (stats : Stats)
    (root : Path) : Step Stats := do
  try g.writeFiles root classes enums stats
  catch f =>
    Step.failed
      s!"Failed to generate mrbgem under {g.settings.outputDir}; nothing was written" f
    throw f

variable {g : GemWriter} {classes : List ClassDecl} {enums : List EnumDecl} {w w' : World}

theorem keeps_work {retained : List ClassDecl} {stats : Stats} {root : Path}
    (h : Keeps (Site workDir P) (g.writeFiles root retained enums stats)) :
    Keeps (Site workDir P) (g.work retained enums stats root) :=
  h.tryCatch fun f => (Step.keeps_failed _ f).bind fun _ => Keeps.throw f

/-- The work ends well just when all files have been written. -/
theorem outcome_work_eq_ok {retained : List ClassDecl} {stats stats' : Stats} {root : Path} :
    outcome (g.work retained enums stats root) w = (.ok stats', w') ↔
      outcome (g.writeFiles root retained enums stats) w = (.ok stats', w') := by
  rcases h : outcome (g.writeFiles root retained enums stats) w with ⟨r, v⟩
  cases r with
  | ok stats'' => rw [work, outcome_tryCatch_of_ok h]
  | error f =>
      rw [work, outcome_tryCatch_of_error h]
      constructor
      · intro hfailed
        exact nomatch congrArg Prod.fst hfailed
      · intro hok
        exact nomatch congrArg Prod.fst hok

theorem run_eq (g : GemWriter) (classes : List ClassDecl) (enums : List EnumDecl) :
    g.run classes enums = do
      let (retained, stats) ← Step.select g.registry g.rules classes
      let target := g.settings.outputDir
      let stats ← Step.staged g.settings.isDryRun target (g.work retained enums stats)
      Step.info
        (s!"Generated {stats.generatedCount} method(s), filtered {stats.filteredCount}, " ++
          s!"skipped {stats.skippedCount}, overridden {stats.overriddenCount} under: {target}")
      return stats := by
  rfl

/-- A run that ends well has made a selection, has laid its files over the
    output directory, and has told so. -/
theorem exists_staged_of_run {stats' : Stats}
    (h : outcome (g.run classes enums) w = (.ok stats', w')) :
    ∃ retained stats w₀ w₁ message,
      selectMethods g.registry g.rules classes = .ok (retained, stats) ∧
      outcome (Step.select g.registry g.rules classes) w = (.ok (retained, stats), w₀) ∧
      outcome (Step.staged g.settings.isDryRun g.settings.outputDir
        (g.work retained enums stats)) w₀ = (.ok stats', w₁) ∧
      outcome (Step.info message) w₁ = (.ok (), w') := by
  rw [run_eq] at h
  obtain ⟨⟨retained, stats⟩, w₀, hselect, h⟩ := outcome_bind_eq_ok.mp h
  obtain ⟨stats₁, w₁, hstaged, h⟩ := outcome_bind_eq_ok.mp h
  obtain ⟨_, w₂, hinfo, h⟩ := outcome_bind_eq_ok.mp h
  obtain rfl := Except.ok.inj (congrArg Prod.fst h)
  obtain rfl : w₂ = w' := congrArg Prod.snd h
  obtain ⟨_, hsame⟩ := Step.outcome_select g.registry g.rules classes w
  exact ⟨retained, stats, w₀, w₁, _, congrArg Prod.fst (hsame.symm.trans hselect), hselect,
    hstaged, hinfo⟩

/-- The files of a gem have been written below a scratch directory and wait
    there to be moved. -/
def Drafts (g : GemWriter) (classes : List ClassDecl) (enums : List EnumDecl) (w : World)
    (staging : Path) (w' : World) : Prop :=
  ∃ retained stats stats' w₀ w₁,
    outcome (Step.select g.registry g.rules classes) w = (.ok (retained, stats), w₀) ∧
    outcome (Step.openStaging g.settings.outputDir) w₀ = (.ok staging, w₁) ∧
    outcome (g.writeFiles staging retained enums stats) w₁ = (.ok stats', w')

/-- **WHAT A FAILED RUN LEAVES**: the tree is the same as before, directories
    included, just when nothing could be written, in a dry run or without a
    selection, or when no directory was made on the way to the output
    directory and the commit, if it was come to, was stuck at its first
    move. -/
theorem failed_run_same_iff (hw : w.Sound) (hg : g.settings.config.Contained)
    (hforward : g.settings.outputDir.name ≠ "..") {f : Failure}
    (h : outcome (g.run classes enums) w = (.error f, w')) :
    w'.tree.Same w.tree ↔
      g.settings.isDryRun = true ∨
      (∃ f, selectMethods g.registry g.rules classes = .error f) ∨
      ((outcome (Disk.ensureDirectory w.workDir g.settings.outputDir.parent) w.tree).2.Same w.tree ∧
        ∀ staging w₂, g.Drafts classes enums w staging w₂ →
          Step.Stuck w.workDir staging g.settings.outputDir w₂.tree) := by
  have hsite : w.Site w.workDir (· = w.tree) := ⟨rfl, rfl, hw.onConsole⟩
  obtain ⟨w₀, hselect⟩ := Step.outcome_select g.registry g.rules classes w
  have hsite₀ : w₀.Site w.workDir (· = w.tree) := by
    have hkept := Step.keeps_select g.registry g.rules classes w hsite
    rwa [hselect] at hkept
  -- a selection only tells, so that the tree is still the old one behind it
  rw [run_eq] at h
  cases hchosen : selectMethods g.registry g.rules classes with
  | error f' =>
      rw [hchosen] at hselect
      rw [outcome_bind_of_error hselect] at h
      cases h
      have hsame : w'.tree.Same w.tree := by
        rw [hsite₀.files]
        exact FileTree.Same.refl _
      exact iff_of_true hsame (.inr (.inl ⟨_, rfl⟩))
  | ok chosen =>
      obtain ⟨retained, stats⟩ := chosen
      rw [hchosen] at hselect
      rw [outcome_bind_of_ok hselect] at h
      have hstaged : outcome (Step.staged g.settings.isDryRun g.settings.outputDir
          (g.work retained enums stats)) w₀ = (.error f, w') := by
        rcases outcome_bind_eq_error.mp h with hstaged | ⟨a, v, -, hlast⟩
        · exact hstaged
        · exact nomatch congrArg Prod.fst hlast
      cases hdry : g.settings.isDryRun with
      | true =>
          rw [hdry] at hstaged
          have hkept := keeps_work (keeps_writeFiles_of_dryRun hdry g.settings.outputDir retained
            enums stats) w₀ hsite₀
          rw [show outcome (g.work retained enums stats g.settings.outputDir) w₀ = _ from hstaged]
            at hkept
          have hsame : w'.tree.Same w.tree := by
            rw [hkept.files]
            exact FileTree.Same.refl _
          exact iff_of_true hsame (.inl rfl)
      | false =>
          rw [hdry] at hstaged
          have htree := hsite₀.files
          have hplace := hsite₀.workDir
          -- here the run is a staged one, and its work leaves a draft
          have hiff := Step.staged_same_iff (by rw [htree]; exact hw.wellFormed)
            (by rw [htree, hplace]; exact hw.working) hsite₀.onConsole hforward rfl
            (fun hs => keeps_work (keeps_draft hg hs retained enums stats)) hstaged
          rw [htree, hplace] at hiff
          rw [hiff]
          constructor
          · rintro ⟨hway, hstuck⟩
            refine .inr (.inr ⟨hway, ?_⟩)
            rintro staging w₂ ⟨retained', stats', stats'', v₀, w₁, hsel', hopen, hwritten⟩
            -- a run has one selection, so the drafts are those of this run
            cases hselect.symm.trans hsel'
            exact hstuck staging w₁ stats'' w₂ hopen (outcome_work_eq_ok.mpr hwritten)
          · rintro (hfalse | ⟨f', hf'⟩ | ⟨hway, hstuck⟩)
            · exact nomatch hfalse
            · exact nomatch hf'
            · refine ⟨hway, ?_⟩
              intro staging w₁ stats' w₂ hopen hdone
              exact hstuck staging w₂ ⟨retained, stats, stats', w₀, w₁, hselect, hopen,
                outcome_work_eq_ok.mp hdone⟩

/-! ## A directory in the way -/

/-- A world with a directory where the stub of a gem has to go. -/
def blockedWorld : World where
  tree := ((({} : FileTree).put ["out"] .directory).put ["out", "mrblib"] .directory).put
    ["out", "mrblib", "m5unified.rb"] .directory

/-- A writer of a gem in a directory, with one template for all files. -/
def writerTo (p : Path) : GemWriter where
  settings := { outputDir := p }
  library := {}
  templates :=
    { cmake := "mrbgem.rake.j2", readme := "mrbgem.rake.j2", mrblib := "mrbgem.rake.j2" }

theorem sound_blockedWorld : blockedWorld.Sound where
  wellFormed := by
    have hroot : ({} : FileTree).at? [] = some .directory := rfl
    have hout : (({} : FileTree).put ["out"] .directory).WellFormed :=
      FileTree.WellFormed.empty.put hroot (by decide) (.inl rfl)
    have hmrblib : ((({} : FileTree).put ["out"] .directory).put (["out"] ++ ["mrblib"])
        .directory).WellFormed := hout.put rfl (by decide) (.inl rfl)
    have hstub : (((({} : FileTree).put ["out"] .directory).put (["out"] ++ ["mrblib"])
        .directory).put (["out", "mrblib"] ++ ["m5unified.rb"]) .directory).WellFormed :=
      hmrblib.put rfl (by decide) (.inl rfl)
    exact hstub
  working := rfl
  onConsole := fun _ h => absurd h List.not_mem_nil

/-- The commit stops at the directory, when four files have been moved; they
    stay where they are. -/
theorem failed_run_blocked :
    ∃ f w', outcome ((writerTo ⟨"", ["out"]⟩).run [] []) blockedWorld = (.error f, w') ∧
      (∀ name ∈ ["CMakeLists.txt", "README.md", "manifest.json", "mrbgem.rake"],
        blockedWorld.tree.at? ["out", name] = none ∧
          (w'.tree.at? ["out", name]).isSome = true) ∧
      ¬ w'.tree.Same blockedWorld.tree ∧
      ∃ staging w₂, (writerTo ⟨"", ["out"]⟩).Drafts [] [] blockedWorld staging w₂ ∧
        ¬ Step.Stuck [] staging ⟨"", ["out"]⟩ w₂.tree := by
  have hend : (let r := outcome ((writerTo ⟨"", ["out"]⟩).run [] []) blockedWorld
      r.1.isOk == false && ["CMakeLists.txt", "README.md", "manifest.json", "mrbgem.rake"].all
        fun name => (r.2.tree.at? ["out", name]).isSome) = true := by
    -- the moves are sorted by insertion
    simp only [run_eq, Step.staged, Step.commit, Step.filesBelow, mergeSort_namesLe]
    decide +kernel
  rw [Bool.and_eq_true, beq_iff_eq, List.all_eq_true] at hend
  obtain ⟨f, hrun⟩ := outcome_eq_error hend.1
  have hmoved : ∀ name ∈ ["CMakeLists.txt", "README.md", "manifest.json", "mrbgem.rake"],
      blockedWorld.tree.at? ["out", name] = none := by decide
  have hchanged : ¬ (outcome ((writerTo ⟨"", ["out"]⟩).run [] []) blockedWorld).2.tree.Same
      blockedWorld.tree := by
    intro hsame
    have hrake := hend.2 "mrbgem.rake" (by decide)
    rw [hsame, hmoved "mrbgem.rake" (by decide)] at hrake
    exact Bool.false_ne_true hrake
  refine ⟨f, _, hrun, fun name hname => ⟨hmoved name hname, hend.2 name hname⟩, hchanged, ?_⟩
  have hiff := failed_run_same_iff sound_blockedWorld contained_default (by decide) hrun
  rw [hiff, not_or, not_or] at hchanged
  -- no directory was made on the way, so the first move did change something
  by_contra hstuck
  refine hchanged.2.2 ⟨FileTree.Same.refl _, fun staging w₂ hdraft => ?_⟩
  by_contra hmove
  exact hstuck ⟨staging, w₂, hdraft, hmove⟩

/-- If a template cannot be found, the directory that was made on the way to
    the output directory is left. -/
theorem failed_run_leaves_directory :
    let g := { writerTo ⟨"", ["new", "gem"]⟩ with templates := { rake := "missing.rake.j2" } }
    let w' := outcome (g.run [] []) blockedWorld
    w'.1.isOk = false ∧ blockedWorld.tree.at? ["new"] = none ∧
      w'.2.tree.at? ["new"] = some .directory := by
  decide +kernel

end GemWriter
end GemBinder
