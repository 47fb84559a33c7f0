import GemBinder.Proofs.Files.Locality
import GemBinder.Proofs.Files.Order
import GemBinder.Proofs.Generation

/-! # Dry runs

    A dry run does all that a run does, apart from changing files.  It reads
    the same templates as long as the run does not read what it has written
    itself, so it foretells the statistics of a run that ends well. -/

namespace GemBinder

open Files Template Text World

/-! ## Trees to which a run has added -/

namespace Files

/-- **A TREE WITH FILES ADDED** at some places: elsewhere it has gained
    directories and is otherwise as it was. -/
structure Added (base : FileTree) (places : List Place) (t : FileTree) : Prop where
  wellFormed : t.WellFormed
  holds : base.Holds t
  elsewhere : ∀ q, q ∉ places →
    t.at? q = base.at? q ∨ (base.at? q = none ∧ t.at? q = some .directory)

namespace Added

variable {base t t' u : FileTree} {places : List Place} {workDir : Place} {p : Path}

theorem refl (hbase : base.WellFormed) : Added base [] base :=
  ⟨hbase, FileTree.Holds.refl base, fun _ _ => .inl rfl⟩

theorem gains (ht : Added base places t) (hu : u.WellFormed) (hgains : t.Gains u) :
    Added base places u where
  wellFormed := hu
  holds := ht.holds.trans hgains.holds
  elsewhere := by
    intro q hq
    rcases ht.elsewhere q hq with hsame | ⟨hnone, hdir⟩
    · rw [← hsame]
      exact hgains q
    · exact .inr ⟨hnone, hgains.holds q hdir⟩

/-- Where no file was added, the files are those that were there. -/
theorem file_iff (ht : Added base places t) {q : Place} (hq : q ∉ places) {content : Bytes} :
    t.at? q = some (.file content) ↔ base.at? q = some (.file content) := by
  rcases ht.elsewhere q hq with hsame | ⟨hnone, hdir⟩
  · rw [hsame]
  · rw [hnone, hdir]
    simp

theorem ensureDirectory (hwork : base.at? workDir = some .directory) :
    Keeps (Added base places) (Disk.ensureDirectory workDir p) := by
  intro t ht
  exact ht.gains (Disk.ensureDirectory_wellFormed ht.wellFormed (ht.holds _ hwork))
    (Disk.ensureDirectory_gains workDir p t)

/-- A file that gets its place is added there. -/
theorem writeAtomically (hwork : base.at? workDir = some .directory)
    (ht : Added base places t) {token : String} {content : Bytes}
    (h : outcome (Disk.writeAtomically workDir token p content) t = (.ok (), t')) :
    Added base (p.resolve workDir :: places) t' := by
  have hu := ensureDirectory (p := p.parent) hwork t ht
  obtain ⟨hwf, hend⟩ := Disk.outcome_writeAtomically ht.wellFormed (ht.holds _ hwork) rfl h
  generalize (outcome (Disk.ensureDirectory workDir p.parent) t).2 = u at *
  rcases hend with ⟨e, herror, -⟩ | ⟨place, -, hl, hplace, same⟩
  · exact nomatch herror
  · obtain rfl := FileTree.eq_resolve_of_locate hl
    have hne : p.resolve workDir ≠ [] := by
      intro hnil
      rw [hnil] at hplace
      exact hplace rfl
    refine ⟨hwf, ?_, ?_⟩
    · intro q hq
      rw [same, FileTree.at?_put_of_ne hne, hu.holds q hq]
      rintro rfl
      exact hplace (hu.holds _ hq)
    · intro q hq
      rw [List.mem_cons, not_or] at hq
      rw [same, FileTree.at?_put_of_ne hne hq.1]
      exact hu.elsewhere q hq.2

end Added
end Files

/-! ## Templates that are found -/

/-- **AN ENGINE GOES BY WHAT IT IS ANSWERED**: where the names that it asks for
    give the same, it does the same. -/
theorem Template.Rendering.run_congr {find find' : String → Found} (r : Rendering)
    (h : ∀ name ∈ (r.run find).2.map (·.1), find' name = find name) :
    r.run find' = r.run find := by
  induction r with
  | done result => rfl
  | ask name next ih =>
      rw [run, List.map_cons, List.forall_mem_cons] at h
      rw [run, run, h.1, ih (find name) h.2]

namespace Template.Library

variable {l : Library} {base t : FileTree} {places : List Place} {workDir : Place} {name : String}
  {steps : List String}

theorem forward_of_nameSteps (h : nameSteps? name = some steps) : ".." ∉ steps := by
  rw [nameSteps?] at h
  split at h
  · exact nomatch h
  · next hback =>
      obtain rfl := Option.some.inj h
      intro hmem
      exact hback (List.contains_iff_mem.mpr (List.mem_filter.mp hmem).1)

/-- **A TEMPLATE IS SPARED** by files at some places: none of them is the file
    of the user that it is read from. -/
def Spares (l : Library) (workDir : Place) (places : List Place) (name : String) : Prop :=
  ∀ steps ∈ nameSteps? name, ∀ d ∈ l.userDirectory,
    ({ d with parts := d.parts ++ steps } : Path).resolve workDir ∉ places

instance : Decidable (l.Spares workDir places name) :=
  inferInstanceAs (Decidable (∀ steps ∈ nameSteps? name, ∀ d ∈ l.userDirectory,
    ({ d with parts := d.parts ++ steps } : Path).resolve workDir ∉ places))

theorem isFile_iff_read {p : Path} :
    t.isFile workDir p = true ↔ ∃ content, t.read workDir p = .ok content := by
  rw [FileTree.isFile_iff, exists_comm]
  simp only [FileTree.read_eq_ok]

/-- What is read behind a directory stays the same, unless a file was added
    there. -/
theorem read_eq_of_added (hbase : base.WellFormed) (ht : Added base places t) {d : Path}
    (hd : base.isDirectory workDir d = true) (hback : ".." ∉ steps)
    (hclear : ({ d with parts := d.parts ++ steps } : Path).resolve workDir ∉ places)
    (content : Bytes) :
    t.read workDir { d with parts := d.parts ++ steps } = .ok content ↔
      base.read workDir { d with parts := d.parts ++ steps } = .ok content := by
  obtain ⟨place, hl, -⟩ := FileTree.isDirectory_iff.mp hd
  rw [FileTree.read_behind ht.wellFormed (ht.holds.locate hl) hback,
    FileTree.read_behind hbase hl hback]
  rw [Path.resolve_append, ← FileTree.eq_resolve_of_locate hl,
    Path.normalizeFrom_of_forward hback] at hclear
  exact ht.file_iff hclear

/-- **A SPARED TEMPLATE IS FOUND AS BEFORE**. -/
theorem find_eq_of_added (hbase : base.WellFormed) (ht : Added base places t)
    (huser : ∀ d, l.userDirectory = some d → base.isDirectory workDir d = true)
    (hclear : l.Spares workDir places name) : l.find t workDir name = l.find base workDir name := by
  rw [find, find]
  cases hsteps : nameSteps? name with
  | none => rfl
  | some steps =>
      dsimp only
      rw [source?, source?]
      cases hdir : l.userDirectory with
      | none => rfl
      | some d =>
          have hread := read_eq_of_added hbase ht (huser d hdir) (forward_of_nameSteps hsteps)
            (hclear steps hsteps d hdir)
          simp only [Option.map_some]
          generalize ({ d with parts := d.parts ++ steps } : Path) = p at hread
          have hfile : t.isFile workDir p = base.isFile workDir p := by
            rw [Bool.eq_iff_iff, isFile_iff_read, isFile_iff_read]
            exact exists_congr hread
          by_cases hthere : base.isFile workDir p = true
          · obtain ⟨content, hcontent⟩ := isFile_iff_read.mp hthere
            simp only [Option.filter_some, hfile, hthere, if_true, fileText, hcontent,
              (hread content).mpr hcontent]
          · simp only [Option.filter_some, hfile, hthere, Bool.false_eq_true, if_false]

/-- The names that are looked up to fill in a template: its own, and those
    that the engine asks for. -/
def asks (l : Library) (t : FileTree) (workDir : Place) (env : Env) (past : List Filled)
    (name : String) : List String :=
  name :: match l.find t workDir name with
    | .ok (some source) =>
        ((l.engine.start env past name source).run (l.find t workDir)).2.map (·.1)
    | _ => []

/-- **A TEMPLATE IS FILLED IN AS BEFORE** by any engine, if all that is asked
    for is spared. -/
theorem fill_eq_of_added {env : Env} {past : List Filled} (hbase : base.WellFormed)
    (ht : Added base places t)
    (huser : ∀ d, l.userDirectory = some d → base.isDirectory workDir d = true)
    (hclear : ∀ n ∈ l.asks base workDir env past name, l.Spares workDir places n) :
    l.fill t workDir env past name = l.fill base workDir env past name := by
  have hfind : ∀ n ∈ l.asks base workDir env past name,
      l.find t workDir n = l.find base workDir n :=
    fun n hn => find_eq_of_added hbase ht huser (hclear n hn)
  rw [fill, fill, hfind name List.mem_cons_self]
  rw [asks] at hfind
  cases hsource : l.find base workDir name with
  | error f => rfl
  | ok source =>
      cases source with
      | none => rfl
      | some source =>
          rw [hsource] at hfind
          have hrun := Rendering.run_congr (l.engine.start env past name source)
            fun n hn => hfind n (List.mem_cons_of_mem _ hn)
          simp only [bind, Except.bind, hrun]

end Template.Library

/-! ## The two runs step by step -/

namespace Step

variable {workDir : Place} {base : FileTree} {places : List Place} {p : Path} {text : String}
  {w w' : World}

/-- The sources come out as they do without a journal. -/
theorem outcome_cSource (g : Generator) (classes : List ClassDecl) (w : World) :
    ∃ w', outcome (cSource g classes) w = (g.cSource classes, w') := by
  obtain ⟨w', h⟩ := exists_tellAll (f := fun r => warning (Generator.shadowNotice r))
    (fun _ _ => ⟨_, rfl⟩) (g.plan classes).shadowed w
  refine ⟨w', ?_⟩
  rw [cSource, outcome_bind_of_ok h, outcome_ofAttempt]

theorem outcome_nativeSource (g : Generator) (classes : List ClassDecl) (w : World) :
    ∃ w', outcome (nativeSource g classes) w = (g.nativeSource classes, w') := by
  obtain ⟨w', h⟩ := exists_tellAll (f := fun notice => debug notice) (fun _ _ => ⟨_, rfl⟩)
    (g.duplicateNotices [] (membersOf classes)) w
  refine ⟨w', ?_⟩
  rw [nativeSource, outcome_bind_of_ok h, outcome_ofAttempt]

/-- A file that is written is added where its path leads. -/
theorem added_writeText (hwork : base.at? workDir = some .directory)
    (hw : w.Site workDir (Added base places))
    (h : outcome (writeText false p text) w = (.ok (), w')) :
    w'.Site workDir (Added base (p.resolve workDir :: places)) :=
  site_of_writeText hw (fun hdisk => hw.files.writeAtomically hwork hdisk) h

/-- Behind an opened scratch directory no file is added yet. -/
theorem added_openStaging {target staging : Path} (hw : w.Sound)
    (h : outcome (openStaging target) w = (.ok staging, w')) :
    w'.Site w.workDir (Added w.tree []) := by
  obtain ⟨u, directory, name, hgains, hb, -, -, -, rfl⟩ := opened_beside hw h
  have hnew : u.Gains (u.put (directory ++ [name]) .directory) := by
    intro q
    by_cases hq : q = directory ++ [name]
    · subst hq
      exact .inr ⟨hb.free, FileTree.at?_put_self (by simp)⟩
    · exact .inl (FileTree.at?_put_of_ne (by simp) hq)
  exact ⟨(Added.refl hw.wellFormed).gains hb.laid_start.wellFormed (hgains.trans hnew), rfl,
    hw.onConsole⟩

/-- In a dry run a file is only told of. -/
theorem exists_writeText_dry (p : Path) (text : String) (w : World) :
    ∃ w', outcome (writeText true p text) w = (.ok (), w') := ⟨_, rfl⟩

end Step

namespace Template.Library

theorem outcome_render (l : Library) (env : Env) (past : List Filled) (name : String) (w : World) :
    outcome (l.render env past name) w = (l.fill w.tree w.workDir env past name, w) := by
  rw [render, outcome_bind_of_ok (show outcome (Step.look _) w = (.ok _, w) from rfl),
    Step.outcome_ofAttempt]

end Template.Library

namespace GemWriter

variable {g : GemWriter} {workDir : Place} {base : FileTree} {places : List Place}
  {w w' v v' : World}

/-- The same writer, in a dry run or not. -/
def withDryRun (g : GemWriter) (dry : Bool) : GemWriter :=
  { g with settings := { g.settings with isDryRun := dry } }

/-- **TEMPLATES THAT ARE SPARED** in a row: what is looked up to fill in each
    of them is spared by the files that were written before.  It may be looked
    up among the files that were there at first, since up to what is not spared
    both ways find the same. -/
def SparesFrom (l : Library) (t : FileTree) (workDir : Place) (env : Env) :
    List Filled → List Place → List (String × Path) → Prop
  | _, _, [] => True
  | past, places, (name, p) :: more =>
      (∀ n ∈ l.asks t workDir env past name, l.Spares workDir places n) ∧
        match l.fill t workDir env past name with
        | .error _ => True
        | .ok (_, filled) =>
            SparesFrom l t workDir env (past ++ [filled]) (p.resolve workDir :: places) more

instance decidableSparesFrom (l : Library) (t : FileTree) (workDir : Place) (env : Env) :
    ∀ past places files, Decidable (SparesFrom l t workDir env past places files)
  | _, _, [] => isTrue trivial
  | past, places, (name, p) :: more =>
      match h : l.fill t workDir env past name with
      | .error _ => decidable_of_iff (∀ n ∈ l.asks t workDir env past name,
          l.Spares workDir places n) (by simp [SparesFrom, h])
      | .ok (_, filled) =>
          have := decidableSparesFrom l t workDir env (past ++ [filled])
            (p.resolve workDir :: places) more
          decidable_of_iff ((∀ n ∈ l.asks t workDir env past name, l.Spares workDir places n) ∧
            SparesFrom l t workDir env (past ++ [filled]) (p.resolve workDir :: places) more)
            (by simp [SparesFrom, h])

/-- The first file of a row, and the others behind it. -/
theorem outcome_writeRow_cons_eq_ok {dry : Bool} {l : Library} {name : String} {p : Path}
    {files : List (String × Path)} {env : Env} {past : List Filled} :
    outcome (writeRow dry l env past ((name, p) :: files)) w = (.ok (), w') ↔
      ∃ text filled w₁, l.fill w.tree w.workDir env past name = .ok (text, filled) ∧
        outcome (Step.writeText dry p text) w = (.ok (), w₁) ∧
        outcome (writeRow dry l env (past ++ [filled]) files) w₁ = (.ok (), w') := by
  have hrender := Library.outcome_render l env past name w
  rw [writeRow, outcome_bind_eq_ok]
  constructor
  · rintro ⟨⟨text, filled⟩, w₀, hfilled, hrest⟩
    obtain ⟨htext, rfl⟩ := Prod.mk.inj (hrender.symm.trans hfilled)
    obtain ⟨_, w₁, hwrite, hmore⟩ := outcome_bind_eq_ok.mp hrest
    exact ⟨text, filled, w₁, htext, hwrite, hmore⟩
  · rintro ⟨text, filled, w₁, hfilled, hwrite, hmore⟩
    rw [hfilled] at hrender
    exact ⟨(text, filled), w, hrender, outcome_bind_eq_ok.mpr ⟨(), w₁, hwrite, hmore⟩⟩

/-- A row of files that is written can be told of in a dry run. -/
theorem exists_writeRow_dry {l : Library} {env : Env} {past : List Filled}
    {files files' : List (String × Path)} (hbase : base.WellFormed)
    (hwork : base.at? workDir = some .directory)
    (huser : ∀ d, l.userDirectory = some d → base.isDirectory workDir d = true)
    (hnames : files'.map (·.1) = files.map (·.1))
    (hspares : SparesFrom l base workDir env past places files)
    (hw : w.Site workDir (Added base places)) (hv : v.Site workDir (· = base))
    (h : outcome (writeRow false l env past files) w = (.ok (), w')) :
    ∃ v', outcome (writeRow true l env past files') v = (.ok (), v') := by
  induction files generalizing files' past places w v with
  | nil =>
      obtain rfl := List.map_eq_nil_iff.mp hnames
      exact ⟨v, rfl⟩
  | cons file files ih =>
      obtain ⟨name, p⟩ := file
      obtain ⟨⟨_, p'⟩, files', rfl, rfl, hnames'⟩ := List.map_eq_cons_iff.mp hnames
      obtain ⟨hfirst, hrest⟩ := hspares
      obtain ⟨text, filled, w₁, htext, hwrite, hmore⟩ := outcome_writeRow_cons_eq_ok.mp h
      have hadded := Step.added_writeText hwork hw hwrite
      -- the template is filled in alike in both runs
      rw [hw.workDir, Library.fill_eq_of_added hbase hw.files huser hfirst] at htext
      rw [htext] at hrest
      rw [← hv.files, ← hv.workDir] at htext
      obtain ⟨v₁, hdry⟩ := Step.exists_writeText_dry p' text v
      have hv₁ : v₁.Site workDir (· = base) := by
        have hkept : (outcome (Step.writeText true p' text) v).2.Site workDir (· = base) :=
          Step.keeps_writeText text nofun v hv
        rwa [hdry] at hkept
      obtain ⟨v', hv'⟩ := ih hnames' hrest hadded hv₁ hmore
      exact ⟨v', outcome_writeRow_cons_eq_ok.mpr ⟨text, filled, v₁, htext, hdry, hv'⟩⟩

/-! ## All files of a gem -/

/-- What templates see of a selection. -/
def viewOf (g : GemWriter) (enums : List EnumDecl) (chosen : List ClassDecl × Stats) : GemView :=
  ⟨g.settings.config, chosen.1, topLevelEnums chosen.1 enums,
    { chosen.2 with shadowed := (g.generator.plan chosen.1).shadowedLabels }⟩

/-- **THE TEMPLATES ARE SPARED** by a run below a directory: none of those that
    it looks up is a file that it has written before. -/
def SparesTemplates (g : GemWriter) (t : FileTree) (workDir : Place) (enums : List EnumDecl)
    (chosen : List ClassDecl × Stats) (root : Path) : Prop :=
  let s := g.settings.under root
  SparesFrom g.library t workDir ((g.viewOf enums chosen).env g.rules) []
    [(s.nativeDir.child s.config.wrapperFile).resolve workDir,
      (s.bindingsDir.child s.config.bindingsFile).resolve workDir] (g.under root).templateFiles

instance (enums : List EnumDecl) (chosen : List ClassDecl × Stats) (root : Path) :
    Decidable (g.SparesTemplates base workDir enums chosen root) :=
  inferInstanceAs (Decidable (SparesFrom g.library _ _ _ _ _ _))

/-- The two sources are written just when both of them can be made. -/
theorem outcome_writeSources_eq_ok {classes : List ClassDecl} {stats stats' : Stats} :
    outcome (g.writeSources classes stats) w = (.ok stats', w') ↔
      ∃ c n w₁ w₂ w₃, outcome (Step.cSource g.generator classes) w = (.ok c, w₁) ∧
        outcome (g.write (g.settings.bindingsDir.child g.settings.config.bindingsFile) c) w₁ =
          (.ok (), w₂) ∧
        outcome (Step.nativeSource g.generator classes) w₂ = (.ok n, w₃) ∧
        outcome (g.write (g.settings.nativeDir.child g.settings.config.wrapperFile) n) w₃ =
          (.ok (), w') ∧
        stats' = { stats with shadowed := (g.generator.plan classes).shadowedLabels } := by
  rw [writeSources]
  constructor
  · intro h
    obtain ⟨c, w₁, hc, h⟩ := outcome_bind_eq_ok.mp h
    obtain ⟨_, w₂, hwrite, h⟩ := outcome_bind_eq_ok.mp h
    obtain ⟨n, w₃, hn, h⟩ := outcome_bind_eq_ok.mp h
    obtain ⟨_, w₄, hwrite', h⟩ := outcome_bind_eq_ok.mp h
    cases h
    exact ⟨c, n, w₁, w₂, w₃, hc, hwrite, hn, hwrite', rfl⟩
  · rintro ⟨c, n, w₁, w₂, w₃, hc, hwrite, hn, hwrite', rfl⟩
    rw [outcome_bind_of_ok hc, outcome_bind_of_ok hwrite, outcome_bind_of_ok hn,
      outcome_bind_of_ok hwrite', outcome_pure]

/-- What writing the one source and then the other makes of the files. -/
theorem site_of_writeSources {P Q R : FileTree → Prop} {classes : List ClassDecl}
    {stats stats' : Stats}
    (hbindings : ∀ {text w w'}, w.Site workDir P →
      outcome (g.write (g.settings.bindingsDir.child g.settings.config.bindingsFile) text) w =
        (.ok (), w') → w'.Site workDir Q)
    (hwrapper : ∀ {text w w'}, w.Site workDir Q →
      outcome (g.write (g.settings.nativeDir.child g.settings.config.wrapperFile) text) w =
        (.ok (), w') → w'.Site workDir R)
    (hw : w.Site workDir P) (h : outcome (g.writeSources classes stats) w = (.ok stats', w')) :
    w'.Site workDir R := by
  obtain ⟨c, n, w₁, w₂, w₃, hc, hwrite, hn, hwrite', -⟩ := outcome_writeSources_eq_ok.mp h
  have hw₁ := Step.keeps_cSource g.generator classes w hw
  rw [hc] at hw₁
  have hw₂ := hbindings hw₁ hwrite
  have hw₃ := Step.keeps_nativeSource g.generator classes w₂ hw₂
  rw [hn] at hw₃
  exact hwrapper hw₃ hwrite'

/-- The two sources are added by a run. -/
theorem added_writeSources {classes : List ClassDecl} {stats stats' : Stats}
    (hwork : base.at? workDir = some .directory) (hwet : g.settings.isDryRun = false)
    (hw : w.Site workDir (Added base []))
    (h : outcome (g.writeSources classes stats) w = (.ok stats', w')) :
    w'.Site workDir (Added base
      [(g.settings.nativeDir.child g.settings.config.wrapperFile).resolve workDir,
        (g.settings.bindingsDir.child g.settings.config.bindingsFile).resolve workDir]) := by
  have hwrite : ∀ {places : List Place} {p : Path} {text : String} {w w' : World},
      w.Site workDir (Added base places) → outcome (g.write p text) w = (.ok (), w') →
      w'.Site workDir (Added base (p.resolve workDir :: places)) := by
    intro places p text w w' hw h
    rw [write, hwet] at h
    exact Step.added_writeText hwork hw h
  exact site_of_writeSources hwrite hwrite hw h

/-- Sources that can be made in one world can be told of in any other. -/
theorem exists_writeSources_dry {h : GemWriter} {classes : List ClassDecl} {stats stats' : Stats}
    (hsources : outcome (g.writeSources classes stats) w = (.ok stats', w'))
    (hgenerator : h.generator = g.generator) (hdry : h.settings.isDryRun = true)
    (hv : v.Site workDir (· = base)) :
    ∃ v', outcome (h.writeSources classes stats) v = (.ok stats', v') ∧
      v'.Site workDir (· = base) := by
  obtain ⟨c, n, w₁, w₂, w₃, hc, -, hn, -, rfl⟩ := outcome_writeSources_eq_ok.mp hsources
  obtain ⟨_, hc'⟩ := Step.outcome_cSource g.generator classes w
  obtain ⟨_, hn'⟩ := Step.outcome_nativeSource g.generator classes w₂
  have hmakes : g.generator.cSource classes = .ok c := congrArg Prod.fst (hc'.symm.trans hc)
  have hmakes' : g.generator.nativeSource classes = .ok n := congrArg Prod.fst (hn'.symm.trans hn)
  obtain ⟨v₁, hc''⟩ := Step.outcome_cSource g.generator classes v
  have hv₁ := Step.keeps_cSource g.generator classes v hv
  rw [hmakes] at hc''
  rw [hc''] at hv₁
  have hwrite : ∀ p text v, v.Site workDir (· = base) →
      ∃ v', outcome (h.write p text) v = (.ok (), v') ∧ v'.Site workDir (· = base) := by
    intro p text v hv
    have hkept : (outcome (Step.writeText true p text) v).2.Site workDir (· = base) :=
      Step.keeps_writeText text nofun v hv
    rw [write, hdry]
    exact ⟨_, rfl, hkept⟩
  obtain ⟨v₂, hwrite₁, hv₂⟩ :=
    hwrite (h.settings.bindingsDir.child h.settings.config.bindingsFile) c v₁ hv₁
  obtain ⟨v₃, hn''⟩ := Step.outcome_nativeSource g.generator classes v₂
  have hv₃ := Step.keeps_nativeSource g.generator classes v₂ hv₂
  rw [hmakes'] at hn''
  rw [hn''] at hv₃
  obtain ⟨v₄, hwrite₂, hv₄⟩ :=
    hwrite (h.settings.nativeDir.child h.settings.config.wrapperFile) n v₃ hv₃
  rw [← hgenerator] at hc'' hn'' ⊢
  exact ⟨v₄, outcome_writeSources_eq_ok.mpr
    ⟨c, n, v₁, v₂, v₃, hc'', hwrite₁, hn'', hwrite₂, rfl⟩, hv₄⟩

/-- A gem that is written can be told of in a dry run, with the same
    statistics, if its templates are spared. -/
theorem exists_writeFiles_dry {root : Path} (root' : Path) {retained : List ClassDecl}
    {enums : List EnumDecl} {stats stats' : Stats} (hbase : base.WellFormed)
    (hwork : base.at? workDir = some .directory)
    (huser : ∀ d, g.library.userDirectory = some d → base.isDirectory workDir d = true)
    (hspares : g.SparesTemplates base workDir enums (retained, stats) root)
    (hw : w.Site workDir (Added base [])) (hv : v.Site workDir (· = base))
    (h : outcome ((g.withDryRun false).writeFiles root retained enums stats) w =
      (.ok stats', w')) :
    ∃ v', outcome ((g.withDryRun true).writeFiles root' retained enums stats) v =
      (.ok stats', v') := by
  obtain ⟨w₁, w₂, w₃, hmake, hsources, hrow, -⟩ := exists_of_writeFiles h
  obtain ⟨_, _, _, _, _, -, -, -, -, hstats⟩ := outcome_writeSources_eq_ok.mp hsources
  replace hstats : stats' =
    { stats with shadowed := (g.generator.plan retained).shadowedLabels } := hstats
  rw [SparesTemplates, viewOf, ← hstats] at hspares
  have hw₁ : w₁.Site workDir (Added base []) := by
    have hkept := keeps_makeDirectories (g := (g.withDryRun false).under root)
      (fun _ _ _ => Added.ensureDirectory hwork) w hw
    rwa [hmake] at hkept
  have hw₂ := added_writeSources hwork rfl hw₁ hsources
  -- the dry run makes no directories and tells of the same sources and templates
  obtain ⟨v₂, hsources', hv₂⟩ := exists_writeSources_dry (h := (g.withDryRun true).under root')
    hsources rfl rfl hv
  rw [writeTemplates] at hrow
  have hnames : ((g.withDryRun true).under root').templateFiles.map (·.1) =
      ((g.withDryRun false).under root).templateFiles.map (·.1) := rfl
  obtain ⟨v₃, hrow'⟩ := exists_writeRow_dry hbase hwork huser hnames hspares hw₂ hv₂ hrow
  have hmake' : outcome ((g.withDryRun true).under root').makeDirectories v = (.ok (), v) := rfl
  have hmanifest : ∃ v₄, outcome (Step.writeManifest g.invocation (g.withDryRun true).settings
      retained stats' root') v₃ = (.ok (), v₄) := ⟨_, rfl⟩
  obtain ⟨v₄, hmanifest⟩ := hmanifest
  have htemplates : outcome (((g.withDryRun true).under root').writeTemplates
      ⟨(g.withDryRun true).settings.config, retained, topLevelEnums retained enums, stats'⟩) v₂ =
        (.ok (), v₃) := hrow'
  rw [writeFiles, outcome_bind_of_ok hmake', outcome_bind_of_ok hsources',
    outcome_bind_of_ok htemplates]
  split
  · exact ⟨v₄, outcome_bind_of_ok hmanifest⟩
  · exact ⟨v₃, rfl⟩

/-! ## Whole runs -/

variable {classes : List ClassDecl} {enums : List EnumDecl}

/-- **A DRY RUN LEAVES THE FILES**, whether it ends well or fails. -/
theorem tree_of_dryRun (hlog : w.log.OnConsole) :
    (outcome ((g.withDryRun true).run classes enums) w).2.tree = w.tree := by
  have hsite : w.Site w.workDir (· = w.tree) := ⟨rfl, rfl, hlog⟩
  have hstaged : ∀ retained stats, Keeps (Site w.workDir (· = w.tree))
      (Step.staged true g.settings.outputDir ((g.withDryRun true).work retained enums stats)) :=
    fun retained stats => keeps_work (keeps_writeFiles_of_dryRun rfl _ retained enums stats)
  have keeps : Keeps (Site w.workDir (· = w.tree)) ((g.withDryRun true).run classes enums) := by
    rw [run_eq]
    exact (Step.keeps_select _ _ _).bind fun _ => (hstaged _ _).bind fun _ =>
      (Step.keeps_info _).bind fun _ => Keeps.pure _
  exact (keeps w hsite).files

/-- The selection of a run and its scratch directory. -/
def StagesAt (g : GemWriter) (classes : List ClassDecl) (w : World)
    (chosen : List ClassDecl × Stats) (staging : Path) : Prop :=
  ∃ w₀ w₁, outcome (Step.select g.registry g.rules classes) w = (.ok chosen, w₀) ∧
    outcome (Step.openStaging g.settings.outputDir) w₀ = (.ok staging, w₁)

/-- **A DRY RUN IS A REHEARSAL**: it never changes the files, and if the run
    itself ends well and spares its templates, the dry run ends well too and
    returns the same statistics. -/
theorem dry_run_rehearses (g : GemWriter) (classes : List ClassDecl) (enums : List EnumDecl)
    (hw : w.Sound)
    (huser : ∀ d, g.library.userDirectory = some d → w.tree.isDirectory w.workDir d = true) :
    (outcome ((g.withDryRun true).run classes enums) w).2.tree = w.tree ∧
      ∀ stats w', outcome ((g.withDryRun false).run classes enums) w = (.ok stats, w') →
        (∀ chosen staging, g.StagesAt classes w chosen staging →
          g.SparesTemplates w.tree w.workDir enums chosen staging) →
        (outcome ((g.withDryRun true).run classes enums) w).1 = .ok stats := by
  refine ⟨tree_of_dryRun hw.onConsole, ?_⟩
  intro stats w' h hspares
  obtain ⟨retained, chosen, w₀, w₅, message, -, hselect, hstaged, -⟩ := exists_staged_of_run h
  have hsite : w₀.Site w.workDir (· = w.tree) := by
    have hstart : w.Site w.workDir (· = w.tree) := ⟨rfl, rfl, hw.onConsole⟩
    have hkept := Step.keeps_select g.registry g.rules classes w hstart
    rwa [show outcome (Step.select g.registry g.rules classes) w = _ from hselect] at hkept
  -- the scratch directory is part of the tree that the files are added to
  obtain ⟨staging, w₁, w₂, -, hopen, hbody, -, -⟩ := Step.outcome_staged_eq_ok.mp hstaged
  have hadded : w₁.Site w.workDir (Added w.tree []) := by
    have hopened := Step.added_openStaging (hw.of_site hsite) hopen
    rwa [hsite.files, hsite.workDir] at hopened
  have hwritten := outcome_work_eq_ok.mp hbody
  obtain ⟨v₁, hdry⟩ := exists_writeFiles_dry g.settings.outputDir hw.wellFormed
    hw.working huser (hspares _ staging ⟨w₀, w₁, hselect, hopen⟩) hadded hsite hwritten
  have hrehearsed : outcome (Step.staged true g.settings.outputDir
      ((g.withDryRun true).work retained enums chosen)) w₀ = (.ok stats, v₁) :=
    outcome_work_eq_ok.mpr hdry
  have hselect' : outcome (Step.select (g.withDryRun true).registry (g.withDryRun true).rules
      classes) w = (.ok (retained, chosen), w₀) := hselect
  rw [run_eq, outcome_bind_of_ok hselect']
  exact congrArg Prod.fst (outcome_bind_of_ok hrehearsed)

/-! ## A desk with a template -/

/-- A world with an empty template of the user. -/
def desk : World where
  tree := (({} : FileTree).put ["t"] .directory).put ["t", "a"] (.file [])
  log := {}

theorem sound_desk : desk.Sound where
  wellFormed := by
    have hroot : ({} : FileTree).at? [] = some .directory := rfl
    have hdir : (({} : FileTree).put ["t"] .directory).WellFormed :=
      FileTree.WellFormed.empty.put hroot (by decide) (.inl rfl)
    have hfile : ((({} : FileTree).put ["t"] .directory).put (["t"] ++ ["a"])
        (.file [])).WellFormed := hdir.put rfl (by decide) (.inr (by decide))
    exact hfile
  working := rfl
  onConsole := fun _ h => absurd h List.not_mem_nil

/-- A writer that makes all files but the sources from templates of the user. -/
def copyist (platform mrblib : String) : GemWriter where
  settings :=
    { outputDir := ⟨"", ["o"]⟩
      config := { platform, vendorPrefix := "b", vendorHeader := "b.h", gemName := "b" }
      writesManifest := false }
  library := { userDirectory := some ⟨"", ["t"]⟩ }
  templates := ⟨"a", "a", "a", mrblib⟩

theorem stagesAt_desk {platform mrblib : String} {chosen : List ClassDecl × Stats}
    {staging : Path} (h : (copyist platform mrblib).StagesAt [] desk chosen staging) :
    chosen = ([], {}) ∧ staging = ⟨"", [".o.staging-tmp"]⟩ := by
  obtain ⟨w₀, w₁, hselect, hopen⟩ := h
  cases hselect
  cases hopen
  exact ⟨rfl, rfl⟩

/-- The text of a file, straight from its characters. -/
theorem fileText_eq (t : FileTree) (workDir : Place) (p : Path) :
    fileText t workDir p =
      match t.read workDir p with
      | .error e => .error (.disk e)
      | .ok bytes =>
          match decodeFrom 0 0 bytes with
          | .error e => .error (.bytes e)
          | .ok s => .ok (String.ofList (unifyLineEnds s)) := by
  rw [fileText]
  cases t.read workDir p with
  | error e => rfl
  | ok bytes =>
      simp only [decode]
      cases decodeFrom 0 0 bytes with
      | error e => rfl
      | ok s => simp only [Except.map, unifyLineEndsOf, String.toList_ofList]

theorem dry_run_rehearses_desk :
    (outcome (((copyist "p" "a").withDryRun true).run [] []) desk).2.tree = desk.tree ∧
      ∃ stats w', outcome (((copyist "p" "a").withDryRun false).run [] []) desk = (.ok stats, w') ∧
        (outcome (((copyist "p" "a").withDryRun true).run [] []) desk).1 = .ok stats := by
  have huser : ∀ d, (copyist "p" "a").library.userDirectory = some d →
      desk.tree.isDirectory desk.workDir d = true := by
    rintro d h
    cases h
    decide
  have hspares : ∀ chosen staging, (copyist "p" "a").StagesAt [] desk chosen staging →
      (copyist "p" "a").SparesTemplates desk.tree desk.workDir [] chosen staging := by
    intro chosen staging h
    obtain ⟨rfl, rfl⟩ := stagesAt_desk h
    decide +kernel
  have hwet : (outcome (((copyist "p" "a").withDryRun false).run [] []) desk).1.isOk = true := by
    simp only [run_eq, Step.staged, Step.commit, Step.filesBelow, mergeSort_namesLe]
    decide +kernel
  obtain ⟨htree, hstats⟩ := dry_run_rehearses (copyist "p" "a") [] [] sound_desk huser
  refine ⟨htree, ?_⟩
  cases hrun : outcome (((copyist "p" "a").withDryRun false).run [] []) desk with
  | mk result w' =>
      rw [hrun] at hwet
      cases result with
      | error f => exact absurd hwet Bool.false_ne_true
      | ok stats => exact ⟨stats, w', rfl, hstats stats w' hrun hspares⟩

/-- **A TEMPLATE THAT THE RUN ITSELF WRITES**: the path of the native source
    leads out of the scratch directory to where the last template is read
    from, so only the run itself finds it. -/
theorem dry_run_misses_written_template :
    (outcome (((copyist "../../t" "b_wrapper.cpp").withDryRun false).run [] []) desk).1.isOk =
        true ∧
      (outcome (((copyist "../../t" "b_wrapper.cpp").withDryRun true).run [] []) desk).1.isOk =
        false := by
  constructor
  · -- the moves are sorted by insertion, and texts are taken as characters at once
    simp only [run_eq, Step.staged, Step.commit, Step.filesBelow, mergeSort_namesLe, work,
      writeFiles, writeSources, writeTemplates, write, Step.writeText, Step.replaceText, encode,
      unifyLineEndsOf, String.toList_ofList, templateFiles, writeRow, Library.render, Library.fill,
      Library.find, Library.source?, fileText_eq]
    decide +kernel
  · decide +kernel

end GemWriter
end GemBinder
