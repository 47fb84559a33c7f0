import GemBinder.Proofs.DryRun
import GemBinder.Proofs.Failure
import GemBinder.Proofs.RubyStub
import GemBinder.Proofs.Staging.Overlay

/-! # What a run delivers

    A run that ends well has written its files below a scratch directory,
    one after the other, and has then merged them into the output directory.
    So a file that is written once is in its place in the end, with the text
    that it was given. -/

namespace GemBinder

open Files Template Text World

variable {base : FileTree} {workDir : Place} {target staging : Path} {directory : Place}
  {name : String} {w w' : World} {names steps : List String} {content : Bytes} {text : String}

/-! ## Files laid out one after the other -/

namespace Files

/-- **A DRAFT WITH A FILE**: files are laid out onward from a place, and one
    of them is this, if one is asked for. -/
structure Drafted (base : FileTree) (place : Place) (file : Option (List String × Bytes))
    (t : FileTree) : Prop where
  laid : ∃ files, Laid base place files t ∧ (∀ f ∈ files, Onward f.1) ∧
    ∀ f ∈ file, files.lookup f.1 = some f.2

variable {file : Option (List String × Bytes)} {t t' : FileTree}
  (hb : Beside base workDir target staging directory name)
include hb

theorem Drafted.ensureDirectory (ht : Drafted base (directory ++ [name]) file t)
    (hback : ".." ∉ names) :
    Drafted base (directory ++ [name]) file
      (outcome (Disk.ensureDirectory workDir
        { staging with parts := staging.parts ++ names }) t).2 := by
  obtain ⟨files, hlaid, hfiles⟩ := ht.laid
  exact ⟨⟨files, hlaid.ensureDirectory hb (Path.inward_of_forward hback), hfiles⟩⟩

/-- A file that is written is in the draft, and another one stays there. -/
theorem Drafted.writeAtomically (ht : Drafted base (directory ++ [name]) file t)
    (hon : Onward names) {token : String}
    (h : outcome (Disk.writeAtomically workDir token
      { staging with parts := staging.parts ++ names } content) t = (.ok (), t')) :
    Drafted base (directory ++ [name]) (some (names, content)) t' ∧
      ((∀ f ∈ file, f.1 ≠ names) → Drafted base (directory ++ [name]) file t') := by
  obtain ⟨files, hlaid, honward, hfile⟩ := ht.laid
  obtain ⟨-, hlaid'⟩ := hlaid.writeAtomically hb (Path.inward_of_forward hon.forward) h
  rw [Path.normalizeFrom_of_forward hon.forward, List.nil_append] at hlaid'
  have honward' : ∀ f ∈ (names, content) :: files, Onward f.1 :=
    List.forall_mem_cons.mpr ⟨hon, honward⟩
  refine ⟨⟨⟨_, hlaid', honward', ?_⟩⟩, fun hother => ⟨⟨_, hlaid', honward', ?_⟩⟩⟩
  · intro f hf
    cases hf
    exact List.lookup_cons_self
  · intro f hf
    rw [List.lookup_cons, beq_eq_false_iff_ne.mpr (hother f hf)]
    exact hfile f hf

end Files

namespace Step

variable {file : Option (List String × Bytes)}
  (hb : Beside base workDir target staging directory name)
include hb

/-- A text that is written below the scratch directory. -/
theorem drafted_writeText (hw : w.Site workDir (Drafted base (directory ++ [name]) file))
    (hon : Onward names)
    (h : outcome (writeText false { staging with parts := staging.parts ++ names } text) w =
      (.ok (), w')) :
    w'.Site workDir (Drafted base (directory ++ [name])
        (some (names, encode (unifyLineEndsOf text)))) ∧
      ((∀ f ∈ file, f.1 ≠ names) →
        w'.Site workDir (Drafted base (directory ++ [name]) file)) := by
  constructor
  · exact site_of_writeText hw (fun hdisk => (hw.files.writeAtomically hb hon hdisk).1) h
  · intro hother
    exact site_of_writeText hw (fun hdisk => (hw.files.writeAtomically hb hon hdisk).2 hother) h

/-- A text that is written behind the scratch directory, where no file is
    asked for. -/
theorem drafted_write {p : Path} (hw : w.Site workDir (Drafted base (directory ++ [name]) none))
    (hp : Behind staging p) (h : outcome (writeText false p text) w = (.ok (), w')) :
    w'.Site workDir (Drafted base (directory ++ [name]) none) := by
  obtain ⟨names, hon, rfl⟩ := hp
  exact (drafted_writeText hb hw hon h).2 nofun

/-- The manifest leaves every file of another name. -/
theorem drafted_writeManifest {i : Invocation} {settings : RunSettings} {classes : List ClassDecl}
    {stats : Stats} (hwet : settings.isDryRun = false)
    (hother : ∀ f ∈ file, f.1 ≠ ["manifest.json"])
    (hw : w.Site workDir (Drafted base (directory ++ [name]) file))
    (h : outcome (writeManifest i settings classes stats staging) w = (.ok (), w')) :
    w'.Site workDir (Drafted base (directory ++ [name]) file) := by
  obtain ⟨time, w₁, hnow, h⟩ := outcome_bind_eq_ok.mp h
  rw [outcome_get_bind, hwet, child_eq (by decide : Inner "manifest.json"),
    show Path.ofString "manifest.json" = ⟨"", ["manifest.json"]⟩ by decide] at h
  have hw₁ := keeps_now w hw
  rw [hnow] at hw₁
  exact (drafted_writeText hb hw₁ ⟨by decide, by decide, by decide⟩ h).2 hother

end Step

/-! ## Files that are delivered -/

namespace Step

/-- Files that lead onward from the target keep clear of the scratch
    directory, which has a hidden name that is longer than that of the
    target. -/
theorem apart_of_onward (hs : Scratch base workDir target staging directory name)
    (hon : Onward names) : ¬ directory ++ [name] <+: target.resolve workDir ++ names := by
  rw [resolve_target hs.beside]
  intro hbelow
  rcases target.lastStep_cases with hlast | hlast
  · rw [hlast, Path.normalizeFrom, List.prefix_append_right_inj] at hbelow
    obtain ⟨more, rfl⟩ := hbelow
    exact hon.shown name rfl hs.hidden
  · rw [hlast, Path.normalizeFrom_of_forward (by simpa using Ne.symm hs.forward),
      List.append_assoc, List.prefix_append_right_inj] at hbelow
    obtain ⟨more, hmore⟩ := hbelow
    obtain rfl : name = target.name := (List.cons.inj hmore).1
    exact absurd hs.longer (Nat.lt_irrefl _)

/-- **A FILE OF A DRAFT IS DELIVERED**: a staged run that ends well brings it
    to its place. -/
theorem delivered_of_staged {α : Type} {body : Path → Step α} {a : α} {P : Bytes → Prop}
    (hw : w.Sound) (hforward : target.name ≠ "..")
    (hbody : ∀ {base staging directory name w₁ w₂}, w.tree.Gains base →
      Scratch base w.workDir target staging directory name →
      w₁.Site w.workDir (Drafted base (directory ++ [name]) none) →
      outcome (body staging) w₁ = (.ok a, w₂) →
      ∃ content, P content ∧
        w₂.Site w.workDir (Drafted base (directory ++ [name]) (some (names, content))))
    (h : outcome (staged false target body) w = (.ok a, w')) :
    ∃ content, P content ∧ w'.Site w.workDir fun t =>
      t.at? (target.resolve w.workDir ++ names) = some (.file content) := by
  obtain ⟨staging, w₁, w₂, w₃, hopen, hdone, hcommit, hdrop⟩ := outcome_staged_eq_ok.mp h
  obtain ⟨base, directory, name, hgains, hb, -, hhidden, hlonger, rfl⟩ := opened_beside hw hopen
  have hs := hb.scratch hhidden hlonger hforward
  have hstart : Site w.workDir (Drafted base (directory ++ [name]) none)
      { w with tree := base.put (directory ++ [name]) .directory } :=
    ⟨⟨⟨[], hb.laid_start, nofun, nofun⟩⟩, rfl, hw.onConsole⟩
  obtain ⟨content, hcontent, hw₂⟩ := hbody hgains hs hstart hdone
  obtain ⟨files, hlaid, honward, hfile⟩ := hw₂.files.laid
  have hapart : ∀ file ∈ files,
      ¬ directory ++ [name] <+: target.resolve w.workDir ++ file.1 :=
    fun file hmem => apart_of_onward hs (honward file hmem)
  -- the files are merged, and the scratch directory is removed behind them
  obtain ⟨hw₃, -⟩ := merged_of_commit hb hlaid hapart (fun file hmem => (honward file hmem).some)
    ⟨rfl, hw₂.workDir, hw₂.onConsole⟩ hcommit
  have hfound := hb.locate_staging ((hlaid.holds hb).trans hw₃.files.holds)
  rw [← hw₃.workDir] at hfound
  cases (outcome_dropStaging hfound).symm.trans hdrop
  exact ⟨content, hcontent, at?_of_written hlaid hapart hw₃.files (hfile _ rfl), hw₃.workDir,
    hw₃.onConsole⟩

end Step

/-! ## The stub of a run -/

/-- The steps from the directory of a gem to the stub on its Ruby side. -/
def RunSettings.stubSteps (s : RunSettings) : List String :=
  "mrblib" :: (Path.ofString s.config.mrblibFile).parts

/-- The text of the stub, as its template is found in a world and filled in
    behind others. -/
def GemWriter.stubText (g : GemWriter) (v : World) (past : List Filled)
    (retained : List ClassDecl) (enums : List EnumDecl) (stats : Stats) : Attempt String :=
  let view : GemView := ⟨g.settings.config, retained, topLevelEnums retained enums, stats⟩
  (g.library.fill v.tree v.workDir (view.env g.rules) past g.templates.mrblib).map Prod.fst

theorem onward_stubSteps {s : RunSettings} (hs : s.config.Contained) : Onward s.stubSteps where
  some := List.cons_ne_nil _ _
  forward := List.not_mem_cons_of_ne_of_not_mem (by decide) hs.mrblib.2
  shown := by
    intro name hname
    cases hname
    decide

theorem child_stubSteps {s : RunSettings} (hs : s.config.Contained) :
    s.mrblibDir.child s.config.mrblibFile =
      { s.outputDir with parts := s.outputDir.parts ++ s.stubSteps } := by
  rw [child_eq hs.mrblib, RunSettings.mrblibDir, child_eq (by decide : Inner "mrblib"),
    show Path.ofString "mrblib" = ⟨"", ["mrblib"]⟩ by decide, List.append_assoc]
  rfl

namespace Template

/-- **AN ENGINE FILLS IN A SOURCE** as it is written: with what a gem shows to
    its templates, and whatever it has filled in before, it asks for nothing
    and gives the text that the source stands for. -/
def Engine.FillsIn (e : Engine) (source : String) : Prop :=
  ∀ (v : GemView) (rules : TypeRules) (past : List Filled) (template : String),
    e.start (v.env rules) past template source = .done (fillIn (v.env rules) source)

theorem Engine.fillsIn_standard (source : String) : Engine.standard.FillsIn source :=
  fun _ _ _ _ => rfl

namespace Library

variable {l : Library} {t : FileTree} {template source : String}

/-- A name stands for the bundled template where the user has no file of that
    name. -/
theorem find_eq_bundled
    (huser : ∀ d, l.userDirectory = some d →
      t.isFile workDir { d with parts := d.parts ++ steps } = false)
    (hsteps : nameSteps? template = some steps)
    (hlookup : Bundled.all.lookup (joinStrings "/" steps) = some source) :
    l.find t workDir template = .ok (some source) := by
  simp only [find, hsteps]
  rw [source?]
  cases hd : l.userDirectory with
  | none => simp only [Option.map_none, Option.filter_none, hlookup]
  | some d =>
      simp only [Option.map_some, Option.filter_some, huser d hd, Bool.false_eq_true, if_false,
        hlookup]

/-- A source that is found, and for which an engine asks for nothing. -/
theorem fill_of_done {env : Env} {past : List Filled} {result : Attempt String}
    (hfind : l.find t workDir template = .ok (some source))
    (hdone : l.engine.start env past template source = .done result) :
    l.fill t workDir env past template =
      result.map fun text => (text, ⟨template, source, []⟩) := by
  simp only [fill, hfind, hdone, bind, Except.bind, Rendering.run]
  cases result <;> rfl

end Library

theorem nameSteps_mrblib : nameSteps? "mrblib.rb.j2" = some ["mrblib.rb.j2"] := by decide

theorem lookup_mrblib :
    Bundled.all.lookup (joinStrings "/" ["mrblib.rb.j2"]) = some Bundled.mrblib := by
  rw [show joinStrings "/" ["mrblib.rb.j2"] = "mrblib.rb.j2" by decide]
  simp [Bundled.all, List.lookup_cons]

/-- Without a directory of the user, the bundled stub is filled in from its
    tree. -/
theorem Library.fill_mrblib (t : FileTree) (workDir : Place) (env : Env) (past : List Filled) :
    ({} : Library).fill t workDir env past "mrblib.rb.j2" =
      (((sequence Bundled.mrblibNodes).render env).mapError Failure.template).map
        fun text => (text, ⟨"mrblib.rb.j2", Bundled.mrblib, []⟩) := by
  have hfilled : fillIn env Bundled.mrblib =
      ((sequence Bundled.mrblibNodes).render env).mapError .template := by
    rw [fillIn, Bundled.read_mrblib]
    rfl
  rw [← hfilled]
  exact fill_of_done (find_eq_bundled nofun nameSteps_mrblib lookup_mrblib) rfl

end Template

/-- **THE BUNDLED STUB** can always be made where its template is found, and it
    has these lines. -/
theorem GemWriter.stubText_of_bundled {g : GemWriter} {v : World}
    (hfind : g.library.find v.tree v.workDir g.templates.mrblib = .ok (some Bundled.mrblib))
    (hengine : g.library.engine.FillsIn Bundled.mrblib) (past : List Filled)
    (retained : List ClassDecl) (enums : List EnumDecl) (stats : Stats) :
    g.stubText v past retained enums stats = .ok (textOf (GemView.stubLines
      ⟨g.settings.config, retained, topLevelEnums retained enums, stats⟩ g.rules)) := by
  rw [stubText, Library.fill_of_done hfind (hengine _ g.rules past g.templates.mrblib), fillIn,
    Bundled.render_mrblib]
  rfl

namespace GemWriter

variable {g : GemWriter} {classes retained : List ClassDecl} {enums : List EnumDecl}
  {stats stats' : Stats}

section Below

variable (hb : Beside base workDir target staging directory name)
include hb

/-- The last file of a row is in the draft with the text of its template. -/
theorem drafted_writeRow {l : Library} {env : Env} {past : List Filled} {template : String}
    {files : List (String × Path)} (hfiles : ∀ file ∈ files, Behind staging file.2)
    (hon : Onward names) (hw : w.Site workDir (Drafted base (directory ++ [name]) none))
    (h : outcome (writeRow false l env past
        (files ++ [(template, { staging with parts := staging.parts ++ names })])) w =
      (.ok (), w')) :
    ∃ text, (∃ (v : World) (past : List Filled),
        v.Site workDir (Drafted base (directory ++ [name]) none) ∧
        (l.fill v.tree v.workDir env past template).map Prod.fst = .ok text) ∧
      w'.Site workDir (Drafted base (directory ++ [name])
        (some (names, encode (unifyLineEndsOf text)))) := by
  induction files generalizing past w with
  | nil =>
      obtain ⟨text, filled, w₁, htext, hwrite, hrest⟩ := outcome_writeRow_cons_eq_ok.mp h
      cases hrest
      exact ⟨text, ⟨w, past, hw, Attempt.map_eq_ok.mpr ⟨_, htext, rfl⟩⟩,
        (Step.drafted_writeText hb hw hon hwrite).1⟩
  | cons file files ih =>
      obtain ⟨hfile, hfiles⟩ := List.forall_mem_cons.mp hfiles
      obtain ⟨text, filled, w₁, -, hwrite, hrest⟩ := outcome_writeRow_cons_eq_ok.mp h
      exact ih hfiles (Step.drafted_write hb hw hfile hwrite) hrest

variable (hg : g.settings.config.Contained)

omit hb in
include hg in
/-- The stub is the last of the files from templates. -/
theorem templateFiles_eq : (g.under staging).templateFiles =
    (g.under staging).templateFiles.take 3 ++ [(g.templates.mrblib,
      { staging with parts := staging.parts ++ g.settings.stubSteps })] := by
  have h : (g.under staging).settings.mrblibDir.child (g.under staging).settings.config.mrblibFile =
      { staging with parts := staging.parts ++ g.settings.stubSteps } :=
    child_stubSteps (s := (g.under staging).settings) hg
  rw [← h]
  rfl

include hg

theorem drafted_makeDirectories :
    Keeps (Site workDir (Drafted base (directory ++ [name]) none))
      (g.under staging).makeDirectories := by
  refine keeps_makeDirectories fun _ p hp t ht => ?_
  rcases behind_of_mem_directories hg hp with rfl | ⟨names, hon, rfl⟩
  · have hroot := ht.ensureDirectory hb (List.not_mem_nil : ".." ∉ [])
    rwa [List.append_nil] at hroot
  · exact ht.ensureDirectory hb hon.forward

theorem drafted_writeSources (hwet : g.settings.isDryRun = false)
    (hw : w.Site workDir (Drafted base (directory ++ [name]) none))
    (h : outcome ((g.under staging).writeSources classes stats) w = (.ok stats', w')) :
    w'.Site workDir (Drafted base (directory ++ [name]) none) := by
  have hwrite : ∀ {p : Path} {text : String} {w w' : World}, Behind staging p →
      w.Site workDir (Drafted base (directory ++ [name]) none) →
      outcome ((g.under staging).write p text) w = (.ok (), w') →
      w'.Site workDir (Drafted base (directory ++ [name]) none) := by
    intro p text w w' hp hw h
    rw [write, show (g.under staging).settings.isDryRun = false from hwet] at h
    exact Step.drafted_write hb hw hp h
  have hbindings : Behind staging _ :=
    behind_of_mem_paths hg (List.mem_append_left _ (List.mem_append_left _ List.mem_cons_self))
  have hwrapper : Behind staging _ := behind_of_mem_paths hg (List.mem_append_left _
    (List.mem_append_left _ (List.mem_cons_of_mem _ List.mem_cons_self)))
  exact site_of_writeSources (hwrite hbindings) (hwrite hwrapper) hw h

/-- **THE STUB IS IN THE DRAFT** of all files of a gem. -/
theorem drafted_writeFiles (hwet : g.settings.isDryRun = false)
    (hw : w.Site workDir (Drafted base (directory ++ [name]) none))
    (h : outcome (g.writeFiles staging retained enums stats) w = (.ok stats', w')) :
    ∃ text, (∃ (v : World) (past : List Filled),
        v.Site workDir (Drafted base (directory ++ [name]) none) ∧
        g.stubText v past retained enums stats' = .ok text) ∧
      w'.Site workDir (Drafted base (directory ++ [name])
        (some (g.settings.stubSteps, encode (unifyLineEndsOf text)))) := by
  obtain ⟨w₁, w₂, w₃, hmake, hsources, hrow, hlast⟩ := exists_of_writeFiles h
  have hw₁ := drafted_makeDirectories hb hg w hw
  rw [hmake] at hw₁
  have hw₂ := drafted_writeSources hb hg hwet hw₁ hsources
  rw [writeTemplates, show ((g.under staging).settings.isDryRun) = false from hwet,
    templateFiles_eq hg] at hrow
  have hfirst : ∀ file ∈ (g.under staging).templateFiles.take 3, Behind staging file.2 := by
    intro file hfile
    exact behind_of_mem_paths hg (List.mem_append_left _ (List.mem_append_right _
      (List.mem_map.mpr ⟨file, List.mem_of_mem_take hfile, rfl⟩)))
  obtain ⟨text, htext, hw₃⟩ := drafted_writeRow hb hfirst (onward_stubSteps hg) hw₂ hrow
  refine ⟨text, htext, ?_⟩
  rcases hlast with rfl | hmanifest
  · exact hw₃
  · exact Step.drafted_writeManifest hb hwet (by simp [RunSettings.stubSteps]) hw₃ hmanifest

end Below

/-- **A WORLD IN WHICH TEMPLATES ARE SEEN**: directories have been gained, and
    files are laid out below a scratch directory. -/
def Sees (target : Path) (w v : World) : Prop :=
  ∃ base staging directory name, w.tree.Gains base ∧
    Scratch base w.workDir target staging directory name ∧
    v.Site w.workDir (Drafted base (directory ++ [name]) none)

/-- **A RUN DELIVERS ITS STUB**: what the template of the Ruby side gives is in
    its place when the run has ended well. -/
theorem seen_stub_of_run (hw : w.Sound) (hg : g.settings.config.Contained)
    (hwet : g.settings.isDryRun = false) (hforward : g.settings.outputDir.name ≠ "..")
    (h : outcome (g.run classes enums) w = (.ok stats', w')) :
    ∃ retained stats v past text,
      selectMethods g.registry g.rules classes = .ok (retained, stats) ∧
      Sees g.settings.outputDir w v ∧ g.stubText v past retained enums stats' = .ok text ∧
      w'.tree.at? ((g.settings.mrblibDir.child g.settings.config.mrblibFile).resolve w.workDir) =
        some (.file (encode (unifyLineEndsOf text))) := by
  obtain ⟨retained, stats, w₀, w₁, message, hchosen, hselect, hstaged, hinfo⟩ :=
    exists_staged_of_run h
  have hsite : w.Site w.workDir (· = w.tree) := ⟨rfl, rfl, hw.onConsole⟩
  have hw₀ := Step.keeps_select g.registry g.rules classes w hsite
  rw [hselect] at hw₀
  rw [hwet] at hstaged
  obtain ⟨_, ⟨v, past, text, hsees, htext, rfl⟩, hw₁⟩ := Step.delivered_of_staged
    (P := fun content => ∃ v past text, Sees g.settings.outputDir w v ∧
      g.stubText v past retained enums stats' = .ok text ∧ content = encode (unifyLineEndsOf text))
    (hw.of_site hw₀) hforward
    (fun hgains hs hsite hdone => by
      obtain ⟨text, ⟨v, past, hv, htext⟩, hwritten⟩ :=
        drafted_writeFiles hs.beside hg hwet hsite (outcome_work_eq_ok.mp hdone)
      rw [hw₀.files] at hgains
      rw [hw₀.workDir] at hs hv
      exact ⟨_, ⟨v, past, text, ⟨_, _, _, _, hgains, hs, hv⟩, htext, rfl⟩, hwritten⟩) hstaged
  have hw' := Step.keeps_info message w₁ hw₁
  rw [hinfo] at hw'
  refine ⟨retained, stats, v, past, text, hchosen, hsees, htext, ?_⟩
  rw [child_stubSteps hg, Path.resolve_append,
    Path.normalizeFrom_of_forward (onward_stubSteps hg).forward, ← hw₀.workDir]
  exact hw'.files

end GemWriter
end GemBinder
