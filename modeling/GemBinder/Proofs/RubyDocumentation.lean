import GemBinder.Proofs.RubyComments

/-! # What the Ruby side documents

    The stub on the Ruby side shows a gem as it is generated: every class with
    the methods that are retained, in the order in which they are declared, and
    the enumerations, those of a class with it and the others behind all
    classes.

    The templates are looked up while files are laid out.  What a run has laid
    out by then is in its scratch directory, so that the user's templates are
    found as they were when the run began. -/

namespace GemBinder

open Files Template Text World

variable {base t : FileTree} {workDir place : Place} {target staging : Path} {directory : Place}
  {name template : String} {steps : List String} {v w w' : World}

/-! ## Templates that are looked up during a run -/

/-- From a directory that was there before, steps whose names show do not lead
    into a scratch directory. -/
theorem apart_of_shown (hs : Scratch base workDir target staging directory name)
    (hplace : base.at? place = some .directory) (hshown : ∀ s ∈ steps, ¬ Hidden s) :
    ¬ directory ++ [name] <+: place ++ steps := by
  intro hbelow
  have hnew : place ≠ directory ++ [name] := by
    rintro rfl
    exact nomatch hs.free.symm.trans hplace
  rcases List.prefix_or_prefix_of_prefix hbelow (List.prefix_append place steps) with hin | hout
  · have hnone := hs.wellFormed.nothing_below (by simp [hs.free]) hin hnew
    exact nomatch hnone.symm.trans hplace
  · -- the scratch directory is reached by the steps, and its name is one of them
    obtain ⟨more, hmore⟩ := hout
    rcases List.eq_nil_or_concat' more with rfl | ⟨more, s, rfl⟩
    · exact hnew (by simpa using hmore)
    · rw [← List.append_assoc] at hmore
      obtain ⟨-, hlast⟩ := List.append_inj' hmore rfl
      obtain rfl := (List.cons.inj hlast).1
      rw [← hmore, List.append_assoc, List.prefix_append_right_inj] at hbelow
      exact hshown s (hbelow.subset (by simp)) hs.hidden

/-- To a tree that has gained directories, a draft adds its files. -/
theorem Files.Laid.added {files : List (List String × Bytes)} {u : FileTree} (hu : u.Gains base)
    (hb : Beside base workDir target staging directory name)
    (ht : Laid base (directory ++ [name]) files t) :
    Added u (files.map fun file => directory ++ [name] ++ file.1) t where
  wellFormed := ht.wellFormed
  holds := hu.holds.trans (ht.holds hb)
  elsewhere := by
    intro q hq
    by_cases hbelow : directory ++ [name] <+: q
    · obtain ⟨rest, rfl⟩ := hbelow
      have hnone : u.at? (directory ++ [name] ++ rest) = none := by
        rcases hu (directory ++ [name] ++ rest) with hsame | ⟨hnone, -⟩
        · rw [← hsame]
          exact hb.nothing_below (List.prefix_append _ _)
        · exact hnone
      cases hstands : t.at? (directory ++ [name] ++ rest) with
      | none => exact .inl hnone.symm
      | some e =>
          cases e with
          | directory => exact .inr ⟨hnone, rfl⟩
          | file content =>
              have hmem := mem_of_lookup_steps ((ht.files rest content).mp hstands)
              exact absurd (List.mem_map.mpr ⟨_, hmem, rfl⟩) hq
    · rw [ht.outside q hbelow]
      exact hu q

/-- **A TEMPLATE IS FOUND AS AT THE START** of a run. -/
theorem GemWriter.find_eq_of_sees {l : Library} (hw : w.tree.WellFormed)
    (hv : Sees target w v)
    (huser : ∀ d, l.userDirectory = some d → w.tree.isDirectory w.workDir d = true)
    (hshown : ∀ steps, nameSteps? template = some steps → ∀ s ∈ steps, ¬ Hidden s) :
    l.find v.tree v.workDir template = l.find w.tree w.workDir template := by
  obtain ⟨base, staging, directory, name, hgains, hs, hsite⟩ := hv
  obtain ⟨files, hlaid, -⟩ := hsite.files.laid
  rw [hsite.workDir]
  refine Library.find_eq_of_added hw (hlaid.added hgains hs.beside) huser ?_
  rintro steps hsteps d hd hmem
  obtain ⟨place, hl, hdir⟩ := FileTree.isDirectory_iff.mp (huser d hd)
  have hforward := Library.forward_of_nameSteps hsteps
  rw [Path.resolve_append, Path.normalizeFrom_of_forward hforward,
    ← FileTree.eq_resolve_of_locate hl] at hmem
  obtain ⟨file, -, hfile⟩ := List.mem_map.mp hmem
  refine apart_of_shown hs (hgains.holds place hdir) (hshown steps hsteps) ?_
  rw [← hfile]
  exact List.prefix_append _ _

/-! ## The bundled template -/

namespace GemWriter

variable {g : GemWriter} {classes retained : List ClassDecl} {enums : List EnumDecl}
  {stats : Stats}

/-- **THE BUNDLED STUB IS USED**: its template is named, the user has a
    directory of templates without one of this name, or none at all, and the
    engine fills in the template as it is written. -/
structure UsesBundledStub (g : GemWriter) (w : World) : Prop where
  named : nameSteps? g.templates.mrblib = some ["mrblib.rb.j2"]
  user : ∀ d, g.library.userDirectory = some d → w.tree.isDirectory w.workDir d = true ∧
    w.tree.isFile w.workDir { d with parts := d.parts ++ ["mrblib.rb.j2"] } = false
  filled : g.library.engine.FillsIn Bundled.mrblib

theorem UsesBundledStub.find_eq (h : g.UsesBundledStub w) :
    g.library.find w.tree w.workDir g.templates.mrblib = .ok (some Bundled.mrblib) :=
  Library.find_eq_bundled (fun d hd => (h.user d hd).2) h.named lookup_mrblib

/-- A run finds the bundled template also when it has come to it. -/
theorem UsesBundledStub.find_eq_of_sees (h : g.UsesBundledStub w) (hw : w.tree.WellFormed)
    (hv : Sees target w v) :
    g.library.find v.tree v.workDir g.templates.mrblib = .ok (some Bundled.mrblib) := by
  rw [← h.find_eq]
  refine GemWriter.find_eq_of_sees hw hv (fun d hd => (h.user d hd).1) ?_
  intro steps hsteps s hs
  obtain rfl := Option.some.inj (h.named.symm.trans hsteps)
  obtain rfl := List.mem_singleton.mp hs
  decide

end GemWriter

/-! ## What is shown -/

/-- A method is shown with all its parameters, each by its name and the Ruby
    name of its type. -/
theorem Method.stubLine_eq (rules : TypeRules) (m : Method) :
    m.stubLine rules = "#   " ++ m.name ++ "(" ++
      joinStrings ", " (m.parameters.zipIdx.map fun (p, i) =>
        parameterName p.name i ++ ": " ++ rules.rubyName p.type) ++
      ") -> " ++ rules.rubyName m.returnType := by
  have htypes : m.parameterTypes = m.parameters.zipIdx.map fun (p, _) => p.type := by
    have hparameters : m.parameters = m.parameters.zipIdx.map Prod.fst := by simp
    rw [parameterTypes, hparameters, List.map_map, ← hparameters]
    rfl
  rw [stubLine, parameterNames, htypes, List.zip_map', List.map_map]
  rfl

theorem GemWriter.topLevelEnums_eq (classes : List ClassDecl) (enums : List EnumDecl) :
    GemWriter.topLevelEnums classes enums =
      enums.filter fun e => classes.all fun c => !c.enums.contains e := by
  refine List.filter_congr fun e _ => ?_
  rw [Bool.eq_iff_iff]
  simp

namespace GemWriter

variable {g : GemWriter}

/-- **THE STUB DOCUMENTS WHAT IS KEPT.**  From the bundled template the stub can
    always be made.  Behind its head it has a section for every class in order:
    a line for every method that is retained, and one for every enumeration of
    the class.  The given enumerations that no class declares follow, if there
    are any.  A run that ends well has written this file. -/
theorem stub_documents_retained (hbundled : g.UsesBundledStub w) (hw : w.Sound)
    (classes : List ClassDecl) (enums : List EnumDecl) :
    let retained := classes.map (retain g.registry g.rules)
    let outside := enums.filter fun e => retained.all fun c => !c.enums.contains e
    let lines :=
      ["# " ++ g.settings.config.gemName ++ " Ruby bindings",
        "# Auto-generated by mrbgem-binding-generator"] ++
      (retained.flatMap fun c => ["", "# Class: " ++ c.name] ++
        c.methods.map (·.stubLine g.rules) ++ c.enums.map (·.stubLine)) ++
      if outside.isEmpty then [] else ["", "# Enums"] ++ outside.map (·.stubEntry)
    (∀ stats past, g.stubText w past retained enums stats = .ok (textOf lines)) ∧
    (∀ m : Method, m.stubLine g.rules = "#   " ++ m.name ++ "(" ++
      joinStrings ", " (m.parameters.zipIdx.map fun (p, i) =>
        parameterName p.name i ++ ": " ++ g.rules.rubyName p.type) ++
      ") -> " ++ g.rules.rubyName m.returnType) ∧
    ∀ stats w', g.settings.config.Contained → g.settings.isDryRun = false →
      g.settings.outputDir.name ≠ ".." → outcome (g.run classes enums) w = (.ok stats, w') →
      (∃ chosen, selectMethods g.registry g.rules classes = .ok (retained, chosen)) ∧
      w'.tree.at? ((g.settings.mrblibDir.child g.settings.config.mrblibFile).resolve w.workDir) =
        some (.file (encode (unifyLineEndsOf (textOf lines)))) := by
  intro retained outside lines
  have houtside : topLevelEnums retained enums = outside := topLevelEnums_eq retained enums
  have hlines : ∀ stats, GemView.stubLines
      ⟨g.settings.config, retained, topLevelEnums retained enums, stats⟩ g.rules = lines := by
    intro stats
    rw [houtside]
    rfl
  refine ⟨fun stats past => ?_, Method.stubLine_eq g.rules, ?_⟩
  · rw [stubText_of_bundled hbundled.find_eq hbundled.filled, hlines]
  · intro stats w' hg hwet hforward h
    obtain ⟨kept, chosen, v, past, text, hchosen, hsees, htext, hfile⟩ :=
      seen_stub_of_run hw hg hwet hforward h
    obtain rfl : kept = retained := retained_of_selectMethods hchosen
    rw [stubText_of_bundled (hbundled.find_eq_of_sees hw.wellFormed hsees) hbundled.filled,
      hlines] at htext
    obtain rfl := Except.ok.inj htext
    exact ⟨⟨chosen, hchosen⟩, hfile⟩

/-- A class with two methods of one name, one whose parameter has the name of
    an array, and with an enumeration. -/
def toneClass : ClassDecl where
  name := "Tone"
  methods := [{ name := "set", returnType := "void", parameters := [⟨"int", some "pitch"⟩] },
    { name := "set", returnType := "void", parameters := [⟨"int", none⟩] },
    { name := "play", returnType := "bool", parameters := [⟨"int", some "buf[4]"⟩] }]
  enums := [{ name := "Mode", values := [⟨"LOUD", some "1"⟩, ⟨"SOFT", none⟩] }]

/-- An enumeration outside all classes. -/
def keyEnum : EnumDecl where
  name := "Key"
  values := [⟨"C", some "1"⟩]

theorem stub_documents_retained_tone :
    ∃ stats w', outcome (stubWriter.run [toneClass] (toneClass.enums ++ [keyEnum])) sheet =
        (.ok stats, w') ∧
      w'.tree.at? ["o", "mrblib", "m5unified.rb"] = some (.file (encode (textOf
        ["# picoruby-m5unified Ruby bindings", "# Auto-generated by mrbgem-binding-generator", "",
          "# Class: Tone", "#   set(pitch: Integer) -> nil", "#   set(param_0: Integer) -> nil",
          "#   play(param_0: Integer) -> Boolean", "#   enum Mode: LOUD, SOFT", "", "# Enums",
          "#   Key: C = 1"]))) := by
  have hbundled : stubWriter.UsesBundledStub sheet :=
    ⟨by decide, nofun, Engine.fillsIn_standard _⟩
  have hrun : (outcome (stubWriter.run [toneClass] (toneClass.enums ++ [keyEnum])) sheet).1.isOk =
      true := by
    -- the moves are sorted by insertion, and the bundled stub is taken as its tree
    simp only [run_eq, Step.staged, Step.commit, Step.filesBelow, mergeSort_namesLe, work,
      writeFiles, writeTemplates, Step.writeText, Step.replaceText, encode, unifyLineEndsOf,
      String.toList_ofList, templateFiles, writeRow, Library.render, under, stubWriter,
      Library.fill_mrblib]
    decide +kernel
  obtain ⟨stats, hrun⟩ := outcome_eq_ok hrun
  obtain ⟨-, -, hfile⟩ := stub_documents_retained hbundled sound_sheet [toneClass]
    (toneClass.enums ++ [keyEnum])
  obtain ⟨-, hfile⟩ := hfile stats _ contained_default rfl (by decide) hrun
  refine ⟨stats, _, hrun, hfile.trans (congrArg (fun s => some (Entry.file (encode s))) ?_)⟩
  decide +kernel

end GemWriter
end GemBinder
