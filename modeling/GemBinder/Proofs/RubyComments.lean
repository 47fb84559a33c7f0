import GemBinder.Proofs.Delivery
import GemBinder.Proofs.Header.Reading
import GemBinder.Proofs.Source.Heads

/-! # Comments on the Ruby side

    The stub on the Ruby side is meant as documentation: every line of it is
    empty or a comment.  What it shows of a class is on lines of its own.
    What is written for a value of an enumeration outside all classes is
    shown as it is, and may go on over several lines. -/

namespace GemBinder

open Text

/-! ## Lines of a class -/

theorem unbroken_rubyName (rules : TypeRules) (type : String) : Unbroken (rules.rubyName type) := by
  rw [TypeRules.rubyName]
  cases rules.classify type with
  | unsupported why => exact (by decide : Unbroken "Object")
  | _ => decide

section Lines

variable {rules : TypeRules} {line : String}

theorem unbroken_stubLine {m : Method} (hm : Unbroken m.name) : Unbroken (m.stubLine rules) := by
  have hparameter : ∀ p ∈ m.parameterNames.zip m.parameterTypes,
      Unbroken (p.1 ++ ": " ++ rules.rubyName p.2) := by
    intro p hp
    have hname := unbroken_of_mem_parameterNames (List.of_mem_zip (a := p.1) (b := p.2) hp).1
    simp +decide [hname, unbroken_rubyName]
  have hparameters : Unbroken (joinStrings ", " _) :=
    unbroken_joinStrings (by decide) (List.forall_mem_map.mpr hparameter)
  rw [Method.stubLine]
  refine unbroken_append.mpr ⟨?_, unbroken_rubyName _ _⟩
  refine unbroken_append.mpr ⟨unbroken_append.mpr ⟨?_, hparameters⟩, by decide⟩
  simp +decide [hm]

theorem EnumDecl.Legible.unbroken_stubLine {e : EnumDecl} (he : e.Legible) :
    Unbroken e.stubLine := by
  have hvalues : Unbroken (joinStrings ", " (e.values.map (·.name))) :=
    unbroken_joinStrings (by decide) (List.forall_mem_map.mpr he.values)
  simp +decide [EnumDecl.stubLine, he.name, hvalues]

/-- **WHAT IS SHOWN OF A CLASS** is on lines of its own, which are empty or
    comments. -/
theorem ClassDecl.Legible.stubLines {c : ClassDecl} (hc : c.Legible)
    (hline : line ∈ c.stubLines rules) : Unbroken line ∧ Commented line := by
  simp only [ClassDecl.stubLines, List.mem_append, List.mem_cons, List.not_mem_nil, or_false,
    List.mem_map] at hline
  rcases hline with ((rfl | rfl) | ⟨m, hm, rfl⟩) | ⟨e, he, rfl⟩
  · decide
  · refine ⟨by simp +decide [hc.name], .inr ?_⟩
    exact (show Begins "#" "# Class: " by decide).append c.name
  · refine ⟨unbroken_stubLine (hc.methods m hm), .inr ?_⟩
    simp only [Method.stubLine, String.append_assoc]
    exact (show Begins "#" "#   " by decide).append _
  · refine ⟨(hc.enums e he).unbroken_stubLine, .inr ?_⟩
    simp only [EnumDecl.stubLine, String.append_assoc]
    exact (show Begins "#" "#   enum " by decide).append _

end Lines

/-! ## Enumerations outside all classes -/

/-- What is written for the values of an enumeration. -/
def EnumDecl.Writes (e : EnumDecl) (P : String → Prop) : Prop :=
  ∀ v ∈ e.values, ∀ s, v.value = some s → P s

instance (e : EnumDecl) (P : String → Prop) [DecidablePred P] : Decidable (e.Writes P) :=
  inferInstanceAs (Decidable (∀ v ∈ e.values, ∀ s ∈ v.value, P s))

section Entries

variable {v : EnumValue} {e : EnumDecl}

theorem endsInLine_stubEntry (hname : Unbroken v.name)
    (hv : ∀ s, v.value = some s → Written s) : EndsInLine v.stubEntry := by
  have hline := endsInLine_of_oneLine hname.oneLine
  rw [EnumValue.stubEntry]
  cases hs : v.value with
  | none => exact hline
  | some s => exact (hline.append (by decide)).append (hv s hs).ends

/-- A value goes on over several lines as what is written for it does. -/
theorem continues_stubEntry (hname : Unbroken v.name) :
    Continues v.stubEntry ↔ ∀ s, v.value = some s → Continues s := by
  have hhead : OneLine (v.name ++ " = ") := by simp +decide [hname.oneLine]
  rw [EnumValue.stubEntry]
  cases hs : v.value with
  | none => exact iff_of_true (continues_of_oneLine hname.oneLine) (by rintro s ⟨⟩)
  | some s =>
      rw [continues_append (endsInLine_of_oneLine hhead),
        and_iff_right (continues_of_oneLine hhead)]
      exact ⟨fun h t ht => Option.some.inj ht ▸ h, fun h => h s rfl⟩

/-- **AN ENUMERATION IS SHOWN IN COMMENTS** just when what is written for its
    values goes on in comments. -/
theorem commentsOnly_stubEntry (he : e.Legible) (hwritten : e.Writes Written) :
    CommentsOnly e.stubEntry ↔ e.Writes Continues := by
  have hbegins : Begins "#" e.stubEntry := by
    simp only [EnumDecl.stubEntry, String.append_assoc]
    exact (show Begins "#" "#   " by decide).append _
  have hhead : OneLine ("#   " ++ e.name ++ ": ") := by simp +decide [he.name.oneLine]
  have hends : ∀ p ∈ e.values.map (·.stubEntry), EndsInLine p :=
    List.forall_mem_map.mpr fun v hv => endsInLine_stubEntry (he.values v hv) (hwritten v hv)
  rw [commentsOnly_iff_continues hbegins, EnumDecl.stubEntry,
    continues_append (endsInLine_of_oneLine hhead), and_iff_right (continues_of_oneLine hhead),
    continues_joinStrings (by decide) hends, List.forall_mem_map]
  exact forall₂_congr fun v hv => continues_stubEntry (he.values v hv)

theorem notMem_stubEntry (he : e.Legible) (hwritten : e.Writes Written) :
    '\r' ∉ e.stubEntry.toList := by
  have hvalues : '\r' ∉ (joinStrings ", " (e.values.map (·.stubEntry))).toList := by
    refine notMem_joinStrings (by decide) (List.forall_mem_map.mpr fun v hv => ?_)
    have hname := (he.values v hv).2
    rw [EnumValue.stubEntry]
    cases hs : v.value with
    | none => exact hname
    | some s =>
        have hs' := (hwritten v hv s hs).unified
        simp +decide [String.toList_append, hname, hs']
  have hname := he.name.2
  simp +decide [EnumDecl.stubEntry, String.toList_append, hname, hvalues]

end Entries

/-! ## The stub of a gem -/

/-- **A LEGIBLE GEM**: its name, its classes and its enumerations can be
    shown. -/
structure GemView.Legible (v : GemView) : Prop where
  name : Unbroken v.config.gemName
  classes : ∀ c ∈ v.classes, c.Legible
  enums : ∀ e ∈ v.enums, e.Legible ∧ e.Writes Written

namespace GemView

variable {v : GemView} {rules : TypeRules}

/-- The lines of a stub are those at its head and of its classes, which are
    comments, and the entries of its enumerations. -/
theorem mem_stubLines (hv : v.Legible) {line : String} (hline : line ∈ v.stubLines rules) :
    (Unbroken line ∧ Commented line) ∨ ∃ e ∈ v.enums, line = e.stubEntry := by
  have hhead : Unbroken ("# " ++ v.config.gemName ++ " Ruby bindings") := by
    simp +decide [hv.name]
  rw [stubLines] at hline
  rcases List.mem_append.mp hline with hline | hline
  · rcases List.mem_append.mp hline with hline | hline
    · simp only [List.mem_cons, List.not_mem_nil, or_false] at hline
      rcases hline with rfl | rfl
      · refine .inl ⟨hhead, .inr ?_⟩
        exact ((show Begins "#" "# " by decide).append _).append _
      · exact .inl (by decide)
    · obtain ⟨c, hc, hline⟩ := List.mem_flatMap.mp hline
      exact .inl ((hv.classes c hc).stubLines hline)
  · split at hline
    · exact absurd hline List.not_mem_nil
    · simp only [List.mem_append, List.mem_cons, List.not_mem_nil, or_false, List.mem_map] at hline
      rcases hline with (rfl | rfl) | ⟨e, he, rfl⟩
      · exact .inl (by decide)
      · exact .inl (by decide)
      · exact .inr ⟨e, he, rfl⟩

theorem stubEntry_mem_stubLines {e : EnumDecl} (he : e ∈ v.enums) :
    e.stubEntry ∈ v.stubLines rules := by
  rw [stubLines]
  refine List.mem_append_right _ ?_
  rw [if_neg (by simpa using List.ne_nil_of_mem he)]
  exact List.mem_append_right _ (List.mem_map.mpr ⟨e, he, rfl⟩)

/-- **THE STUB IS COMMENTS ONLY** just when what is written for the values of
    the enumerations outside all classes goes on in comments. -/
theorem commentsOnly_stub (hv : v.Legible) :
    CommentsOnly (textOf (v.stubLines rules)) ↔ ∀ e ∈ v.enums, e.Writes Continues := by
  rw [commentsOnly_textOf]
  constructor
  · intro h e he
    obtain ⟨hlegible, hwritten⟩ := hv.enums e he
    exact (commentsOnly_stubEntry hlegible hwritten).mp (h _ (stubEntry_mem_stubLines he))
  · intro h line hline
    rcases mem_stubLines hv hline with ⟨hunbroken, hcomment⟩ | ⟨e, he, rfl⟩
    · exact hcomment.commentsOnly hunbroken.oneLine
    · obtain ⟨hlegible, hwritten⟩ := hv.enums e he
      exact (commentsOnly_stubEntry hlegible hwritten).mpr (h e he)

/-- The stub has no carriage returns, so that it is written as it is. -/
theorem unifyLineEndsOf_stub (hv : v.Legible) :
    unifyLineEndsOf (textOf (v.stubLines rules)) = textOf (v.stubLines rules) := by
  have hline : ∀ line ∈ v.stubLines rules, '\r' ∉ line.toList := by
    intro line hline
    rcases mem_stubLines hv hline with ⟨hunbroken, -⟩ | ⟨e, he, rfl⟩
    · exact hunbroken.2
    · exact notMem_stubEntry (hv.enums e he).1 (hv.enums e he).2
  have htext : '\r' ∉ (textOf (v.stubLines rules)).toList := by
    simp only [textOf, String.toList_join, List.flatMap_map, List.mem_flatMap,
      String.toList_append, List.mem_append, not_exists, not_and, not_or]
    exact fun line hmem => ⟨hline line hmem, by decide⟩
  rw [unifyLineEndsOf, unifyLineEnds_of_notMem htext, String.ofList_toList]

end GemView

/-! ## What headers declare -/

theorem legible_retain {registry : Registry} {rules : TypeRules} {c : ClassDecl}
    (hc : c.Legible) : (retain registry rules c).Legible where
  name := hc.name
  methods := fun m hm => hc.methods m (List.mem_filter.mp hm).1
  enums := hc.enums

theorem retained_of_selectMethods {registry : Registry} {rules : TypeRules}
    {classes retained : List ClassDecl} {stats : Stats}
    (h : selectMethods registry rules classes = .ok (retained, stats)) :
    retained = classes.map (retain registry rules) := by
  rw [selectMethods] at h
  split at h
  · exact nomatch h
  · exact (congrArg Prod.fst (Except.ok.inj h)).symm

/-- A selection leaves the enumerations of classes as they are. -/
theorem topLevelEnums_of_selectMethods {registry : Registry} {rules : TypeRules}
    {classes retained : List ClassDecl} {stats : Stats} (enums : List EnumDecl)
    (h : selectMethods registry rules classes = .ok (retained, stats)) :
    GemWriter.topLevelEnums retained enums = GemWriter.topLevelEnums classes enums := by
  rw [retained_of_selectMethods h, GemWriter.topLevelEnums, GemWriter.topLevelEnums,
    List.flatMap_map]
  rfl

namespace GemWriter

open Files Template World

variable {f : Header.Frontend} {headers : List String} {g : GemWriter}
  {classes : List ClassDecl} {enums : List EnumDecl} {stats : Stats} {v v' w w' : World}

/-- **THE STUB OF HEADERS**: a run on what the text front end has read from
    headers writes a stub that is comments only just when every value of the
    enumerations outside all classes goes on in comments.  The templates are
    the bundled ones, and any engine will do that fills in that of the stub as
    it is written. -/
theorem stub_commentsOnly_iff (hf : f.engine = .text)
    (hread : outcome (CommandLine.readHeaders f headers) v = (.ok (classes, enums), v'))
    (hg : g.settings.config.Contained) (hname : Unbroken g.settings.config.gemName)
    (hl : g.library.userDirectory = none) (htemplate : g.templates.mrblib = "mrblib.rb.j2")
    (hengine : g.library.engine.FillsIn Bundled.mrblib) (hw : w.Sound)
    (hwet : g.settings.isDryRun = false)
    (hforward : g.settings.outputDir.name ≠ "..")
    (h : outcome (g.run classes enums) w = (.ok stats, w')) :
    ∃ text, w'.tree.at?
          ((g.settings.mrblibDir.child g.settings.config.mrblibFile).resolve w.workDir) =
        some (.file (encode text)) ∧
      (CommentsOnly text ↔ ∀ e ∈ topLevelEnums classes enums, e.Writes Continues) := by
  obtain ⟨hclasses, henums⟩ := Header.gives_readHeaders hf headers _ _ _ hread
  obtain ⟨retained, chosen, v₁, past, text, hchosen, -, htext, hfile⟩ :=
    seen_stub_of_run hw hg hwet hforward h
  have hfind : g.library.find v₁.tree v₁.workDir g.templates.mrblib =
      .ok (some Bundled.mrblib) := by
    rw [htemplate]
    exact Library.find_eq_bundled (fun _ hd => nomatch hl.symm.trans hd) nameSteps_mrblib
      lookup_mrblib
  rw [stubText_of_bundled hfind hengine] at htext
  obtain rfl := Except.ok.inj htext
  have hlegible : GemView.Legible
      ⟨g.settings.config, retained, topLevelEnums retained enums, stats⟩ := by
    refine ⟨hname, ?_, ?_⟩
    · rw [retained_of_selectMethods hchosen]
      exact List.forall_mem_map.mpr fun c hc => legible_retain (hclasses c hc)
    · exact fun e he => henums e (List.mem_filter.mp he).1
  rw [GemView.unifyLineEndsOf_stub hlegible] at hfile
  refine ⟨_, hfile, ?_⟩
  rw [GemView.commentsOnly_stub hlegible, topLevelEnums_of_selectMethods enums hchosen]

/-- A world with a header that declares an enumeration. -/
def sheet : World where
  tree := ({} : FileTree).put ["h"] (.file (encode "enum E \x7b A = 1 \x7d;"))
  log := {}

theorem sound_sheet : sheet.Sound where
  wellFormed := by
    have root : ({} : FileTree).at? [] = some .directory := rfl
    exact FileTree.WellFormed.empty.put root (by decide) (.inr (by decide))
  working := rfl
  onConsole := fun _ h => absurd h List.not_mem_nil

/-- A writer of a gem with the bundled stub. -/
def stubWriter : GemWriter where
  settings := { outputDir := ⟨"", ["o"]⟩, writesManifest := false }
  library := {}
  templates := { cmake := "mrbgem.rake.j2", readme := "mrbgem.rake.j2" }

theorem stub_commentsOnly_sheet :
    ∃ classes enums stats v' w' text,
      outcome (CommandLine.readHeaders {} ["h"]) sheet = (.ok (classes, enums), v') ∧
      outcome (stubWriter.run classes enums) sheet = (.ok stats, w') ∧
      w'.tree.at? ["o", "mrblib", "m5unified.rb"] = some (.file (encode text)) ∧
      CommentsOnly text := by
  have hread : (outcome (CommandLine.readHeaders {} ["h"]) sheet).1.toOption =
      some ([], [{ name := "E", values := [⟨"A", some "1"⟩] }]) := by
    decide +kernel
  have hrun : (outcome (stubWriter.run [] [{ name := "E", values := [⟨"A", some "1"⟩] }])
      sheet).1.isOk = true := by
    -- the moves are sorted by insertion, and the bundled stub is taken as its tree
    simp only [run_eq, Step.staged, Step.commit, Step.filesBelow, mergeSort_namesLe, work,
      writeFiles, writeTemplates, Step.writeText, Step.replaceText, encode, unifyLineEndsOf,
      String.toList_ofList, templateFiles, writeRow, Library.render, under, stubWriter,
      Library.fill_mrblib]
    decide +kernel
  obtain ⟨stats, hrun⟩ := outcome_eq_ok hrun
  cases hheaders : outcome (CommandLine.readHeaders {} ["h"]) sheet with
  | mk read v' =>
      rw [hheaders] at hread
      cases read with
      | error f => exact absurd hread.symm (Option.some_ne_none _)
      | ok declared =>
          obtain rfl := Option.some.inj hread
          obtain ⟨text, hfile, hcomments⟩ := stub_commentsOnly_iff rfl hheaders contained_default
            (by decide) rfl rfl (Engine.fillsIn_standard _) sound_sheet rfl (by decide) hrun
          exact ⟨_, _, stats, v', _, text, rfl, hrun, hfile, hcomments.mpr (by decide)⟩

/-- **A VALUE THAT LEAVES THE COMMENTS**: it is written over two lines, and the
    stub has the second one as it is. -/
theorem stub_leaves_comments :
    let enums := Header.parseEnums "enum E \x7b A = 1 |\n 2 \x7d;".toList
    ∃ text, (Template.read Bundled.mrblib >>= fun n =>
        n.render (GemView.env ⟨{}, [], enums, {}⟩ .default)) = .ok text ∧
      ¬ CommentsOnly text := by
  intro enums
  have hmem : { name := "E", values := [⟨"A", some "1 |\n 2"⟩] } ∈ enums := by decide +kernel
  refine ⟨_, Bundled.render_mrblib _ _, ?_⟩
  rw [commentsOnly_textOf]
  intro hlines
  exact absurd (hlines _ (GemView.stubEntry_mem_stubLines hmem)) (by decide)

end GemWriter
end GemBinder
