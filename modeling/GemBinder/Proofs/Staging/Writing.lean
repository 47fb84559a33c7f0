import GemBinder.Proofs.Files.Locality
import GemBinder.Proofs.Text.Lines
import GemBinder.Proofs.World
import GemBinder.Staging

/-! # Writing below a scratch directory

    A row of writes that ends well leaves below the scratch directory the
    files that were written, each with what was written to it last, and
    changes nothing elsewhere.  Whether it ends well depends on the scratch
    directory alone, so it can be done again in another tree. -/

namespace GemBinder

open Files Text

/-! ## What is told -/

/-- Whether entries of this kind are told at all. -/
def LogSetup.lets (s : LogSetup) (e : LogEntry) : Bool := decide (s.threshold e ≤ e.level)

namespace World

/-- **WHAT HAS BEEN TOLD**: a run has come from one world to another in the
    same surroundings and has told some entries on its way. -/
structure Told (w : World) (entries : List LogEntry) (w' : World) : Prop where
  workDir : w'.workDir = w.workDir
  token : w'.token = w.token
  log : w'.log = w.log
  journal : w'.journal = w.journal ++ entries.filter w.log.lets

variable {w w' w'' : World} {entries more : List LogEntry}

theorem Told.refl (w : World) : w.Told [] w := ⟨rfl, rfl, rfl, (List.append_nil _).symm⟩

theorem Told.trans (h : w.Told entries w') (k : w'.Told more w'') :
    w.Told (entries ++ more) w'' where
  workDir := k.workDir.trans h.workDir
  token := k.token.trans h.token
  log := k.log.trans h.log
  journal := by rw [k.journal, h.journal, h.log, List.filter_append, List.append_assoc]

theorem told_of_tree (w : World) (t : FileTree) : w.Told [] { w with tree := t } :=
  ⟨rfl, rfl, rfl, (List.append_nil _).symm⟩

/-- What is told on the console touches no files. -/
theorem told_tell (hlog : w.log.OnConsole) (e : LogEntry) :
    w.Told [e] (w.tell e) ∧ (w.tell e).tree = w.tree := by
  rw [tell]
  by_cases he : e.level < w.log.threshold e
  · have hquiet : w.log.lets e = false := by simpa [LogSetup.lets] using he
    rw [if_pos he]
    exact ⟨⟨rfl, rfl, rfl, by simp [hquiet]⟩, rfl⟩
  · have hlets : w.log.lets e = true := by simpa [LogSetup.lets] using he
    obtain ⟨console, hw⟩ := foldl_handle e w.log.handlers { w with journal := w.journal ++ [e] } hlog
    rw [if_neg he, hw]
    exact ⟨⟨rfl, rfl, rfl, by simp [hlets]⟩, rfl⟩

/-- **WORLDS SIDE BY SIDE**: two runs from one working directory with one
    token, whose files are related. -/
structure Abreast (R : FileTree → FileTree → Prop) (w v : World) : Prop where
  workDir : v.workDir = w.workDir
  token : v.token = w.token
  left : w.log.OnConsole
  right : v.log.OnConsole
  files : R w.tree v.tree

theorem Abreast.tell {R : FileTree → FileTree → Prop} {v : World} (h : w.Abreast R v)
    (e : LogEntry) : (w.tell e).Abreast R (v.tell e) := by
  obtain ⟨hw, htree⟩ := told_tell h.left e
  obtain ⟨hv, htree'⟩ := told_tell h.right e
  refine ⟨?_, ?_, ?_, ?_, ?_⟩
  · rw [hw.workDir, hv.workDir, h.workDir]
  · rw [hw.token, hv.token, h.token]
  · rw [hw.log]
    exact h.left
  · rw [hv.log]
    exact h.right
  · rw [htree, htree']
    exact h.files

end World

/-! ## Files below a directory -/

/-- The files that writes leave behind a directory, the last one first. -/
def laidOut (writes : List (List String × String)) : List (List String × Bytes) :=
  (writes.map fun (steps, text) =>
    (Path.normalizeFrom [] steps, encode (unifyLineEndsOf text))).reverse

theorem laidOut_cons (steps : List String) (text : String) (writes : List (List String × String)) :
    laidOut ((steps, text) :: writes) =
      laidOut writes ++ [(Path.normalizeFrom [] steps, encode (unifyLineEndsOf text))] := by
  simp [laidOut]

theorem mem_of_lookup_steps {files : List (List String × Bytes)} {steps : List String}
    {content : Bytes} (h : files.lookup steps = some content) : (steps, content) ∈ files := by
  obtain ⟨before, after, rfl, -⟩ := List.lookup_eq_some_iff.mp h
  exact List.mem_append_right _ List.mem_cons_self

/-- **THE LAST WRITE** of a row at its steps, where a `..` takes the step
    before it back: no later write goes there, and what it leaves is its text
    with unified line ends. -/
inductive LastWrite : List (List String × String) → List String → Bytes → Prop where
  | here {names : List String} {text : String} {unified : List Char}
      {writes : List (List String × String)} :
      (∀ e ∈ writes, Path.normalizeFrom [] e.1 ≠ Path.normalizeFrom [] names) →
      LineEndsUnified text.toList unified →
      LastWrite ((names, text) :: writes) (Path.normalizeFrom [] names)
        (encode (String.ofList unified))
  | later {e : List String × String} {steps : List String} {content : Bytes}
      {writes : List (List String × String)} :
      LastWrite writes steps content → LastWrite (e :: writes) steps content

theorem mem_laidOut_steps {steps : List String} {writes : List (List String × String)} :
    (∃ file ∈ laidOut writes, file.1 = steps) ↔
      ∃ e ∈ writes, Path.normalizeFrom [] e.1 = steps := by
  simp [laidOut]

/-- The file that is laid out at some steps is what the last write there
    leaves. -/
theorem lookup_laidOut_iff {steps : List String} {content : Bytes}
    {writes : List (List String × String)} :
    (laidOut writes).lookup steps = some content ↔ LastWrite writes steps content := by
  induction writes with
  | nil => exact ⟨nofun, nofun⟩
  | cons e writes ih =>
      obtain ⟨names, text⟩ := e
      rw [laidOut_cons, List.lookup_append, Option.or_eq_some_iff, ih]
      constructor
      · rintro (hlater | ⟨hnone, hhere⟩)
        · exact .later hlater
        · obtain ⟨rfl, rfl⟩ :=
            Prod.mk.inj (List.mem_singleton.mp (mem_of_lookup_steps hhere))
          refine .here ?_ (lineEndsUnified_iff.mpr rfl)
          intro e he hsame
          obtain ⟨file, hfile, hsteps⟩ := mem_laidOut_steps.mpr ⟨e, he, hsame⟩
          have hother := List.lookup_eq_none_iff.mp hnone file hfile
          simp [hsteps] at hother
      · intro h
        cases h with
        | later hlater => exact .inl hlater
        | here hlast hunified =>
            refine .inr ⟨?_, ?_⟩
            · refine List.lookup_eq_none_iff.mpr fun file hfile => ?_
              obtain ⟨e, he, hsteps⟩ := mem_laidOut_steps.mp ⟨file, hfile, rfl⟩
              simpa [← hsteps] using Ne.symm (hlast e he)
            · rw [List.lookup_cons_self, ← lineEndsUnified_iff.mp hunified, unifyLineEndsOf]

namespace Files

/-- **A TREE WITH FILES LAID OUT** below a place: the files there are these,
    and elsewhere it is the tree that it was. -/
structure Laid (base : FileTree) (place : Place) (files : List (List String × Bytes))
    (t : FileTree) : Prop where
  wellFormed : t.WellFormed
  stands : t.at? place = some .directory
  outside : ∀ q, ¬ place <+: q → t.at? q = base.at? q
  files : ∀ steps content,
    t.at? (place ++ steps) = some (.file content) ↔ files.lookup steps = some content

section

variable {base : FileTree} {workDir : Place} {target staging : Path} {directory : Place}
  {name : String} {files : List (List String × Bytes)} {t t' : FileTree} {names : List String}
  (hb : Beside base workDir target staging directory name)
include hb

/-- A new directory has no files. -/
theorem Beside.laid_start :
    Laid base (directory ++ [name]) [] (base.put (directory ++ [name]) .directory) where
  wellFormed := hb.wellFormed.put hb.stands hb.plain (.inl rfl)
  stands := FileTree.at?_put_self (by simp)
  outside := by
    intro q hq
    refine FileTree.at?_put_of_ne (by simp) ?_
    rintro rfl
    exact hq List.prefix_rfl
  files := by
    intro steps content
    rw [FileTree.at?_put (by simp)]
    split
    · simp
    · rw [hb.nothing_below (List.prefix_append _ _)]
      simp

namespace Laid

theorem holds (ht : Laid base (directory ++ [name]) files t) : base.Holds t :=
  hb.holds_of_outside ht.outside

/-- Directories on a way inward are no files. -/
theorem makes (ht : Laid base (directory ++ [name]) files t) (hin : Path.Inward names)
    {parts : List String} (hparts : parts <+: staging.parts ++ names)
    (h : Disk.Makes workDir ⟨staging.root, parts⟩ t t') :
    Laid base (directory ++ [name]) files t' := by
  have hold := ht.holds hb
  have hwf := h.wellFormed ht.wellFormed (hold _ hb.working)
  rcases h with rfl | ⟨made, hmade, hnone, rfl⟩
  · exact ht
  · obtain ⟨rest, hrest, hwalk⟩ :=
      Disk.reached_of_prefix (hb.locate_staging hold) ht.stands hparts hmade hnone
    obtain rfl := FileTree.eq_normalizeFrom_of_walk hwalk
    rw [Path.normalizeFrom_of_inward (Path.inward_of_prefix hin hrest)] at hnone hwf ⊢
    generalize Path.normalizeFrom [] rest = new at hnone hwf ⊢
    have hnew : directory ++ [name] ≠ directory ++ [name] ++ new := by
      intro heq
      rw [← heq, ht.stands] at hnone
      exact nomatch hnone
    refine ⟨hwf, ?_, ?_, ?_⟩
    · rw [FileTree.at?_put_of_ne (by simp) hnew, ht.stands]
    · intro q hq
      rw [FileTree.at?_put_of_ne (by simp), ht.outside q hq]
      rintro rfl
      exact hq (List.prefix_append _ _)
    · intro steps content
      rw [← ht.files, FileTree.at?_put (by simp)]
      split
      · next heq =>
          rw [heq, hnone]
          simp
      · exact Iff.rfl

theorem ensureDirectory (ht : Laid base (directory ++ [name]) files t) (hin : Path.Inward names) :
    Laid base (directory ++ [name]) files
      (outcome (Disk.ensureDirectory workDir
        { staging with parts := staging.parts ++ names }) t).2 := by
  have keeps : Keeps (Laid base (directory ++ [name]) files)
      (Disk.ensureDirectory workDir { staging with parts := staging.parts ++ names }) :=
    Disk.keeps_ensureDirectory fun _ hparts _ _ hu h => hu.makes hb hin hparts h
  exact keeps t ht

/-- **ONE WRITE** that ends well lays out one more file. -/
theorem writeAtomically (ht : Laid base (directory ++ [name]) files t) (hin : Path.Inward names)
    {token : String} {content : Bytes}
    (h : outcome (Disk.writeAtomically workDir token
      { staging with parts := staging.parts ++ names } content) t = (.ok (), t')) :
    Path.normalizeFrom [] names ≠ [] ∧
      Laid base (directory ++ [name]) ((Path.normalizeFrom [] names, content) :: files) t' := by
  have hold := ht.holds hb
  obtain ⟨hwf, hend⟩ := Disk.outcome_writeAtomically ht.wellFormed (hold _ hb.working) rfl h
  have hgains := Disk.ensureDirectory_gains workDir
    ({ staging with parts := staging.parts ++ names } : Path).parent t
  have hwritten : ∃ place,
      (outcome (Disk.ensureDirectory workDir
          ({ staging with parts := staging.parts ++ names } : Path).parent) t).2.locate workDir
        { staging with parts := staging.parts ++ names } = .ok place ∧
      (outcome (Disk.ensureDirectory workDir
          ({ staging with parts := staging.parts ++ names } : Path).parent) t).2.at? place
        ≠ some .directory ∧
      t'.Same ((outcome (Disk.ensureDirectory workDir
          ({ staging with parts := staging.parts ++ names } : Path).parent) t).2.put place
        (.file content)) := by
    rcases hend with ⟨e, herr, -⟩ | ⟨place, -, hwritten⟩
    · exact nomatch herr
    · exact ⟨place, hwritten⟩
  obtain ⟨place, hl, hplace, same⟩ := hwritten
  obtain rfl := hb.eq_append_of_locate (hold.trans hgains.holds) hin hl
  have hnew : Path.normalizeFrom [] names ≠ [] := by
    intro hnil
    rw [hnil, List.append_nil, hgains.holds _ ht.stands] at hplace
    exact hplace rfl
  refine ⟨hnew, ?_⟩
  have hsome : names ≠ [] := by
    rintro rfl
    exact hnew rfl
  have hu := ht.ensureDirectory hb (Path.inward_of_prefix hin (List.dropLast_prefix names))
  rw [← Path.parent_append hsome] at hu
  generalize (outcome (Disk.ensureDirectory workDir
    ({ staging with parts := staging.parts ++ names } : Path).parent) t).2 = u at *
  refine ⟨hwf, ?_, ?_, ?_⟩
  · rw [same, FileTree.at?_put_of_ne (by simp) (by simp [hnew]), hu.stands]
  · intro q hq
    rw [same, FileTree.at?_put_of_ne (by simp), hu.outside q hq]
    rintro rfl
    exact hq (List.prefix_append _ _)
  · intro steps content'
    rw [same, FileTree.at?_put (by simp)]
    by_cases heq : steps = Path.normalizeFrom [] names
    · rw [heq, if_pos rfl, List.lookup_cons_self]
      simp
    · rw [if_neg (by simpa using heq), List.lookup_cons, beq_eq_false_iff_ne.mpr heq, hu.files]

end Laid
end
end Files

/-! ## A row of writes -/

namespace Step

/-- Texts written one after the other, each behind a directory. -/
def writeAll (writes : List (List String × String)) (root : Path) : Step Unit := do
  for (steps, text) in writes do
    writeText false { root with parts := root.parts ++ steps } text

/-- What is told of a file that is written. -/
def writeEntry (p : Path) : LogEntry := { level := Level.debug, message := s!"[stage] {p}" }

variable {w w' : World} {p : Path} {text : String}

theorem outcome_reporting_of_ok {α : Type} {x : Step α} {report : DiskError → Report} {a : α}
    (h : outcome x w = (.ok a, w')) : outcome (reporting report x) w = (.ok a, w') :=
  outcome_tryCatch_of_ok h

theorem outcome_reporting_of_error {α : Type} {x : Step α} (report : DiskError → Report)
    {f : Failure} (h : outcome x w = (.error f, w')) :
    ∃ f', outcome (reporting report x) w = (.error f', w') := by
  rw [reporting, outcome_tryCatch_of_error h]
  cases f with
  | disk e => exact ⟨_, rfl⟩
  | _ => exact ⟨_, rfl⟩

theorem replaceText_eq (p : Path) (text : String) :
    replaceText p text = get >>= fun w => disk fun workDir =>
      Disk.writeAtomically workDir w.token p (encode (unifyLineEndsOf text)) := rfl

theorem writeText_eq (p : Path) (text : String) :
    writeText false p text = reporting
        (fun e => outputReport s!"Failed to write {p}: {e.message}" p) (replaceText p text) >>=
      fun _ => modify (·.tell (writeEntry p)) := rfl

/-- A write ends well just when the file does get its place, and then tells
    so. -/
theorem outcome_writeText_eq_ok :
    outcome (writeText false p text) w = (.ok (), w') ↔
      ∃ t', outcome (Disk.writeAtomically w.workDir w.token p (encode (unifyLineEndsOf text)))
          w.tree = (.ok (), t') ∧
        w' = { w with tree := t' }.tell (writeEntry p) := by
  have hreplace : outcome (replaceText p text) w =
      ((outcome (Disk.writeAtomically w.workDir w.token p (encode (unifyLineEndsOf text)))
          w.tree).1.mapError .disk,
        { w with tree := (outcome (Disk.writeAtomically w.workDir w.token p
          (encode (unifyLineEndsOf text))) w.tree).2 }) := by
    rw [replaceText_eq, outcome_get_bind, outcome_disk]
  rw [writeText_eq]
  rcases hdisk : outcome (Disk.writeAtomically w.workDir w.token p
    (encode (unifyLineEndsOf text))) w.tree with ⟨r, t'⟩
  rw [hdisk] at hreplace
  cases r with
  | error e =>
      obtain ⟨f, hreport⟩ := outcome_reporting_of_error
        (fun e => outputReport s!"Failed to write {p}: {e.message}" p) hreplace
      rw [outcome_bind_of_error hreport]
      constructor
      · intro h
        exact nomatch congrArg Prod.fst h
      · rintro ⟨t'', h, -⟩
        exact nomatch congrArg Prod.fst h
  | ok _ =>
      rw [outcome_bind_of_ok (outcome_reporting_of_ok hreplace), outcome_modify]
      constructor
      · intro h
        exact ⟨t', rfl, (congrArg Prod.snd h).symm⟩
      · rintro ⟨t'', h, rfl⟩
        cases h
        rfl

/-- A text that is written makes of the files what its write does. -/
theorem site_of_writeText {workDir : Place} {P Q : FileTree → Prop} (hw : w.Site workDir P)
    (hwrite : ∀ {t'}, outcome (Disk.writeAtomically workDir w.token p
      (encode (unifyLineEndsOf text))) w.tree = (.ok (), t') → Q t')
    (h : outcome (writeText false p text) w = (.ok (), w')) : w'.Site workDir Q := by
  obtain ⟨t', hdisk, rfl⟩ := outcome_writeText_eq_ok.mp h
  rw [hw.workDir] at hdisk
  have hsite : World.Site workDir Q { w with tree := t' } :=
    ⟨hwrite hdisk, hw.workDir, hw.onConsole⟩
  exact hsite.tell _

/-- The first write of a row, and the others behind it. -/
theorem outcome_writeAll_cons_eq_ok {steps : List String} {writes : List (List String × String)}
    {root : Path} :
    outcome (writeAll ((steps, text) :: writes) root) w = (.ok (), w') ↔
      ∃ w₁, outcome (writeText false { root with parts := root.parts ++ steps } text) w =
          (.ok (), w₁) ∧ outcome (writeAll writes root) w₁ = (.ok (), w') := by
  rw [writeAll, List.forIn_cons, bind_assoc, bind_assoc, outcome_bind_eq_ok]
  constructor
  · rintro ⟨_, w₁, hfirst, hrest⟩
    exact ⟨w₁, hfirst, hrest⟩
  · rintro ⟨w₁, hfirst, hrest⟩
    exact ⟨(), w₁, hfirst, hrest⟩

section

variable {base : FileTree} {workDir : Place} {target staging : Path} {directory : Place}
  {name : String} {writes : List (List String × String)}
  (hb : Beside base workDir target staging directory name)
include hb

/-- **A ROW OF WRITES** that ends well lays out the files that it writes. -/
theorem laid_writeAll {files : List (List String × Bytes)}
    (hin : ∀ e ∈ writes, Path.Inward e.1)
    (hw : w.Site workDir (Laid base (directory ++ [name]) files))
    (h : outcome (writeAll writes staging) w = (.ok (), w')) :
    (∀ file ∈ laidOut writes, file.1 ≠ []) ∧
      w'.Site workDir (Laid base (directory ++ [name]) (laidOut writes ++ files)) ∧
      w.Told (writes.map fun e => writeEntry { staging with parts := staging.parts ++ e.1 }) w' := by
  induction writes generalizing w files with
  | nil =>
      cases h
      exact ⟨nofun, hw, World.Told.refl _⟩
  | cons e writes ih =>
      obtain ⟨steps, text⟩ := e
      obtain ⟨w₁, hfirst, hrest⟩ := outcome_writeAll_cons_eq_ok.mp h
      obtain ⟨t', hdisk, rfl⟩ := outcome_writeText_eq_ok.mp hfirst
      rw [hw.workDir] at hdisk
      obtain ⟨hsome, hlaid⟩ := hw.files.writeAtomically hb (hin _ List.mem_cons_self) hdisk
      have hsite : World.Site workDir _ { w with tree := t' } := ⟨hlaid, hw.workDir, hw.onConsole⟩
      have htold := (World.told_of_tree w t').trans (World.told_tell hsite.onConsole
        (writeEntry { staging with parts := staging.parts ++ steps })).1
      obtain ⟨hsome', hsite', htold'⟩ :=
        ih (fun e he => hin e (List.mem_cons_of_mem _ he)) (hsite.tell _) hrest
      rw [laidOut_cons]
      refine ⟨?_, ?_, htold.trans htold'⟩
      · intro file hmem
        rcases List.mem_append.mp hmem with hmem | hmem
        · exact hsome' file hmem
        · rw [List.mem_singleton.mp hmem]
          exact hsome
      · rw [List.append_assoc]
        exact hsite'

/-- **A ROW OF WRITES CAN BE DONE AGAIN** in another tree that agrees with
    the first one below the scratch directory. -/
theorem exists_writeAll {base' : FileTree}
    (hb' : Beside base' workDir target staging directory name) {v : World}
    (hin : ∀ e ∈ writes, Path.Inward e.1 ∧ e.1 ≠ [])
    (hwv : w.Abreast (FileTree.Twins base base' (directory ++ [name])) v)
    (hworkDir : w.workDir = workDir)
    (h : outcome (writeAll writes staging) w = (.ok (), w')) :
    ∃ v', outcome (writeAll writes staging) v = (.ok (), v') := by
  induction writes generalizing w v with
  | nil => exact ⟨v, rfl⟩
  | cons e writes ih =>
      obtain ⟨steps, text⟩ := e
      obtain ⟨hsteps, hsome⟩ := hin _ List.mem_cons_self
      obtain ⟨w₁, hfirst, hrest⟩ := outcome_writeAll_cons_eq_ok.mp h
      obtain ⟨t', hdisk, rfl⟩ := outcome_writeText_eq_ok.mp hfirst
      subst hworkDir
      have hmatched := Disk.matched_writeAtomically hb hb' hwv.files hsteps hsome w.token
        (encode (unifyLineEndsOf text))
      rw [hdisk] at hmatched
      rcases hdisk' : outcome (Disk.writeAtomically w.workDir w.token
        { staging with parts := staging.parts ++ steps } (encode (unifyLineEndsOf text))) v.tree
        with ⟨r, u'⟩
      rw [hdisk'] at hmatched
      obtain ⟨hr, htwins⟩ := hmatched
      obtain rfl : Except.ok () = r := hr
      rw [← hwv.workDir, ← hwv.token] at hdisk'
      have hnext : World.Abreast _ { w with tree := t' } { v with tree := u' } :=
        ⟨hwv.workDir, hwv.token, hwv.left, hwv.right, htwins⟩
      have hback : ({ w with tree := t' }.tell (writeEntry
          { staging with parts := staging.parts ++ steps })).workDir = w.workDir :=
        (World.told_tell hnext.left _).1.workDir
      obtain ⟨v', hv'⟩ := ih (fun e he => hin e (List.mem_cons_of_mem _ he)) (hnext.tell _)
        hback hrest
      exact ⟨v', outcome_writeAll_cons_eq_ok.mpr
        ⟨_, outcome_writeText_eq_ok.mpr ⟨u', hdisk', rfl⟩, hv'⟩⟩

end
end Step
end GemBinder
