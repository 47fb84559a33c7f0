import GemBinder.Files.Writing
import GemBinder.Proofs.Files.Locality
import GemBinder.Proofs.Text.CodePoint

/-! # What writing a text does to a tree

    A text that has bytes is written as they are (`outcome_replaceText_of_encodes`),
    and one that has none is not written.  On every way out the files are those
    of before, but for the one that is replaced: what can be gained besides are
    directories on the way to it, and the file that is made beside it is gone
    (`replaced_or_untouched`). -/

namespace GemBinder

open Text

namespace Files

open FileTree

variable {workDir : Place} {token : String} {p : Path} {t t' u : FileTree} {place q : Place}
  {text : List CodePoint} {content : Bytes}

/-! ## Directories that are there -/

namespace Disk

theorem directory_of_makeDirectory (h : outcome (makeDirectory workDir p) t = (.ok (), u)) :
    u.isDirectory workDir p = true := by
  cases hl : t.locate workDir p with
  | error fault =>
      rw [outcome_makeDirectory_of_error hl] at h
      exact nomatch congrArg Prod.fst h
  | ok place =>
      rw [outcome_makeDirectory_of_ok hl] at h
      split at h
      · exact nomatch congrArg Prod.fst h
      · next hnone =>
          have hmakes := makes_makeDirectory workDir p t
          rw [outcome_makeDirectory_of_ok hl, if_neg hnone] at hmakes
          cases h
          have hne : place ≠ [] := by
            rintro rfl
            exact hnone rfl
          exact isDirectory_iff.mpr
            ⟨place, hmakes.gains.holds.locate hl, at?_put_self hne⟩

theorem directory_of_allowDirectory (h : outcome (allowDirectory workDir p) t = (.ok (), u)) :
    u.isDirectory workDir p = true := by
  rw [allowDirectory] at h
  rcases hmake : outcome (makeDirectory workDir p) t with ⟨r, v⟩
  cases r with
  | ok _ =>
      rw [outcome_tryCatch_of_ok hmake] at h
      cases h
      exact directory_of_makeDirectory hmake
  | error e =>
      rw [outcome_tryCatch_of_error hmake, outcome_get_bind] at h
      split at h
      · next hthere =>
          cases h
          exact hthere
      · cases congrArg Prod.fst h

/-- **A DIRECTORY THAT IS ENSURED IS THERE**. -/
theorem directory_of_ensureDirectory (h : outcome (ensureDirectory workDir p) t = (.ok (), u)) :
    u.isDirectory workDir p = true := by
  obtain ⟨root, parts⟩ := p
  rw [ensureDirectory] at h
  rcases List.eq_nil_or_concat' parts with rfl | ⟨before, last, rfl⟩
  · exact directory_of_allowDirectory h
  · have hparts : (before ++ [last]).reverse = last :: before.reverse := by simp
    have hpath : (last :: before.reverse).reverse = before ++ [last] := by simp
    rw [hparts, ensureFrom, hpath] at h
    rcases hmake : outcome (makeDirectory workDir ⟨root, before ++ [last]⟩) t with ⟨r, v⟩
    cases r with
    | ok _ =>
        rw [outcome_tryCatch_of_ok hmake] at h
        cases h
        exact directory_of_makeDirectory hmake
    | error e =>
        rw [outcome_tryCatch_of_error hmake] at h
        split at h
        · obtain ⟨_, w, -, hallow⟩ := outcome_bind_eq_ok.mp h
          exact directory_of_allowDirectory hallow
        · rw [outcome_get_bind] at h
          split at h
          · next hthere =>
              cases h
              exact hthere
          · cases congrArg Prod.fst h

/-- A file that is there takes its place, if the path ends in a name and no
    directory stands where it leads. -/
theorem outcome_replace_of_file {source : Place} {shown : Path} {e : Entry}
    (hl : t.locate workDir p = .ok place) (hparts : p.parts ≠ []) (hname : p.name ≠ "..")
    (hplace : t.at? place ≠ some .directory) (hsource : t.at? source = some e) :
    outcome (replace workDir source shown p) t = (.ok (), (t.prune source).put place e) := by
  have hbusy : (p.parts.isEmpty || p.name == "..") = false := by
    rw [Bool.or_eq_false_iff]
    exact ⟨by simpa using hparts, beq_eq_false_iff_ne.mpr hname⟩
  rw [replace, outcome_get_bind, hl]
  simp only [hbusy, Bool.false_eq_true, if_false, hsource]
  rfl

/-- A path that leads to no directory, behind a directory that is there, ends
    in a name: a step back would lead to one, and so would no step at all. -/
theorem locate_of_not_directory {directory : Place} (hu : u.WellFormed)
    (hl : u.locate workDir p.parent = .ok directory) (hdir : u.at? directory = some .directory)
    (hp : u.isDirectory workDir p = false) :
    p.parts ≠ [] ∧ p.name ≠ ".." ∧ u.locate workDir p = .ok (directory ++ [p.name]) := by
  have hno : ∀ {q}, u.locate workDir p = .ok q → u.at? q ≠ some .directory :=
    fun hq hdir => Bool.eq_false_iff.mp hp (isDirectory_iff.mpr ⟨_, hq, hdir⟩)
  rcases p.lastStep_cases with hlast | hlast
  · have hparent : p.parent = p := by
      have hparts := p.parent_parts_append
      rw [hlast, List.append_nil] at hparts
      exact congrArg (Path.mk p.root) hparts
    rw [hparent] at hl
    exact absurd hdir (hno hl)
  · have hstep : ∀ q, u.locate workDir p = .ok q ↔
        q = if p.name == ".." then directory.dropLast else directory ++ [p.name] := by
      intro q
      have hparts : p = { p.parent with parts := p.parent.parts ++ [p.name] } := by
        rw [← hlast, p.parent_parts_append]
        rfl
      rw [hparts, locate_append_of_ok hl, walk_singleton, and_iff_right hdir, ← hparts]
    have hname : p.name ≠ ".." := by
      intro hback
      have hq := (hstep directory.dropLast).mpr (by rw [hback]; rfl)
      refine hno hq ?_
      rcases List.eq_nil_or_concat' directory with rfl | ⟨d, s, rfl⟩
      · rfl
      · rw [List.dropLast_concat]
        exact hu.inDirectory d s (by rw [hdir]; exact Option.some_ne_none _)
    refine ⟨?_, hname, (hstep _).mpr (by rw [beq_eq_false_iff_ne.mpr hname]; rfl)⟩
    intro hnil
    rw [Path.lastStep, hnil] at hlast
    cases hlast

/-- **A FILE IS REPLACED** as soon as there is a directory for it and none in
    its place. -/
theorem outcome_writeAtomically_of_directory (ht : t.WellFormed)
    (hwork : t.at? workDir = some .directory)
    (hens : outcome (ensureDirectory workDir p.parent) t = (.ok (), u))
    (hp : u.isDirectory workDir p = false) :
    (outcome (writeAtomically workDir token p content) t).1 = .ok () := by
  have hwf : u.WellFormed := by
    have h := ensureDirectory_wellFormed (p := p.parent) ht hwork
    rwa [hens] at h
  obtain ⟨directory, hl, hdir⟩ := isDirectory_iff.mp (directory_of_ensureDirectory hens)
  obtain ⟨hparts, hname, hplace⟩ := locate_of_not_directory hwf hl hdir hp
  have hlocate : outcome (locate workDir p.parent) u = (.ok directory, u) := by
    rw [outcome_locate, hl]
    rfl
  rw [writeAtomically, outcome_bind_of_ok hens, outcome_bind_of_ok hlocate, outcome_get_bind,
    outcome_modify_bind]
  generalize hscratch : directory ++ [freshName u directory _] = scratch
  have hfree : u.at? scratch = none := by
    rw [← hscratch]
    exact at?_freshName u directory _
  have hne : scratch ≠ [] := by
    rintro rfl
    cases hfree
  have hthere : (u.put scratch (.file content)).locate workDir p =
      .ok (directory ++ [p.name]) := by
    refine Holds.locate (fun q hq => ?_) hplace
    rw [at?_put_of_ne hne, hq]
    rintro rfl
    cases hfree.symm.trans hq
  have hclear : (u.put scratch (.file content)).at? (directory ++ [p.name]) ≠
      some .directory := by
    rw [at?_put hne]
    split
    · rintro ⟨⟩
    · exact fun hdir => Bool.eq_false_iff.mp hp (isDirectory_iff.mpr ⟨_, hplace, hdir⟩)
  rw [outcome_tryCatch_of_ok
    (outcome_replace_of_file hthere hparts hname hclear (at?_put_self hne))]

end Disk

/-! ## Texts that have bytes, and texts that have none -/

namespace Writing

/-- The end of an operation on files, as writing has it. -/
def told {α : Type} (o : Except DiskError α × FileTree) : Except WriteError α × FileTree :=
  (o.1.mapError .disk, o.2)

theorem outcome_ofDisk {α : Type} (d : Disk α) (t : FileTree) :
    outcome (ofDisk d) t = told (outcome d t) := rfl

/-- Two steps end alike if the second ones do. -/
theorem outcome_ofDisk_bind {α β : Type} {d : Disk α} {f : α → Writing β} {g : α → Disk β}
    (h : ∀ a u, outcome (f a) u = told (outcome (g a) u)) (t : FileTree) :
    outcome (ofDisk d >>= f) t = told (outcome (d >>= g) t) := by
  have hd := outcome_ofDisk d t
  rcases hfirst : outcome d t with ⟨r, u⟩
  rw [hfirst] at hd
  cases r with
  | error e =>
      rw [outcome_bind_of_error hfirst, outcome_bind_of_error hd]
      rfl
  | ok a => rw [outcome_bind_of_ok hfirst, outcome_bind_of_ok hd, h]

/-- A new entry that is written over leaves nothing behind. -/
theorem put_put {e f : Entry} (hfree : t.at? place = none) :
    (t.put place e).put place f = t.put place f := by
  have hne : place ≠ [] := by
    rintro rfl
    cases hfree
  rw [at?_eq_lookup hne] at hfree
  have hnew : (t.entries ++ [(place, e)]).lookup place = some e := by
    rw [List.lookup_append, hfree]
    simp
  simp only [put, hfree, hnew, Option.isSome_some, Option.isSome_none, Bool.false_eq_true,
    if_true, if_false, List.map_append, List.map_cons, List.map_nil, beq_self_eq_true]
  -- no older entry has this place
  refine congrArg (fun l => FileTree.mk (l ++ [(place, f)])) ?_
  refine (List.map_congr_left ?_).trans (List.map_id _)
  rintro ⟨q, g⟩ hmem
  have hq : (q == place) = false := by
    rw [Bool.eq_false_iff]
    intro heq
    have hsome : (t.entries.lookup place).isSome = true :=
      List.lookup_isSome_iff.mpr ⟨(q, g), hmem, by simpa using (beq_iff_eq.mp heq).symm⟩
    rw [hfree] at hsome
    cases hsome
  simp only [hq, Bool.false_eq_true, if_false, id]

/-- **A TEXT THAT HAS BYTES IS WRITTEN AS THEY ARE**. -/
theorem outcome_replaceText_of_encodes
    (henc : encodePoints (CodePoint.unifyLineEnds text) = .ok content) (t : FileTree) :
    outcome (replaceText workDir token p text) t =
      told (outcome (Disk.writeAtomically workDir token p content) t) := by
  refine outcome_ofDisk_bind (fun _ _ => outcome_ofDisk_bind (fun directory u => ?_) _) t
  simp only [outcome_get_bind, outcome_modify_bind]
  generalize hscratch : directory ++ [Disk.freshName u directory _] = scratch
  have hfree : u.at? scratch = none := by
    rw [← hscratch]
    exact Disk.at?_freshName u directory _
  generalize Path.ofPlace _ = shown
  have hfill : outcome (fill workDir scratch shown p text) (u.put scratch (.file [])) =
      told (outcome (Disk.replace workDir scratch shown p) (u.put scratch (.file content))) := by
    simp only [fill, henc]
    rw [outcome_modify_bind, put_put hfree, outcome_ofDisk]
  rcases hmove : outcome (Disk.replace workDir scratch shown p) (u.put scratch (.file content))
    with ⟨r, v⟩
  rw [hmove] at hfill
  cases r with
  | error e =>
      rw [outcome_tryCatch_of_error hmove, outcome_tryCatch_of_error hfill, outcome_modify_bind,
        outcome_modify_bind]
      rfl
  | ok _ =>
      rw [outcome_tryCatch_of_ok hmove, outcome_tryCatch_of_ok hfill]
      rfl

/-- **A TEXT THAT HAS NO BYTES IS NOT WRITTEN**, and only directories are left
    of it. -/
theorem outcome_replaceText_of_error {e : EncodeError} {r : Except WriteError Unit}
    (ht : t.WellFormed) (hwork : t.at? workDir = some .directory)
    (henc : encodePoints (CodePoint.unifyLineEnds text) = .error e)
    (h : outcome (replaceText workDir token p text) t = (r, t')) :
    (∃ f, r = .error f) ∧
      t'.Same (outcome (Disk.ensureDirectory workDir p.parent) t).2 := by
  have hwf := Disk.ensureDirectory_wellFormed (p := p.parent) ht hwork
  have hmade := outcome_ofDisk (Disk.ensureDirectory workDir p.parent) t
  rw [replaceText] at h
  rcases hens : outcome (Disk.ensureDirectory workDir p.parent) t with ⟨made, u⟩
  rw [hens] at hmade hwf
  cases made with
  | error f =>
      rw [outcome_bind_of_error hmade] at h
      cases h
      exact ⟨⟨_, rfl⟩, Same.refl _⟩
  | ok _ =>
      rw [outcome_bind_of_ok hmade] at h
      have hfound := outcome_ofDisk (Disk.locate workDir p.parent) u
      rw [Disk.outcome_locate] at hfound
      cases hl : u.locate workDir p.parent with
      | error fault =>
          rw [hl] at hfound
          rw [outcome_bind_of_error hfound] at h
          cases h
          exact ⟨⟨_, rfl⟩, Same.refl _⟩
      | ok directory =>
          rw [hl] at hfound
          rw [outcome_bind_of_ok hfound, outcome_get_bind, outcome_modify_bind] at h
          -- nothing is filled in, and the new file is removed again
          have hfill : ∀ place shown v, outcome (fill workDir place shown p text) v =
              (.error (.text e), v) := by
            intro place shown v
            simp only [fill, henc]
            rfl
          rw [outcome_tryCatch_of_error (hfill _ _ _), outcome_modify_bind] at h
          cases h
          exact ⟨⟨_, rfl⟩, Disk.same_prune_put hwf (Disk.at?_freshName _ _ _)⟩

/-! ## Both ways out -/

/-- Bytes that are written stand where the path leads, and no other file is
    changed. -/
theorem read_of_writeAtomically (ht : t.WellFormed) (hwork : t.at? workDir = some .directory)
    (h : outcome (Disk.writeAtomically workDir token p content) t = (.ok (), t')) :
    t'.read workDir p = .ok content ∧
      ∀ q ≠ p.resolve workDir, ∀ other,
        t'.at? q = some (.file other) ↔ t.at? q = some (.file other) := by
  have hgains := Disk.ensureDirectory_gains workDir p.parent t
  obtain ⟨-, hend⟩ := Disk.outcome_writeAtomically ht hwork rfl h
  generalize (outcome (Disk.ensureDirectory workDir p.parent) t).2 = u at *
  rcases hend with ⟨e, herror, -⟩ | ⟨place, -, hl, hplace, same⟩
  · exact nomatch herror
  · have hne : place ≠ [] := by
      rintro rfl
      exact hplace rfl
    have hholds : u.Holds t' := by
      intro q hq
      rw [same, at?_put_of_ne hne, hq]
      rintro rfl
      exact hplace hq
    refine ⟨read_eq_ok.mpr ⟨place, hholds.locate hl, ?_⟩, fun q hq other => ?_⟩
    · rw [same, at?_put_self hne]
    · rw [← eq_resolve_of_locate hl] at hq
      rw [same, at?_put_of_ne hne hq, hgains.file_iff]

/-- Bytes that are not written leave the files as they are. -/
theorem files_of_writeAtomically_error {e : DiskError} (ht : t.WellFormed)
    (hwork : t.at? workDir = some .directory)
    (h : outcome (Disk.writeAtomically workDir token p content) t = (.error e, t')) :
    ∀ q other, t'.at? q = some (.file other) ↔ t.at? q = some (.file other) := by
  obtain ⟨-, hend⟩ := Disk.outcome_writeAtomically ht hwork rfl h
  rcases hend with ⟨f, -, same⟩ | ⟨place, hok, -⟩
  · intro q other
    rw [same, (Disk.ensureDirectory_gains workDir p.parent t).file_iff]
  · exact nomatch hok

/-- Bytes are written just when there is a directory for the file and none in
    its place. -/
theorem writeAtomically_eq_ok_iff (ht : t.WellFormed) (hwork : t.at? workDir = some .directory) :
    (outcome (Disk.writeAtomically workDir token p content) t).1 = .ok () ↔
      (outcome (Disk.ensureDirectory workDir p.parent) t).1 = .ok () ∧
        (outcome (Disk.ensureDirectory workDir p.parent) t).2.isDirectory workDir p = false := by
  rcases hens : outcome (Disk.ensureDirectory workDir p.parent) t with ⟨made, u⟩
  constructor
  · intro hok
    rcases hrun : outcome (Disk.writeAtomically workDir token p content) t with ⟨r, t'⟩
    rw [hrun] at hok
    obtain rfl : r = .ok () := hok
    obtain ⟨-, hend⟩ := Disk.outcome_writeAtomically ht hwork (congrArg Prod.snd hens) hrun
    rcases hend with ⟨f, hfailed, -⟩ | ⟨place, -, hl, hplace, -⟩
    · exact nomatch hfailed
    · refine ⟨?_, ?_⟩
      · obtain ⟨_, v, hfirst, -⟩ := outcome_bind_eq_ok.mp hrun
        rw [hens] at hfirst
        exact congrArg Prod.fst hfirst
      · rw [Bool.eq_false_iff]
        intro hdir
        obtain ⟨q, hq, hstands⟩ := isDirectory_iff.mp hdir
        obtain rfl := Except.ok.inj (hl.symm.trans hq)
        exact hplace hstands
  · rintro ⟨hmade, hp⟩
    obtain rfl : made = .ok () := hmade
    exact Disk.outcome_writeAtomically_of_directory ht hwork hens hp

/-- **REPLACED OR UNTOUCHED.**  Either the text has bytes, the path holds them
    with unified line ends, and every other file is as it was; or there is an
    error, and every file is as it was, so that the one made beside the old file
    is gone.  The first is the case just when the text is a string, there is a
    directory for the file, and none in its place; and strings are written as
    the generator writes them. -/
theorem replaced_or_untouched {r : Except WriteError Unit} (ht : t.WellFormed)
    (hwork : t.at? workDir = some .directory)
    (h : outcome (replaceText workDir token p text) t = (r, t')) :
    ((r = .ok () ∧
        (∃ s, text = CodePoint.ofString s ∧ '\r' ∉ (unifyLineEndsOf s).toList ∧
          t'.read workDir p = .ok (encode (unifyLineEndsOf s))) ∧
        ∀ q ≠ p.resolve workDir, ∀ content,
          t'.at? q = some (.file content) ↔ t.at? q = some (.file content)) ∨
      (∃ e, r = .error e) ∧
        ∀ q content, t'.at? q = some (.file content) ↔ t.at? q = some (.file content)) ∧
    (r = .ok () ↔ (∃ s, text = CodePoint.ofString s) ∧
      (outcome (Disk.ensureDirectory workDir p.parent) t).1 = .ok () ∧
      (outcome (Disk.ensureDirectory workDir p.parent) t).2.isDirectory workDir p = false) ∧
    ∀ s, text = CodePoint.ofString s →
      (r, t') = told (outcome
        (Disk.writeAtomically workDir token p (encode (unifyLineEndsOf s))) t) := by
  rcases encodePoints_cases text with ⟨s, rfl, henc⟩ | ⟨hno, e, henc⟩
  · have hrun : outcome (replaceText workDir token p (CodePoint.ofString s)) t =
        told (outcome (Disk.writeAtomically workDir token p (encode (unifyLineEndsOf s))) t) :=
      outcome_replaceText_of_encodes henc t
    have hiff : (outcome (Disk.writeAtomically workDir token p
        (encode (unifyLineEndsOf s))) t).1 = .ok () ↔ _ := writeAtomically_eq_ok_iff ht hwork
    rw [h] at hrun
    refine ⟨?_, ?_, fun s' hs' => CodePoint.ofString_inj hs' ▸ hrun⟩
    · rcases hbytes : outcome (Disk.writeAtomically workDir token p
        (encode (unifyLineEndsOf s))) t with ⟨moved, v⟩
      rw [hbytes] at hrun
      cases hrun
      cases moved with
      | error f => exact .inr ⟨⟨_, rfl⟩, files_of_writeAtomically_error ht hwork hbytes⟩
      | ok _ =>
          obtain ⟨hread, hothers⟩ := read_of_writeAtomically ht hwork hbytes
          refine .inl ⟨rfl, ⟨s, rfl, ?_, hread⟩, hothers⟩
          rw [unifyLineEndsOf, String.toList_ofList]
          exact notMem_unifyLineEnds _
    · rw [and_iff_right ⟨s, rfl⟩, ← hiff, (Prod.mk.inj hrun).1]
      cases (outcome (Disk.writeAtomically workDir token p (encode (unifyLineEndsOf s))) t).1 with
      | error f => exact iff_of_false (by rintro ⟨⟩) (by rintro ⟨⟩)
      | ok _ => exact iff_of_true rfl rfl
  · obtain ⟨⟨f, rfl⟩, same⟩ := outcome_replaceText_of_error ht hwork henc h
    refine ⟨.inr ⟨⟨f, rfl⟩, fun q content => ?_⟩, ?_, fun s hs => absurd hs (hno s)⟩
    · rw [same, (Disk.ensureDirectory_gains workDir p.parent t).file_iff]
    · exact iff_of_false (by rintro ⟨⟩) fun hok => hok.1.elim hno

/-- A directory with a file in it. -/
def drawer : FileTree := (({} : FileTree).put ["d"] .directory).put ["d", "x"] (.file [0x78])

theorem wellFormed_drawer : drawer.WellFormed := by
  have hroot : ({} : FileTree).at? [] = some .directory := rfl
  have hdir : (({} : FileTree).put ["d"] .directory).WellFormed :=
    WellFormed.empty.put hroot (by decide) (.inl rfl)
  have hfile : ((({} : FileTree).put ["d"] .directory).put (["d"] ++ ["x"])
      (.file [0x78])).WellFormed := hdir.put rfl (by decide) (.inr (by decide))
  exact hfile

theorem replaced_or_untouched_drawer :
    let written := outcome
      (replaceText [] "t" ⟨"", ["d", "n", "o"]⟩ (CodePoint.ofString "a\r\nb\rc\n")) drawer
    let refused := outcome
      (replaceText [] "t" ⟨"", ["d", "x"]⟩ [.char 'a', .half 0]) drawer
    drawer.WellFormed ∧ drawer.at? [] = some .directory ∧ written.1 = .ok () ∧
      written.2.read [] ⟨"", ["d", "n", "o"]⟩ = .ok (encode "a\nb\nc\n") ∧
      written.2.at? ["d", "x"] = some (.file [0x78]) ∧
      (∃ e, refused.1 = .error e) ∧ refused.2.at? ["d", "x"] = some (.file [0x78]) := by
  intro written refused
  obtain ⟨hends, hok, -⟩ := replaced_or_untouched wellFormed_drawer rfl
    (show written = (written.1, written.2) from rfl)
  have hwritten : written.1 = .ok () := hok.mpr ⟨⟨_, rfl⟩, by decide +kernel, by decide +kernel⟩
  refine ⟨wellFormed_drawer, rfl, hwritten, ?_⟩
  rcases hends with ⟨-, ⟨s, hs, -, hread⟩, hothers⟩ | ⟨⟨e, herror⟩, -⟩
  · obtain rfl : "a\r\nb\rc\n" = s :=
      String.toList_inj.mp ((List.map_injective_iff.mpr fun _ _ => CodePoint.char.inj) hs)
    refine ⟨hread.trans (by decide +kernel), (hothers _ (by decide) _).mpr rfl, ?_⟩
    obtain ⟨⟨hrefused, -⟩ | ⟨herror, hsame⟩, hok', -⟩ :=
      replaced_or_untouched wellFormed_drawer rfl
        (show refused = (refused.1, refused.2) from rfl)
    · obtain ⟨s, hs⟩ := (hok'.mp hrefused).1
      have hhalf : CodePoint.half 0 ∈ CodePoint.ofString s := by
        rw [← hs]
        decide
      exact absurd hhalf (CodePoint.half_notMem_ofString 0 s)
    · exact ⟨herror, (hsame _ _).mpr rfl⟩
  · exact nomatch hwritten.symm.trans herror

end Writing
end Files
end GemBinder
