import Mathlib.Data.List.Perm.Subperm
import GemBinder.Proofs.Files.Tree
import GemBinder.Proofs.Outcome

/-! # What operations do to a tree

    Making a directory puts an entry where a path leads and nothing stands,
    or does nothing.  Making the directories on the way to one is a row of
    such steps, so it only gains directories, also where it fails.  Writing a
    file in one step ends with the file in its place or with no file
    changed, and never with its scratch file left. -/

namespace GemBinder.Files

open Text

namespace Disk

open FileTree

variable {workDir : Place} {p : Path} {t t' u : FileTree} {place q : Place}

/-! ## Directories -/

theorem outcome_locate (workDir : Place) (p : Path) (t : FileTree) :
    outcome (locate workDir p) t =
      ((t.locate workDir p).mapError fun fault => ⟨fault, p, none⟩, t) := by
  rw [locate, outcome_get_bind]
  cases t.locate workDir p with
  | error fault => rfl
  | ok place => rfl

theorem outcome_makeDirectory_of_error {fault : DiskFault}
    (hl : t.locate workDir p = .error fault) :
    outcome (makeDirectory workDir p) t = (.error ⟨fault, p, none⟩, t) := by
  have h : outcome (locate workDir p) t = (.error ⟨fault, p, none⟩, t) := by
    rw [outcome_locate, hl]
    rfl
  rw [makeDirectory, outcome_bind_of_error h]

theorem outcome_makeDirectory_of_ok (hl : t.locate workDir p = .ok place) :
    outcome (makeDirectory workDir p) t =
      if (t.at? place).isSome then (.error ⟨.exists, p, none⟩, t)
      else (.ok (), t.put place .directory) := by
  have h : outcome (locate workDir p) t = (.ok place, t) := by
    rw [outcome_locate, hl]
    rfl
  rw [makeDirectory, outcome_bind_of_ok h, outcome_get_bind]
  cases t.at? place with
  | none => rfl
  | some e => rfl

/-- What making a directory may do: nothing, or an entry where the path leads
    and nothing stands. -/
def Makes (workDir : Place) (p : Path) (t t' : FileTree) : Prop :=
  t' = t ∨
    ∃ place, t.locate workDir p = .ok place ∧ t.at? place = none ∧ t' = t.put place .directory

theorem makes_makeDirectory (workDir : Place) (p : Path) (t : FileTree) :
    Makes workDir p t (outcome (makeDirectory workDir p) t).2 := by
  cases hl : t.locate workDir p with
  | error fault =>
      rw [outcome_makeDirectory_of_error hl]
      exact .inl rfl
  | ok place =>
      rw [outcome_makeDirectory_of_ok hl]
      cases hp : t.at? place with
      | some e => exact .inl rfl
      | none => exact .inr ⟨place, hl, hp, rfl⟩

/-- Directories that are made one after the other keep what each of them
    keeps. -/
theorem keeps_makeDirectory {I : FileTree → Prop}
    (hI : ∀ t t', I t → Makes workDir p t t' → I t') : Keeps I (makeDirectory workDir p) :=
  fun t ht => hI t _ ht (makes_makeDirectory workDir p t)

theorem keeps_allowDirectory {I : FileTree → Prop}
    (hI : ∀ t t', I t → Makes workDir p t t' → I t') : Keeps I (allowDirectory workDir p) := by
  refine (keeps_makeDirectory hI).tryCatch fun e => Keeps.get_bind fun t ht => ?_
  by_cases hd : t.isDirectory workDir p = true
  · simpa [hd] using ht
  · simpa [hd] using ht

theorem keeps_ensureFrom {I : FileTree → Prop} {root : String} :
    ∀ {steps : List String},
      (∀ parts, parts <+: steps.reverse →
        ∀ t t', I t → Makes workDir ⟨root, parts⟩ t t' → I t') →
      Keeps I (ensureFrom workDir root steps)
  | [], hI => keeps_allowDirectory (hI [] List.nil_prefix)
  | last :: before, hI => by
      have hlast := hI (last :: before).reverse List.prefix_rfl
      have hbefore : Keeps I (ensureFrom workDir root before) := by
        refine keeps_ensureFrom fun parts hparts => hI parts ?_
        rw [List.reverse_cons]
        exact hparts.trans (List.prefix_append _ _)
      rw [ensureFrom]
      refine (keeps_makeDirectory hlast).tryCatch fun e => ?_
      split
      · exact hbefore.bind fun _ => keeps_allowDirectory hlast
      · refine Keeps.get_bind fun t ht => ?_
        split
        · exact ht
        · exact ht

/-- **THE RULE OF DIRECTORIES MADE ON A WAY**: what every single one of them
    keeps, where a path begins as the whole does, all of them keep. -/
theorem keeps_ensureDirectory {I : FileTree → Prop}
    (hI : ∀ parts, parts <+: p.parts → ∀ t t', I t → Makes workDir ⟨p.root, parts⟩ t t' → I t') :
    Keeps I (ensureDirectory workDir p) := by
  refine keeps_ensureFrom fun parts hparts => hI parts ?_
  rwa [List.reverse_reverse] at hparts

theorem Makes.gains (h : Makes workDir p t t') : t.Gains t' := by
  rcases h with rfl | ⟨place, -, hnone, rfl⟩
  · exact Gains.refl t'
  · have hne : place ≠ [] := by
      rintro rfl
      exact nomatch hnone
    intro q
    by_cases hq : q = place
    · subst hq
      exact .inr ⟨hnone, at?_put_self hne⟩
    · exact .inl (at?_put_of_ne hne hq)

theorem Makes.wellFormed (h : Makes workDir p t t') (ht : t.WellFormed)
    (hwork : t.at? workDir = some .directory) : t'.WellFormed := by
  rcases h with rfl | ⟨place, hl, hnone, rfl⟩
  · exact ht
  · obtain ⟨d, s, hd, hs, rfl⟩ := ht.last_step hwork hl (by rw [hnone]; exact nofun)
    exact ht.put hd hs (.inl rfl)

theorem ensureDirectory_gains (workDir : Place) (p : Path) (t : FileTree) :
    t.Gains (outcome (ensureDirectory workDir p) t).2 :=
  keeps_ensureDirectory (fun _ _ _ _ ht h => ht.trans h.gains) t (Gains.refl t)

theorem ensureDirectory_wellFormed (ht : t.WellFormed) (hwork : t.at? workDir = some .directory) :
    (outcome (ensureDirectory workDir p) t).2.WellFormed := by
  have keeps : Keeps (fun u => u.WellFormed ∧ u.at? workDir = some .directory)
      (ensureDirectory workDir p) :=
    keeps_ensureDirectory fun _ _ u u' hu h => ⟨h.wellFormed hu.1 hu.2, h.gains.holds _ hu.2⟩
  exact (keeps t ⟨ht, hwork⟩).1

/-- On a way that begins at a directory, what is still to be made is reached
    from that directory. -/
theorem reached_of_prefix {names parts : List String} {made : Place}
    (hp : t.locate workDir p = .ok place) (hplace : t.at? place = some .directory)
    (hparts : parts <+: p.parts ++ names) (hmade : t.locate workDir ⟨p.root, parts⟩ = .ok made)
    (hnone : t.at? made = none) : ∃ rest, rest <+: names ∧ t.walk place rest = .ok made := by
  rcases Nat.le_total parts.length p.parts.length with hlen | hlen
  · -- the way to the directory itself is there
    obtain ⟨rest, hrest⟩ :=
      List.prefix_of_prefix_length_le hparts (List.prefix_append p.parts names) hlen
    rw [FileTree.locate, ← hrest] at hp
    obtain ⟨r, hr, hrest⟩ := walk_append.mp hp
    obtain rfl : r = made := Except.ok.inj (hr.symm.trans hmade)
    rw [directory_of_walk hrest hplace] at hnone
    cases hnone
  · obtain ⟨rest, rfl⟩ :=
      List.prefix_of_prefix_length_le (List.prefix_append p.parts names) hparts hlen
    obtain ⟨r, hr, hwalk⟩ := (locate_append (p := p)).mp hmade
    obtain rfl : place = r := Except.ok.inj (hp.symm.trans hr)
    exact ⟨rest, (List.prefix_append_right_inj p.parts).mp hparts, hwalk⟩

/-- On a way that also does not step back, it is behind that directory. -/
theorem behind_of_prefix {names parts : List String} {made : Place} (hback : ".." ∉ names)
    (hp : t.locate workDir p = .ok place) (hplace : t.at? place = some .directory)
    (hparts : parts <+: p.parts ++ names) (hmade : t.locate workDir ⟨p.root, parts⟩ = .ok made)
    (hnone : t.at? made = none) : ∃ rest, rest ≠ [] ∧ rest <+: names ∧ made = place ++ rest := by
  obtain ⟨rest, hrest, hwalk⟩ := reached_of_prefix hp hplace hparts hmade hnone
  obtain rfl := eq_append_of_walk (fun h => hback (hrest.subset h)) hwalk
  refine ⟨rest, ?_, hrest, rfl⟩
  rintro rfl
  rw [List.append_nil, hplace] at hnone
  cases hnone

/-- Directories that are made on such a way are gained behind it. -/
theorem ensureDirectory_behind {names : List String} (hback : ".." ∉ names)
    (hp : t.locate workDir p = .ok place) (hplace : t.at? place = some .directory)
    (hq : (outcome (ensureDirectory workDir { p with parts := p.parts ++ names }) t).2.at? q
      ≠ t.at? q) :
    ∃ rest, rest ≠ [] ∧ rest <+: names ∧ q = place ++ rest := by
  have keeps : Keeps (fun u => t.Holds u ∧ (u.at? q ≠ t.at? q →
        ∃ rest, rest ≠ [] ∧ rest <+: names ∧ q = place ++ rest))
      (ensureDirectory workDir { p with parts := p.parts ++ names }) := by
    refine keeps_ensureDirectory fun parts hparts u u' hu h => ⟨hu.1.trans h.gains.holds, ?_⟩
    rcases h with rfl | ⟨made, hmade, hnone, rfl⟩
    · exact hu.2
    · have hne : made ≠ [] := by
        rintro rfl
        exact nomatch hnone
      by_cases hqm : q = made
      · subst hqm
        intro _
        exact behind_of_prefix hback (hu.1.locate hp) (hu.1 place hplace) hparts hmade hnone
      · rw [at?_put_of_ne hne hqm]
        exact hu.2
  exact (keeps t ⟨Holds.refl t, fun h => absurd rfl h⟩).2 hq

/-! ## Fresh names -/

/-- A name made longer by some marks. -/
def lengthened (name : String) (n : Nat) : String :=
  name ++ String.ofList (List.replicate n '_')

theorem lengthened_append_mark (name : String) (n : Nat) :
    lengthened (name ++ "_") n = lengthened name (n + 1) := by
  rw [← String.toList_inj]
  simp [lengthened, List.replicate_succ]

theorem lengthened_inj {name : String} {m n : Nat} (h : lengthened name m = lengthened name n) :
    m = n := by
  have hlen := congrArg (fun s : String => s.toList.length) h
  simpa [lengthened] using hlen

/-- The search for a name passes over names that are taken. -/
theorem exists_freeName (t : FileTree) (directory : Place) (fuel : Nat) (name : String) :
    ∃ n, freeName t directory fuel name = lengthened name n ∧
      ∀ m < n, t.at? (directory ++ [lengthened name m]) ≠ none := by
  induction fuel generalizing name with
  | zero => exact ⟨0, by simp [freeName, lengthened], fun m hm => absurd hm (Nat.not_lt_zero m)⟩
  | succ fuel ih =>
      rw [freeName]
      split
      · next htaken =>
          obtain ⟨n, hn, hbefore⟩ := ih (name ++ "_")
          refine ⟨n + 1, by rw [hn, lengthened_append_mark], ?_⟩
          intro m hm
          cases m with
          | zero =>
              rw [Option.isSome_iff_ne_none] at htaken
              simpa [lengthened] using htaken
          | succ m =>
              rw [← lengthened_append_mark]
              exact hbefore m (Nat.lt_of_succ_lt_succ hm)
      · exact ⟨0, by simp [lengthened], fun m hm => absurd hm (Nat.not_lt_zero m)⟩

theorem freeName_eq (t : FileTree) (directory : Place) (fuel : Nat) (name : String) :
    ∃ n, freeName t directory fuel name = lengthened name n := by
  obtain ⟨n, hn, -⟩ := exists_freeName t directory fuel name
  exact ⟨n, hn⟩

/-- If the search ends at a name that is taken, then all names that it has
    tried are taken. -/
theorem taken_of_freeName {directory : Place} {fuel : Nat} {name : String}
    (h : t.at? (directory ++ [freeName t directory fuel name]) ≠ none) :
    ∀ n ≤ fuel, t.at? (directory ++ [lengthened name n]) ≠ none := by
  induction fuel generalizing name with
  | zero =>
      intro n hn
      obtain rfl := Nat.le_zero.mp hn
      simpa [freeName, lengthened] using h
  | succ fuel ih =>
      intro n hn
      rw [freeName] at h
      split at h
      · next htaken =>
          cases n with
          | zero =>
              rw [Option.isSome_iff_ne_none] at htaken
              simpa [lengthened] using htaken
          | succ n =>
              rw [← lengthened_append_mark]
              exact ih h n (Nat.le_of_succ_le_succ hn)
      · next hfree => exact absurd (Option.isSome_iff_ne_none.mpr h) hfree

/-- **A FRESH NAME IS FREE**: more names are tried than a tree has entries. -/
theorem at?_freshName (t : FileTree) (directory : Place) (name : String) :
    t.at? (directory ++ [freshName t directory name]) = none := by
  by_contra h
  have taken := taken_of_freeName h
  have inj : Function.Injective fun n => directory ++ [lengthened name n] := by
    intro m n hmn
    exact lengthened_inj (List.singleton_inj.mp (List.append_cancel_left hmn))
  have nodup : ((List.range (t.entries.length + 2)).map
      fun n => directory ++ [lengthened name n]).Nodup := List.nodup_range.map inj
  have subset : (List.range (t.entries.length + 2)).map (fun n => directory ++ [lengthened name n])
      ⊆ t.entries.map (·.1) := by
    intro q hq
    obtain ⟨n, hn, rfl⟩ := List.mem_map.mp hq
    have hstand := taken n (Nat.le_of_lt_succ (List.mem_range.mp hn))
    rw [at?_eq_lookup (by simp), ← Option.isSome_iff_ne_none, List.lookup_isSome_iff] at hstand
    obtain ⟨entry, hmem, hkey⟩ := hstand
    exact List.mem_map.mpr ⟨entry, hmem, (beq_iff_eq.mp hkey).symm⟩
  have hle := (nodup.subperm subset).length_le
  rw [List.length_map, List.length_map, List.length_range] at hle
  omega

theorem freshName_eq (t : FileTree) (directory : Place) (name : String) :
    ∃ n, freshName t directory name = lengthened name n := freeName_eq _ _ _ _

/-- A name that is fresh in one tree is fresh in another, in which it is free
    and the names that are taken in the first are taken too. -/
theorem freshName_eq_of_taken {directory : Place} {name : String}
    (htaken : ∀ n, t.at? (directory ++ [lengthened name n]) ≠ none →
      u.at? (directory ++ [lengthened name n]) ≠ none)
    (hfree : u.at? (directory ++ [freshName t directory name]) = none) :
    freshName u directory name = freshName t directory name := by
  obtain ⟨m, hm, hbefore⟩ := exists_freeName t directory (t.entries.length + 1) name
  obtain ⟨n, hn, hbefore'⟩ := exists_freeName u directory (u.entries.length + 1) name
  have hfresh := at?_freshName u directory name
  rw [freshName, hm] at hfree
  rw [freshName, hn] at hfresh
  rw [freshName, freshName, hm, hn]
  rcases Nat.lt_trichotomy m n with hlt | heq | hlt
  · exact absurd hfree (hbefore' m hlt)
  · rw [heq]
  · exact absurd hfresh (htaken n (hbefore n hlt))

/-! ## Files -/

/-- A file that takes its place does so at once: either nothing has changed,
    or it has left where it was and stands where the path leads. -/
theorem outcome_replace {source : Place} {shown target : Path} {r : Except DiskError Unit}
    (h : outcome (replace workDir source shown target) t = (r, t')) :
    (∃ e, r = .error e ∧ t' = t) ∨
      ∃ place e, r = .ok () ∧ t.locate workDir target = .ok place ∧
        t.at? place ≠ some .directory ∧ t.at? source = some e ∧
        t' = (t.prune source).put place e := by
  rw [replace, outcome_get_bind] at h
  cases hl : t.locate workDir target with
  | error fault =>
      rw [hl] at h
      cases h
      exact .inl ⟨_, rfl, rfl⟩
  | ok place =>
      rw [hl] at h
      by_cases hbusy : (target.parts.isEmpty || target.name == "..") = true
      · simp only [hbusy, if_true] at h
        cases h
        exact .inl ⟨_, rfl, rfl⟩
      · simp only [hbusy, Bool.false_eq_true, if_false] at h
        split at h
        · cases h
          exact .inl ⟨_, rfl, rfl⟩
        · next hdir =>
            split at h
            · next e hs =>
                cases h
                exact .inr ⟨place, e, rfl, rfl, hdir, hs, rfl⟩
            · cases h
              exact .inl ⟨_, rfl, rfl⟩

/-- A new entry that is removed again leaves the tree the same. -/
theorem same_prune_put {e : Entry} (ht : t.WellFormed) (hnone : t.at? place = none) :
    ((t.put place e).prune place).Same t := by
  have hne : place ≠ [] := by
    rintro rfl
    exact nomatch hnone
  intro q
  rw [at?_prune hne]
  split
  · next hbelow =>
      by_cases hq : q = place
      · rw [hq, hnone]
      · exact (ht.nothing_below (by rw [hnone]; exact nofun) hbelow hq).symm
  · next hapart =>
      refine at?_put_of_ne hne ?_
      rintro rfl
      exact hapart List.prefix_rfl

/-- A new file is no directory on any way. -/
theorem holds_put_file {content : Bytes} (hne : place ≠ []) :
    (t.put place (.file content)).Holds t := by
  intro q hq
  rw [at?_put hne] at hq
  split at hq
  · exact nomatch hq
  · exact hq

theorem same_put {u : FileTree} {e : Entry} (hne : place ≠ []) (same : t.Same u) :
    (t.put place e).Same (u.put place e) := by
  intro q
  rw [at?_put hne, at?_put hne, same q]

/-- A scratch file that takes its place or is removed. -/
theorem outcome_replace_scratch {scratch : Place} {shown : Path} {content : Bytes}
    {r : Except DiskError Unit} (ht : t.WellFormed) (hwork : t.at? workDir = some .directory)
    (hfree : t.at? scratch = none)
    (h : outcome (do
        try replace workDir scratch shown p
        catch e =>
          modify (·.prune scratch)
          throw e) (t.put scratch (.file content)) = (r, t')) :
    t'.WellFormed ∧
      ((∃ e, r = .error e ∧ t'.Same t) ∨
        ∃ place, r = .ok () ∧ t.locate workDir p = .ok place ∧ t.at? place ≠ some .directory ∧
          t'.Same (t.put place (.file content))) := by
  have hne : scratch ≠ [] := by
    rintro rfl
    exact nomatch hfree
  have restored : ((t.put scratch (.file content)).prune scratch).Same t := same_prune_put ht hfree
  have once := (ht.once.put scratch (.file content)).prune scratch
  rcases hrep : outcome (replace workDir scratch shown p) (t.put scratch (.file content))
    with ⟨moved, v⟩
  rcases outcome_replace hrep with ⟨e, rfl, rfl⟩ | ⟨place, e, rfl, hl, hplace, hsource, rfl⟩
  · rw [outcome_tryCatch_of_error hrep, outcome_modify_bind] at h
    cases h
    exact ⟨ht.of_same restored once, .inl ⟨e, rfl, restored⟩⟩
  · rw [outcome_tryCatch_of_ok hrep] at h
    cases h
    rw [at?_put_self hne] at hsource
    cases hsource
    have hl' := (holds_put_file hne).locate hl
    have hplace' : t.at? place ≠ some .directory := by
      intro hdir
      refine hplace ?_
      rw [at?_put_of_ne hne, hdir]
      rintro rfl
      rw [hfree] at hdir
      exact nomatch hdir
    -- the target is named by a step below a directory, so the new tree has one too
    obtain ⟨d, s, hd, hs, rfl⟩ := ht.last_step hwork hl' hplace'
    have hlast : d ++ [s] ≠ [] := by simp
    have same := same_put (e := .file content) hlast restored
    exact ⟨(ht.put hd hs (.inr hplace')).of_same same (once.put _ _),
      .inr ⟨_, rfl, hl', hplace', same⟩⟩

/-- **WRITING IN ONE STEP**: behind the directories that were made on the way,
    either nothing has changed, or the one change is the file where the path
    leads. -/
theorem outcome_writeAtomically {token : String} {content : Bytes} {r : Except DiskError Unit}
    (ht : t.WellFormed) (hwork : t.at? workDir = some .directory)
    (hu : (outcome (ensureDirectory workDir p.parent) t).2 = u)
    (h : outcome (writeAtomically workDir token p content) t = (r, t')) :
    t'.WellFormed ∧
      ((∃ e, r = .error e ∧ t'.Same u) ∨
        ∃ place, r = .ok () ∧ u.locate workDir p = .ok place ∧ u.at? place ≠ some .directory ∧
          t'.Same (u.put place (.file content))) := by
  have hwf : u.WellFormed := by
    rw [← hu]
    exact ensureDirectory_wellFormed ht hwork
  have hworku : u.at? workDir = some .directory := by
    rw [← hu]
    exact (ensureDirectory_gains workDir p.parent t).holds _ hwork
  rw [writeAtomically] at h
  -- from here on the tree is `u`: no later operation makes a directory
  rcases hens : outcome (ensureDirectory workDir p.parent) t with ⟨made, u'⟩
  obtain rfl : u' = u := by rw [← hu, hens]
  cases made with
  | error e =>
      rw [outcome_bind_of_error hens] at h
      cases h
      exact ⟨hwf, .inl ⟨e, rfl, Same.refl _⟩⟩
  | ok _ =>
      rw [outcome_bind_of_ok hens, locate] at h
      cases hl : u'.locate workDir p.parent with
      | error fault =>
          simp only [bind_assoc, outcome_get_bind, hl] at h
          cases h
          exact ⟨hwf, .inl ⟨_, rfl, Same.refl _⟩⟩
      | ok directory =>
          simp only [bind_assoc, outcome_get_bind, hl, pure_bind, outcome_modify_bind] at h
          exact outcome_replace_scratch hwf hworku (at?_freshName u' directory _) h

end Disk
end GemBinder.Files
