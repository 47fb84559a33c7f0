import GemBinder.Proofs.Files.Scratch

/-! # Work inside a directory

    A walk that succeeds ends at the place that its steps name.  Steps that
    never lead back out of the directory in which they start name a place
    below it, whatever directory that is.

    What an operation does along such steps depends on what is below the
    directory and on nothing else.  So the same work in two trees that agree
    there ends in the same way, and afterwards they still agree. -/

namespace GemBinder.Files

open Text

/-! ## Places that steps name -/

namespace Path

variable {place r : Place} {names more : List String}

theorem normalizeFrom_append (place : Place) (names more : List String) :
    normalizeFrom place (names ++ more) = normalizeFrom (normalizeFrom place names) more := by
  induction names generalizing place with
  | nil => rfl
  | cons s names ih =>
      rw [List.cons_append, normalizeFrom, normalizeFrom]
      split
      · exact ih _
      · exact ih _

theorem normalizeFrom_of_forward (hback : ".." ∉ names) :
    normalizeFrom place names = place ++ names := by
  induction names generalizing place with
  | nil => simp [normalizeFrom]
  | cons s names ih =>
      obtain ⟨hs, hnames⟩ := List.ne_and_not_mem_of_not_mem_cons hback
      rw [normalizeFrom, beq_eq_false_iff_ne.mpr (Ne.symm hs), if_neg Bool.false_ne_true, ih hnames]
      simp

/-- Whether steps that are taken from some steps below a place never lead out
    of that place. -/
def staysIn : Nat → List String → Bool
  | _, [] => true
  | depth, s :: more =>
      if s == ".." then depth != 0 && staysIn (depth - 1) more else staysIn (depth + 1) more

/-- **STEPS INWARD**: they never lead back out of where they start. -/
def Inward (names : List String) : Prop := staysIn 0 names = true

instance (names : List String) : Decidable (Inward names) := inferInstanceAs (Decidable (_ = _))

theorem staysIn_prefix {depth : Nat} (h : staysIn depth (names ++ more) = true) :
    staysIn depth names = true := by
  induction names generalizing depth with
  | nil => rfl
  | cons s names ih =>
      rw [List.cons_append, staysIn] at h
      rw [staysIn]
      split
      · next hs =>
          rw [if_pos hs, Bool.and_eq_true] at h
          rw [Bool.and_eq_true]
          exact ⟨h.1, ih h.2⟩
      · next hs =>
          rw [if_neg hs] at h
          exact ih h

theorem inward_of_prefix (hin : Inward names) (h : more <+: names) : Inward more := by
  obtain ⟨rest, rfl⟩ := h
  exact staysIn_prefix hin

/-- Steps that do not step back at all lead inward. -/
theorem inward_of_forward (hback : ".." ∉ names) : Inward names := by
  have stays : ∀ depth, staysIn depth names = true := by
    induction names with
    | nil => exact fun _ => rfl
    | cons s names ih =>
        obtain ⟨hs, hnames⟩ := List.ne_and_not_mem_of_not_mem_cons hback
        intro depth
        rw [staysIn, beq_eq_false_iff_ne.mpr (Ne.symm hs), if_neg Bool.false_ne_true]
        exact ih hnames (depth + 1)
  exact stays 0

theorem normalizeFrom_of_staysIn (h : staysIn r.length names = true) :
    normalizeFrom (place ++ r) names = place ++ normalizeFrom r names := by
  induction names generalizing r with
  | nil => rfl
  | cons s names ih =>
      rw [staysIn] at h
      rw [normalizeFrom, normalizeFrom]
      split
      · next hs =>
          rw [if_pos hs, Bool.and_eq_true, bne_iff_ne] at h
          have hr : r ≠ [] := by
            rintro rfl
            exact h.1 rfl
          rw [List.dropLast_append_of_ne_nil hr]
          exact ih (by rw [List.length_dropLast]; exact h.2)
      · next hs =>
          rw [if_neg hs] at h
          rw [List.append_assoc]
          exact ih (by rw [List.length_append]; exact h)

/-- **STEPS INWARD NAME A PLACE BELOW**, the same behind every start. -/
theorem normalizeFrom_of_inward (hin : Inward names) :
    normalizeFrom place names = place ++ normalizeFrom [] names := by
  have h : normalizeFrom (place ++ []) names = place ++ normalizeFrom [] names :=
    normalizeFrom_of_staysIn hin
  rwa [List.append_nil] at h

theorem resolve_append (p : Path) (workDir : Place) (names : List String) :
    ({ p with parts := p.parts ++ names } : Path).resolve workDir =
      normalizeFrom (p.resolve workDir) names := normalizeFrom_append _ _ _

end Path

namespace FileTree

variable {t u base base' : FileTree} {place q r workDir : Place} {p : Path} {names : List String}
  {e : Entry}

/-- A walk that succeeds ends where its steps lead. -/
theorem eq_normalizeFrom_of_walk (h : t.walk place names = .ok q) :
    q = Path.normalizeFrom place names := by
  induction names generalizing place with
  | nil => exact (Except.ok.inj h).symm
  | cons s names ih =>
      obtain ⟨-, hq⟩ := walk_cons.mp h
      rw [Path.normalizeFrom]
      split at hq
      · next hs =>
          rw [if_pos hs]
          exact ih hq
      · next hs =>
          rw [if_neg hs]
          exact ih hq

theorem eq_resolve_of_locate (h : t.locate workDir p = .ok q) : q = p.resolve workDir :=
  eq_normalizeFrom_of_walk h

theorem walk_append_of_ok {parts : List String} (h : t.walk place parts = .ok q) :
    t.walk place (parts ++ names) = t.walk q names := by
  induction parts generalizing place with
  | nil =>
      cases h
      rfl
  | cons s parts ih =>
      obtain ⟨hdir, hq⟩ := walk_cons.mp h
      rw [List.cons_append, walk, hdir]
      exact ih hq

/-- Behind a path that is found, the walk goes on from its place. -/
theorem locate_append_of_ok (hp : t.locate workDir p = .ok place) :
    t.locate workDir { p with parts := p.parts ++ names } = t.walk place names :=
  walk_append_of_ok hp

/-- What is read behind a directory is the file that stands there. -/
theorem read_behind (ht : t.WellFormed) (hp : t.locate workDir p = .ok place)
    (hback : ".." ∉ names) {content : Bytes} :
    t.read workDir { p with parts := p.parts ++ names } = .ok content ↔
      t.at? (place ++ names) = some (.file content) := by
  rw [read_eq_ok, locate_append_of_ok hp]
  constructor
  · rintro ⟨q, hwalk, hfile⟩
    rwa [eq_append_of_walk hback hwalk] at hfile
  · intro hfile
    exact ⟨_, ht.walk_eq (by rw [hfile]; exact Option.some_ne_none _), hfile⟩

/-! ## Trees that agree below a place -/

/-- **TWIN TREES**: each of them holds the directories of its base, and below
    a directory they agree. -/
structure Twins (base base' : FileTree) (place : Place) (t u : FileTree) : Prop where
  left : base.Holds t
  right : base'.Holds u
  stands : t.at? place = some .directory
  below : ∀ rest, t.at? (place ++ rest) = u.at? (place ++ rest)

namespace Twins

/-- Walks inward go the same way. -/
theorem walk_eq (h : Twins base base' place t u) (hin : Path.staysIn r.length names = true) :
    t.walk (place ++ r) names = u.walk (place ++ r) names := by
  induction names generalizing r with
  | nil => rfl
  | cons s names ih =>
      rw [Path.staysIn] at hin
      rw [walk, walk, h.below r]
      cases u.at? (place ++ r) with
      | none => rfl
      | some f =>
          cases f with
          | file content => rfl
          | directory =>
              dsimp only
              split
              · next hs =>
                  rw [if_pos hs, Bool.and_eq_true, bne_iff_ne] at hin
                  have hr : r ≠ [] := by
                    rintro rfl
                    exact hin.1 rfl
                  rw [List.dropLast_append_of_ne_nil hr]
                  exact ih (by rw [List.length_dropLast]; exact hin.2)
              · next hs =>
                  rw [if_neg hs] at hin
                  rw [List.append_assoc]
                  exact ih (by rw [List.length_append]; exact hin)

variable (hfree : ∀ q, base.at? q = some .directory → ¬ place <+: q)
  (hfree' : ∀ q, base'.at? q = some .directory → ¬ place <+: q)
include hfree hfree'

/-- A change below the directory, made in both. -/
theorem put (h : Twins base base' place t u) {rest : List String} (hrest : rest ≠ []) :
    Twins base base' place (t.put (place ++ rest) e) (u.put (place ++ rest) e) where
  left := by
    intro q hq
    rw [at?_put_of_ne (by simp [hrest]), h.left q hq]
    rintro rfl
    exact hfree _ hq (List.prefix_append _ _)
  right := by
    intro q hq
    rw [at?_put_of_ne (by simp [hrest]), h.right q hq]
    rintro rfl
    exact hfree' _ hq (List.prefix_append _ _)
  stands := by rw [at?_put_of_ne (by simp [hrest]) (by simp [hrest]), h.stands]
  below := by
    intro rest'
    rw [at?_put (by simp [hrest]), at?_put (by simp [hrest]), h.below rest']

theorem prune (h : Twins base base' place t u) {rest : List String} (hrest : rest ≠ []) :
    Twins base base' place (t.prune (place ++ rest)) (u.prune (place ++ rest)) where
  left := by
    intro q hq
    rw [at?_prune_of_apart (by simp [hrest]), h.left q hq]
    exact fun hbelow => hfree _ hq ((List.prefix_append _ _).trans hbelow)
  right := by
    intro q hq
    rw [at?_prune_of_apart (by simp [hrest]), h.right q hq]
    exact fun hbelow => hfree' _ hq ((List.prefix_append _ _).trans hbelow)
  stands := by
    rw [at?_prune_of_apart (by simp [hrest]), h.stands]
    intro hbelow
    have hlen := hbelow.length_le
    rw [List.length_append] at hlen
    exact hrest (List.length_eq_zero_iff.mp (by omega))
  below := by
    intro rest'
    rw [at?_prune (by simp [hrest]), at?_prune (by simp [hrest]), h.below rest']

end Twins
end FileTree

/-! ## Operations in twin trees -/

/-- Steps inward from a place beside a target name a place below it. -/
theorem Beside.eq_append_of_locate {base t : FileTree} {workDir directory place : Place}
    {target staging : Path} {name : String} {names : List String}
    (hb : Beside base workDir target staging directory name) (hold : base.Holds t)
    (hin : Path.Inward names)
    (hl : t.locate workDir { staging with parts := staging.parts ++ names } = .ok place) :
    place = directory ++ [name] ++ Path.normalizeFrom [] names := by
  rw [FileTree.locate_append_of_ok (hb.locate_staging hold)] at hl
  rw [FileTree.eq_normalizeFrom_of_walk hl, Path.normalizeFrom_of_inward hin]

namespace Disk

open FileTree

variable {t u base base' : FileTree} {workDir place : Place} {p : Path}

/-- A directory that is there is not made. -/
theorem ensureDirectory_of_directory (hl : t.locate workDir p = .ok place)
    (hdir : t.at? place = some .directory) :
    outcome (ensureDirectory workDir p) t = (.ok (), t) := by
  have hmake : ∀ p' : Path, p' = p →
      outcome (makeDirectory workDir p') t = (.error ⟨.exists, p', none⟩, t) := by
    rintro p' rfl
    rw [outcome_makeDirectory_of_ok hl, hdir]
    rfl
  have hthere : t.isDirectory workDir p = true := isDirectory_iff.mpr ⟨place, hl, hdir⟩
  rw [ensureDirectory]
  cases hsteps : p.parts.reverse with
  | nil =>
      have hp : (⟨p.root, []⟩ : Path) = p := by
        rw [← List.reverse_eq_nil_iff.mp hsteps]
      rw [ensureFrom, allowDirectory, outcome_tryCatch_of_error (hmake _ hp), outcome_get_bind, hp,
        if_pos hthere, outcome_pure]
  | cons last before =>
      have hp : (⟨p.root, (last :: before).reverse⟩ : Path) = p := by
        rw [← hsteps, List.reverse_reverse]
      have hother : (DiskFault.exists == DiskFault.notFound) = false := by decide
      rw [ensureFrom, outcome_tryCatch_of_error (hmake _ hp)]
      simp only [hother, Bool.false_eq_true, if_false, outcome_get_bind, hp, if_pos hthere]
      rfl

section

variable {target staging : Path} {directory : Place} {name : String} {names : List String}
  (hb : Beside base workDir target staging directory name)
  (hb' : Beside base' workDir target staging directory name)
include hb hb'

theorem locate_eq_of_twins (h : Twins base base' (directory ++ [name]) t u)
    (hin : Path.Inward names) :
    t.locate workDir { staging with parts := staging.parts ++ names } =
      u.locate workDir { staging with parts := staging.parts ++ names } := by
  rw [locate_append_of_ok (hb.locate_staging h.left),
    locate_append_of_ok (hb'.locate_staging h.right)]
  have hwalk := h.walk_eq (r := []) hin
  rwa [List.append_nil] at hwalk

theorem isDirectory_eq_of_twins (h : Twins base base' (directory ++ [name]) t u)
    (hin : Path.Inward names) :
    t.isDirectory workDir { staging with parts := staging.parts ++ names } =
      u.isDirectory workDir { staging with parts := staging.parts ++ names } := by
  rw [Bool.eq_iff_iff, isDirectory_iff, isDirectory_iff, ← locate_eq_of_twins hb hb' h hin]
  refine exists_congr fun q => and_congr_right fun hl => ?_
  rw [hb.eq_append_of_locate h.left hin hl, h.below]

theorem matched_makeDirectory (h : Twins base base' (directory ++ [name]) t u)
    (hin : Path.Inward names) :
    Matched (Twins base base' (directory ++ [name]))
      (outcome (makeDirectory workDir { staging with parts := staging.parts ++ names }) t)
      (outcome (makeDirectory workDir { staging with parts := staging.parts ++ names }) u) := by
  have heq := locate_eq_of_twins hb hb' h hin
  cases hl : t.locate workDir { staging with parts := staging.parts ++ names } with
  | error fault =>
      rw [outcome_makeDirectory_of_error hl, outcome_makeDirectory_of_error (heq.symm.trans hl)]
      exact ⟨rfl, h⟩
  | ok place =>
      rw [outcome_makeDirectory_of_ok hl, outcome_makeDirectory_of_ok (heq.symm.trans hl)]
      rw [hb.eq_append_of_locate h.left hin hl, ← h.below]
      cases hat : t.at? (directory ++ [name] ++ Path.normalizeFrom [] names) with
      | some e => exact ⟨rfl, h⟩
      | none =>
          refine ⟨rfl, h.put (fun _ => hb.apart_of_directory) (fun _ => hb'.apart_of_directory) ?_⟩
          intro hnil
          rw [hnil, List.append_nil, h.stands] at hat
          exact nomatch hat

theorem matched_allowDirectory (h : Twins base base' (directory ++ [name]) t u)
    (hin : Path.Inward names) :
    Matched (Twins base base' (directory ++ [name]))
      (outcome (allowDirectory workDir { staging with parts := staging.parts ++ names }) t)
      (outcome (allowDirectory workDir { staging with parts := staging.parts ++ names }) u) := by
  refine (matched_makeDirectory hb hb' h hin).tryCatch fun e t' u' h' => ?_
  rw [outcome_get_bind, outcome_get_bind, ← isDirectory_eq_of_twins hb hb' h' hin]
  split
  · exact ⟨rfl, h'⟩
  · exact ⟨rfl, h'⟩

/-- Directories on a way inward are made alike. -/
theorem matched_ensureDirectory (h : Twins base base' (directory ++ [name]) t u)
    (hin : Path.Inward names) :
    Matched (Twins base base' (directory ++ [name]))
      (outcome (ensureDirectory workDir { staging with parts := staging.parts ++ names }) t)
      (outcome (ensureDirectory workDir { staging with parts := staging.parts ++ names }) u) := by
  induction names using List.reverseRecOn generalizing t u with
  | nil =>
      -- the directory itself is there in both
      have hu : u.at? (directory ++ [name]) = some .directory := by
        have h' := h.below []
        rw [List.append_nil] at h'
        rw [← h', h.stands]
      rw [List.append_nil, ensureDirectory_of_directory (hb.locate_staging h.left) h.stands,
        ensureDirectory_of_directory (hb'.locate_staging h.right) hu]
      exact ⟨rfl, h⟩
  | append_singleton names s ih =>
      have hfirst := matched_makeDirectory hb hb' h hin
      have hbefore := fun {t u} (h : Twins base base' (directory ++ [name]) t u) =>
        ih h (Path.inward_of_prefix hin (List.prefix_append names [s]))
      have hsteps : ({ staging with parts := staging.parts ++ (names ++ [s]) } : Path).parts.reverse =
          s :: (staging.parts ++ names).reverse := by simp
      have hpath : (⟨staging.root, (s :: (staging.parts ++ names).reverse).reverse⟩ : Path) =
          { staging with parts := staging.parts ++ (names ++ [s]) } := by simp
      rw [ensureDirectory, hsteps, ensureFrom, hpath]
      refine hfirst.tryCatch fun e t' u' h' => ?_
      by_cases hfault : (e.fault == .notFound) = true
      · rw [if_pos hfault]
        exact (hbefore h').bind fun _ t'' u'' _ h'' => matched_allowDirectory hb hb' h'' hin
      · rw [if_neg hfault, outcome_get_bind, outcome_get_bind,
          ← isDirectory_eq_of_twins hb hb' h' hin]
        split
        · exact ⟨rfl, h'⟩
        · exact ⟨rfl, h'⟩

omit hb hb' in
/-- Names are fresh in both or in neither. -/
theorem freshName_eq_of_twins (h : Twins base base' (directory ++ [name]) t u) (rest : List String)
    (s : String) :
    freshName t (directory ++ [name] ++ rest) s = freshName u (directory ++ [name] ++ rest) s := by
  refine freshName_eq_of_taken ?_ ?_
  · intro n
    rw [List.append_assoc, h.below, ← List.append_assoc]
    exact id
  · rw [List.append_assoc, h.below, ← List.append_assoc]
    exact at?_freshName u _ s

/-- A file moves to a path inward alike. -/
theorem matched_replace (h : Twins base base' (directory ++ [name]) t u)
    (hin : Path.Inward names) {source : List String} (hsource : source ≠ []) (shown : Path) :
    Matched (Twins base base' (directory ++ [name]))
      (outcome (replace workDir (directory ++ [name] ++ source) shown
        { staging with parts := staging.parts ++ names }) t)
      (outcome (replace workDir (directory ++ [name] ++ source) shown
        { staging with parts := staging.parts ++ names }) u) := by
  have hl := locate_eq_of_twins hb hb' h hin
  rw [replace, outcome_get_bind, outcome_get_bind, ← hl]
  cases hplace : t.locate workDir { staging with parts := staging.parts ++ names } with
  | error fault => exact ⟨rfl, h⟩
  | ok place =>
      obtain rfl := hb.eq_append_of_locate h.left hin hplace
      -- what is replaced is no directory, so it is not the directory itself
      have moved : ∀ e,
          t.at? (directory ++ [name] ++ Path.normalizeFrom [] names) ≠ some .directory →
          Twins base base' (directory ++ [name])
            ((t.prune (directory ++ [name] ++ source)).put
              (directory ++ [name] ++ Path.normalizeFrom [] names) e)
            ((u.prune (directory ++ [name] ++ source)).put
              (directory ++ [name] ++ Path.normalizeFrom [] names) e) := by
        intro e hdir
        have hpruned := h.prune (fun _ => hb.apart_of_directory) (fun _ => hb'.apart_of_directory)
          hsource
        refine hpruned.put (fun _ => hb.apart_of_directory) (fun _ => hb'.apart_of_directory) ?_
        intro hnil
        rw [hnil, List.append_nil, h.stands] at hdir
        exact hdir rfl
      dsimp only
      split
      · exact ⟨rfl, h⟩
      · simp only [← h.below]
        rcases hat : t.at? (directory ++ [name] ++ Path.normalizeFrom [] names) with
          _ | (content | _)
        · cases t.at? (directory ++ [name] ++ source) with
          | none => exact ⟨rfl, h⟩
          | some e => exact ⟨rfl, moved e (by rw [hat]; simp)⟩
        · cases t.at? (directory ++ [name] ++ source) with
          | none => exact ⟨rfl, h⟩
          | some e => exact ⟨rfl, moved e (by rw [hat]; simp)⟩
        · exact ⟨rfl, h⟩

/-- **WORK INSIDE A DIRECTORY IS LOCAL**: a file is written by steps inward
    alike in two trees that agree below the directory, and they agree there
    afterwards. -/
theorem matched_writeAtomically (h : Twins base base' (directory ++ [name]) t u)
    (hin : Path.Inward names) (hsome : names ≠ []) (token : String) (content : Bytes) :
    Matched (Twins base base' (directory ++ [name]))
      (outcome (writeAtomically workDir token
        { staging with parts := staging.parts ++ names } content) t)
      (outcome (writeAtomically workDir token
        { staging with parts := staging.parts ++ names } content) u) := by
  have hbefore := Path.inward_of_prefix hin (List.dropLast_prefix names)
  rw [writeAtomically, Path.parent_append hsome]
  refine (matched_ensureDirectory hb hb' h hbefore).bind fun _ t₁ u₁ _ h₁ => ?_
  have hl := locate_eq_of_twins hb hb' h₁ hbefore
  refine Matched.bind ?_ fun d t₂ u₂ hd h₂ => ?_
  · rw [outcome_locate, outcome_locate, hl]
    exact ⟨rfl, h₁⟩
  · rw [outcome_locate] at hd
    cases hplace : t₁.locate workDir { staging with parts := staging.parts ++ names.dropLast } with
    | error fault =>
        rw [hplace] at hd
        cases congrArg Prod.fst hd
    | ok place =>
        rw [hplace] at hd
        cases hd
        obtain rfl := hb.eq_append_of_locate h₁.left hbefore hplace
        rw [outcome_get_bind, outcome_get_bind, ← freshName_eq_of_twins h₂]
        generalize freshName t₁ _ _ = scratch
        -- the new file has one place in both, behind the directory
        have hnew : Path.normalizeFrom [] names.dropLast ++ [scratch] ≠ [] := by simp
        have h₃ := h₂.put (e := .file content) (fun _ => hb.apart_of_directory)
          (fun _ => hb'.apart_of_directory) hnew
        rw [← List.append_assoc] at h₃
        simp only [outcome_modify_bind]
        refine Matched.tryCatch ?_ fun e t₄ u₄ h₄ => ?_
        · have hmoved := matched_replace hb hb' h₃ hin hnew
          rw [← List.append_assoc] at hmoved
          exact hmoved _
        · have hpruned := h₄.prune (fun _ => hb.apart_of_directory)
            (fun _ => hb'.apart_of_directory) hnew
          rw [← List.append_assoc] at hpruned
          rw [outcome_modify_bind, outcome_modify_bind]
          exact ⟨rfl, hpruned⟩

end
end Disk
end GemBinder.Files
