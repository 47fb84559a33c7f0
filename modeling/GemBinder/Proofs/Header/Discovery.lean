import Mathlib.Data.List.Nodup
import GemBinder.Header.Discovery
import GemBinder.Proofs.Failure
import GemBinder.Proofs.Files.Locality
import GemBinder.Proofs.Files.Order

/-! # The headers of a file tree

    A search goes through all that is below its directories, and a path stands
    for a file or for what is below a directory.  What is found is in the order
    of paths, and nothing is missing.

    The search takes files only, but tells a header again for every directory
    that it is below.  The paths stand for each place once, but for directories
    too if their names end as those of headers do. -/

namespace GemBinder.Header

open Files FileTree Text

variable {t : FileTree} {workDir q : Place} {p h : Path} {steps : List String} {e : Entry}

/-! ## Below a path -/

/-- **BELOW A PATH**: an entry some steps behind the place that it names. -/
def Below (t : FileTree) (workDir : Place) (p : Path) (steps : List String) (e : Entry) : Prop :=
  steps ≠ [] ∧ ∃ place, t.locate workDir p = .ok place ∧ t.at? (place ++ steps) = some e

/-- Only directories have something below them. -/
theorem Below.isDirectory (ht : t.WellFormed) (h : Below t workDir p steps e) :
    t.isDirectory workDir p = true := by
  obtain ⟨hne, place, hp, hstands⟩ := h
  exact isDirectory_iff.mpr ⟨place, hp, ht.above hne (by simp [hstands])⟩

theorem Below.at? (h : Below t workDir p steps e) :
    t.at? (p.resolve workDir ++ steps) = some e := by
  obtain ⟨-, place, hp, hstands⟩ := h
  rwa [← eq_resolve_of_locate hp]

/-- The steps behind a path lead on from its place. -/
theorem Below.locate (ht : t.WellFormed) (h : Below t workDir p steps e) :
    t.locate workDir { p with parts := p.parts ++ steps } = .ok (p.resolve workDir ++ steps) := by
  have hstands := h.at?
  obtain ⟨-, place, hp, -⟩ := h
  rw [← eq_resolve_of_locate hp] at hstands ⊢
  rw [locate_append_of_ok hp]
  exact ht.walk_eq (by simp [hstands])

theorem Below.resolve (ht : t.WellFormed) (h : Below t workDir p steps e) :
    ({ p with parts := p.parts ++ steps } : Path).resolve workDir = p.resolve workDir ++ steps :=
  (eq_resolve_of_locate (h.locate ht)).symm

theorem mem_descendants (once : t.Once) :
    (h, e) ∈ t.descendants workDir p ↔
      ∃ steps, Below t workDir p steps e ∧ h = { p with parts := p.parts ++ steps } := by
  rw [FileTree.descendants]
  cases hp : t.locate workDir p with
  | error fault =>
      refine iff_of_false List.not_mem_nil ?_
      rintro ⟨steps, ⟨-, place, hplace, -⟩, -⟩
      exact nomatch hp.symm.trans hplace
  | ok place =>
      rw [List.mem_map]
      constructor
      · rintro ⟨⟨steps, f⟩, hmem, heq⟩
        cases heq
        obtain ⟨hne, hstands⟩ := once.mem_below.mp hmem
        exact ⟨steps, ⟨hne, place, hp, hstands⟩, rfl⟩
      · rintro ⟨steps, ⟨hne, place', hplace, hstands⟩, rfl⟩
        obtain rfl := Except.ok.inj (hp.symm.trans hplace)
        exact ⟨(steps, e), once.mem_below.mpr ⟨hne, hstands⟩, rfl⟩

theorem nodup_descendants (once : t.Once) (workDir : Place) (p : Path) :
    ((t.descendants workDir p).map (·.1)).Nodup := by
  rw [FileTree.descendants]
  cases t.locate workDir p with
  | error fault => exact List.nodup_nil
  | ok place =>
      rw [List.map_map]
      refine List.pairwise_map.mpr ((once.pairwise_below place).imp fun hne heq => hne ?_)
      exact List.append_cancel_left (congrArg (·.parts) heq)

/-- Behind some steps, the last of them is the name. -/
theorem name_append (root : String) (parts : List String) (hne : steps ≠ []) :
    (⟨root, parts ++ steps⟩ : Path).name = steps.getLast?.getD "" := by
  rw [Path.name, List.getLast?_append_of_ne_nil _ hne]

/-! ## The headers below search directories -/

/-- **A HEADER BELOW A PATH**: a file there whose name ends in `.h`. -/
def HeaderBelow (t : FileTree) (workDir : Place) (p h : Path) : Prop :=
  ∃ steps content, Below t workDir p steps (.file content) ∧
    h = { p with parts := p.parts ++ steps } ∧ hasSuffix ".h" h.name = true

theorem HeaderBelow.isFile (ht : t.WellFormed) (hh : HeaderBelow t workDir p h) :
    t.isFile workDir h = true := by
  obtain ⟨steps, content, hbelow, rfl, -⟩ := hh
  exact isFile_iff.mpr ⟨_, content, hbelow.locate ht, hbelow.at?⟩

theorem mem_headersBelow (once : t.Once) :
    h ∈ headersBelow t workDir p ↔ HeaderBelow t workDir p h := by
  rw [headersBelow, List.mem_map]
  constructor
  · rintro ⟨⟨h, e⟩, hmem, rfl⟩
    obtain ⟨hmem, htest⟩ := List.mem_filter.mp hmem
    obtain ⟨hname, hfile⟩ := Bool.and_eq_true_iff.mp htest
    obtain ⟨steps, hbelow, rfl⟩ := (mem_descendants once).mp hmem
    cases e with
    | directory => exact nomatch hfile
    | file content => exact ⟨steps, content, hbelow, rfl, hname⟩
  · rintro ⟨steps, content, hbelow, rfl, hname⟩
    refine ⟨(_, .file content), List.mem_filter.mpr ⟨?_, ?_⟩, rfl⟩
    · exact (mem_descendants once).mpr ⟨steps, hbelow, rfl⟩
    · exact Bool.and_eq_true_iff.mpr ⟨hname, rfl⟩

theorem nodup_headersBelow (once : t.Once) (workDir : Place) (p : Path) :
    (headersBelow t workDir p).Nodup :=
  (nodup_descendants once workDir p).sublist (List.filter_sublist.map _)

/-- The headers below one directory are files of their own. -/
theorem nodup_places_headersBelow (ht : t.WellFormed) (workDir : Place) (p : Path) :
    ((headersBelow t workDir p).map (·.resolve workDir)).Nodup := by
  refine (nodup_headersBelow ht.once workDir p).map_on fun a ha b hb heq => ?_
  obtain ⟨steps, content, hbelow, rfl, -⟩ := (mem_headersBelow ht.once).mp ha
  obtain ⟨steps', content', hbelow', rfl, -⟩ := (mem_headersBelow ht.once).mp hb
  rw [hbelow.resolve ht, hbelow'.resolve ht] at heq
  rw [List.append_cancel_left heq]

theorem headersBelow_eq_nil (ht : t.WellFormed) (hp : t.isDirectory workDir p = false) :
    headersBelow t workDir p = [] := by
  refine List.eq_nil_iff_forall_not_mem.mpr fun h hmem => ?_
  obtain ⟨steps, content, hbelow, -⟩ := (mem_headersBelow ht.once).mp hmem
  rw [hbelow.isDirectory ht] at hp
  exact nomatch hp

/-- Directories that are missing give nothing, so that they need not be passed
    over. -/
theorem listHeaders_perm (ht : t.WellFormed) (root : String) (names : List String) :
    (listHeaders t workDir root names).Perm
      ((directoriesOf root names).flatMap (headersBelow t workDir)) := by
  refine (List.mergeSort_perm _ _).trans (List.Perm.of_eq ?_)
  induction directoriesOf root names with
  | nil => rfl
  | cons p more ih =>
      rw [List.flatMap_cons, ← ih]
      cases hp : t.isDirectory workDir p with
      | true => rw [List.filter_cons_of_pos hp, List.flatMap_cons]
      | false =>
          rw [List.filter_cons_of_neg (by simp [hp]), headersBelow_eq_nil ht hp, List.nil_append]

theorem mem_listHeaders (ht : t.WellFormed) {root : String} {names : List String} :
    h ∈ listHeaders t workDir root names ↔
      ∃ p ∈ directoriesOf root names, HeaderBelow t workDir p h := by
  rw [(listHeaders_perm ht root names).mem_iff, List.mem_flatMap]
  simp only [mem_headersBelow ht.once]

/-- **A HEADER IS TOLD AGAIN** just when it is below two of the directories. -/
theorem nodup_map_listHeaders {α : Type} {f : Path → α} (ht : t.WellFormed)
    (hf : ∀ p, ((headersBelow t workDir p).map f).Nodup) (root : String) (names : List String) :
    ((listHeaders t workDir root names).map f).Nodup ↔
      (directoriesOf root names).Pairwise fun p q =>
        ∀ a b, HeaderBelow t workDir p a → HeaderBelow t workDir q b → f a ≠ f b := by
  rw [((listHeaders_perm ht root names).map f).nodup_iff, List.map_flatMap, List.nodup_flatMap,
    and_iff_right fun p _ => hf p]
  refine List.Pairwise.iff fun {p q} => ?_
  simp only [Function.onFun, List.disjoint_left, List.mem_map, mem_headersBelow ht.once]
  constructor
  · rintro hapart a b ha hb heq
    exact hapart ⟨a, ha, rfl⟩ ⟨b, hb, heq.symm⟩
  · rintro hapart _ ⟨a, ha, rfl⟩ ⟨b, hb, heq⟩
    exact hapart a b ha hb heq.symm

/-! ## The directories that are searched by default -/

theorem child_name {s : String} (hroot : Path.rootOf s.toList = "")
    (hparts : (Path.ofString s).parts = [s]) (p : Path) :
    p.child s = { p with parts := p.parts ++ [s] } := by
  rw [Path.child, Path.join, Path.isAbsolute, hparts,
    show (Path.ofString s).root = "" from hroot]
  rfl

/-- Directories of two names have no header in common. -/
theorem headers_apart (ht : t.WellFormed) {d : Path} {s s' : String} {a b : Path} (hne : s ≠ s')
    (hs : s ≠ "..") (hs' : s' ≠ "..")
    (ha : HeaderBelow t workDir { d with parts := d.parts ++ [s] } a)
    (hb : HeaderBelow t workDir { d with parts := d.parts ++ [s'] } b) :
    a.resolve workDir ≠ b.resolve workDir := by
  obtain ⟨steps, content, hbelow, rfl, -⟩ := ha
  obtain ⟨steps', content', hbelow', rfl, -⟩ := hb
  rw [hbelow.resolve ht, hbelow'.resolve ht, Path.resolve_append, Path.resolve_append,
    Path.normalizeFrom_of_forward (by simpa using hs.symm),
    Path.normalizeFrom_of_forward (by simpa using hs'.symm), List.append_assoc, List.append_assoc]
  intro heq
  exact hne (List.cons.inj (List.append_cancel_left heq)).1

/-- **BY DEFAULT NO FILE IS TOLD TWICE.** -/
theorem nodup_places_searchDirectories (ht : t.WellFormed) (root : String) :
    ((listHeaders t workDir root).map (·.resolve workDir)).Nodup := by
  rw [nodup_map_listHeaders ht (nodup_places_headersBelow ht workDir)]
  have hdirectories : directoriesOf root searchDirectories =
      [(Path.ofString root).child "src", (Path.ofString root).child "include"] := rfl
  rw [hdirectories, child_name (by decide) (by decide), child_name (by decide) (by decide),
    List.pairwise_pair]
  intro a b
  exact headers_apart ht (by decide) (by decide) (by decide)

/-! ## Each element once -/

section Distinct

variable {α : Type} [BEq α] [LawfulBEq α]

theorem mem_foldl_distinct {x : α} (xs found : List α) :
    x ∈ xs.foldl (fun found x => if found.contains x then found else found ++ [x]) found ↔
      x ∈ found ∨ x ∈ xs := by
  induction xs generalizing found with
  | nil => simp
  | cons y ys ih =>
      rw [List.foldl_cons, ih, List.mem_cons]
      split
      · next hy =>
          have hmem : y ∈ found := by simpa using hy
          constructor
          · exact Or.imp_right .inr
          · rintro (hx | rfl | hx)
            · exact .inl hx
            · exact .inl hmem
            · exact .inr hx
      · simp [or_assoc]

theorem nodup_foldl_distinct (xs : List α) {found : List α} (hfound : found.Nodup) :
    (xs.foldl (fun found x => if found.contains x then found else found ++ [x]) found).Nodup := by
  induction xs generalizing found with
  | nil => exact hfound
  | cons y ys ih =>
      rw [List.foldl_cons]
      refine ih ?_
      split
      · exact hfound
      · next hy =>
          have hnew : y ∉ found := by simpa using hy
          rw [← List.concat_eq_append]
          exact hfound.concat hnew

theorem mem_distinct {x : α} {xs : List α} : x ∈ distinct xs ↔ x ∈ xs := by
  rw [distinct, mem_foldl_distinct, or_iff_right List.not_mem_nil]

theorem nodup_distinct (xs : List α) : (distinct xs).Nodup :=
  nodup_foldl_distinct xs List.nodup_nil

end Distinct

/-! ## What paths stand for -/

/-- Whether a name ends as those of headers do. -/
def isHeaderName (name : String) : Bool := suffixes.any (hasSuffix · name)

/-- **WHAT A PATH STANDS FOR**: the file that it names, or everything below the
    directory that it names whose name is that of a header. -/
inductive StandsFor (t : FileTree) (workDir : Place) (p : Path) : Place → Entry → Prop
  | file (content : Bytes) : t.find? workDir p = .ok (.file content) →
      StandsFor t workDir p (p.resolve workDir) (.file content)
  | below (steps : List String) (e : Entry) : Below t workDir p steps e →
      isHeaderName (steps.getLast?.getD "") = true →
      StandsFor t workDir p (p.resolve workDir ++ steps) e

theorem StandsFor.at? (h : StandsFor t workDir p q e) : t.at? q = some e := by
  cases h with
  | file content hp =>
      obtain ⟨place, hl, hstands⟩ := find?_eq_ok.mp hp
      rwa [← eq_resolve_of_locate hl]
  | below steps e hbelow _ => exact hbelow.at?

/-- The path from the root to a file names a file. -/
theorem isFile_ofPlace (ht : t.WellFormed) (hstands : t.at? q = some e) :
    t.isFile workDir (Path.ofPlace q) = isFileEntry e := by
  have hl : t.locate workDir (Path.ofPlace q) = .ok q :=
    ht.walk_eq (show t.at? ([] ++ q) ≠ none by simp [hstands])
  rw [FileTree.isFile, find?_eq_ok.mpr ⟨q, hl, hstands⟩]
  cases e <;> rfl

theorem exists_expandPath :
    (∃ found, expandPath t workDir p = .ok found) ↔ t.hasEntry workDir p = true := by
  rw [expandPath, hasEntry]
  cases t.find? workDir p with
  | error fault => exact iff_of_false nofun nofun
  | ok e => cases e <;> exact iff_of_true ⟨_, rfl⟩ rfl

/-- What is below a directory and ends in one of the suffixes. -/
theorem mem_flatMap_suffixes (once : t.Once) :
    h ∈ (suffixes.flatMap fun s =>
        ((t.descendants workDir p).filter fun (q, _) => hasSuffix s q.name).map (·.1)) ↔
      ∃ steps e, Below t workDir p steps e ∧ isHeaderName (steps.getLast?.getD "") = true ∧
        h = { p with parts := p.parts ++ steps } := by
  rw [List.mem_flatMap]
  constructor
  · rintro ⟨suffix, hsuffix, hmem⟩
    obtain ⟨⟨x, e⟩, hx, rfl⟩ := List.mem_map.mp hmem
    obtain ⟨hx, hname⟩ := List.mem_filter.mp hx
    obtain ⟨steps, hbelow, rfl⟩ := (mem_descendants once).mp hx
    refine ⟨steps, e, hbelow, List.any_eq_true.mpr ⟨suffix, hsuffix, ?_⟩, rfl⟩
    rwa [← name_append p.root p.parts hbelow.1]
  · rintro ⟨steps, e, hbelow, hname, rfl⟩
    obtain ⟨suffix, hsuffix, hname⟩ := List.any_eq_true.mp hname
    rw [← name_append p.root p.parts hbelow.1] at hname
    have hmem := (mem_descendants once).mpr ⟨steps, hbelow, rfl⟩
    exact ⟨suffix, hsuffix, List.mem_map.mpr ⟨_, List.mem_filter.mpr ⟨hmem, hname⟩, rfl⟩⟩

theorem mem_expandPath (ht : t.WellFormed) {found : List Path}
    (hfound : expandPath t workDir p = .ok found) :
    h ∈ found.map (·.resolved workDir) ↔ ∃ q e, StandsFor t workDir p q e ∧ h = Path.ofPlace q := by
  rw [expandPath] at hfound
  cases hp : t.find? workDir p with
  | error fault =>
      rw [hp] at hfound
      exact nomatch hfound
  | ok named =>
      rw [hp] at hfound
      cases named with
      | directory =>
          cases hfound
          simp only [List.mem_map, mem_flatMap_suffixes ht.once]
          constructor
          · rintro ⟨_, ⟨steps, e, hbelow, hname, rfl⟩, rfl⟩
            exact ⟨_, e, .below steps e hbelow hname, congrArg Path.ofPlace (hbelow.resolve ht)⟩
          · rintro ⟨q, e, hstands, rfl⟩
            cases hstands with
            | file content hfile => exact nomatch hfile.symm.trans hp
            | below steps e hbelow hname =>
                exact ⟨_, ⟨steps, e, hbelow, hname, rfl⟩,
                  congrArg Path.ofPlace (hbelow.resolve ht)⟩
      | file content =>
          cases hfound
          rw [List.map_singleton, List.mem_singleton]
          constructor
          · rintro rfl
            exact ⟨_, _, .file content hp, rfl⟩
          · rintro ⟨q, e, hstands, rfl⟩
            cases hstands with
            | file content' _ => rfl
            | below steps e hbelow _ =>
                -- nothing is below a file
                obtain ⟨place, hl, hdir⟩ := isDirectory_iff.mp (hbelow.isDirectory ht)
                exact nomatch hp.symm.trans (find?_eq_ok.mpr ⟨place, hl, hdir⟩)

theorem expandPaths_eq_ok {paths found : List Path} :
    expandPaths t workDir paths = .ok found ↔
      ∃ parts, List.Forall₂ (fun p part => expandPath t workDir p = .ok part) paths parts ∧
        (distinct (parts.flatten.map (·.resolved workDir))).mergeSort Path.le = found := by
  rw [expandPaths, Attempt.bind_eq_ok]
  simp only [Attempt.mapM_eq_ok, Attempt.pure_eq_ok]

theorem exists_expandPaths {paths : List Path} :
    (∃ found, expandPaths t workDir paths = .ok found) ↔
      ∀ p ∈ paths, t.hasEntry workDir p = true := by
  constructor
  · rintro ⟨found, hfound⟩ p hp
    obtain ⟨parts, hparts, -⟩ := expandPaths_eq_ok.mp hfound
    obtain ⟨part, -, hpart⟩ := exists_of_mem_forall₂ hparts hp
    exact exists_expandPath.mp ⟨part, hpart⟩
  · intro hall
    obtain ⟨parts, hparts⟩ := Attempt.exists_mapM fun p hp => exists_expandPath.mpr (hall p hp)
    exact ⟨_, expandPaths_eq_ok.mpr ⟨parts, Attempt.mapM_eq_ok.mp hparts, rfl⟩⟩

theorem mem_expandPaths (ht : t.WellFormed) {paths found : List Path}
    (hfound : expandPaths t workDir paths = .ok found) :
    h ∈ found ↔ ∃ p ∈ paths, ∃ q e, StandsFor t workDir p q e ∧ h = Path.ofPlace q := by
  obtain ⟨parts, hparts, rfl⟩ := expandPaths_eq_ok.mp hfound
  rw [(List.mergeSort_perm _ _).mem_iff, mem_distinct, List.map_flatten, List.mem_flatten]
  simp only [List.mem_map]
  constructor
  · rintro ⟨_, ⟨part, hpart, rfl⟩, hmem⟩
    obtain ⟨p, hp, hexpand⟩ := exists_of_mem_forall₂ hparts.flip hpart
    exact ⟨p, hp, (mem_expandPath ht hexpand).mp hmem⟩
  · rintro ⟨p, hp, hstands⟩
    obtain ⟨part, hpart, hexpand⟩ := exists_of_mem_forall₂ hparts hp
    exact ⟨_, ⟨part, hpart, rfl⟩, (mem_expandPath ht hexpand).mpr hstands⟩

/-- **PATHS STAND FOR FILES** if no directory below them has the name of a
    header. -/
theorem files_expandPaths (ht : t.WellFormed) {paths found : List Path}
    (hfound : expandPaths t workDir paths = .ok found) :
    (∀ h ∈ found, t.isFile workDir h = true) ↔
      ∀ p ∈ paths, ∀ steps, Below t workDir p steps .directory →
        isHeaderName (steps.getLast?.getD "") = false := by
  constructor
  · intro hfiles p hp steps hbelow
    rw [Bool.eq_false_iff]
    intro hname
    have hmem := (mem_expandPaths ht hfound).mpr
      ⟨p, hp, _, _, .below steps .directory hbelow hname, rfl⟩
    have hfile := hfiles _ hmem
    rw [isFile_ofPlace ht hbelow.at?] at hfile
    exact nomatch hfile
  · intro hplain h hmem
    obtain ⟨p, hp, q, e, hstands, rfl⟩ := (mem_expandPaths ht hfound).mp hmem
    rw [isFile_ofPlace ht hstands.at?]
    cases hstands with
    | file content _ => rfl
    | below steps e hbelow hname =>
        cases e with
        | file content => rfl
        | directory =>
            rw [hplain p hp steps hbelow] at hname
            exact nomatch hname

/-! ## What discovery finds -/

/-- **WHAT DISCOVERY FINDS.**  The search finds just the files below its
    directories whose names end in `.h`, in order.  A path is repeated just if
    it is below two of the directories, and a file is just if it is below the
    places of two; with the directories that are searched by default neither
    happens.

    Paths are taken if each of them names something.  What they stand for is
    then found, each place once and in order, and it is files only just if no
    directory below a path has the name of a header. -/
theorem headers_discovered (ht : t.WellFormed) (workDir : Place) :
    (∀ root names,
      (listHeaders t workDir root names).Pairwise (fun p q => p.le q) ∧
      (∀ h, h ∈ listHeaders t workDir root names ↔
        ∃ p ∈ directoriesOf root names, HeaderBelow t workDir p h) ∧
      (∀ h ∈ listHeaders t workDir root names, t.isFile workDir h = true) ∧
      ((listHeaders t workDir root names).Nodup ↔
        (directoriesOf root names).Pairwise fun p q =>
          ∀ a b, HeaderBelow t workDir p a → HeaderBelow t workDir q b → a ≠ b) ∧
      (((listHeaders t workDir root names).map (·.resolve workDir)).Nodup ↔
        (directoriesOf root names).Pairwise fun p q =>
          ∀ a b, HeaderBelow t workDir p a → HeaderBelow t workDir q b →
            a.resolve workDir ≠ b.resolve workDir)) ∧
    (∀ root, ((listHeaders t workDir root).map (·.resolve workDir)).Nodup) ∧
    ∀ paths,
      ((∃ found, expandPaths t workDir paths = .ok found) ↔
        ∀ p ∈ paths, t.hasEntry workDir p = true) ∧
      ∀ found, expandPaths t workDir paths = .ok found →
        found.Pairwise (fun p q => p.le q) ∧ found.Nodup ∧
        (∀ h, h ∈ found ↔ ∃ p ∈ paths, ∃ q e, StandsFor t workDir p q e ∧ h = Path.ofPlace q) ∧
        ((∀ h ∈ found, t.isFile workDir h = true) ↔
          ∀ p ∈ paths, ∀ steps, Below t workDir p steps .directory →
            isHeaderName (steps.getLast?.getD "") = false) := by
  refine ⟨fun root names => ⟨pairwise_sorted _, fun h => mem_listHeaders ht, ?_, ?_, ?_⟩,
    nodup_places_searchDirectories ht, fun paths => ⟨exists_expandPaths, fun found hfound =>
      ⟨?_, ?_, fun h => mem_expandPaths ht hfound, files_expandPaths ht hfound⟩⟩⟩
  · intro h hmem
    obtain ⟨p, -, hh⟩ := (mem_listHeaders ht).mp hmem
    exact hh.isFile ht
  · have hpaths : ∀ p, ((headersBelow t workDir p).map id).Nodup := by
      intro p
      rw [List.map_id]
      exact nodup_headersBelow ht.once workDir p
    have hiff := nodup_map_listHeaders ht hpaths root names
    rwa [List.map_id] at hiff
  · exact nodup_map_listHeaders ht (nodup_places_headersBelow ht workDir) root names
  · obtain ⟨parts, -, rfl⟩ := expandPaths_eq_ok.mp hfound
    exact pairwise_sorted _
  · obtain ⟨parts, -, rfl⟩ := expandPaths_eq_ok.mp hfound
    exact (List.mergeSort_perm _ _).nodup_iff.mpr (nodup_distinct _)

/-- A library with a header, and with a directory that is named like one. -/
def checkout : FileTree :=
  ((({} : FileTree).put ["src"] .directory).put ["src", "a.h"] (.file [])).put
    ["src", "old.h"] .directory

theorem wellFormed_checkout : checkout.WellFormed := by
  have hsrc : (({} : FileTree).put ([] ++ ["src"]) .directory).WellFormed :=
    WellFormed.empty.put rfl (by decide) (.inl rfl)
  have hfile : ((({} : FileTree).put ["src"] .directory).put (["src"] ++ ["a.h"])
      (.file [])).WellFormed := hsrc.put rfl (by decide) (.inr (by decide))
  have hold : (((({} : FileTree).put ["src"] .directory).put ["src", "a.h"] (.file [])).put
      (["src"] ++ ["old.h"]) .directory).WellFormed := hfile.put rfl (by decide) (.inl rfl)
  exact hold

theorem headers_discovered_checkout :
    checkout.WellFormed ∧
    (listHeaders checkout [] ".").Nodup ∧ ⟨"", ["src", "a.h"]⟩ ∈ listHeaders checkout [] "." ∧
    ∃ found, expandPaths checkout [] [⟨"", ["src"]⟩, ⟨"", ["src", "a.h"]⟩] = .ok found ∧
      found.Nodup ∧ Path.ofPlace ["src", "a.h"] ∈ found ∧
      ¬ ∀ h ∈ found, checkout.isFile [] h = true := by
  obtain ⟨hlist, honce, hexpand⟩ := headers_discovered wellFormed_checkout []
  obtain ⟨-, hmem, -⟩ := hlist "." searchDirectories
  refine ⟨wellFormed_checkout, (honce ".").of_map _, ?_, ?_⟩
  · refine (hmem _).mpr ⟨⟨"", ["src"]⟩, by decide, ["a.h"], [], ?_, rfl, by decide⟩
    exact ⟨by decide, ["src"], rfl, rfl⟩
  · obtain ⟨hall, hresult⟩ := hexpand [⟨"", ["src"]⟩, ⟨"", ["src", "a.h"]⟩]
    obtain ⟨found, hfound⟩ := hall.mpr (by decide)
    obtain ⟨-, hnodup, hstands, hfiles⟩ := hresult found hfound
    refine ⟨found, hfound, hnodup, ?_, ?_⟩
    · exact (hstands _).mpr ⟨_, List.mem_cons_of_mem _ List.mem_cons_self, _, _,
        .file [] rfl, rfl⟩
    · intro hall
      have hplain := hfiles.mp hall _ List.mem_cons_self ["old.h"]
        ⟨by decide, ["src"], rfl, rfl⟩
      revert hplain
      decide

/-- **A DIRECTORY IS FOUND AS A HEADER**, and a directory that is searched twice
    gives its headers twice. -/
theorem directory_found_as_header :
    checkout.WellFormed ∧
    expandPaths checkout [] [⟨"", ["src"]⟩] =
      .ok [⟨"/", ["src", "a.h"]⟩, ⟨"/", ["src", "old.h"]⟩] ∧
    checkout.isFile [] ⟨"/", ["src", "old.h"]⟩ = false ∧
    listHeaders checkout [] "." ["src", "src"] = [⟨"", ["src", "a.h"]⟩, ⟨"", ["src", "a.h"]⟩] := by
  refine ⟨wellFormed_checkout, ?_, by decide, ?_⟩
  · refine expandPaths_eq_ok.mpr
      ⟨[[⟨"", ["src", "a.h"]⟩, ⟨"", ["src", "old.h"]⟩]], .cons (by rfl) .nil, ?_⟩
    exact List.mergeSort_of_pairwise (by decide)
  · exact List.mergeSort_of_pairwise (by decide)

end GemBinder.Header
