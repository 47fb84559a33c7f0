import GemBinder.CommandLine.Run
import GemBinder.Proofs.Header.Scanning
import GemBinder.Proofs.World

/-! # What is read from headers

    The text of a header has unified line ends, and without comments it has
    no other characters but blanks.  Classes of several headers are merged by
    their names, so that what holds of all classes that were found, and of a
    class with what another one adds to it, holds of the merged ones. -/

namespace GemBinder.Header

open Files Text

/-! ## Merging -/

section Merge

variable {P : ClassDecl → Prop} (hmerge : ∀ d c, P d → P c → P (mergeInto d c))
include hmerge

theorem forall_mem_addClass {c : ClassDecl} {merged : List ClassDecl} (hc : P c)
    (h : ∀ d ∈ merged, P d) : ∀ d ∈ addClass c merged, P d := by
  induction merged with
  | nil => exact List.forall_mem_singleton.mpr hc
  | cons d merged ih =>
      obtain ⟨hd, hmore⟩ := List.forall_mem_cons.mp h
      rw [addClass]
      split
      · exact List.forall_mem_cons.mpr ⟨hmerge d c hd hc, hmore⟩
      · exact List.forall_mem_cons.mpr ⟨hd, ih hmore⟩

/-- **MERGED CLASSES** have what all found classes have and merging keeps. -/
theorem forall_mem_mergeClasses {found : List ClassDecl} (h : ∀ c ∈ found, P c) :
    ∀ c ∈ mergeClasses found, P c := by
  have hfold : ∀ merged, (∀ d ∈ merged, P d) →
      ∀ c ∈ found.foldl (fun merged c => addClass c merged) merged, P c := by
    induction found with
    | nil => exact fun _ hmerged => hmerged
    | cons c found ih =>
        obtain ⟨hc, hfound⟩ := List.forall_mem_cons.mp h
        exact fun merged hmerged => ih hfound _ (forall_mem_addClass hmerge hc hmerged)
  exact hfold [] nofun

end Merge

theorem legible_mergeInto (d c : ClassDecl) (hd : d.Legible) (hc : c.Legible) :
    (mergeInto d c).Legible where
  name := hd.name
  methods := List.forall_mem_append.mpr ⟨hd.methods, hc.methods⟩
  enums := List.forall_mem_append.mpr
    ⟨hd.enums, fun e he => hc.enums e (List.mem_filter.mp he).1⟩

/-! ## The text of a header -/

theorem blockRest?_suffix {s r : List Char} (h : blockRest? s = some r) : r <:+ s := by
  fun_induction blockRest? s with
  | case1 => cases h
  | case2 rest =>
      cases h
      exact List.suffix_append ['*', '/'] r
  | case3 c rest _ ih => exact (ih h).trans (List.suffix_cons c rest)

theorem commentRest?_suffix {s r : List Char} (h : commentRest? s = some r) : r <:+ s := by
  unfold commentRest? at h
  split at h
  · next rest =>
      cases h
      exact (List.dropWhile_suffix _).trans (List.suffix_append ['/', '/'] rest)
  · next rest => exact (blockRest?_suffix h).trans (List.suffix_append ['/', '*'] rest)
  · exact nomatch h

/-- Without comments, a text has no characters but its own and blanks. -/
theorem mem_of_mem_stripComments {c : Char} {s : List Char} (h : c ∈ stripComments s) :
    c = ' ' ∨ c ∈ s := by
  fun_induction stripComments s with
  | case1 => exact nomatch h
  | case2 d rest behind hcomment ih =>
      rcases List.mem_cons.mp h with rfl | hmem
      · exact .inl rfl
      · exact (ih hmem).imp_right fun hbehind => (commentRest?_suffix hcomment).subset hbehind
  | case3 d rest _ ih =>
      rcases List.mem_cons.mp h with rfl | hmem
      · exact .inr List.mem_cons_self
      · exact (ih hmem).imp_right (List.mem_cons_of_mem d)

/-- The text of a header has no carriage returns. -/
theorem gives_sourceText (header : String) :
    Gives (fun s => '\r' ∉ s) (sourceText header) := by
  have hread : ∀ w : World, Gives (fun s : String => '\r' ∉ s.toList)
      (Step.ofAttempt (readHeader w.tree w.workDir (Path.ofString header))) := by
    intro w v s v' h
    rw [Step.outcome_ofAttempt] at h
    have hs : readHeader w.tree w.workDir (Path.ofString header) = .ok s := congrArg Prod.fst h
    rw [readHeader] at hs
    split at hs
    · split at hs
      · cases hs
        rw [unifyLineEndsOf, String.toList_ofList]
        exact notMem_unifyLineEnds _
      · exact nomatch hs
    · exact nomatch hs
  refine Gives.trivial.bind fun w _ => (hread w).bind fun s hs => Gives.pure ?_
  intro hmem
  rcases mem_of_mem_stripComments hmem with heq | hmem
  · exact absurd heq (by decide)
  · exact hs hmem

/-! ## The text front end -/

variable {f : Frontend} (hf : f.engine = .text)
include hf

/-- **THE CLASSES OF A HEADER THAT CAN BE READ** are those of its text without
    comments. -/
theorem outcome_classes_of_text {w : World} {header text : String}
    (hread : readHeader w.tree w.workDir (Path.ofString header) = .ok text) :
    ∃ w', outcome (f.classes header) w
      = (.ok (parseClasses header (stripComments text.toList)), w') := by
  have hsource : outcome (sourceText header) w = (.ok (stripComments text.toList), w) := by
    rw [sourceText, outcome_get_bind, outcome_bind_of_ok (Step.outcome_ofAttempt _ _ |>.trans
      (by rw [hread]))]
    rfl
  rw [Frontend.classes, hf]
  dsimp only
  rw [outcome_bind_of_ok hsource]
  obtain ⟨w', htold⟩ := Step.exists_tellAll (f := fun c : ClassDecl =>
      Step.debug (s!"[regex] {header}: class {c.name} with {c.methods.length} method(s), " ++
        s!"{c.enums.length} enum(s)"))
    (fun _ _ => ⟨_, rfl⟩) (parseClasses header (stripComments text.toList)) w
  exact ⟨w', outcome_bind_of_ok htold⟩

theorem gives_classes (header : String) :
    Gives (fun found => ∀ c ∈ found, c.Legible) (f.classes header) := by
  rw [Frontend.classes, hf]
  refine Gives.trivial.bind fun s _ => Gives.trivial.bind fun _ _ => Gives.pure ?_
  exact fun c hc => legible_of_mem_parseClasses hc

theorem gives_enums (header : String) :
    Gives (fun found => ∀ e ∈ found, e.Legible ∧
      ∀ v ∈ e.values, ∀ s, v.value = some s → Written s) (f.enums header) := by
  rw [Frontend.enums, hf]
  refine (gives_sourceText header).bind fun s hs => Gives.pure fun e he => ?_
  exact (legible_of_mem_parseEnums he).imp_right fun hwritten => hwritten hs

theorem gives_allClasses (headers : List String) :
    Gives (fun found => ∀ c ∈ found, c.Legible) (f.allClasses headers) := by
  have hround : Gives (fun found => ∀ c ∈ found, ClassDecl.Legible c)
      (forIn headers [] fun header found => do
        let classes ← f.classes header
        let methods := (classes.flatMap (·.methods)).length
        Step.debug s!"[{f.name}] {header}: {classes.length} class(es), {methods} method(s)"
        pure (.yield (found ++ classes)) : Step (List ClassDecl)) := by
    refine Gives.forIn headers [] nofun fun header _ found hfound => ?_
    refine (gives_classes hf header).bind fun classes hclasses => ?_
    refine Gives.trivial.bind fun _ _ => Gives.pure ?_
    exact List.forall_mem_append.mpr ⟨hfound, hclasses⟩
  exact hround.bind fun found hfound => Gives.pure (forall_mem_mergeClasses legible_mergeInto hfound)

/-- **WHAT THE TEXT FRONT END READS** is legible. -/
theorem gives_readHeaders (headers : List String) :
    Gives (fun (classes, enums) => (∀ c ∈ classes, ClassDecl.Legible c) ∧
        ∀ e ∈ enums, EnumDecl.Legible e ∧ ∀ v ∈ e.values, ∀ s, v.value = some s → Written s)
      (CommandLine.readHeaders f headers) := by
  have hround : Gives (fun found => ∀ e ∈ found, EnumDecl.Legible e ∧
        ∀ v ∈ e.values, ∀ s, v.value = some s → Written s)
      (forIn headers [] fun header found => do
        let enums ← f.enums header
        pure (.yield (found ++ enums)) : Step (List EnumDecl)) := by
    refine Gives.forIn headers [] nofun fun header _ found hfound => ?_
    refine (gives_enums hf header).bind fun enums henums => Gives.pure ?_
    exact List.forall_mem_append.mpr ⟨hfound, henums⟩
  refine (gives_allClasses hf headers).bind fun classes hclasses => ?_
  exact hround.bind fun enums henums => Gives.pure ⟨hclasses, henums⟩

end GemBinder.Header
