import Mathlib.Algebra.Order.Group.Multiset
import Mathlib.Data.Multiset.Filter
import Mathlib.Tactic.Abel
import GemBinder.Proofs.Header.Traversal

/-! # Which enumerations of a header belong to a class

    The compiler front end goes through the tree of a header twice.  For the
    classes it enters what it offers, and takes the enumerations along that a
    class makes public.  For the enumerations it enters every class of the
    header, offered or not, and takes those that stand in the header.

    Both are compared with the sites of the tree: its cursors, each with the
    cursors above it.  The enumerations that are listed are then those of the
    returned classes and those that only have namespaces above them, but for
    two kinds: strays, which are listed although no returned class has them,
    and foreign ones, which a returned class has although they stand in
    another file (`listed_add_foreign`). -/

namespace GemBinder.Header

open Files

/-! ## Sites -/

/-- A cursor of a tree with what is above it, the nearest first; the root is
    above all of them and is left out. -/
structure Site where
  above : List CursorInfo
  cursor : Cursor

mutual

/-- The sites of a cursor and of those below it. -/
def Cursor.sites (above : List CursorInfo) : Cursor → List Site
  | .node info children => ⟨above, .node info children⟩ :: sitesOf (info :: above) children

/-- The sites of cursors and of those below them. -/
def sitesOf (above : List CursorInfo) : List Cursor → List Site
  | [] => []
  | c :: more => c.sites above ++ sitesOf above more

end

/-! ## What an enumeration and the cursors above it have to be -/

/-- An accessible definition of an enumeration with a name. -/
def CursorInfo.Enumeration (i : CursorInfo) : Prop :=
  i.kind = some "ENUM_DECL" ∧ i.isDefinition = true ∧ i.name ≠ "" ∧ i.Accessible

instance (i : CursorInfo) : Decidable i.Enumeration :=
  inferInstanceAs (Decidable (_ ∧ _ ∧ _ ∧ _))

/-- What is entered for enumerations: namespaces, and classes of the header
    of whatever kind. -/
def CursorInfo.Entered (inHeader : InHeader) (i : CursorInfo) : Prop :=
  i.kind = some "NAMESPACE" ∨
    (i.kind = some "CLASS_DECL" ∨ i.kind = some "STRUCT_DECL") ∧ inHeader i = true

instance (inHeader : InHeader) (i : CursorInfo) : Decidable (i.Entered inHeader) :=
  inferInstanceAs (Decidable (_ ∨ _ ∧ _))

instance (inHeader : InHeader) (i : CursorInfo) : Decidable (i.Offered inHeader) :=
  decidable_of_iff _ offersClass_iff

namespace Site

variable (inHeader : InHeader) (s : Site)

/-- An enumeration of the header with nothing but namespaces above it. -/
def TopLevel : Prop :=
  s.cursor.info.Enumeration ∧ inHeader s.cursor.info = true ∧
    ∀ a ∈ s.above, a.kind = some "NAMESPACE"

/-- An enumeration in a class that is returned: an offered class with only
    namespaces and offered classes above it. -/
def Attached : Prop :=
  s.cursor.info.Enumeration ∧ (∃ parent ∈ s.above.head?, parent.Offered inHeader) ∧
    ∀ a ∈ s.above, a.kind = some "NAMESPACE" ∨ a.Offered inHeader

/-- An enumeration of the header in namespaces and classes of the header. -/
def Listed : Prop :=
  s.cursor.info.Enumeration ∧ inHeader s.cursor.info = true ∧
    ∀ a ∈ s.above, a.Entered inHeader

/-- **A STRAY**: an enumeration that is listed, with a class above it, but
    not in a class that is returned. -/
def Stray : Prop :=
  s.Listed inHeader ∧ ¬ s.Attached inHeader ∧ ¬ s.TopLevel inHeader

/-- A foreign enumeration: one in a class that is returned, but of another
    file. -/
def Foreign : Prop := s.Attached inHeader ∧ ¬ inHeader s.cursor.info = true

instance : Decidable (s.TopLevel inHeader) := inferInstanceAs (Decidable (_ ∧ _ ∧ _))

instance : Decidable (s.Attached inHeader) := inferInstanceAs (Decidable (_ ∧ _ ∧ _))

instance : Decidable (s.Listed inHeader) := inferInstanceAs (Decidable (_ ∧ _ ∧ _))

instance : Decidable (s.Stray inHeader) := inferInstanceAs (Decidable (_ ∧ _ ∧ _))

instance : Decidable (s.Foreign inHeader) := inferInstanceAs (Decidable (_ ∧ _))

end Site

/-- The enumerations at the sites of a kind. -/
def enumsAt (nodes : List Cursor) (P : Site → Prop) [DecidablePred P] : Multiset EnumDecl :=
  (Multiset.filter P (sitesOf [] nodes)).map (·.cursor.toEnum)

variable {inHeader : InHeader} {i : CursorInfo} {above : List CursorInfo} {nodes : List Cursor}
  {s : Site}

theorem enumeration_iff :
    i.Enumeration ↔ (i.isEnum && i.isOpen && i.definesName) = true := by
  rw [CursorInfo.isEnum, CursorInfo.definesName, Bool.and_eq_true, Bool.and_eq_true,
    Bool.and_eq_true, isKind_iff (by decide), isOpen_iff, Bool.not_eq_true',
    String.isEmpty_eq_false_iff]
  constructor
  · rintro ⟨hkind, hdefinition, hname, haccess⟩
    exact ⟨⟨hkind, haccess⟩, hdefinition, hname⟩
  · rintro ⟨⟨hkind, haccess⟩, hdefinition, hname⟩
    exact ⟨hkind, hdefinition, hname, haccess⟩

theorem entered_iff :
    i.Entered inHeader ↔ (i.isNamespace || (i.isClass && inHeader i)) = true := by
  rw [CursorInfo.isClass, Bool.or_eq_true, Bool.and_eq_true, Bool.or_eq_true, isNamespace_iff,
    isKind_iff (by decide), isKind_iff (by decide)]
  rfl

theorem CursorInfo.Offered.entered (h : i.Offered inHeader) : i.Entered inHeader :=
  .inr ⟨h.kind, h.inHeader⟩

/-- An enumeration is not entered. -/
theorem CursorInfo.Enumeration.not_entered (h : i.Enumeration) : ¬ i.Entered inHeader := by
  have hkind : ∀ {kind}, i.kind = some kind → kind = "ENUM_DECL" :=
    fun hk => Option.some.inj (hk.symm.trans h.1)
  rintro (hspace | ⟨hclass | hstruct, -⟩)
  · exact absurd (hkind hspace) (by decide)
  · exact absurd (hkind hclass) (by decide)
  · exact absurd (hkind hstruct) (by decide)

/-- An offered class is no namespace. -/
theorem CursorInfo.Offered.not_namespace (h : i.Offered inHeader) :
    ¬ i.kind = some "NAMESPACE" := by
  rw [← isNamespace_iff, not_isNamespace_of_offersClass (offersClass_iff.mpr h)]
  exact Bool.false_ne_true

/-! ## Lists of cursors as unions -/

theorem sitesOf_eq_flatMap (above : List CursorInfo) (nodes : List Cursor) :
    sitesOf above nodes = nodes.flatMap (·.sites above) := by
  induction nodes with
  | nil => rfl
  | cons c more ih => rw [sitesOf, ih, List.flatMap_cons]

theorem enumsOf_eq_flatMap (nodes : List Cursor) :
    enumsOf inHeader nodes = nodes.flatMap (·.enums inHeader) := by
  induction nodes with
  | nil => rfl
  | cons c more ih => rw [enumsOf, ih, List.flatMap_cons]

/-- What is above a cursor is above those below it as well. -/
theorem Cursor.above_subset_of_mem_sites {c : Cursor} (h : s ∈ c.sites above) :
    above ⊆ s.above := by
  induction c using Cursor.induction generalizing above with
  | node info children ih =>
      rw [Cursor.sites, sitesOf_eq_flatMap] at h
      rcases List.mem_cons.mp h with rfl | hbelow
      · exact List.Subset.refl _
      · obtain ⟨c, hc, hs⟩ := List.mem_flatMap.mp hbelow
        exact fun a ha => ih c hc hs (List.mem_cons_of_mem info ha)

theorem above_subset_of_mem_sitesOf (h : s ∈ sitesOf above nodes) : above ⊆ s.above := by
  rw [sitesOf_eq_flatMap] at h
  obtain ⟨c, -, hs⟩ := List.mem_flatMap.mp h
  exact c.above_subset_of_mem_sites hs

/-! ## The enumerations that are listed -/

/-- **THE LISTED ENUMERATIONS** of a cursor are those at the listed sites, if
    what is above is entered. -/
theorem Cursor.enums_eq {c : Cursor} (habove : ∀ a ∈ above, a.Entered inHeader) :
    ((c.sites above).filter (·.Listed inHeader)).map (·.cursor) = c.enums inHeader := by
  induction c using Cursor.induction generalizing above with
  | node info children ih =>
      rw [Cursor.sites, Cursor.enums, List.filter_cons]
      by_cases hentered : info.Entered inHeader
      · -- what is entered is no enumeration itself
        have hself : ¬ Site.Listed inHeader ⟨above, .node info children⟩ :=
          fun hlisted => hlisted.1.not_entered hentered
        rw [if_neg (by simpa using hself), if_pos (entered_iff.mp hentered), sitesOf_eq_flatMap,
          enumsOf_eq_flatMap, List.filter_flatMap, List.map_flatMap]
        refine List.flatMap_congr fun c hc => ih c hc ?_
        exact List.forall_mem_cons.mpr ⟨hentered, habove⟩
      · have hbelow : (sitesOf (info :: above) children).filter (·.Listed inHeader) = [] := by
          refine List.filter_eq_nil_iff.mpr fun s hs hlisted => ?_
          have hinfo := above_subset_of_mem_sitesOf hs List.mem_cons_self
          exact hentered ((of_decide_eq_true hlisted).2.2 info hinfo)
        have hself : Site.Listed inHeader ⟨above, .node info children⟩ ↔
            (info.isEnum && inHeader info && info.isOpen && info.definesName) = true := by
          have henum := enumeration_iff (i := info)
          simp only [Bool.and_eq_true] at henum ⊢
          constructor
          · rintro ⟨hkind, hheader, -⟩
            obtain ⟨⟨hkind, hopen⟩, hname⟩ := henum.mp hkind
            exact ⟨⟨⟨hkind, hheader⟩, hopen⟩, hname⟩
          · rintro ⟨⟨⟨hkind, hheader⟩, hopen⟩, hname⟩
            exact ⟨henum.mpr ⟨⟨hkind, hopen⟩, hname⟩, hheader, habove⟩
        rw [if_neg fun h => hentered (entered_iff.mpr h), hbelow]
        by_cases hlisted : Site.Listed inHeader ⟨above, .node info children⟩
        · rw [if_pos (by simpa using hlisted), if_pos (hself.mp hlisted)]
          rfl
        · rw [if_neg (by simpa using hlisted), if_neg fun h => hlisted (hself.mpr h)]
          rfl

/-! ## The enumerations of classes -/

/-- The enumerations that a class makes public. -/
def Cursor.publicEnums (c : Cursor) : List Cursor := c.children.filter Cursor.isPublicEnum

theorem attached_cons {c : Cursor}
    (habove : ∀ a ∈ above, a.kind = some "NAMESPACE" ∨ a.Offered inHeader) :
    Site.Attached inHeader ⟨i :: above, c⟩ ↔ i.Offered inHeader ∧ c.isPublicEnum = true := by
  have henum : c.isPublicEnum = true ↔ c.info.Enumeration := enumeration_iff.symm
  rw [henum]
  constructor
  · rintro ⟨hc, ⟨parent, hparent, hoffered⟩, -⟩
    obtain rfl := Option.some.inj hparent
    exact ⟨hoffered, hc⟩
  · rintro ⟨hoffered, hc⟩
    exact ⟨hc, ⟨i, rfl, hoffered⟩, List.forall_mem_cons.mpr ⟨.inr hoffered, habove⟩⟩

/-- What is attached at cursors and below them: cursors that are attached
    themselves, and what classes further down make public. -/
theorem attached_sitesOf_perm {here : Cursor → Bool}
    (hhere : ∀ c, Site.Attached inHeader ⟨above, c⟩ ↔ here c = true)
    (hbelow : ∀ c ∈ nodes, (((sitesOf (c.info :: above) c.children).filter
      (·.Attached inHeader)).map (·.cursor)).Perm
        ((c.classes inHeader).flatMap Cursor.publicEnums)) :
    (((sitesOf above nodes).filter (·.Attached inHeader)).map (·.cursor)).Perm
      (nodes.filter here ++ (classesOf inHeader nodes).flatMap Cursor.publicEnums) := by
  induction nodes with
  | nil => exact List.Perm.nil
  | cons c more ih =>
      obtain ⟨hc, hmore⟩ := List.forall_mem_cons.mp hbelow
      have hsites : c.sites above = ⟨above, c⟩ :: sitesOf (c.info :: above) c.children := by
        cases c
        rfl
      rw [sitesOf, hsites, List.cons_append, List.filter_cons, List.filter_cons, classesOf,
        List.flatMap_append, List.filter_append]
      have hrest := (hc.append (ih hmore)).trans (List.perm_append_comm_assoc _ _ _)
      rw [← List.map_append] at hrest
      simp only [hhere, decide_eq_true_eq]
      split
      · exact hrest.cons c
      · exact hrest

/-- **THE ENUMERATIONS OF CLASSES**: those that the classes of a cursor make
    public are those at the sites below it that are attached to a class, if
    what is above is passed. -/
theorem Cursor.attached_perm (c : Cursor)
    (habove : ∀ a ∈ above, a.kind = some "NAMESPACE" ∨ a.Offered inHeader) :
    (((sitesOf (c.info :: above) c.children).filter (·.Attached inHeader)).map (·.cursor)).Perm
      ((c.classes inHeader).flatMap Cursor.publicEnums) := by
  induction c using Cursor.induction generalizing above with
  | node info children ih =>
      rw [Cursor.info, Cursor.children, Cursor.classes]
      by_cases hpassed : info.kind = some "NAMESPACE" ∨ info.Offered inHeader
      · have hhere : ∀ c, Site.Attached inHeader ⟨info :: above, c⟩ ↔
            (decide (info.Offered inHeader) && c.isPublicEnum) = true := by
          intro c
          rw [attached_cons habove, Bool.and_eq_true, decide_eq_true_iff]
        have hbelow := attached_sitesOf_perm hhere fun c hc =>
          ih c hc (List.forall_mem_cons.mpr ⟨hpassed, habove⟩)
        refine hbelow.trans (List.Perm.of_eq ?_)
        by_cases hspace : info.isNamespace = true
        · -- nothing is attached to a namespace
          have hclass : ¬ info.Offered inHeader :=
            fun h => h.not_namespace (isNamespace_iff.mp hspace)
          rw [if_pos hspace, decide_eq_false hclass]
          exact congrArg (· ++ _) (List.filter_eq_nil_iff.mpr fun _ _ => Bool.false_ne_true)
        · have hclass : info.Offered inHeader :=
            hpassed.resolve_left fun h => hspace (isNamespace_iff.mpr h)
          rw [if_neg hspace, if_pos (offersClass_iff.mpr hclass), List.flatMap_cons,
            decide_eq_true hclass]
          rfl
      · obtain ⟨hspace, hclass⟩ := not_or.mp hpassed
        rw [if_neg fun h => hspace (isNamespace_iff.mp h),
          if_neg fun h => hclass (offersClass_iff.mp h)]
        refine List.Perm.of_eq (List.map_eq_nil_iff.mpr (List.filter_eq_nil_iff.mpr ?_))
        intro s hs hattached
        have hinfo := above_subset_of_mem_sitesOf hs List.mem_cons_self
        exact hpassed ((of_decide_eq_true hattached).2.2 info hinfo)

/-! ## The two traversals compared -/

theorem enumsAt_congr {P Q : Site → Prop} [DecidablePred P] [DecidablePred Q]
    (h : ∀ s, P s ↔ Q s) : enumsAt nodes P = enumsAt nodes Q :=
  congrArg _ (Multiset.filter_congr fun s _ => h s)

/-- The enumerations of a kind are those of two parts of it. -/
theorem enumsAt_split (P Q : Site → Prop) [DecidablePred P] [DecidablePred Q] :
    enumsAt nodes P =
      enumsAt nodes (fun s => Q s ∧ P s) + enumsAt nodes (fun s => ¬ Q s ∧ P s) := by
  rw [enumsAt, enumsAt, enumsAt, ← Multiset.map_add, ← Multiset.filter_filter,
    ← Multiset.filter_filter, Multiset.filter_add_not]

theorem coe_enumsOf :
    (((enumsOf inHeader nodes).map Cursor.toEnum : List EnumDecl) : Multiset EnumDecl) =
      enumsAt nodes (·.Listed inHeader) := by
  have hlisted : (enumsOf inHeader nodes) =
      ((sitesOf [] nodes).filter (·.Listed inHeader)).map (·.cursor) := by
    rw [sitesOf_eq_flatMap, enumsOf_eq_flatMap, List.filter_flatMap, List.map_flatMap]
    exact List.flatMap_congr fun c _ => (c.enums_eq (List.forall_mem_nil _)).symm
  rw [hlisted, List.map_map, enumsAt, Multiset.filter_coe, Multiset.map_coe]
  rfl

theorem coe_enums_classesOf :
    (((classesOf inHeader nodes).flatMap fun c => c.publicEnums.map Cursor.toEnum : List EnumDecl) :
      Multiset EnumDecl) = enumsAt nodes (·.Attached inHeader) := by
  -- at the top there is no class to be attached to
  have hhere : ∀ c, Site.Attached inHeader ⟨[], c⟩ ↔ false = true := by
    intro c
    refine iff_of_false ?_ Bool.false_ne_true
    rintro ⟨-, ⟨parent, hparent, -⟩, -⟩
    exact nomatch hparent
  have hattached : (((sitesOf [] nodes).filter (·.Attached inHeader)).map (·.cursor)).Perm _ :=
    attached_sitesOf_perm hhere fun c _ => c.attached_perm (List.forall_mem_nil _)
  rw [List.filter_eq_nil_iff.mpr fun _ _ => Bool.false_ne_true, List.nil_append] at hattached
  rw [← List.map_flatMap, enumsAt, Multiset.filter_coe, Multiset.map_coe, Multiset.coe_eq_coe]
  refine (hattached.symm.map Cursor.toEnum).trans (List.Perm.of_eq ?_)
  exact List.map_map

/-- **WHAT IS LISTED AND WHAT IS FOREIGN** are together what classes have, what
    is at the top level, and the strays. -/
theorem listed_add_foreign :
    enumsAt nodes (·.Listed inHeader) + enumsAt nodes (·.Foreign inHeader) =
      enumsAt nodes (·.Attached inHeader) + enumsAt nodes (·.TopLevel inHeader) +
        enumsAt nodes (·.Stray inHeader) := by
  have hentered : ∀ s : Site, s.Attached inHeader → ∀ a ∈ s.above, a.Entered inHeader :=
    fun s hs a ha => (hs.2.2 a ha).elim .inl CursorInfo.Offered.entered
  have hown : enumsAt nodes (fun s => s.Attached inHeader ∧ s.Listed inHeader) =
      enumsAt nodes (fun s => inHeader s.cursor.info = true ∧ s.Attached inHeader) := by
    refine enumsAt_congr fun s => ?_
    constructor
    · rintro ⟨hattached, hlisted⟩
      exact ⟨hlisted.2.1, hattached⟩
    · rintro ⟨hheader, hattached⟩
      exact ⟨hattached, hattached.1, hheader, hentered s hattached⟩
  have htop : enumsAt nodes (fun s => s.TopLevel inHeader ∧
      ¬ s.Attached inHeader ∧ s.Listed inHeader) = enumsAt nodes (·.TopLevel inHeader) := by
    refine enumsAt_congr fun s => and_iff_left_of_imp ?_
    rintro ⟨henum, hheader, hspaces⟩
    refine ⟨?_, henum, hheader, fun a ha => .inl (hspaces a ha)⟩
    rintro ⟨-, ⟨parent, hparent, hoffered⟩, -⟩
    exact hoffered.not_namespace (hspaces parent (List.mem_of_mem_head? hparent))
  have hstray : enumsAt nodes (fun s => ¬ s.TopLevel inHeader ∧
      ¬ s.Attached inHeader ∧ s.Listed inHeader) = enumsAt nodes (·.Stray inHeader) :=
    enumsAt_congr fun s => ⟨fun h => ⟨h.2.2, h.2.1, h.1⟩, fun h => ⟨h.2.2, h.2.1, h.1⟩⟩
  have hforeign : enumsAt nodes (fun s => ¬ inHeader s.cursor.info = true ∧ s.Attached inHeader) =
      enumsAt nodes (·.Foreign inHeader) := enumsAt_congr fun s => and_comm
  rw [enumsAt_split (·.Listed inHeader) (·.Attached inHeader),
    enumsAt_split (fun s => ¬ s.Attached inHeader ∧ s.Listed inHeader) (·.TopLevel inHeader),
    enumsAt_split (·.Attached inHeader) (fun s => inHeader s.cursor.info = true), hown, htop,
    hstray, hforeign]
  abel

/-- The enumerations of a header are those that the traversal takes from its
    tree. -/
theorem Presents.outcome_enums {compiler : Compiler} {w : World} {header : String} {f : Frontend}
    (hf : f.engine = .compiler compiler) (h : Presents compiler w header nodes) :
    ∃ w', outcome (f.enums header) w =
      (.ok ((enumsOf (insideOf w header) nodes).map Cursor.toEnum), w') := by
  obtain ⟨w₁, hwork, hcompiled⟩ := h.outcome_compiledHeader
  obtain ⟨w', -, htell⟩ := exists_debugAll (fun notice => notice)
    ((enumsOf (insideOf w header) nodes).flatMap (·.info.enumNotices)) w₁
  refine ⟨w', ?_⟩
  rw [Frontend.enums, hf]
  dsimp only
  rw [outcome_bind_of_ok hcompiled, outcome_get_bind, hwork]
  exact outcome_bind_of_ok htell

/-- **WHERE THE TRAVERSALS AGREE**: the compiler front end lists, of a header,
    the enumerations of the classes that it returns and those at the top
    level, and the strays beside them, but not the foreign ones.  It lists the
    first two and nothing else just when strays and foreign ones are the same
    enumerations, such as when there are none of either. -/
theorem enumerations_agree_iff {compiler : Compiler} {w : World} {header : String} {f : Frontend}
    (hf : f.engine = .compiler compiler) (h : Presents compiler w header nodes) :
    ∃ classes enums w₁ w₂, outcome (f.classes header) w = (.ok classes, w₁) ∧
      outcome (f.enums header) w = (.ok enums, w₂) ∧
      (enums : Multiset EnumDecl) + enumsAt nodes (·.Foreign (insideOf w header)) =
        (classes.flatMap (·.enums) : List EnumDecl) +
          enumsAt nodes (·.TopLevel (insideOf w header)) +
          enumsAt nodes (·.Stray (insideOf w header)) ∧
      ((enums : Multiset EnumDecl) =
          (classes.flatMap (·.enums) : List EnumDecl) +
            enumsAt nodes (·.TopLevel (insideOf w header)) ↔
        enumsAt nodes (·.Foreign (insideOf w header)) =
          enumsAt nodes (·.Stray (insideOf w header))) := by
  obtain ⟨w₁, hclasses⟩ := h.outcome_classes hf
  obtain ⟨w₂, henums⟩ := h.outcome_enums hf
  have hattached : ((((classesOf (insideOf w header) nodes).map
      (Cursor.toClass (w.resolved (Path.ofString header)).toString)).flatMap (·.enums) :
        List EnumDecl) : Multiset EnumDecl) =
      enumsAt nodes (·.Attached (insideOf w header)) := by
    rw [List.flatMap_map]
    exact coe_enums_classesOf
  have hall : enumsAt nodes (·.Listed (insideOf w header)) + _ = _ := listed_add_foreign
  rw [← coe_enumsOf, ← hattached] at hall
  refine ⟨_, _, w₁, w₂, hclasses, henums, hall, ?_⟩
  constructor
  · intro hagree
    rw [hagree] at hall
    exact add_left_cancel hall
  · intro hsame
    rw [hsame] at hall
    exact add_right_cancel hall

/-- A class with a public enumeration and a private one, in a namespace beside
    a further enumeration. -/
def openModes : List Cursor :=
  [.node { kind := some "NAMESPACE", name := "N" }
    [.node { kind := some "CLASS_DECL", name := "A" }
      [.node { kind := some "ENUM_DECL", name := "Mode", access := some "PUBLIC" } [],
        .node { kind := some "ENUM_DECL", name := "Secret", access := some "PRIVATE" } []],
      .node { kind := some "ENUM_DECL", name := "Board" } []]]

/-- The public enumeration of the class and the one beside it are listed. -/
theorem enumerations_agree_openModes :
    let f : Frontend := { engine := .compiler (.showing openModes) }
    Presents (.showing openModes) oneHeader "a.h" openModes ∧
      ∃ classes enums w₁ w₂, outcome (f.classes "a.h") oneHeader = (.ok classes, w₁) ∧
        outcome (f.enums "a.h") oneHeader = (.ok enums, w₂) ∧
        (enums : Multiset EnumDecl) =
          (classes.flatMap (·.enums) : List EnumDecl) + {⟨"Board", [], false⟩} := by
  intro f
  have hpresents := presents_oneHeader openModes
  obtain ⟨classes, enums, w₁, w₂, hclasses, henums, -, hagree⟩ :=
    enumerations_agree_iff (f := f) rfl hpresents
  refine ⟨hpresents, classes, enums, w₁, w₂, hclasses, henums, hagree.mpr ?_⟩
  decide +kernel

/-- A class with a private class that has an enumeration. -/
def hiddenMode : List Cursor :=
  [.node { kind := some "CLASS_DECL", name := "A" }
    [.node { kind := some "CLASS_DECL", name := "Hidden", access := some "PRIVATE" }
      [.node { kind := some "ENUM_DECL", name := "Mode", access := some "PUBLIC" } []]]]

/-- **AN ENUMERATION OF A PRIVATE CLASS IS LISTED**, though it belongs to no
    class that is returned and is not at the top level. -/
theorem hidden_enumeration_listed :
    let f : Frontend := { engine := .compiler (.showing hiddenMode) }
    Presents (.showing hiddenMode) oneHeader "a.h" hiddenMode ∧
      ∃ classes enums w₁ w₂, outcome (f.classes "a.h") oneHeader = (.ok classes, w₁) ∧
        outcome (f.enums "a.h") oneHeader = (.ok enums, w₂) ∧
        (enums : Multiset EnumDecl) ≠ (classes.flatMap (·.enums) : List EnumDecl) +
          enumsAt hiddenMode (·.TopLevel (insideOf oneHeader "a.h")) := by
  intro f
  have hpresents := presents_oneHeader hiddenMode
  obtain ⟨w₁, hclasses⟩ := hpresents.outcome_classes (f := f) rfl
  obtain ⟨w₂, henums⟩ := hpresents.outcome_enums (f := f) rfl
  exact ⟨hpresents, _, _, w₁, w₂, hclasses, henums, by decide +kernel⟩

end GemBinder.Header
