import Mathlib.Data.List.Forall2
import GemBinder.Proofs.Selection
import GemBinder.Proofs.TypeRules

/-! # Stricter conventions only filter more

    Conventions are asked about nothing but references, and only to refuse
    them.  Conventions that say more therefore put a reference under another
    obstacle or under a first one, and leave every other type where it is.
    What they refuse may still be bound by code of the registry; but what is
    retained in this way was retained before. -/

namespace GemBinder

open Text TypeSpelling Pattern

/-! ## Conventions that say more -/

/-- Whether conventions say nothing that others do not say too. -/
structure Conventions.Within (c d : Conventions) : Prop where
  objects : c.objectPatterns ⊆ d.objectPatterns
  structs : c.structPatterns ⊆ d.structPatterns
  known : c.knownStructs ⊆ d.knownStructs

/-- Whether rules refuse no reference that others do not refuse too. -/
structure TypeRules.Within (r s : TypeRules) : Prop where
  objects : r.objectPatterns ⊆ s.objectPatterns
  structs : r.structPatterns ⊆ s.structPatterns
  known : r.knownStructs ⊆ s.knownStructs

variable {depth : Nat}

theorem compilePatterns_eq_ok_iff {ps : List String} {cs : List Compiled} :
    compilePatterns depth ps = .ok cs ↔
      List.Forall₂ (fun p c => Pattern.compile depth p = .ok c) ps cs := by
  induction ps generalizing cs with
  | nil =>
      rw [compilePatterns, List.forall₂_nil_left_iff, Except.ok.injEq]
      exact eq_comm
  | cons p more ih =>
      rw [compilePatterns, List.forall₂_cons_left_iff]
      cases hp : Pattern.compile depth p with
      | error e =>
          constructor
          · intro h
            cases h
          · rintro ⟨c, cs, hc, -⟩
            cases hc
      | ok c =>
          dsimp only
          cases hmore : compilePatterns depth more with
          | error bad =>
              constructor
              · intro h
                cases h
              · rintro ⟨c, cs, -, hcs, -⟩
                cases hmore.symm.trans (ih.mpr hcs)
          | ok found =>
              constructor
              · intro h
                exact ⟨c, found, rfl, ih.mp hmore, (Except.ok.inj h).symm⟩
              · rintro ⟨c', found', hc, hfound, rfl⟩
                obtain rfl := Except.ok.inj hc
                obtain rfl := Except.ok.inj (hmore.symm.trans (ih.mpr hfound))
                rfl

/-- Some of the patterns that can be read can be read by themselves, and to
    the same effect. -/
theorem exists_compilePatterns {ps qs : List String} {ds : List Compiled} (h : ps ⊆ qs)
    (hqs : compilePatterns depth qs = .ok ds) :
    ∃ cs, compilePatterns depth ps = .ok cs ∧ cs ⊆ ds := by
  have hall := compilePatterns_eq_ok_iff.mp hqs
  induction ps with
  | nil => exact ⟨[], rfl, List.nil_subset _⟩
  | cons p more ih =>
      obtain ⟨hp, hmore⟩ := List.cons_subset.mp h
      obtain ⟨cs, hcs, hsubset⟩ := ih hmore
      obtain ⟨d, hd, hcompile⟩ := exists_of_mem_forall₂ hall hp
      refine ⟨d :: cs, ?_, List.cons_subset.mpr ⟨hd, hsubset⟩⟩
      exact compilePatterns_eq_ok_iff.mpr (.cons hcompile (compilePatterns_eq_ok_iff.mp hcs))

theorem Conventions.compile_eq_ok_iff {c : Conventions} {r : TypeRules} :
    c.compile depth = .ok r ↔ compilePatterns depth c.objectPatterns = .ok r.objectPatterns ∧
      compilePatterns depth c.structPatterns = .ok r.structPatterns ∧
      c.knownStructs = r.knownStructs := by
  obtain ⟨objects, structs, known⟩ := r
  rw [Conventions.compile]
  cases compilePatterns depth c.objectPatterns with
  | error bad =>
      refine iff_of_false ?_ ?_
      · intro h
        cases h
      · rintro ⟨h, -, -⟩
        cases h
  | ok foundObjects =>
      cases compilePatterns depth c.structPatterns with
      | error bad =>
          refine iff_of_false ?_ ?_
          · intro h
            cases h
          · rintro ⟨-, h, -⟩
            cases h
      | ok foundStructs =>
          simp only [Except.ok.injEq]
          constructor
          · intro h
            cases h
            exact ⟨rfl, rfl, rfl⟩
          · rintro ⟨rfl, rfl, rfl⟩
            rfl

/-- Conventions that say less can be made ready if those that say more can. -/
theorem Conventions.Within.exists_compile {c d : Conventions} {s : TypeRules} (h : c.Within d)
    (hs : d.compile depth = .ok s) : ∃ r, c.compile depth = .ok r ∧ r.Within s := by
  obtain ⟨hobjects, hstructs, hknown⟩ := Conventions.compile_eq_ok_iff.mp hs
  obtain ⟨objects, hreadObjects, hsomeObjects⟩ := exists_compilePatterns h.objects hobjects
  obtain ⟨structs, hreadStructs, hsomeStructs⟩ := exists_compilePatterns h.structs hstructs
  refine ⟨⟨objects, structs, c.knownStructs⟩, ?_, hsomeObjects, hsomeStructs, ?_⟩
  · exact Conventions.compile_eq_ok_iff.mpr ⟨hreadObjects, hreadStructs, rfl⟩
  · exact fun name hname => hknown ▸ h.known hname

/-! ## Types -/

namespace TypeRules

variable {r s : TypeRules} {t : List Char} {type : String}

theorem any_of_subset {α : Type} {p : α → Bool} {l k : List α} (h : l ⊆ k) (hl : l.any p = true) :
    k.any p = true := by
  obtain ⟨a, ha, hp⟩ := List.any_eq_true.mp hl
  exact List.any_eq_true.mpr ⟨a, h ha, hp⟩

/-- A reference stays refused, perhaps as another kind of thing. -/
theorem Within.referenceObstacle? (h : r.Within s)
    (hr : (r.referenceObstacle? t).isSome = true) : (s.referenceObstacle? t).isSome = true := by
  have hnames : r.objectPatterns.any (·.occursIn (referenceBase t)) = true ∨
      (isOneOf r.knownStructs (referenceBase t) ||
        r.structPatterns.any (·.occursIn (referenceBase t))) = true := by
    rw [TypeRules.referenceObstacle?] at hr
    by_contra hnone
    obtain ⟨hobject, hstruct⟩ := not_or.mp hnone
    rw [if_neg hobject, if_neg hstruct] at hr
    exact nomatch hr
  rw [TypeRules.referenceObstacle?]
  rcases hnames with hobject | hstruct
  · rw [if_pos (any_of_subset h.objects hobject)]
    rfl
  · split
    · rfl
    · rw [if_pos]
      · rfl
      · rw [Bool.or_eq_true] at hstruct ⊢
        exact hstruct.imp (any_of_subset h.known) (any_of_subset h.structs)

/-- **WHAT IS REFUSED STAYS REFUSED.** -/
theorem Within.obstacle? (h : r.Within s) (hr : (r.obstacle? t).isSome = true) :
    (s.obstacle? t).isSome = true := by
  rw [TypeRules.obstacle?] at hr ⊢
  -- before references and behind them the rules do not ask the conventions
  by_cases hmalformed : isMalformed t = true
  · rw [if_pos hmalformed]
    rfl
  rw [if_neg hmalformed] at hr ⊢
  by_cases hfunction : isFunctionPointer t = true
  · rw [if_pos hfunction]
    rfl
  rw [if_neg hfunction] at hr ⊢
  by_cases hrvalue : isRvalue t = true
  · rw [if_pos hrvalue]
    rfl
  rw [if_neg hrvalue] at hr ⊢
  by_cases htemplate : isTemplate t = true
  · rw [if_pos htemplate]
    rfl
  rw [if_neg htemplate] at hr ⊢
  by_cases hreference : endsIn '&' t = true
  · rw [if_pos hreference] at hr ⊢
    cases hs : s.referenceObstacle? t with
    | some why => rfl
    | none =>
        have hnone : r.referenceObstacle? t = none := by
          rw [← Option.not_isSome_iff_eq_none]
          intro hsome
          have := h.referenceObstacle? hsome
          rw [hs] at this
          exact Bool.false_ne_true this
        rw [hnone] at hr
        exact hr
  · rw [if_neg hreference] at hr ⊢
    exact hr

theorem Within.isUnsupported (h : r.Within s) (hr : r.isUnsupported type = true) :
    s.isUnsupported type = true := by
  rw [isUnsupported_eq] at hr ⊢
  exact h.obstacle? hr

/-- Conventions do not matter to what is no reference. -/
theorem classify_eq_of_not_reference (h : endsIn '&' (trim type.toList) = false) :
    r.classify type = s.classify type := by
  have hobstacle : r.obstacle? (trim type.toList) = s.obstacle? (trim type.toList) := by
    rw [TypeRules.obstacle?, TypeRules.obstacle?, h]
    rfl
  rw [classify, classify, classifyChars, classifyChars, hobstacle]

/-- A method is supported by fewer rules. -/
theorem Within.supports (h : r.Within s) {m : Method} (hs : s.supports m = true) :
    r.supports m = true := by
  have hback : ∀ type, s.isUnsupported type = false → r.isUnsupported type = false := by
    intro type hsupported
    rw [Bool.eq_false_iff] at hsupported ⊢
    exact fun hr => hsupported (h.isUnsupported hr)
  obtain ⟨hreturn, hparameters⟩ := supports_iff.mp hs
  exact supports_iff.mpr ⟨hback _ hreturn, fun p hp => hback _ (hparameters p hp)⟩

end TypeRules

/-! ## Selections -/

variable {r s : TypeRules} {registry : Registry} {m : Member}

/-- **WHAT STRICTER RULES RETAIN IS RETAINED**: what code binds under them is
    bound by the same code before, if it was not supported. -/
theorem TypeRules.Within.retainable (h : r.Within s) (hs : retainable registry s m = true) :
    retainable registry r m = true := by
  rw [GemBinder.retainable, Bool.and_eq_true, Bool.or_eq_true] at hs ⊢
  exact ⟨hs.1, hs.2.imp_left h.supports⟩

/-- The registry is asked for less code. -/
theorem TypeRules.Within.answers (h : r.Within s) (hs : registry.Answers s m) :
    registry.Answers r m := by
  intro hskips hsupports
  refine hs hskips (Bool.eq_false_iff.mpr fun hsupported => ?_)
  exact Bool.false_ne_true (hsupports.symm.trans (h.supports hsupported))

/-- Whether a class is another one with a part of its methods, in their order. -/
def ClassDecl.PartOf (c d : ClassDecl) : Prop :=
  ∃ methods, methods.Sublist d.methods ∧ c = d.withMethods methods

theorem TypeRules.Within.partOf_retainable (h : r.Within s) (c : ClassDecl) :
    (c.retainable registry s).PartOf (c.retainable registry r) := by
  refine ⟨(c.retainable registry s).methods, ?_, rfl⟩
  exact List.monotone_filter_right c.methods fun method hs => h.retainable hs

/-- **RULES THAT FILTER MORE** than others: what was refused is refused, a
    type that is no reference keeps its category, and a selection, which there
    is just when the registry answers, retains of every class a part of the
    methods that were retained before. -/
structure TypeRules.FiltersMore (s r : TypeRules) : Prop where
  refused : ∀ type, r.isUnsupported type = true → s.isUnsupported type = true
  elsewhere : ∀ type : String, endsIn '&' (trim type.toList) = false →
    r.classify type = s.classify type
  selects : ∀ registry classes, (∃ result, selectMethods registry s classes = .ok result) ↔
    ∀ m ∈ membersOf classes, registry.Answers s m
  retains : ∀ registry classes retained stats,
    selectMethods registry s classes = .ok (retained, stats) →
      ∃ wider widerStats, selectMethods registry r classes = .ok (wider, widerStats) ∧
        List.Forall₂ ClassDecl.PartOf retained wider

theorem TypeRules.Within.filtersMore (h : r.Within s) : s.FiltersMore r where
  refused := fun _ => h.isUnsupported
  elsewhere := fun _ => classify_eq_of_not_reference
  selects := fun _ _ => selectMethods_eq_ok_iff
  retains := by
    intro registry classes retained stats hselect
    have hanswers := selectMethods_eq_ok_iff.mp ⟨_, hselect⟩
    obtain ⟨js, -, -, hstricter⟩ := exists_selectMethods hanswers
    obtain ⟨ks, -, -, hwider⟩ := exists_selectMethods fun m hm => h.answers (hanswers m hm)
    cases hstricter.symm.trans hselect
    refine ⟨_, _, hwider, ?_⟩
    rw [List.forall₂_map_left_iff, List.forall₂_map_right_iff, List.forall₂_same]
    exact fun c _ => h.partOf_retainable c

/-- **STRICTER CONVENTIONS ONLY FILTER MORE**: so do rules that refuse more
    references, however they were made, and conventions that say more, as soon
    as they can be made ready; then those that say less can be, too. -/
theorem stricter_filters_more :
    (∀ r s : TypeRules, r.Within s → s.FiltersMore r) ∧
      ∀ (c d : Conventions) (depth : Nat) (s : TypeRules), c.Within d → d.compile depth = .ok s →
        ∃ r, c.compile depth = .ok r ∧ s.FiltersMore r := by
  refine ⟨fun _ _ => TypeRules.Within.filtersMore, fun c d depth s h hs => ?_⟩
  obtain ⟨r, hr, hwithin⟩ := h.exists_compile hs
  exact ⟨r, hr, hwithin.filtersMore⟩

/-- By the default conventions a clock and lights keep one method, since all
    others take or return a reference or a pointer to numbers; without any
    conventions they keep three. -/
theorem stricter_filters_more_clockAndLights :
    let none : Conventions := ⟨[], [], []⟩
    none.Within {} ∧ ({} : Conventions).compile 490 = .ok .default ∧
      ∃ r, none.compile 490 = .ok r ∧ r.isUnsupported "const RGBColor&" = false ∧
        TypeRules.default.isUnsupported "const RGBColor&" = true ∧
        ∃ retained stats wider widerStats,
          selectMethods {} .default clockAndLights = .ok (retained, stats) ∧
          selectMethods {} r clockAndLights = .ok (wider, widerStats) ∧
          List.Forall₂ ClassDecl.PartOf retained wider ∧
          retained.map (·.methods.length) = [0, 1] ∧ wider.map (·.methods.length) = [1, 2] := by
  intro none
  have hwithin : none.Within {} := ⟨nofun, nofun, nofun⟩
  have hdefault := TypeRules.compile_default 490
  obtain ⟨r, hr, hmore⟩ := stricter_filters_more.2 none {} 490 _ hwithin hdefault
  obtain rfl := Except.ok.inj (hr.symm.trans (show none.compile 490 = .ok ⟨[], [], []⟩ from rfl))
  obtain ⟨stats, hretained⟩ := exists_selectMethods_empty .default clockAndLights
  obtain ⟨wider, widerStats, hwider, hpart⟩ := hmore.retains {} clockAndLights _ _ hretained
  obtain ⟨allStats, hall⟩ := exists_selectMethods_empty ⟨[], [], []⟩ clockAndLights
  cases hall.symm.trans hwider
  exact ⟨hwithin, hdefault, _, hr, by decide +kernel, by decide +kernel, _, stats, _, _, hretained,
    hwider, hpart, by decide +kernel, by decide +kernel⟩

end GemBinder
