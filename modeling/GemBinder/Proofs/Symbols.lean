import GemBinder.Proofs.Registration
import GemBinder.Proofs.Text.Casing

/-! # Which registered methods share a symbol

    A symbol is the prefix, a stem and the arity, with underscores between
    them.  The stem of a contested member has its class in it, that of any
    other member is its name in lower case, so that two registered members
    share a symbol just when their stems and arities agree
    (`symbolOf_inj`).  Telling members apart by name and arity does not tell
    their stems apart: `SymbolsApart` names the three ways in which stems
    can meet, and no other is left. -/

namespace GemBinder

open Text

/-! ## The end of a native name -/

/-- What the name of a native function ends in, which stands for the types of
    the parameters: their fragments, joined by underscores. -/
def Method.nameEnding (m : Method) : String :=
  if m.parameters.isEmpty then "void"
  else joinStrings "_" (m.parameterTypes.map TypeSpelling.nameFragmentString)

theorem Method.nativeName_eq (m : Method) (owner vendorPrefix : String) :
    m.nativeName owner vendorPrefix =
      vendorPrefix ++ "_" ++ lowerString owner ++ "_" ++ lowerString m.name ++ "_" ++
        m.nameEnding := by
  have hvoid : ∀ base : String, base ++ "_" ++ "void" = base ++ "_void" := by
    intro base
    rw [String.append_assoc]
    rfl
  rw [nativeName, nameEnding]
  split
  · rw [hvoid]
    rfl
  · rfl

/-- **OVERLOADS WITH ONE NATIVE NAME** are those whose parameter types have
    fragments that read the same, one after the other. -/
theorem Method.nativeName_inj {m m' : Method} {owner owner' vendorPrefix : String}
    (howner : lowerString owner = lowerString owner')
    (hname : lowerString m.name = lowerString m'.name) :
    m.nativeName owner vendorPrefix = m'.nativeName owner' vendorPrefix ↔
      m.nameEnding = m'.nameEnding := by
  rw [nativeName_eq, nativeName_eq, howner, hname]
  exact String.append_right_inj _

/-! ## The parts of a symbol -/

/-- A symbol from its parts. -/
def symbolWith (vmPrefix stem : String) (arity : Nat) : String :=
  vmPrefix ++ "_" ++ stem ++ "_" ++ toString arity

/-- What stands before a mark and what stands behind it can be told from the
    whole, if the mark does not occur behind itself. -/
theorem append_mark_inj {mark : Char} {s s' t t' : List Char}
    (ht : mark ∉ t) (ht' : mark ∉ t') :
    s ++ mark :: t = s' ++ mark :: t' ↔ s = s' ∧ t = t' := by
  constructor
  · intro h
    rcases List.append_eq_append_iff.mp h with ⟨u, hs, hu⟩ | ⟨u, hs, hu⟩
    · cases u with
      | nil => exact ⟨by rw [hs, List.append_nil], (List.cons.inj hu).2⟩
      | cons c u =>
          -- the second mark would stand in the first tail
          refine absurd ?_ ht
          rw [(List.cons.inj hu).2]
          exact List.mem_append_right _ List.mem_cons_self
    · cases u with
      | nil => exact ⟨by rw [hs, List.append_nil], (List.cons.inj hu).2.symm⟩
      | cons c u =>
          refine absurd ?_ ht'
          rw [(List.cons.inj hu).2]
          exact List.mem_append_right _ List.mem_cons_self
  · rintro ⟨rfl, rfl⟩
    rfl

theorem toString_nat_inj {n n' : Nat} (h : (toString n).toList = (toString n').toList) :
    n = n' := by
  have hd : Nat.toDigits 10 n = Nat.toDigits 10 n' := by
    simpa only [Nat.toString_eq_repr, Nat.toList_repr] using h
  rw [← Nat.ofDigitChars_ten_toDigits (n := n), hd, Nat.ofDigitChars_ten_toDigits]

/-- **THE PARTS OF A SYMBOL CAN BE TOLD FROM IT**, below one prefix: the
    digits of the arity hold no underscore. -/
theorem symbolWith_inj {vmPrefix stem stem' : String} {arity arity' : Nat} :
    symbolWith vmPrefix stem arity = symbolWith vmPrefix stem' arity'
      ↔ stem = stem' ∧ arity = arity' := by
  constructor
  · intro h
    have hlists := congrArg String.toList h
    simp only [symbolWith, String.toList_append, List.append_assoc] at hlists
    have htail := List.append_cancel_left (List.append_cancel_left hlists)
    obtain ⟨hstem, hdigits⟩ := (append_mark_inj (notMem_repr (by decide) arity)
      (notMem_repr (by decide) arity')).mp htail
    exact ⟨String.toList_inj.mp hstem, toString_nat_inj hdigits⟩
  · rintro ⟨rfl, rfl⟩
    rfl

/-- The stem with the class in it; a class without a name adds nothing. -/
def Member.qualifiedStem (m : Member) : String :=
  if m.owner.isEmpty then lowerString m.method.name
  else lowerString m.owner ++ "_" ++ lowerString m.method.name

theorem Method.vmName_eq_symbolWith (m : Method) (vmPrefix : String) :
    m.vmName vmPrefix = symbolWith vmPrefix (lowerString m.name) m.arity := rfl

theorem Member.vmNameIn_eq_symbolWith (m : Member) (vmPrefix : String) :
    m.method.vmNameIn m.owner vmPrefix = symbolWith vmPrefix m.qualifiedStem m.method.arity := by
  rw [Method.vmNameIn, Member.qualifiedStem]
  by_cases hempty : m.owner.isEmpty = true
  · rw [if_pos hempty, if_pos hempty]
    rfl
  · rw [if_neg hempty, if_neg hempty]
    simp only [symbolWith, String.append_assoc]
    rfl

/-! ## Contests -/

/-- Whether members of other classes claim the symbol that a member would
    have without its class. -/
def Member.Contested (vmPrefix : String) (kept : List Member) (m : Member) : Prop :=
  isContested vmPrefix kept (m.method.vmName vmPrefix) = true

instance (vmPrefix : String) (kept : List Member) (m : Member) :
    Decidable (m.Contested vmPrefix kept) :=
  inferInstanceAs (Decidable (_ = true))

/-- A symbol is contested just when kept members of two classes claim it. -/
theorem isContested_iff {vmPrefix symbol : String} {kept : List Member} :
    isContested vmPrefix kept symbol = true ↔
      ∃ a ∈ kept, ∃ b ∈ kept, a.method.vmName vmPrefix = symbol ∧
        b.method.vmName vmPrefix = symbol ∧ a.owner ≠ b.owner := by
  -- what claims the symbol is compared with the first that does
  have hmem : ∀ a, a ∈ kept.filter (·.method.vmName vmPrefix == symbol) ↔
      a ∈ kept ∧ a.method.vmName vmPrefix = symbol := by
    intro a
    rw [List.mem_filter, beq_iff_eq]
  rw [isContested]
  cases hclaims : kept.filter (·.method.vmName vmPrefix == symbol) with
  | nil =>
      rw [hclaims] at hmem
      constructor
      · intro h
        exact nomatch h
      · rintro ⟨a, ha, -, -, hsym, -, -⟩
        exact nomatch (hmem a).mpr ⟨ha, hsym⟩
  | cons first more =>
      rw [hclaims] at hmem
      obtain ⟨hfirst, hfirstSym⟩ := (hmem first).mp List.mem_cons_self
      show more.any (·.owner != first.owner) = true ↔ _
      rw [List.any_eq_true]
      constructor
      · rintro ⟨b, hb, hne⟩
        obtain ⟨hkept, hsym⟩ := (hmem b).mp (List.mem_cons_of_mem _ hb)
        exact ⟨b, hkept, first, hfirst, hsym, hfirstSym, bne_iff_ne.mp hne⟩
      · rintro ⟨a, ha, b, hb, hsa, hsb, hne⟩
        -- one of the two has another class than the first claimant
        by_cases hown : a.owner = first.owner
        · have hown' : b.owner ≠ first.owner := fun h => hne (hown.trans h.symm)
          rcases List.mem_cons.mp ((hmem b).mpr ⟨hb, hsb⟩) with rfl | hmore
          · exact absurd rfl hown'
          · exact ⟨b, hmore, bne_iff_ne.mpr hown'⟩
        · rcases List.mem_cons.mp ((hmem a).mpr ⟨ha, hsa⟩) with rfl | hmore
          · exact absurd rfl hown
          · exact ⟨a, hmore, bne_iff_ne.mpr hown⟩

variable {vmPrefix : String} {kept : List Member} {a b : Member}

/-- Whether a member is contested depends on its name in lower case and its
    arity alone. -/
theorem Member.contested_congr (hname : lowerString a.method.name = lowerString b.method.name)
    (harity : a.method.arity = b.method.arity) :
    a.Contested vmPrefix kept ↔ b.Contested vmPrefix kept := by
  unfold Member.Contested
  rw [Method.vmName_eq_symbolWith, Method.vmName_eq_symbolWith, hname, harity]

/-- The stem that the symbol of a member has among those that are kept. -/
def Member.stem (vmPrefix : String) (kept : List Member) (m : Member) : String :=
  if m.Contested vmPrefix kept then m.qualifiedStem else lowerString m.method.name

theorem symbolOf_eq_symbolWith (m : Member) :
    symbolOf vmPrefix kept m = symbolWith vmPrefix (m.stem vmPrefix kept) m.method.arity := by
  rw [Member.stem]
  by_cases h : m.Contested vmPrefix kept
  · rw [if_pos h, ← Member.vmNameIn_eq_symbolWith]
    exact if_pos h
  · rw [if_neg h, ← Method.vmName_eq_symbolWith]
    exact if_neg h

/-- Two members share a symbol just when their stems and arities agree. -/
theorem symbolOf_inj :
    symbolOf vmPrefix kept a = symbolOf vmPrefix kept b ↔
      a.stem vmPrefix kept = b.stem vmPrefix kept ∧ a.method.arity = b.method.arity := by
  rw [symbolOf_eq_symbolWith, symbolOf_eq_symbolWith, symbolWith_inj]

/-- What no part of a symbol holds, the symbol does not hold. -/
theorem notMem_symbolOf {m : Member} {mark : Char} (hmark : IsMark mark) (hscore : mark ≠ '_')
    (hdigit : mark.isDigit = false) (hvm : mark ∉ vmPrefix.toList)
    (howner : mark ∉ m.owner.toList) (hname : mark ∉ m.method.name.toList) :
    mark ∉ (symbolOf vmPrefix kept m).toList := by
  have hscored : mark ∉ "_".toList := fun h => hscore (List.mem_singleton.mp h)
  have hlower : ∀ s : String, mark ∉ s.toList → mark ∉ (lowerString s).toList := by
    intro s hs h
    rw [lowerString, String.toList_ofList] at h
    exact hs (mem_of_mem_lower hmark h)
  have hqualified : mark ∉ m.qualifiedStem.toList := by
    rw [Member.qualifiedStem]
    by_cases hempty : m.owner.isEmpty = true
    · rw [if_pos hempty]
      exact hlower _ hname
    · rw [if_neg hempty, String.toList_append, String.toList_append]
      simp only [List.mem_append, not_or]
      exact ⟨⟨hlower _ howner, hscored⟩, hlower _ hname⟩
  have hstem : mark ∉ (m.stem vmPrefix kept).toList := by
    rw [Member.stem]
    by_cases hcontested : m.Contested vmPrefix kept
    · rw [if_pos hcontested]
      exact hqualified
    · rw [if_neg hcontested]
      exact hlower _ hname
  have harity : mark ∉ (toString m.method.arity).toList := notMem_repr hdigit _
  rw [symbolOf_eq_symbolWith, symbolWith]
  simp only [String.toList_append, List.mem_append, not_or]
  exact ⟨⟨⟨⟨hvm, hscored⟩, hstem⟩, hscored⟩, harity⟩

/-! ## Symbols that meet -/

/-- No two kept members have stems that meet, in any of the three ways in
    which stems can. -/
structure SymbolsApart (vmPrefix : String) (kept : List Member) : Prop where
  /-- No class has names that differ in letter case alone. -/
  cases : ∀ a ∈ kept, ∀ b ∈ kept, a.owner = b.owner → a.method.arity = b.method.arity →
    lowerString a.method.name = lowerString b.method.name → a = b
  /-- No two classes run into one stem with their methods. -/
  qualified : ∀ a ∈ kept, ∀ b ∈ kept, a.owner ≠ b.owner → a.method.arity = b.method.arity →
    a.Contested vmPrefix kept → b.Contested vmPrefix kept → a.qualifiedStem ≠ b.qualifiedStem
  /-- No class with its method spells the name of an uncontested method. -/
  bare : ∀ a ∈ kept, ∀ b ∈ kept, a.method.arity = b.method.arity →
    a.Contested vmPrefix kept → ¬ b.Contested vmPrefix kept →
    a.qualifiedStem ≠ lowerString b.method.name

theorem Member.qualifiedStem_inj (howner : a.owner = b.owner) :
    a.qualifiedStem = b.qualifiedStem ↔
      lowerString a.method.name = lowerString b.method.name := by
  unfold Member.qualifiedStem
  rw [howner]
  by_cases hempty : b.owner.isEmpty = true
  · rw [if_pos hempty, if_pos hempty]
  · rw [if_neg hempty, if_neg hempty]
    exact String.append_right_inj _

/-- Members of two classes that claim one symbol are contested. -/
theorem Member.contested_of_owner_ne (ha : a ∈ kept) (hb : b ∈ kept) (howner : a.owner ≠ b.owner)
    (harity : a.method.arity = b.method.arity)
    (hname : lowerString a.method.name = lowerString b.method.name) :
    a.Contested vmPrefix kept := by
  refine isContested_iff.mpr ⟨a, ha, b, hb, rfl, ?_, howner⟩
  rw [Method.vmName_eq_symbolWith, Method.vmName_eq_symbolWith, hname, harity]

/-- If stems do not meet, members with one stem and arity are one member. -/
theorem SymbolsApart.eq_of_stem_eq (h : SymbolsApart vmPrefix kept) (ha : a ∈ kept) (hb : b ∈ kept)
    (hstem : a.stem vmPrefix kept = b.stem vmPrefix kept)
    (harity : a.method.arity = b.method.arity) : a = b := by
  unfold Member.stem at hstem
  by_cases hca : a.Contested vmPrefix kept
  · rw [if_pos hca] at hstem
    by_cases hcb : b.Contested vmPrefix kept
    · rw [if_pos hcb] at hstem
      by_cases howner : a.owner = b.owner
      · exact h.cases a ha b hb howner harity ((Member.qualifiedStem_inj howner).mp hstem)
      · exact absurd hstem (h.qualified a ha b hb howner harity hca hcb)
    · rw [if_neg hcb] at hstem
      exact absurd hstem (h.bare a ha b hb harity hca hcb)
  · rw [if_neg hca] at hstem
    by_cases hcb : b.Contested vmPrefix kept
    · rw [if_pos hcb] at hstem
      exact absurd hstem.symm (h.bare b hb a ha harity.symm hcb hca)
    · rw [if_neg hcb] at hstem
      by_cases howner : a.owner = b.owner
      · exact h.cases a ha b hb howner harity hstem
      -- two classes that claim one bare name are both contested
      · exact absurd (Member.contested_of_owner_ne ha hb howner harity hstem) hca

/-- If symbols tell kept members apart, their stems do not meet. -/
theorem SymbolsApart.of_injective
    (h : ∀ a ∈ kept, ∀ b ∈ kept, symbolOf vmPrefix kept a = symbolOf vmPrefix kept b → a = b) :
    SymbolsApart vmPrefix kept where
  cases := by
    intro a ha b hb howner harity hname
    refine h a ha b hb (symbolOf_inj.mpr ⟨?_, harity⟩)
    have hcontested : a.Contested vmPrefix kept ↔ b.Contested vmPrefix kept :=
      Member.contested_congr hname harity
    unfold Member.stem
    by_cases hca : a.Contested vmPrefix kept
    · rw [if_pos hca, if_pos (hcontested.mp hca)]
      exact (Member.qualifiedStem_inj howner).mpr hname
    · rw [if_neg hca, if_neg (fun hcb => hca (hcontested.mpr hcb))]
      exact hname
  qualified := by
    intro a ha b hb howner harity hca hcb hstem
    refine howner (congrArg Member.owner (h a ha b hb (symbolOf_inj.mpr ⟨?_, harity⟩)))
    unfold Member.stem
    rw [if_pos hca, if_pos hcb, hstem]
  bare := by
    intro a ha b hb harity hca hcb hstem
    have heq : a = b := by
      refine h a ha b hb (symbolOf_inj.mpr ⟨?_, harity⟩)
      unfold Member.stem
      rw [if_pos hca, if_neg hcb, hstem]
    exact hcb (heq ▸ hca)

/-- The symbols of a plan, from the members that are kept. -/
theorem Plan.registrations_map_symbol (classes : List ClassDecl) (vmPrefix : String) :
    (Plan.of classes vmPrefix).registrations.map (·.symbol)
      = (Reach.of (membersOf classes)).kept.map
          (symbolOf vmPrefix (Reach.of (membersOf classes)).kept) := by
  show ((Reach.of (membersOf classes)).kept.map _).map _ = _
  rw [List.map_map]
  rfl

/-- **SYMBOLS TELL REGISTRATIONS APART JUST WHEN STEMS DO NOT MEET.** -/
theorem Plan.symbols_nodup_iff (classes : List ClassDecl) (vmPrefix : String) :
    ((Plan.of classes vmPrefix).registrations.map (·.symbol)).Nodup
      ↔ SymbolsApart vmPrefix (Reach.of (membersOf classes)).kept := by
  rw [Plan.registrations_map_symbol, List.nodup_map_iff_inj_on (Reach.kept_nodup _)]
  constructor
  · intro h
    exact SymbolsApart.of_injective h
  · intro h a ha b hb hsymbol
    obtain ⟨hstem, harity⟩ := symbolOf_inj.mp hsymbol
    exact h.eq_of_stem_eq ha hb hstem harity

end GemBinder
