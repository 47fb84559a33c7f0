import GemBinder.Proofs.Header.Pieces

/-! # How methods are written

    A method is a return type, blanks and a name, the text between two
    parentheses, and up to a semicolon the words for a constant and for an
    overriding method, if they are there.  The return type is a single word,
    maybe with a star behind it. -/

namespace GemBinder.Header

open Text

variable {s rest behind before : List Char} {m : MethodText}

/-! ## The head of a method -/

/-- A return type and how it is written: a word, or a word and a star. -/
inductive ReturnText : (type text : List Char) → Prop where
  | word {w : List Char} (word : WordText w) : ReturnText w w
  | pointer {w gap : List Char} (word : WordText w) (blanks : Blanks gap) :
      ReturnText (w ++ ['*']) (w ++ (gap ++ ['*']))

/-- **THE HEAD OF A METHOD** up to its opening parenthesis. -/
inductive MethodHead (returnType name : List Char) : List Char → Prop where
  | mk {type gap gap' : List Char} (type_text : ReturnText returnType type) (blanks : Gap gap)
      (name_word : WordText name) (blanks' : Blanks gap') :
      MethodHead returnType name (type ++ (gap ++ (name ++ gap')))

/-- The opening parenthesis is the first one. -/
theorem MethodHead.paren_notMem {returnType name head : List Char}
    (h : MethodHead returnType name head) : '(' ∉ head := by
  have hword : isWordChar '(' = false := by decide
  have hblank : isBlank '(' = false := by decide
  cases h with
  | @mk type gap gap' htype hgap hname hgap' =>
      have hnot : '(' ∉ type := by
        cases htype with
        | word hw => exact hw.notMem hword
        | pointer hw hblanks => simp [hw.notMem hword, hblanks.notMem hblank]
      simp only [List.mem_append, not_or]
      exact ⟨hnot, hgap.blanks.notMem hblank, hname.notMem hword, hgap'.notMem hblank⟩

theorem MethodHead.ne_nil {returnType name head : List Char}
    (h : MethodHead returnType name head) : head ≠ [] := by
  cases h with
  | mk _ hgap _ _ => simp [hgap.ne_nil]

/-- **A RETURN TYPE** is taken with its star, and a name follows behind blanks. -/
theorem takeReturnType_bind_eq_some_iff {returnType name : List Char} :
    (∃ more, takeReturnType s = some (returnType, more) ∧
        (skipSomeBlanks more).bind takeWord = some (name, rest)) ↔
      ∃ type gap, s = type ++ (gap ++ (name ++ rest)) ∧ ReturnText returnType type ∧ Gap gap ∧
        WordText name ∧ rest.head?.any isWordChar = false := by
  have hstar : isWordChar '*' = false := by decide
  have hblank : isBlank '*' = false := by decide
  simp only [takeReturnType, Option.bind_eq_bind, Option.bind_eq_some_iff,
    skipSomeBlanks_eq_some_iff]
  constructor
  · rintro ⟨more, ⟨⟨w, more'⟩, htype, h⟩, _, ⟨gap, rfl, hgap, -⟩, hnamed⟩
    obtain ⟨rfl, hw, -⟩ := takeWord_eq_some_iff.mp htype
    obtain ⟨rfl, hname, hrest⟩ := takeWord_eq_some_iff.mp hnamed
    split at h
    · next behind hbehind =>
        obtain ⟨rfl, rfl⟩ := Prod.mk.inj (Option.some.inj h)
        obtain ⟨gap', hmore, hgap', -⟩ := exists_append_skipBlanks more'
        rw [behindChar_eq_some_iff.mp hbehind] at hmore
        refine ⟨_, gap, ?_, .pointer hw hgap', hgap, hname, hrest⟩
        dsimp only at hmore ⊢
        simp only [hmore, List.append_assoc, List.singleton_append]
    · obtain ⟨rfl, rfl⟩ := Prod.mk.inj (Option.some.inj h)
      exact ⟨w, gap, rfl, .word hw, hgap, hname, hrest⟩
  · rintro ⟨type, gap, rfl, htype, hgap, hname, hrest⟩
    refine ⟨gap ++ (name ++ rest), ?_, _, ⟨gap, rfl, hgap, hname.head?_isBlank⟩,
      takeWord_eq_some_iff.mpr ⟨rfl, hname, hrest⟩⟩
    cases htype with
    | word hw =>
        refine ⟨(returnType, _), takeWord_eq_some_iff.mpr ⟨rfl, hw, hgap.head?_isWordChar⟩, ?_⟩
        obtain ⟨d, more, rfl⟩ := List.exists_cons_of_ne_nil hname.ne_nil
        have hother : behindChar '*' (d :: more ++ rest) = none := by
          refine if_neg fun heq => ?_
          have hd := hname.chars d List.mem_cons_self
          rw [beq_iff_eq.mp heq, hstar] at hd
          exact Bool.false_ne_true hd
        dsimp only
        rw [skipBlanks_append hgap.blanks hname.head?_isBlank, hother]
        rfl
    | @pointer w gap' hw hgap' =>
        refine ⟨(w, gap' ++ '*' :: (gap ++ (name ++ rest))),
          takeWord_eq_some_iff.mpr ⟨?_, hw, hgap'.head?_isWordChar hstar⟩, ?_⟩
        · simp only [List.append_assoc, List.singleton_append]
        · dsimp only
          rw [skipBlanks_cons hgap' hblank, behindChar_cons]
          rfl

/-! ## What stands behind the parameters -/

/-- A word that may be there, with blanks behind it. -/
inductive OptionalWord (word : List Char) : (isThere : Bool) → List Char → Prop where
  | absent : OptionalWord word false []
  | present {gap : List Char} (blanks : Blanks gap) : OptionalWord word true (word ++ gap)

/-- **WHAT STANDS BEHIND THE PARAMETERS** up to the semicolon, of a constant
    method or another one. -/
inductive Qualifiers (isConst : Bool) : List Char → Prop where
  | mk {gap const override : List Char} {isOverride : Bool} (blanks : Blanks gap)
      (const_text : OptionalWord "const".toList isConst const)
      (override_text : OptionalWord "override".toList isOverride override) :
      Qualifiers isConst (gap ++ (const ++ override))

/-- **A WORD IS DROPPED** if it is there. -/
theorem exists_of_dropWord {word more : List Char} {isThere : Bool}
    (h : dropWord word s = (more, isThere)) :
    ∃ text, s = text ++ more ∧ OptionalWord word isThere text := by
  rw [dropWord] at h
  split at h
  · next rest hrest =>
      obtain rfl := behind?_eq_some_iff.mp hrest
      obtain ⟨gap, hgap, hblanks, -⟩ := exists_append_skipBlanks rest
      obtain ⟨rfl, rfl⟩ := Prod.mk.inj h
      exact ⟨word ++ gap, by rw [List.append_assoc, ← hgap], .present hblanks⟩
  · obtain ⟨rfl, rfl⟩ := Prod.mk.inj h
    exact ⟨[], rfl, .absent⟩

/-- A word that is there is dropped up to something that is no blank, and
    another one is not taken for it. -/
theorem dropWord_append {word text : List Char} {isThere : Bool}
    (h : OptionalWord word isThere text) (hblank : rest.head?.any isBlank = false)
    (hother : behind? word rest = none) : dropWord word (text ++ rest) = (rest, isThere) := by
  rw [dropWord]
  cases h with
  | absent => rw [List.nil_append, hother]
  | present hgap =>
      rw [List.append_assoc, behind?_eq_some_iff.mpr rfl]
      dsimp only
      rw [skipBlanks_append hgap hblank]

/-- The semicolon behind the words that may be there. -/
theorem exists_qualifiers_iff {isConst : Bool} :
    (∃ more isOverride last, dropWord "const".toList (skipBlanks s) = (more, isConst) ∧
        dropWord "override".toList more = (last, isOverride) ∧ last = ';' :: behind) ↔
      ∃ quals, s = quals ++ ';' :: behind ∧ Qualifiers isConst quals := by
  have hsemicolon : isBlank ';' = false := by decide
  have hc : isBlank 'c' = false := by decide
  have ho : isBlank 'o' = false := by decide
  constructor
  · rintro ⟨more, isOverride, _, hdropped, hdropped', rfl⟩
    obtain ⟨gap, hs, hgap, -⟩ := exists_append_skipBlanks s
    obtain ⟨const, hskip, hconst⟩ := exists_of_dropWord hdropped
    obtain ⟨override, rfl, hoverride⟩ := exists_of_dropWord hdropped'
    refine ⟨_, ?_, .mk hgap hconst hoverride⟩
    rw [hskip] at hs
    simpa only [List.append_assoc] using hs
  · rintro ⟨quals, rfl, hquals⟩
    cases hquals with
    | @mk gap const override isOverride hgap hconst hoverride =>
        refine ⟨override ++ ';' :: behind, isOverride, _, ?_,
          dropWord_append hoverride hsemicolon rfl, rfl⟩
        have hbehind : (override ++ ';' :: behind).head?.any isBlank = false := by
          cases hoverride with
          | absent => exact hsemicolon
          | present _ => exact ho
        have hother : behind? "const".toList (override ++ ';' :: behind) = none := by
          cases hoverride with
          | absent => rfl
          | present _ => rfl
        have hskip : (const ++ (override ++ ';' :: behind)).head?.any isBlank = false := by
          cases hconst with
          | absent => exact hbehind
          | present _ => exact hc
        rw [List.append_assoc, List.append_assoc, skipBlanks_append hgap hskip]
        exact dropWord_append hconst hbehind hother

/-! ## Methods -/

/-- **A METHOD IS FOUND** where one is written. -/
theorem methodAt_eq_some_iff : methodAt before s = some (m, behind) ↔ ∃ head quals,
    s = head ++ '(' :: (m.parameters ++ ')' :: (quals ++ ';' :: behind)) ∧
      MethodHead m.returnType m.name head ∧ ')' ∉ m.parameters ∧ Qualifiers m.isConst quals := by
  have hparen : isBlank '(' = false := by decide
  have hword : isWordChar '(' = false := by decide
  constructor
  · intro h
    simp only [methodAt, Option.bind_eq_bind, Option.bind_eq_some_iff] at h
    obtain ⟨⟨returnType, more⟩, hreturn, skipped, hskipped, ⟨name, rest⟩, hname, inside, hopen,
      closed, hclosed, last, hlast, h⟩ := h
    obtain ⟨rfl, rfl⟩ := Prod.mk.inj (Option.some.inj h)
    obtain ⟨type, gap, rfl, htype, hgap, hname, -⟩ := takeReturnType_bind_eq_some_iff.mp
      ⟨more, hreturn, Option.bind_eq_some_iff.mpr ⟨skipped, hskipped, hname⟩⟩
    obtain ⟨gap', hrest, hgap', -⟩ := exists_append_skipBlanks rest
    rw [behindChar_eq_some_iff.mp hopen] at hrest
    obtain ⟨quals, hquals, hlayout⟩ := exists_qualifiers_iff.mp
      ⟨_, _, _, rfl, rfl, behindChar_eq_some_iff.mp hlast⟩
    refine ⟨_, quals, ?_, .mk htype hgap hname hgap', ?_, hlayout⟩
    · dsimp only at hrest ⊢
      rw [hrest, ← hquals, ← behindChar_eq_some_iff.mp hclosed, List.takeWhile_append_dropWhile]
      simp only [List.append_assoc]
    · exact fun hmem => absurd (List.mem_takeWhile_imp hmem) (by simp)
  · rintro ⟨head, quals, rfl, hhead, hclose, hquals⟩
    obtain ⟨returnType, name, parameters, isConst⟩ := m
    cases hhead with
    | @mk type gap gap' htype hgap hname hgap' =>
        have hstop : ∀ c ∈ parameters, (c != ')') = true :=
          fun c hc => bne_iff_ne.mpr fun heq => hclose (heq ▸ hc)
        have hparen' : (')' :: (quals ++ ';' :: behind)).head?.any (· != ')') = false := rfl
        obtain ⟨hinside, hbehind⟩ := takeWhile_append_of_head? hstop hparen'
        obtain ⟨more, isOverride, _, hconst, hoverride, rfl⟩ := exists_qualifiers_iff.mpr
          ⟨quals, rfl, hquals⟩
        have hend : (gap' ++ '(' :: (parameters ++ ')' :: (quals ++ ';' :: behind))).head?.any
            isWordChar = false := hgap'.head?_isWordChar hword
        obtain ⟨skipped, hreturn, hskipped⟩ := takeReturnType_bind_eq_some_iff.mpr
          ⟨type, gap, rfl, htype, hgap, hname, hend⟩
        obtain ⟨named, hnamed, hname⟩ := Option.bind_eq_some_iff.mp hskipped
        simp only [List.append_assoc]
        rw [methodAt, hreturn]
        dsimp only [Option.bind_eq_bind, Option.bind_some]
        rw [hnamed, Option.bind_some, hname]
        dsimp only [Option.bind_some]
        rw [skipBlanks_cons hgap' hparen, behindChar_cons, Option.bind_some, hinside, hbehind,
          behindChar_cons, Option.bind_some, hconst]
        dsimp only
        rw [hoverride]
        dsimp only
        rw [behindChar_cons]
        rfl

end GemBinder.Header
