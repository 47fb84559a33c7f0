import GemBinder.Proofs.Header.Pieces

/-! # How classes and enumerations are written

    The head of a class reaches up to its first opening brace: the word for a
    class, blanks, a name, and maybe base classes behind a colon.  An
    enumeration is the word for it and blanks, the word for a scoped one and
    blanks if it is scoped, a name, maybe the type that it lies on, and a body
    up to the first closing brace.  What one scanner takes for an underlying
    type, the other takes for base classes (`Underlying.exists_bases`). -/

namespace GemBinder.Header

open Text

variable {s t rest w gap name body behind before : List Char} {c : Char}

/-! ## The words in front of a name -/

/-- The words that open a class; they also make an enumeration scoped. -/
def scopeWords : List (List Char) := ["class".toList, "struct".toList]

theorem wordText_of_mem_scopeWords (h : w ∈ scopeWords) : WordText w := by
  have hall : ∀ w ∈ scopeWords, w ≠ [] ∧ ∀ c ∈ w, isWordChar c = true := by decide +kernel
  exact ⟨(hall w h).1, (hall w h).2⟩

theorem behindClassWord_eq_some_iff :
    behindClassWord s = some rest ↔ ∃ w ∈ scopeWords, s = w ++ rest := by
  rw [behindClassWord, Option.or_eq_some_iff, behind?_eq_some_iff, behind?_eq_some_iff]
  constructor
  · rintro (rfl | ⟨-, rfl⟩)
    · exact ⟨_, List.mem_cons_self, rfl⟩
    · exact ⟨_, List.mem_cons_of_mem _ List.mem_cons_self, rfl⟩
  · rintro ⟨w, hw, rfl⟩
    rcases List.mem_cons.mp hw with rfl | hw
    · exact .inl rfl
    · obtain rfl := List.mem_singleton.mp hw
      exact .inr ⟨rfl, rfl⟩

/-- An enumeration is made scoped by the same words. -/
theorem behindScope_eq (s : List Char) : behindScope s = (behindClassWord s).bind skipSomeBlanks := by
  rw [behindScope, behindClassWord]
  cases behind? "class".toList s with
  | none => rfl
  | some rest => rfl

theorem behindScope_eq_some_iff : behindScope s = some rest ↔
    ∃ w ∈ scopeWords, ∃ gap, s = w ++ (gap ++ rest) ∧ Gap gap ∧ rest.head?.any isBlank = false := by
  simp only [behindScope_eq, Option.bind_eq_some_iff, behindClassWord_eq_some_iff,
    skipSomeBlanks_eq_some_iff]
  constructor
  · rintro ⟨_, ⟨w, hw, rfl⟩, gap, rfl, hgap, hrest⟩
    exact ⟨w, hw, gap, rfl, hgap, hrest⟩
  · rintro ⟨w, hw, gap, rfl, hgap, hrest⟩
    exact ⟨_, ⟨w, hw, rfl⟩, gap, rfl, hgap, hrest⟩

/-! ## Enumerations -/

/-- What an underlying type is made of. -/
def isTypePart (c : Char) : Bool := isWordChar c || c == ':' || isBlank c

/-- What stands between the name of an enumeration and its opening brace: blanks,
    and behind a colon the type that it lies on, if one is given. -/
inductive Underlying : List Char → Prop where
  | absent {gap : List Char} (blanks : Blanks gap) : Underlying gap
  | type {gap parts : List Char} (blanks : Blanks gap) (some_part : parts ≠ [])
      (part : ∀ c ∈ parts, isTypePart c = true) : Underlying (gap ++ ':' :: parts)

theorem Underlying.head?_isWordChar (h : Underlying w) (body : List Char) :
    (w ++ '{' :: body).head?.any isWordChar = false := by
  have hbrace : isWordChar '{' = false := by decide
  have hcolon : isWordChar ':' = false := by decide
  cases h with
  | absent hblanks => exact hblanks.head?_isWordChar hbrace
  | type hblanks _ _ =>
      rw [List.append_assoc]
      exact hblanks.head?_isWordChar hcolon

/-- The parts of a type are taken up to the opening brace, if there are any. -/
theorem typeParts_bind_eq_some_iff {rest : List Char} :
    (if rest.head?.any isTypePart then some (rest.dropWhile isTypePart) else none).bind
        (fun rest => behindChar '{' (skipBlanks rest)) = some body ↔
      ∃ parts, rest = parts ++ '{' :: body ∧ parts ≠ [] ∧ ∀ c ∈ parts, isTypePart c = true := by
  constructor
  · intro h
    split at h
    · next hhead =>
        rw [Option.bind_some, behindChar_eq_some_iff] at h
        -- no blanks are left behind the parts
        have hbehind : (rest.dropWhile isTypePart).head?.any isBlank = false := by
          have hnot := head?_dropWhile_any isTypePart rest
          cases hd : rest.dropWhile isTypePart with
          | nil => rfl
          | cons d more =>
              rw [hd] at hnot
              exact (Bool.or_eq_false_iff.mp (show isTypePart d = false from hnot)).2
        have hskip : rest.dropWhile isTypePart = '{' :: body :=
          (skipBlanks_append blanks_nil hbehind).symm.trans h
        refine ⟨rest.takeWhile isTypePart, ?_, ?_, fun _ hc => List.mem_takeWhile_imp hc⟩
        · rw [← hskip, List.takeWhile_append_dropWhile]
        · cases rest with
          | nil => simp at hhead
          | cons d more =>
              have hd : isTypePart d = true := hhead
              simp [hd]
    · cases h
  · rintro ⟨parts, rfl, hsome, hparts⟩
    have hstop : ('{' :: body).head?.any isTypePart = false := (by decide : isTypePart '{' = false)
    obtain ⟨-, hdrop⟩ := takeWhile_append_of_head? hparts hstop
    obtain ⟨d, more, rfl⟩ := List.exists_cons_of_ne_nil hsome
    have hhead : (d :: more ++ '{' :: body).head?.any isTypePart = true :=
      hparts d List.mem_cons_self
    rw [if_pos hhead, hdrop, Option.bind_some, skipBlanks,
      List.dropWhile_cons_of_neg (by decide), behindChar_cons]

/-- **AN UNDERLYING TYPE** is taken up to the opening brace. -/
theorem skipUnderlying_bind_eq_some_iff :
    (skipUnderlying s).bind (fun rest => behindChar '{' (skipBlanks rest)) = some body ↔
      ∃ under, s = under ++ '{' :: body ∧ Underlying under := by
  have hbrace : isBlank '{' = false := by decide
  have hcolon : isBlank ':' = false := by decide
  rw [skipUnderlying]
  constructor
  · intro h
    obtain ⟨gap, hs, hgap, -⟩ := exists_append_skipBlanks s
    split at h
    · rw [Option.bind_some, behindChar_eq_some_iff] at h
      exact ⟨gap, by rw [← h, ← hs], .absent hgap⟩
    · next rest hrest =>
        rw [behindChar_eq_some_iff.mp hrest] at hs
        obtain ⟨parts, rfl, hsome, hparts⟩ := typeParts_bind_eq_some_iff.mp h
        refine ⟨gap ++ ':' :: parts, ?_, .type hgap hsome hparts⟩
        rw [hs, List.append_assoc, List.cons_append]
  · rintro ⟨under, rfl, hunder⟩
    cases hunder with
    | absent hgap =>
        rw [skipBlanks_cons hgap hbrace]
        show behindChar '{' (skipBlanks (under ++ '{' :: body)) = some body
        rw [skipBlanks_cons hgap hbrace, behindChar_cons]
    | @type gap parts hgap hsome hparts =>
        rw [List.append_assoc, List.cons_append, skipBlanks_cons hgap hcolon, behindChar_cons]
        exact typeParts_bind_eq_some_iff.mpr ⟨parts, rfl, hsome, hparts⟩

/-- **AN ENUMERATION FROM ITS NAME ON** is the name, maybe an underlying type,
    and a body up to the first closing brace. -/
theorem enumBody_eq_some_iff {isScoped : Bool} {e : EnumDecl} :
    enumBody isScoped s = some (e, behind) ↔ ∃ name under body,
      s = name ++ (under ++ '{' :: (body ++ '}' :: behind)) ∧ WordText name ∧ Underlying under ∧
        '}' ∉ body ∧ e = ⟨String.ofList name, scan enumValueAt body, isScoped⟩ := by
  have hstop : ∀ {body : List Char}, '}' ∉ body → ∀ c ∈ body, (c != '}') = true :=
    fun hbody c hc => bne_iff_ne.mpr fun heq => hbody (heq ▸ hc)
  have hclose : ('}' :: behind).head?.any (· != '}') = false := rfl
  constructor
  · intro h
    simp only [enumBody, Option.bind_eq_bind, Option.bind_eq_some_iff] at h
    obtain ⟨⟨name, rest⟩, hname, under, hunder, body, hopen, last, hlast, h⟩ := h
    obtain ⟨rfl, hword, -⟩ := takeWord_eq_some_iff.mp hname
    obtain ⟨under, rfl, hlayout⟩ := skipUnderlying_bind_eq_some_iff.mp
      (Option.bind_eq_some_iff.mpr ⟨under, hunder, hopen⟩)
    obtain ⟨rfl, rfl⟩ := Prod.mk.inj (Option.some.inj h)
    refine ⟨name, under, body.takeWhile (· != '}'), ?_, hword, hlayout, ?_, rfl⟩
    · rw [← behindChar_eq_some_iff.mp hlast, List.takeWhile_append_dropWhile]
    · intro hmem
      exact absurd (List.mem_takeWhile_imp hmem) (by simp)
  · rintro ⟨name, under, body, rfl, hname, hunder, hbody, rfl⟩
    obtain ⟨hinside, hbehind⟩ := takeWhile_append_of_head? (hstop hbody) hclose
    obtain ⟨skipped, hskipped, hopen⟩ := Option.bind_eq_some_iff.mp
      (skipUnderlying_bind_eq_some_iff.mpr ⟨under, rfl, hunder⟩)
    rw [enumBody, takeWord_eq_some_iff.mpr ⟨rfl, hname, hunder.head?_isWordChar _⟩]
    dsimp only [Option.bind_eq_bind, Option.bind_some]
    rw [hskipped, Option.bind_some, hopen, Option.bind_some, hinside, hbehind, behindChar_cons]
    rfl

/-- What makes an enumeration scoped: a word for it and blanks. -/
inductive ScopeText : List Char → Prop where
  | mk {word gap : List Char} (word_mem : word ∈ scopeWords) (blanks : Gap gap) :
      ScopeText (word ++ gap)

/-- A scoped enumeration is found from its name on. -/
theorem enumAt_scoped {e : EnumDecl} {scope : List Char} (hgap : Gap gap) (hscope : ScopeText scope)
    (hbody : enumBody true t = some (e, behind)) (before : List Char) :
    enumAt before ("enum".toList ++ (gap ++ (scope ++ t))) = some (e, behind) := by
  obtain ⟨name, under, body, ht, hname, -⟩ := enumBody_eq_some_iff.mp hbody
  cases hscope with
  | @mk word gap' hmem hgap' =>
      have hskip : skipSomeBlanks (gap ++ (word ++ gap' ++ t)) = some (word ++ gap' ++ t) := by
        refine skipSomeBlanks_eq_some_iff.mpr ⟨gap, rfl, hgap, ?_⟩
        rw [List.append_assoc]
        exact (wordText_of_mem_scopeWords hmem).head?_isBlank
      have hbehind : behindScope (word ++ gap' ++ t) = some t := by
        refine behindScope_eq_some_iff.mpr ⟨word, hmem, gap', List.append_assoc _ _ _, hgap', ?_⟩
        rw [ht]
        exact hname.head?_isBlank
      rw [enumAt, behind?_eq_some_iff.mpr rfl]
      dsimp only [Option.bind_eq_bind, Option.bind_some]
      rw [hskip, Option.bind_some, hbehind, Option.bind_some, hbody]
      rfl

/-- Another enumeration is found from its name on, unless its name can be taken
    for what makes it scoped. -/
theorem enumAt_plain {e : EnumDecl} (hgap : Gap gap) (hbody : enumBody false t = some (e, behind))
    (hplain : (behindScope t).bind (enumBody true) = none) (before : List Char) :
    enumAt before ("enum".toList ++ (gap ++ t)) = some (e, behind) := by
  obtain ⟨name, under, body, ht, hname, -⟩ := enumBody_eq_some_iff.mp hbody
  have hskip : skipSomeBlanks (gap ++ t) = some t := by
    refine skipSomeBlanks_eq_some_iff.mpr ⟨gap, rfl, hgap, ?_⟩
    rw [ht]
    exact hname.head?_isBlank
  rw [enumAt, behind?_eq_some_iff.mpr rfl]
  dsimp only [Option.bind_eq_bind, Option.bind_some]
  rw [hskip, Option.bind_some, hplain, hbody]
  rfl

/-- **AN ENUMERATION** is the word for it and blanks, what makes it scoped if it
    is, and the rest from its name on. -/
theorem enumAt_layout {e : EnumDecl} (h : enumAt before s = some (e, behind)) :
    ∃ gap scope t, s = "enum".toList ++ (gap ++ (scope ++ t)) ∧ Gap gap ∧
      (scope = [] ∧ e.isScoped = false ∨ ScopeText scope ∧ e.isScoped = true) ∧
        enumBody e.isScoped t = some (e, behind) := by
  simp only [enumAt, Option.bind_eq_bind, Option.bind_eq_some_iff, behind?_eq_some_iff,
    skipSomeBlanks_eq_some_iff] at h
  obtain ⟨_, rfl, rest, ⟨gap, rfl, hgap, -⟩, h⟩ := h
  have hscope : ∀ {b : Bool} {t}, enumBody b t = some (e, behind) → e.isScoped = b := by
    intro b t hbody
    obtain ⟨_, _, _, -, -, -, -, rfl⟩ := enumBody_eq_some_iff.mp hbody
    rfl
  rcases Option.or_eq_some_iff.mp h with hscoped | ⟨-, hplain⟩
  · obtain ⟨t, ht, hbody⟩ := Option.bind_eq_some_iff.mp hscoped
    obtain ⟨word, hword, gap', rfl, hgap', -⟩ := behindScope_eq_some_iff.mp ht
    refine ⟨gap, word ++ gap', t, ?_, hgap, .inr ⟨.mk hword hgap', hscope hbody⟩, ?_⟩
    · rw [List.append_assoc word]
    · rwa [hscope hbody]
  · exact ⟨gap, [], rest, rfl, hgap, .inl ⟨rfl, hscope hplain⟩, by rwa [hscope hplain]⟩

/-! ## Classes -/

/-- Whether no class can begin here: inside a word, or behind the word for an
    enumeration and one space. -/
def isBarred (before : List Char) : Bool :=
  before.head?.any isWordChar || "enum ".toList.reverse.isPrefixOf before

/-- The name of a class whose head stands here, and what is behind its opening
    brace. -/
def classHead? (s : List Char) : Option (List Char × List Char) := do
  let rest ← skipSomeBlanks (← behindClassWord s)
  let (name, rest) ← takeWord rest
  let rest ← behindChar '{' (skipBases (skipBlanks rest))
  return (name, rest)

/-- A class is found where its head stands, unless none can begin there. -/
theorem classAt_eq (before s : List Char) : classAt before s =
    if isBarred before then none
    else (classHead? s).map fun (name, rest) =>
      (⟨name, (takeBlock rest).1⟩, (takeBlock rest).2) := by
  rw [classAt, isBarred]
  split
  · rfl
  · simp only [classHead?, Option.bind_eq_bind, Option.map_bind, Function.comp_def]
    rfl

/-- Base classes behind a colon, if there are any. -/
inductive Bases : List Char → Prop where
  | absent : Bases []
  | given {list : List Char} (no_brace : '{' ∉ list) (no_end : ';' ∉ list) : Bases (':' :: list)

/-- **THE HEAD OF A CLASS** up to its opening brace. -/
inductive ClassHead (name : List Char) : List Char → Prop where
  | mk {word gap gap' bases : List Char} (word_mem : word ∈ scopeWords) (blanks : Gap gap)
      (name_word : WordText name) (blanks' : Blanks gap') (bases_text : Bases bases) :
      ClassHead name (word ++ (gap ++ (name ++ (gap' ++ bases))))

/-- The opening brace is the first one. -/
theorem ClassHead.brace_notMem (h : ClassHead name w) : '{' ∉ w := by
  have hword : isWordChar '{' = false := by decide
  have hblank : isBlank '{' = false := by decide
  cases h with
  | @mk word gap gap' bases hmem hgap hname hgap' hbases =>
      have hnot : '{' ∉ bases := by
        cases hbases with
        | absent => exact List.not_mem_nil
        | given hbrace _ => simpa using hbrace
      simp only [List.mem_append, not_or]
      exact ⟨(wordText_of_mem_scopeWords hmem).notMem hword, hgap.blanks.notMem hblank,
        hname.notMem hword, hgap'.notMem hblank, hnot⟩

/-- Base classes are taken up to the opening brace. -/
theorem skipBases_eq_iff : behindChar '{' (skipBases s) = some rest ↔
    ∃ bases, s = bases ++ '{' :: rest ∧ Bases bases := by
  let stops : Char → Bool := fun c => c != '{' && c != ';'
  rw [behindChar_eq_some_iff, skipBases]
  constructor
  · intro h
    split at h
    · next more hmore =>
        obtain rfl := behindChar_eq_some_iff.mp hmore
        refine ⟨':' :: more.takeWhile stops, ?_, .given ?_ ?_⟩
        · rw [List.cons_append, ← h, List.takeWhile_append_dropWhile]
        · exact fun hmem => absurd (List.mem_takeWhile_imp hmem) (by simp [stops])
        · exact fun hmem => absurd (List.mem_takeWhile_imp hmem) (by simp [stops])
    · exact ⟨[], h, .absent⟩
  · rintro ⟨bases, rfl, hbases⟩
    cases hbases with
    | absent => rfl
    | @given list hbrace hend =>
        have hlist : ∀ c ∈ list, stops c = true := by
          intro c hc
          simp only [stops, Bool.and_eq_true, bne_iff_ne]
          exact ⟨fun heq => hbrace (heq ▸ hc), fun heq => hend (heq ▸ hc)⟩
        have hbehind : ('{' :: rest).head?.any stops = false := rfl
        rw [List.cons_append, behindChar_cons]
        exact (takeWhile_append_of_head? hlist hbehind).2

/-- **A CLASS HEAD** is found where one stands before a brace. -/
theorem classHead?_eq_some_iff : classHead? s = some (name, rest) ↔
    ∃ head, s = head ++ '{' :: rest ∧ ClassHead name head := by
  have hblank : isBlank '{' = false := by decide
  have hcolon : isBlank ':' = false := by decide
  have hword : isWordChar '{' = false := by decide
  simp only [classHead?, Option.bind_eq_bind, Option.bind_eq_some_iff, behindClassWord_eq_some_iff,
    skipSomeBlanks_eq_some_iff]
  constructor
  · rintro ⟨_, ⟨word, hmem, rfl⟩, _, ⟨gap, rfl, hgap, -⟩, ⟨name', more⟩, hname, body, hopen, h⟩
    obtain ⟨rfl, rfl⟩ := Prod.mk.inj (Option.some.inj h)
    obtain ⟨rfl, hname, -⟩ := takeWord_eq_some_iff.mp hname
    obtain ⟨gap', hmore, hgap', -⟩ := exists_append_skipBlanks more
    obtain ⟨bases, hbases, hlayout⟩ := skipBases_eq_iff.mp hopen
    refine ⟨_, ?_, .mk hmem hgap hname hgap' hlayout⟩
    rw [hbases] at hmore
    rw [hmore]
    simp only [List.append_assoc]
  · rintro ⟨head, rfl, hhead⟩
    cases hhead with
    | @mk word gap gap' bases hmem hgap hname hgap' hbases =>
        have hbehind : (bases ++ '{' :: rest).head?.any isBlank = false := by
          cases hbases with
          | absent => exact hblank
          | given _ _ => exact hcolon
        have hend : (gap' ++ (bases ++ '{' :: rest)).head?.any isWordChar = false := by
          refine hgap'.head?_isWordChar ?_
          cases hbases with
          | absent => exact hword
          | given _ _ =>
              show isWordChar ':' = false
              decide
        simp only [List.append_assoc]
        refine ⟨_, ⟨word, hmem, rfl⟩, _, ⟨gap, rfl, hgap, hname.head?_isBlank⟩, (name, _),
          takeWord_eq_some_iff.mpr ⟨rfl, hname, hend⟩, rest, ?_, rfl⟩
        rw [skipBlanks_append hgap' hbehind]
        exact skipBases_eq_iff.mpr ⟨bases, rfl, hbases⟩

/-- A class is found where its head stands before a brace, if one can begin
    there. -/
theorem classAt_eq_some_iff {c : ClassText} : classAt before s = some (c, rest) ↔
    isBarred before = false ∧ ∃ head y, s = head ++ '{' :: y ∧ ClassHead c.name head ∧
      takeBlock y = (c.body, rest) := by
  rw [classAt_eq]
  cases hbarred : isBarred before with
  | true => exact iff_of_false nofun fun h => nomatch h.1
  | false =>
      rw [if_neg Bool.false_ne_true, Option.map_eq_some_iff]
      refine (Iff.intro ?_ ?_).trans (and_iff_right rfl).symm
      · rintro ⟨⟨name, y⟩, hfound, heq⟩
        obtain ⟨rfl, rfl⟩ := Prod.mk.inj heq
        obtain ⟨head, rfl, hhead⟩ := classHead?_eq_some_iff.mp hfound
        exact ⟨head, y, rfl, hhead, rfl⟩
      · rintro ⟨head, y, rfl, hhead, hbody⟩
        refine ⟨(c.name, y), classHead?_eq_some_iff.mpr ⟨head, rfl, hhead⟩, ?_⟩
        dsimp only
        rw [hbody]

/-- What can be an underlying type can be blanks and base classes. -/
theorem Underlying.exists_bases (h : Underlying w) :
    ∃ gap bases, w = gap ++ bases ∧ Blanks gap ∧ Bases bases := by
  cases h with
  | absent hblanks => exact ⟨w, [], (List.append_nil w).symm, hblanks, .absent⟩
  | @type gap parts hblanks _ hparts =>
      have hnot : ∀ c, isTypePart c = false → c ∉ parts := by
        intro c hc hmem
        rw [hparts c hmem] at hc
        exact Bool.false_ne_true hc.symm
      exact ⟨gap, ':' :: parts, rfl, hblanks,
        .given (hnot '{' (by decide)) (hnot ';' (by decide))⟩

end GemBinder.Header
