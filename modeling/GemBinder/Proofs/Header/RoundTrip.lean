import GemBinder.Proofs.Header.MethodLayout
import GemBinder.Proofs.Header.ParameterLayout
import GemBinder.Proofs.Header.Parameters

/-! # Declarations that are read back

    A method is declared on a line of its own: return type, name, and between
    parentheses its parameters with commas between them.  The scanner is at
    the head of each line when it comes there, takes the declaration as a
    whole and stops behind its semicolon, so that the lines do not get in each
    other's way.  The text between the parentheses is cut at the commas and the
    blanks that were put there. -/

namespace GemBinder

open Text

/-! ## Printing -/

/-- A parameter as it is declared. -/
def Parameter.declaration (p : Parameter) : String :=
  match p.name with
  | some n => p.type ++ " " ++ n
  | none => p.type

namespace Method

/-- The parameters of a method as they are declared. -/
def parameterText (m : Method) : String := joinStrings ", " (m.parameters.map (·.declaration))

/-- What stands behind the parameters. -/
def ending (m : Method) : String := if m.isConst then " const;" else ";"

/-- A method as it is declared. -/
def declaration (m : Method) : String :=
  m.returnType ++ " " ++ m.name ++ "(" ++ m.parameterText ++ ")" ++ m.ending

end Method

/-- Methods declared one per line. -/
def declarations (methods : List Method) : String :=
  joinStrings "\n" (methods.map (·.declaration))

/-! ## What can be printed -/

/-- A token of a declaration: it has no blanks, and none of the marks that
    structure a list of parameters. -/
def IsDeclarationToken (t : String) : Prop :=
  t ≠ "" ∧ ∀ c ∈ t.toList, isBlank c = false ∧ c ∉ [',', '=', '(', ')']

instance (t : String) : Decidable (IsDeclarationToken t) :=
  inferInstanceAs (Decidable (_ ∧ _))

/-- **A PARAMETER THAT CAN BE PRINTED** has tokens with single spaces between
    for its type and a token for its name, or a single token for its type and
    no name. -/
inductive Parameter.Printable : Parameter → Prop where
  | named (tokens : List String) (name : String) (some_token : tokens ≠ [])
      (token : ∀ t ∈ tokens, IsDeclarationToken t) (name_token : IsDeclarationToken name)
      (unmarked : name.toList.head?.any Header.isMark = false) :
      Parameter.Printable ⟨joinStrings " " tokens, some name⟩
  | unnamed (type : String) (token : IsDeclarationToken type) : Parameter.Printable ⟨type, none⟩

/-- **A METHOD THAT CAN BE PRINTED** is named by a word that is not the name of
    its class, returns a word or a pointer to one, and has parameters that can
    be printed; a list of nothing but an unnamed `void` stands for no
    parameters. -/
structure Method.Printable (owner : Option String) (m : Method) : Prop where
  name : IsWord m.name
  other : some m.name ≠ owner
  returnType : ∃ w, IsWord w ∧ (m.returnType = w ∨ m.returnType = w ++ "*")
  parameters : ∀ p ∈ m.parameters, p.Printable
  notVoid : m.parameters ≠ [⟨"void", none⟩]
  notStatic : m.isStatic = false
  notVirtual : m.isVirtual = false

theorem IsDeclarationToken.isToken {t : String} (h : IsDeclarationToken t) : IsToken t.toList :=
  ⟨fun hnil => h.1 (String.toList_eq_nil_iff.mp hnil), fun c hc => (h.2 c hc).1⟩

namespace Header

variable {p : Parameter} {m : Method} {owner : Option String}

/-! ## Parameters -/

/-- The tokens that a parameter is printed with. -/
def tokensOf (tokens : List String) : List (List Char) := tokens.map (·.toList)

theorem isToken_tokensOf {tokens : List String} (h : ∀ t ∈ tokens, IsDeclarationToken t) :
    ∀ w ∈ tokensOf tokens, IsToken w := by
  intro w hw
  obtain ⟨t, ht, rfl⟩ := List.mem_map.mp hw
  exact (h t ht).isToken

/-- **A PARAMETER IS PRINTED** as tokens with single spaces between, from which
    it can be told. -/
theorem exists_tokens (h : p.Printable) :
    ∃ tokens, p.declaration.toList = joinWith [' '] (tokensOf tokens) ∧
      (∀ t ∈ tokens, IsDeclarationToken t) ∧ parameterOfWords (tokensOf tokens) = some p := by
  cases h with
  | unnamed type htype =>
      refine ⟨[type], rfl, List.forall_mem_singleton.mpr htype, ?_⟩
      show some (⟨String.ofList type.toList, none⟩ : Parameter) = some ⟨type, none⟩
      rw [String.ofList_toList]
  | named tokens name hsome htokens hname hunmarked =>
      have hne : tokensOf tokens ≠ [] := fun hnil => hsome (List.map_eq_nil_iff.mp hnil)
      have hall : tokensOf (tokens ++ [name]) = tokensOf tokens ++ [[] ++ name.toList] := by
        rw [tokensOf, List.map_append]
        rfl
      refine ⟨tokens ++ [name], ?_, ?_, ?_⟩
      · show (joinStrings " " tokens ++ " " ++ name).toList = _
        rw [hall, List.nil_append, joinWith_concat hne, String.toList_append, String.toList_append,
          toList_joinStrings, List.append_assoc]
        rfl
      · exact List.forall_mem_append.mpr ⟨htokens, List.forall_mem_singleton.mpr hname⟩
      · rw [hall, parameterOfWords_named hne (List.forall_mem_nil _) hname.isToken.ne_nil hunmarked,
          List.append_nil, String.ofList_toList]
        have htype : joinWith [' '] (tokensOf tokens) = (joinStrings " " tokens).toList :=
          (toList_joinStrings " " tokens).symm
        rw [htype, String.ofList_toList]

/-- The marks that structure a list of parameters are not in a parameter. -/
theorem notMem_declaration (h : p.Printable) :
    ∀ c ∈ [',', '=', '(', ')'], c ∉ p.declaration.toList := by
  obtain ⟨tokens, htext, htokens, -⟩ := exists_tokens h
  intro c hc hmem
  rw [htext] at hmem
  obtain hsep | ⟨w, hw, hchar⟩ := mem_joinWith hmem
  · rw [List.mem_singleton.mp hsep] at hc
    exact absurd hc (by decide)
  · obtain ⟨t, ht, rfl⟩ := List.mem_map.mp hw
    exact ((htokens t ht).2 c hchar).2 hc

/-- **A PARAMETER IS READ BACK** from its words. -/
theorem parameterOfWords_declaration (h : p.Printable) :
    parameterOfWords (wordsOfPiece p.declaration.toList) = some p := by
  obtain ⟨tokens, htext, htokens, hparsed⟩ := exists_tokens h
  have hbefore : beforeChar '=' p.declaration.toList = p.declaration.toList :=
    List.takeWhile_eq_self_iff.mpr fun c hc => bne_iff_ne.mpr fun heq =>
      notMem_declaration h '=' (by decide) (heq ▸ hc)
  rw [wordsOfPiece, hbefore, htext, words_joinWith (isToken_tokensOf htokens), hparsed]

/-- The words of the pieces that a printed list is cut into. -/
theorem map_wordsOfPiece (hne : m.parameters ≠ []) (h : ∀ p ∈ m.parameters, p.Printable) :
    (splitAtChar ',' (trim m.parameterText.toList)).map wordsOfPiece
      = m.parameters.map fun p => wordsOfPiece p.declaration.toList := by
  have hcomma : isBlank ',' = false := by decide
  have hpieces : (m.parameters.map (·.declaration)).map (·.toList) ≠ [] := by
    rw [List.map_map]
    exact fun hnil => hne (List.map_eq_nil_iff.mp hnil)
  have hfree : ∀ piece ∈ (m.parameters.map (·.declaration)).map (·.toList), ',' ∉ piece := by
    rw [List.forall_mem_map, List.forall_mem_map]
    exact fun p hp => notMem_declaration (h p hp) ',' (by decide)
  rw [blankFree_wordsOfPiece.map_splitAtChar_trim hcomma, Method.parameterText, toList_joinStrings]
  show (splitAtChar ',' (joinWith [',', ' '] _)).map wordsOfPiece = _
  rw [blankFree_wordsOfPiece.map_splitAtChar_joinWith hcomma hpieces hfree, List.map_map,
    List.map_map]
  rfl

/-- A printed list is not taken for no parameters. -/
theorem parameterText_ne_void (hne : m.parameters ≠ []) (h : ∀ p ∈ m.parameters, p.Printable)
    (hvoid : m.parameters ≠ [⟨"void", none⟩]) :
    ¬ ((trim m.parameterText.toList).isEmpty
      || trim m.parameterText.toList == "void".toList) = true := by
  -- there would be a single piece, with no words or with this one
  have hsingle : ∀ text : List Char, trim m.parameterText.toList = text → ',' ∉ text →
      ∃ p ∈ m.parameters, m.parameters = [p] ∧
        wordsOfPiece p.declaration.toList = wordsOfPiece text := by
    intro text htext hcomma
    have hmap := map_wordsOfPiece hne h
    rw [htext, splitAtChar_of_notMem hcomma, List.map_singleton] at hmap
    obtain ⟨p, hparameters, hwords⟩ := List.map_eq_singleton_iff.mp hmap.symm
    exact ⟨p, hparameters ▸ List.mem_singleton_self p, hparameters, hwords⟩
  rw [Bool.or_eq_true, List.isEmpty_iff, beq_iff_eq]
  rintro (hnil | htext)
  · obtain ⟨p, hp, -, hwords⟩ := hsingle [] hnil List.not_mem_nil
    have hread := parameterOfWords_declaration (h p hp)
    rw [hwords] at hread
    exact nomatch hread
  · obtain ⟨p, hp, hparameters, hwords⟩ := hsingle _ htext (by decide)
    have hread := parameterOfWords_declaration (h p hp)
    rw [hwords] at hread
    obtain rfl : ⟨"void", none⟩ = p := Option.some.inj hread
    exact hvoid hparameters

/-- **A LIST OF PARAMETERS IS READ BACK.** -/
theorem parseParameters_parameterText (h : ∀ p ∈ m.parameters, p.Printable)
    (hvoid : m.parameters ≠ [⟨"void", none⟩]) :
    parseParameters m.parameterText.toList = m.parameters := by
  by_cases hne : m.parameters = []
  · rw [Method.parameterText, hne]
    rfl
  · have hparse : parseParameter = parameterOfWords ∘ wordsOfPiece := rfl
    have hread : (m.parameters.filterMap fun p =>
        parameterOfWords (wordsOfPiece p.declaration.toList)) = m.parameters.filterMap some :=
      List.filterMap_congr fun p hp => parameterOfWords_declaration (h p hp)
    rw [parseParameters]
    rw [if_neg (parameterText_ne_void hne h hvoid), hparse, ← List.filterMap_map,
      map_wordsOfPiece hne h, List.filterMap_map]
    exact hread.trans List.filterMap_some

/-! ## Methods -/

/-- The parts of a method as it is declared. -/
def textOfMethod (m : Method) : MethodText where
  returnType := m.returnType.toList
  name := m.name.toList
  parameters := m.parameterText.toList
  isConst := m.isConst

/-- No parenthesis closes before the one behind the parameters. -/
theorem paren_notMem_parameterText (h : ∀ p ∈ m.parameters, p.Printable) :
    ')' ∉ m.parameterText.toList := by
  intro hmem
  rw [Method.parameterText, toList_joinStrings, List.map_map] at hmem
  obtain hsep | ⟨w, hw, hchar⟩ := mem_joinWith hmem
  · exact absurd hsep (by decide)
  · obtain ⟨p, hp, rfl⟩ := List.mem_map.mp hw
    exact notMem_declaration (h p hp) ')' (by decide) hchar

/-- The semicolon is reached behind the qualifier, or at once. -/
theorem exists_ending (m : Method) :
    ∃ quals, m.ending.toList = quals ++ [';'] ∧ Qualifiers m.isConst quals := by
  rw [Method.ending]
  cases m.isConst with
  | true =>
      exact ⟨" const".toList, rfl, .mk blanks_space (.present blanks_nil) .absent⟩
  | false => exact ⟨[], rfl, .mk blanks_nil .absent .absent⟩

/-- A return type that can be printed can be read. -/
theorem returnText_of_printable (h : m.Printable owner) :
    ReturnText m.returnType.toList m.returnType.toList := by
  obtain ⟨w, hw, hreturn⟩ := h.returnType
  rcases hreturn with heq | heq
  · rw [heq]
    exact .word (wordText_of_isWord hw)
  · rw [heq, String.toList_append]
    exact .pointer (wordText_of_isWord hw) blanks_nil

/-- **A DECLARATION IS TAKEN AS A WHOLE**, whatever stands behind it. -/
theorem methodAt_declaration (h : m.Printable owner) (before rest : List Char) :
    methodAt before (m.declaration.toList ++ rest) = some (textOfMethod m, rest) := by
  obtain ⟨quals, hending, hquals⟩ := exists_ending m
  have hsplit : m.declaration.toList ++ rest = (m.returnType.toList ++ ([' '] ++ (m.name.toList ++
      []))) ++ '(' :: (m.parameterText.toList ++ ')' :: (quals ++ ';' :: rest)) := by
    have hblank : " ".toList = [' '] := rfl
    have hopen : "(".toList = ['('] := rfl
    have hclose : ")".toList = [')'] := rfl
    simp only [Method.declaration, String.toList_append, hending, hblank, hopen, hclose,
      List.append_assoc, List.append_nil, List.cons_append, List.nil_append]
  exact methodAt_eq_some_iff.mpr ⟨_, quals, hsplit,
    .mk (returnText_of_printable h) gap_space (wordText_of_isWord h.name) blanks_nil,
    paren_notMem_parameterText h.parameters, hquals⟩

theorem toMethod_textOfMethod (h : m.Printable owner) : (textOfMethod m).toMethod = m := by
  have hparameters := parseParameters_parameterText h.parameters h.notVoid
  have hstatic := h.notStatic
  have hvirtual := h.notVirtual
  obtain ⟨name, returnType, parameters, isStatic, isConst, isVirtual⟩ := m
  rw [textOfMethod, MethodText.toMethod]
  dsimp only at hparameters hstatic hvirtual ⊢
  rw [hparameters, hstatic, hvirtual, String.ofList_toList, String.ofList_toList]

/-- **DECLARATIONS ARE READ BACK**: methods that can be printed, declared one
    per line, are what is found in the text. -/
theorem parseMethods_declarations {methods : List Method} (h : ∀ m ∈ methods, m.Printable owner) :
    parseMethods (declarations methods).toList owner = methods := by
  have hscan : scan methodAt (declarations methods).toList = methods.map textOfMethod := by
    rw [declarations, toList_joinStrings, List.map_map]
    refine scan_joinWith ?_ (fun m hm => methodAt_declaration (h m hm)) fun _ _ => rfl
    intro m hm hnil
    have hlength := congrArg List.length hnil
    simp [Method.declaration] at hlength
  have hmethods : (methods.map textOfMethod).map MethodText.toMethod = methods := by
    rw [List.map_map]
    exact (List.map_congr_left fun m hm => toMethod_textOfMethod (h m hm)).trans (List.map_id _)
  rw [parseMethods, hscan, hmethods, List.filter_eq_self]
  exact fun m hm => bne_iff_ne.mpr (h m hm).other

/-- Methods of a panel: one without parameters, and a constant one with a named
    and an unnamed parameter. -/
def panelMethods : List Method :=
  [{ name := "begin", returnType := "void" },
    { name := "read", returnType := "int*",
      parameters := [⟨"const char *", some "name"⟩, ⟨"int", none⟩], isConst := true }]

theorem parseMethods_declarations_panel :
    (∀ m ∈ panelMethods, m.Printable (some "Panel")) ∧
      declarations panelMethods = "void begin();\nint* read(const char * name, int) const;" ∧
      parseMethods "void begin();\nint* read(const char * name, int) const;".toList (some "Panel")
        = panelMethods := by
  have hbegin : Method.Printable (some "Panel") { name := "begin", returnType := "void" } :=
    ⟨by decide +kernel, by decide, ⟨"void", by decide +kernel, .inl rfl⟩, nofun, by decide, rfl,
      rfl⟩
  have hname : Parameter.Printable ⟨"const char *", some "name"⟩ :=
    .named ["const", "char", "*"] "name" (by decide) (by decide +kernel) (by decide +kernel)
      (by decide +kernel)
  have hnumber : Parameter.Printable ⟨"int", none⟩ := .unnamed "int" (by decide +kernel)
  have hparameters : ∀ p ∈ [⟨"const char *", some "name"⟩, ⟨"int", none⟩], Parameter.Printable p :=
    List.forall_mem_cons.mpr ⟨hname, List.forall_mem_singleton.mpr hnumber⟩
  have hread : Method.Printable (some "Panel")
      { name := "read", returnType := "int*",
        parameters := [⟨"const char *", some "name"⟩, ⟨"int", none⟩], isConst := true } :=
    ⟨by decide +kernel, by decide, ⟨"int", by decide +kernel, .inr rfl⟩, hparameters, by decide,
      rfl, rfl⟩
  have hall : ∀ m ∈ panelMethods, m.Printable (some "Panel") :=
    List.forall_mem_cons.mpr ⟨hbegin, List.forall_mem_singleton.mpr hread⟩
  have htext : declarations panelMethods
      = "void begin();\nint* read(const char * name, int) const;" := by decide +kernel
  exact ⟨hall, htext, htext ▸ parseMethods_declarations hall⟩

end Header
end GemBinder
