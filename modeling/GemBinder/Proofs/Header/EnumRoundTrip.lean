import GemBinder.Proofs.Header.HeadLayout

/-! # Enumerations that are read back

    An enumeration is declared on a line of its own: the word for it, the word
    that makes it scoped if it is, its name, and between braces its values with
    commas between them.  A first scan finds the declarations and takes each up
    to its closing brace; a second one finds the values between the braces.

    A word may be `class` itself: what stands behind it tells whether it was
    the word for a scoped enumeration or a name.  The number of a value may
    hold any mark but a comma and a closing brace, so the scan of the values
    ends a number at one of these, and the last one at the end of its text with
    the blank that was put there. -/

namespace GemBinder

open Text

/-! ## Printing -/

/-- A value as it is declared. -/
def EnumValue.declaration (v : EnumValue) : String :=
  match v.value with
  | some number => v.name ++ " = " ++ number
  | none => v.name

namespace EnumDecl

/-- The values of an enumeration as they are declared. -/
def valueText (e : EnumDecl) : String := joinStrings ", " (e.values.map (·.declaration))

/-- The word that makes an enumeration scoped, if it is. -/
def scopeText (e : EnumDecl) : String := if e.isScoped then "class " else ""

/-- An enumeration as it is declared. -/
def declaration (e : EnumDecl) : String :=
  "enum " ++ e.scopeText ++ e.name ++ " \x7b " ++ e.valueText ++ " \x7d;"

end EnumDecl

/-- Enumerations declared one per line. -/
def enumDeclarations (enums : List EnumDecl) : String :=
  joinStrings "\n" (enums.map (·.declaration))

/-! ## What can be printed -/

/-- What can be written for the number of a value: a trimmed text without the
    marks that end it. -/
structure IsNumberText (t : String) : Prop where
  ne_empty : t ≠ ""
  trimmed : trimString t = t
  comma : ',' ∉ t.toList
  close : '}' ∉ t.toList

/-- **A VALUE THAT CAN BE PRINTED** is named by a word, and has a number that
    can be written, if it has one. -/
structure EnumValue.Printable (v : EnumValue) : Prop where
  name : IsWord v.name
  value : ∀ t, v.value = some t → IsNumberText t

/-- **AN ENUMERATION THAT CAN BE PRINTED** is named by a word and has values
    that can be printed. -/
structure EnumDecl.Printable (e : EnumDecl) : Prop where
  name : IsWord e.name
  values : ∀ v ∈ e.values, v.Printable

theorem IsNumberText.trim_toList {t : String} (h : IsNumberText t) : trim t.toList = t.toList := by
  have htrim := congrArg String.toList h.trimmed
  rwa [trimString, String.toList_ofList] at htrim

theorem IsNumberText.exists_cons {t : String} (h : IsNumberText t) :
    ∃ c more, t.toList = c :: more ∧ isBlank c = false := by
  obtain ⟨c, more, hc⟩ := List.exists_cons_of_ne_nil fun hnil =>
    h.ne_empty (String.toList_eq_nil_iff.mp hnil)
  refine ⟨c, more, hc, head?_trim (s := t.toList) ?_⟩
  rw [h.trim_toList, hc]
  rfl

namespace Header

variable {v : EnumValue} {e : EnumDecl} {s w rest : List Char}

/-! ## Values -/

/-- The marks that end the number of a value. -/
def endsNumber (c : Char) : Bool := c == ',' || c == '}'

/-- A number is taken up to the next mark, with the blanks behind it. -/
theorem takeEnumValue_append {t : String} (h : IsNumberText t) (rest : List Char) :
    takeEnumValue (' ' :: (t.toList ++ rest))
      = some (t.toList ++ rest.takeWhile (!endsNumber ·), rest.dropWhile (!endsNumber ·)) := by
  obtain ⟨c, more, hc, hblank⟩ := h.exists_cons
  have hfree : ∀ d ∈ t.toList, (!endsNumber d) = true := by
    intro d hd
    simp only [endsNumber, Bool.not_eq_true', Bool.or_eq_false_iff, beq_eq_false_iff_ne]
    exact ⟨fun heq => h.comma (heq ▸ hd), fun heq => h.close (heq ▸ hd)⟩
  have hskip : skipBlanks (' ' :: (t.toList ++ rest)) = t.toList ++ rest := by
    rw [hc]
    show skipBlanks ([' '] ++ c :: (more ++ rest)) = c :: (more ++ rest)
    exact skipBlanks_cons blanks_space hblank
  have hhead : ¬ (t.toList ++ rest).head?.all endsNumber = true := by
    have hfirst := hfree c (hc ▸ List.mem_cons_self)
    rw [hc]
    show ¬ endsNumber c = true
    simpa using hfirst
  rw [takeEnumValue, hskip]
  show (if (t.toList ++ rest).head?.all endsNumber = true then _
    else some ((t.toList ++ rest).takeWhile (!endsNumber ·), _)) = _
  rw [if_neg hhead, List.takeWhile_append_of_pos hfree]
  exact congrArg some (Prod.ext rfl (List.dropWhile_append_of_pos hfree))

/-- What stands behind a value in a list of values: another value, or the
    blank before the closing brace. -/
def BehindValue (rest : List Char) : Prop := [',', ' '] <+: rest ∨ rest = [' ']

theorem BehindValue.head? (h : BehindValue rest) : rest.head?.any isWordChar = false := by
  rcases h with ⟨more, rfl⟩ | rfl
  · show isWordChar ',' = false
    decide
  · decide

/-- No number follows. -/
theorem BehindValue.behindChar_eq_none (h : BehindValue rest) :
    behindChar '=' (skipBlanks rest) = none := by
  rcases h with ⟨more, rfl⟩ | rfl
  · have hcomma : isBlank ',' = false := by decide
    have hskip : skipBlanks ([] ++ ',' :: ' ' :: more) = ',' :: ' ' :: more :=
      skipBlanks_cons blanks_nil hcomma
    show behindChar '=' (skipBlanks ([] ++ ',' :: ' ' :: more)) = none
    rw [hskip]
    rfl
  · rfl

theorem enumValueAt_word (h : IsWord v.name) (hv : v.value = none) (before : List Char)
    (hrest : BehindValue rest) :
    enumValueAt before (v.name.toList ++ rest) = some (v, rest) := by
  obtain ⟨name, value⟩ := v
  obtain rfl : value = none := hv
  rw [enumValueAt, takeWord_eq_some_iff.mpr ⟨rfl, wordText_of_isWord h, hrest.head?⟩]
  dsimp only [Option.bind_eq_bind, Option.bind_some]
  rw [hrest.behindChar_eq_none, String.ofList_toList]
  rfl

theorem enumValueAt_number {t : String} (h : IsWord v.name) (hv : v.value = some t)
    (ht : IsNumberText t) (before : List Char) (hrest : BehindValue rest) :
    enumValueAt before (v.declaration.toList ++ rest)
      = some (v, rest.dropWhile (!endsNumber ·)) := by
  obtain ⟨name, value⟩ := v
  obtain rfl : value = some t := hv
  have htext : (EnumValue.declaration ⟨name, some t⟩).toList ++ rest
      = name.toList ++ ' ' :: '=' :: ' ' :: (t.toList ++ rest) := by
    show (name ++ " = " ++ t).toList ++ rest = _
    simp only [String.toList_append, List.append_assoc]
    rfl
  have hblank : ∀ c ∈ rest.takeWhile (!endsNumber ·), isBlank c = true := by
    rcases hrest with ⟨more, rfl⟩ | rfl
    · exact fun c hc => absurd hc List.not_mem_nil
    · exact blanks_space
  have htrim : trim (t.toList ++ rest.takeWhile (!endsNumber ·)) = t.toList := by
    rw [trim_append_blank hblank, ht.trim_toList]
  have hname : takeWord (name.toList ++ ' ' :: '=' :: ' ' :: (t.toList ++ rest)) = some (_, _) :=
    takeWord_eq_some_iff.mpr ⟨rfl, wordText_of_isWord h, show isWordChar ' ' = false by decide⟩
  have hnumber : (behindChar '=' (skipBlanks (' ' :: '=' :: ' ' :: (t.toList ++ rest)))).bind
      takeEnumValue = _ := takeEnumValue_append ht rest
  rw [htext, enumValueAt, hname]
  dsimp only [Option.bind_eq_bind, Option.bind_some]
  rw [hnumber]
  dsimp only
  rw [htrim, String.ofList_toList, String.ofList_toList]
  rfl

/-- **A VALUE IS TAKEN** with its number, and the scan goes on behind it. -/
theorem scanFrom_enumValue (h : v.Printable) (before : List Char) (hrest : BehindValue rest) :
    ∃ before', scanFrom enumValueAt before 0 (v.declaration.toList ++ rest)
      = v :: scanFrom enumValueAt before' 0 rest := by
  have hword : v.declaration.toList ≠ [] := by
    intro hnil
    rw [EnumValue.declaration] at hnil
    split at hnil
    · simp at hnil
    · exact h.name.ne_nil hnil
  cases hv : v.value with
  | none =>
      have htext : v.declaration = v.name := by rw [EnumValue.declaration, hv]
      rw [htext]
      exact ⟨_, scanFrom_found h.name.ne_nil (enumValueAt_word h.name hv before hrest)⟩
  | some t =>
      have hfound := enumValueAt_number h.name hv (h.value t hv) before hrest
      rcases hrest with ⟨more, rfl⟩ | rfl
      · exact ⟨_, scanFrom_found hword hfound⟩
      · -- the last number takes the blank before the brace along
        rw [← List.append_nil (v.declaration.toList ++ [' '])] at hfound ⊢
        exact ⟨before, scanFrom_found (List.append_ne_nil_of_left_ne_nil hword _) hfound⟩

/-! ## Enumerations -/

/-- The text between the braces of an enumeration. -/
def bodyText (e : EnumDecl) : List Char := ' ' :: (e.valueText.toList ++ [' '])

/-- The values between the braces are read back. -/
theorem scan_bodyText (h : e.Printable) : scan enumValueAt (bodyText e) = e.values := by
  have hclose : Quiet enumValueAt [' '] := List.forall_mem_singleton.mpr fun _ _ => rfl
  have hsep : Quiet enumValueAt [',', ' '] :=
    List.forall_mem_cons.mpr ⟨fun _ _ => rfl, List.forall_mem_singleton.mpr fun _ _ => rfl⟩
  have hfound : ∀ v ∈ e.values, ∀ before rest, [',', ' '] <+: rest ∨ rest = [' '] →
      ∃ before', scanFrom enumValueAt before 0 (v.declaration.toList ++ rest)
        = id v :: scanFrom enumValueAt before' 0 rest :=
    fun v hv before rest hrest => scanFrom_enumValue (h.values v hv) before hrest
  have hvalues := scanFrom_joinWith hsep hclose hfound [' ']
  rw [List.map_id] at hvalues
  show scanFrom enumValueAt [] 0 ([' '] ++ (e.valueText.toList ++ [' '])) = e.values
  rw [scanFrom_quiet hclose, EnumDecl.valueText, toList_joinStrings, List.map_map]
  exact hvalues

/-- No value has a closing brace. -/
theorem close_notMem_bodyText (h : e.Printable) : '}' ∉ bodyText e := by
  intro hmem
  have hmem : '}' ∈ e.valueText.toList := by simpa [bodyText] using hmem
  rw [EnumDecl.valueText, toList_joinStrings, List.map_map] at hmem
  obtain hsep | ⟨piece, hpiece, hchar⟩ := mem_joinWith hmem
  · simp at hsep
  · obtain ⟨v, hv, rfl⟩ := List.mem_map.mp hpiece
    have hname : '}' ∉ v.name.toList := (h.values v hv).name.notMem (by decide)
    simp only [Function.comp_apply, EnumValue.declaration] at hchar
    split at hchar
    · next number hnumber =>
        have hclose := ((h.values v hv).value number hnumber).close
        simp [hname, hclose] at hchar
    · exact hname hchar

/-- An enumeration is taken from its name to its closing brace. -/
theorem enumBody_append (h : e.Printable) (behind : List Char) :
    enumBody e.isScoped (e.name.toList ++ ([' '] ++ '{' :: (bodyText e ++ '}' :: behind)))
      = some (e, behind) := by
  refine enumBody_eq_some_iff.mpr ⟨_, _, _, rfl, wordText_of_isWord h.name,
    .absent blanks_space, close_notMem_bodyText h, ?_⟩
  rw [scan_bodyText h, String.ofList_toList]

/-- A word before a brace is a name, also where it is the word for a scoped
    enumeration. -/
theorem not_scoped_of_word (hw : WordText w) (s : List Char) :
    (behindScope (w ++ ([' '] ++ '{' :: s))).bind (enumBody true) = none := by
  refine Option.bind_eq_none_iff.mpr fun rest hscope => ?_
  obtain ⟨word, hword, gap, htext, hgap, hrest⟩ := behindScope_eq_some_iff.mp hscope
  -- both texts begin with the same word, and the same blanks behind it
  obtain ⟨-, hbehind⟩ := append_inj_of_head? htext hw.chars (wordText_of_mem_scopeWords hword).chars
    gap_space.head?_isWordChar hgap.head?_isWordChar
  obtain ⟨-, hskip⟩ := append_inj_of_head? hbehind gap_space.blanks hgap.blanks
    (show isBlank '{' = false by decide) hrest
  have hname : takeWord ('{' :: s) = none :=
    takeWord_eq_none (show isWordChar '{' = false by decide)
  rw [← hskip, enumBody, hname]
  rfl

/-- A declaration from its name on, and what stands before it. -/
theorem declaration_append (e : EnumDecl) (rest : List Char) :
    e.declaration.toList ++ rest = "enum".toList ++ ([' '] ++ (e.scopeText.toList ++
      (e.name.toList ++ ([' '] ++ '{' :: (bodyText e ++ '}' :: ';' :: rest))))) := by
  have hopen : " \x7b ".toList = [' ', '{', ' '] := rfl
  have hclose : " \x7d;".toList = [' ', '}', ';'] := rfl
  have henum : "enum ".toList = "enum".toList ++ [' '] := rfl
  simp only [EnumDecl.declaration, bodyText, String.toList_append, hopen, hclose, henum,
    List.append_assoc, List.cons_append, List.nil_append]

/-- **A DECLARATION IS TAKEN** up to its closing brace, whatever stands behind
    it. -/
theorem enumAt_declaration (h : e.Printable) (before rest : List Char) :
    enumAt before (e.declaration.toList ++ rest) = some (e, ';' :: rest) := by
  have hbody := enumBody_append h (';' :: rest)
  rw [declaration_append, EnumDecl.scopeText]
  cases hscoped : e.isScoped with
  | true =>
      rw [hscoped] at hbody
      have hscope : ScopeText ("class".toList ++ [' ']) := .mk List.mem_cons_self gap_space
      exact enumAt_scoped gap_space hscope hbody before
  | false =>
      rw [hscoped] at hbody
      exact enumAt_plain gap_space hbody (not_scoped_of_word (wordText_of_isWord h.name) _) before

/-- **ENUMERATIONS ARE READ BACK**: those that can be printed, declared one per
    line, are what is found in the text. -/
theorem parseEnums_enumDeclarations {enums : List EnumDecl} (h : ∀ e ∈ enums, e.Printable) :
    parseEnums (enumDeclarations enums).toList = enums := by
  have hsemicolon : Quiet enumAt [';'] := List.forall_mem_singleton.mpr fun _ _ => rfl
  have hnewline : Quiet enumAt ['\n'] := List.forall_mem_singleton.mpr fun _ _ => rfl
  have hclose : Quiet enumAt [] := fun c hc => absurd hc List.not_mem_nil
  have hfound : ∀ e ∈ enums, ∀ before rest, ['\n'] <+: rest ∨ rest = [] → ∃ before',
      scanFrom enumAt before 0 (e.declaration.toList ++ rest)
        = id e :: scanFrom enumAt before' 0 rest := by
    intro e he before rest _
    -- the scan stops behind the brace, and finds nothing at the semicolon
    obtain ⟨t, hdeclaration, ht⟩ : ∃ t, e.declaration.toList = t ++ [';'] ∧ t ≠ [] := by
      refine ⟨("enum " ++ e.scopeText ++ e.name ++ " \x7b " ++ e.valueText).toList ++ [' ', '}'],
        ?_, List.append_ne_nil_of_right_ne_nil _ (List.cons_ne_nil _ _)⟩
      rw [EnumDecl.declaration, String.toList_append, List.append_assoc]
      rfl
    have hfind := enumAt_declaration (h e he) before rest
    have htext : e.declaration.toList ++ rest = t ++ ';' :: rest := by
      rw [hdeclaration, List.append_assoc, List.singleton_append]
    rw [htext] at hfind ⊢
    rw [scanFrom_found ht hfind]
    exact ⟨_, congrArg (e :: ·) (scanFrom_quiet (s := rest) hsemicolon)⟩
  have hscan := scanFrom_joinWith hnewline hclose hfound []
  rw [List.map_id, List.append_nil] at hscan
  rw [parseEnums, enumDeclarations, toList_joinStrings, List.map_map]
  exact hscan

/-- A scoped enumeration, and one whose name is the word for a scoped one and
    that has a number over two lines. -/
def sampleEnums : List EnumDecl :=
  [{ name := "Mode", values := [⟨"Off", none⟩, ⟨"On", some "1 << 2"⟩], isScoped := true },
    { name := "class", values := [⟨"Wide", some "sizeof(Pair\x7b\n  1)"⟩], isScoped := false }]

theorem parseEnums_enumDeclarations_sample :
    (∀ e ∈ sampleEnums, e.Printable) ∧
      enumDeclarations sampleEnums = "enum class Mode \x7b Off, On = 1 << 2 \x7d;\n" ++
        "enum class \x7b Wide = sizeof(Pair\x7b\n  1) \x7d;" ∧
      parseEnums (enumDeclarations sampleEnums).toList = sampleEnums := by
  have hshift : IsNumberText "1 << 2" :=
    ⟨by decide, by decide +kernel, by decide, by decide⟩
  have hsize : IsNumberText "sizeof(Pair\x7b\n  1)" :=
    ⟨by decide, by decide +kernel, by decide, by decide⟩
  have hoff : EnumValue.Printable ⟨"Off", none⟩ := ⟨by decide +kernel, nofun⟩
  have hon : EnumValue.Printable ⟨"On", some "1 << 2"⟩ :=
    ⟨by decide +kernel, fun t ht => Option.some.inj ht ▸ hshift⟩
  have hwide : EnumValue.Printable ⟨"Wide", some "sizeof(Pair\x7b\n  1)"⟩ :=
    ⟨by decide +kernel, fun t ht => Option.some.inj ht ▸ hsize⟩
  have hall : ∀ e ∈ sampleEnums, e.Printable :=
    List.forall_mem_cons.mpr
      ⟨⟨by decide +kernel, List.forall_mem_cons.mpr ⟨hoff, List.forall_mem_singleton.mpr hon⟩⟩,
        List.forall_mem_singleton.mpr
          ⟨by decide +kernel, List.forall_mem_singleton.mpr hwide⟩⟩
  exact ⟨hall, by decide +kernel, parseEnums_enumDeclarations hall⟩

end Header
end GemBinder
