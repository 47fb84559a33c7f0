import Mathlib.Data.List.TakeWhile
import GemBinder.Header.Declaration
import GemBinder.Proofs.Text.Comments
import GemBinder.Proofs.Text.Words

/-! # What a scan of a header finds

    A scan only finds what its scanner finds at some place of the text, and a
    scanner goes on towards the end of the text.  The names that it takes are
    words, and the number of a value is a trimmed part of the text. -/

namespace GemBinder

open Text

/-! ## Declarations that can be shown on lines -/

/-- **A LEGIBLE ENUMERATION**: its name and those of its values are
    unbroken. -/
structure EnumDecl.Legible (e : EnumDecl) : Prop where
  name : Unbroken e.name
  values : ∀ v ∈ e.values, Unbroken v.name

/-- **A LEGIBLE CLASS**: its name and those of its methods are unbroken, and
    its enumerations are legible. -/
structure ClassDecl.Legible (c : ClassDecl) : Prop where
  name : Unbroken c.name
  methods : ∀ m ∈ c.methods, Unbroken m.name
  enums : ∀ e ∈ c.enums, e.Legible

/-- What is written for a value may go over several lines, but it has no
    carriage return and does not end in a newline. -/
structure Written (s : String) : Prop where
  ends : EndsInLine s
  unified : '\r' ∉ s.toList

namespace Header

variable {s word rest before behind : List Char}

/-! ## Going on -/

theorem suffix_of_behind? {literal : List Char} (h : behind? literal s = some rest) :
    rest <:+ s := by
  rw [behind?] at h
  split at h
  · cases h
    exact List.drop_suffix _ s
  · exact nomatch h

theorem suffix_skipBlanks (s : List Char) : skipBlanks s <:+ s := List.dropWhile_suffix isBlank

theorem suffix_of_skipSomeBlanks (h : skipSomeBlanks s = some rest) : rest <:+ s := by
  rw [skipSomeBlanks] at h
  split at h
  · cases h
    exact suffix_skipBlanks s
  · exact nomatch h

theorem suffix_of_behindChar {c : Char} (h : behindChar c s = some rest) : rest <:+ s := by
  cases s with
  | nil => exact nomatch h
  | cons d s =>
      rw [behindChar] at h
      split at h
      · rw [← Option.some.inj h]
        exact List.suffix_cons d s
      · exact nomatch h

/-- A word is taken from the head of a text, and has word characters only. -/
theorem takeWord_eq_some (h : takeWord s = some (word, rest)) :
    word ++ rest = s ∧ ∀ c ∈ word, isWordChar c = true := by
  rw [takeWord] at h
  split at h
  · cases h
    exact ⟨List.takeWhile_append_dropWhile, fun c hc => List.mem_takeWhile_imp hc⟩
  · exact nomatch h

theorem suffix_of_takeWord (h : takeWord s = some (word, rest)) : rest <:+ s :=
  ⟨word, (takeWord_eq_some h).1⟩

/-- A word has no line end in it. -/
theorem unbroken_of_takeWord (h : takeWord s = some (word, rest)) :
    Unbroken (String.ofList word) := by
  have hword := (takeWord_eq_some h).2
  rw [Unbroken]
  rw [String.toList_ofList]
  exact ⟨fun hmem => absurd (hword _ hmem) (by decide),
    fun hmem => absurd (hword _ hmem) (by decide)⟩

theorem suffix_of_skipUnderlying (h : skipUnderlying s = some rest) : rest <:+ s := by
  rw [skipUnderlying] at h
  split at h
  · cases h
    exact List.suffix_rfl
  · next more hmore =>
      dsimp only at h
      split at h
      · cases h
        exact (List.dropWhile_suffix _).trans
          ((suffix_of_behindChar hmore).trans (suffix_skipBlanks s))
      · exact nomatch h

theorem suffix_of_behindScope (h : behindScope s = some rest) : rest <:+ s := by
  rw [behindScope] at h
  split at h
  · next more hmore => exact (suffix_of_skipSomeBlanks h).trans (suffix_of_behind? hmore)
  · obtain ⟨more, hmore, h⟩ := Option.bind_eq_some_iff.mp h
    exact (suffix_of_skipSomeBlanks h).trans (suffix_of_behind? hmore)

/-! ## Scanning -/

section Scan

variable {α : Type} {find? : Scanner α} {a : α}

theorem mem_scanFrom {skip : Nat} (h : a ∈ scanFrom find? before skip s) :
    ∃ before' rest behind, before'.reverse ++ rest = before.reverse ++ s ∧ rest <:+ s ∧
      find? before' rest = some (a, behind) := by
  induction s generalizing before skip with
  | nil => exact nomatch h
  | cons c s ih =>
      have hstep : ∀ {skip}, a ∈ scanFrom find? (c :: before) skip s →
          ∃ before' rest behind, before'.reverse ++ rest = before.reverse ++ c :: s ∧
            rest <:+ c :: s ∧ find? before' rest = some (a, behind) := by
        intro skip hmem
        obtain ⟨before', rest, behind, hplace, hsuffix, hfound⟩ := ih hmem
        refine ⟨before', rest, behind, ?_, hsuffix.trans (List.suffix_cons c s), hfound⟩
        rw [hplace, List.reverse_cons, List.append_assoc, List.singleton_append]
      cases skip with
      | succ skip => exact hstep h
      | zero =>
          rw [scanFrom] at h
          cases hfind : find? before (c :: s) with
          | none =>
              rw [hfind] at h
              exact hstep h
          | some found =>
              obtain ⟨b, behind⟩ := found
              rw [hfind] at h
              rcases List.mem_cons.mp h with rfl | hmem
              · exact ⟨before, c :: s, behind, rfl, List.suffix_rfl, hfind⟩
              · exact hstep hmem

/-- **WHAT A SCAN FINDS** was found at a place of the text. -/
theorem mem_scan (h : a ∈ scan find? s) :
    ∃ before rest behind, before.reverse ++ rest = s ∧ rest <:+ s ∧
      find? before rest = some (a, behind) := mem_scanFrom h

/-- What belongs to a thing that was found is passed over. -/
theorem scanFrom_length (t : List Char) :
    scanFrom find? before t.length (t ++ s) = scanFrom find? (t.reverse ++ before) 0 s := by
  induction t generalizing before with
  | nil => rfl
  | cons c t ih =>
      show scanFrom find? (c :: before) t.length (t ++ s) = _
      rw [ih, List.reverse_cons, List.append_assoc, List.singleton_append]

/-- A scan goes on behind what it has found. -/
theorem scanFrom_found {t : List Char} (ht : t ≠ [])
    (h : find? before (t ++ behind) = some (a, behind)) :
    scanFrom find? before 0 (t ++ behind)
      = a :: scanFrom find? (t.reverse ++ before) 0 behind := by
  obtain ⟨c, t, rfl⟩ := List.exists_cons_of_ne_nil ht
  have hlength : (t ++ behind).length - behind.length = t.length := by
    rw [List.length_append, Nat.add_sub_cancel]
  rw [List.cons_append] at h ⊢
  rw [scanFrom, h]
  show a :: scanFrom find? (c :: before) ((t ++ behind).length - behind.length) (t ++ behind) = _
  rw [hlength, scanFrom_length, List.reverse_cons, List.append_assoc, List.singleton_append]

theorem scanFrom_none {c : Char} (h : find? before (c :: s) = none) :
    scanFrom find? before 0 (c :: s) = scanFrom find? (c :: before) 0 s := by
  rw [scanFrom, h]

/-- Characters at which a scanner finds nothing, whatever stands around them. -/
def Quiet (find? : Scanner α) (t : List Char) : Prop :=
  ∀ c ∈ t, ∀ before rest, find? before (c :: rest) = none

theorem scanFrom_quiet {t : List Char} (h : Quiet find? t) :
    scanFrom find? before 0 (t ++ s) = scanFrom find? (t.reverse ++ before) 0 s := by
  induction t generalizing before with
  | nil => rfl
  | cons c t ih =>
      obtain ⟨hc, ht⟩ := List.forall_mem_cons.mp h
      rw [List.cons_append, scanFrom_none (hc _ _), ih ht, List.reverse_cons, List.append_assoc,
        List.singleton_append]

/-- **A SCAN ALONG JOINED TEXTS** finds in each of them what was printed there,
    if nothing is found between them and behind them.  What is found in the
    last one may take along what is behind it. -/
theorem scanFrom_joinWith {β : Type} {print : β → List Char} {read : β → α}
    {sep close : List Char} {things : List β} (hsep : Quiet find? sep) (hclose : Quiet find? close)
    (hfind : ∀ b ∈ things, ∀ before rest, sep <+: rest ∨ rest = close →
      ∃ before', scanFrom find? before 0 (print b ++ rest)
        = read b :: scanFrom find? before' 0 rest) (before : List Char) :
    scanFrom find? before 0 (joinWith sep (things.map print) ++ close) = things.map read := by
  have hquiet : ∀ before, scanFrom find? before 0 close = [] := by
    intro before
    rw [← List.append_nil close, scanFrom_quiet hclose]
    rfl
  induction things generalizing before with
  | nil => exact hquiet before
  | cons b more ih =>
      obtain ⟨hb, hmore⟩ := List.forall_mem_cons.mp hfind
      cases more with
      | nil =>
          obtain ⟨before', hfound⟩ := hb before close (.inr rfl)
          show scanFrom find? before 0 (print b ++ close) = [read b]
          rw [hfound, hquiet]
      | cons next others =>
          have hjoin : joinWith sep ((b :: next :: others).map print) ++ close
              = print b ++ (sep ++ (joinWith sep ((next :: others).map print) ++ close)) := by
            show print b ++ sep ++ joinWith sep ((next :: others).map print) ++ close = _
            rw [List.append_assoc, List.append_assoc]
          obtain ⟨before', hfound⟩ := hb before _ (.inl (List.prefix_append sep _))
          rw [hjoin, hfound, scanFrom_quiet hsep, ih hmore]
          rfl

/-- **A SCAN FINDS WHAT WAS PRINTED**, in order, if the scanner finds it at the
    place where it was printed, whatever stands around it, and nothing at a
    mark between two printed texts. -/
theorem scan_joinWith {β : Type} {print : β → List Char} {read : β → α} {sep : Char}
    {things : List β} (hne : ∀ b ∈ things, print b ≠ [])
    (hfind : ∀ b ∈ things, ∀ before rest, find? before (print b ++ rest) = some (read b, rest))
    (hsep : ∀ before rest, find? before (sep :: rest) = none) :
    scan find? (joinWith [sep] (things.map print)) = things.map read := by
  have hfound : ∀ b ∈ things, ∀ before rest, [sep] <+: rest ∨ rest = [] →
      ∃ before', scanFrom find? before 0 (print b ++ rest)
        = read b :: scanFrom find? before' 0 rest := by
    intro b hb before rest _
    exact ⟨_, scanFrom_found (hne b hb) (hfind b hb before rest)⟩
  have hclose : Quiet find? [] := fun c hc => absurd hc List.not_mem_nil
  rw [← List.append_nil (joinWith [sep] (things.map print))]
  exact scanFrom_joinWith (List.forall_mem_singleton.mpr hsep) hclose hfound []

end Scan

/-! ## Methods -/

theorem unbroken_of_methodAt {m : MethodText} (h : methodAt before s = some (m, behind)) :
    Unbroken (String.ofList m.name) := by
  simp only [methodAt, Option.bind_eq_bind, Option.bind_eq_some_iff] at h
  obtain ⟨_, -, _, -, ⟨name, _⟩, hname, _, -, _, -, _, -, h⟩ := h
  cases h
  exact unbroken_of_takeWord hname

theorem unbroken_of_mem_parseMethods {owner : Option String} {m : Method}
    (h : m ∈ parseMethods s owner) : Unbroken m.name := by
  obtain ⟨text, hscan, rfl⟩ := List.mem_map.mp (List.mem_filter.mp h).1
  obtain ⟨before, rest, behind, -, -, hfound⟩ := mem_scan hscan
  exact unbroken_of_methodAt hfound

/-! ## Enumerations -/

/-- A trimmed part of a text that has no carriage returns. -/
theorem written_trim (hs : '\r' ∉ s) : Written (String.ofList (trim s)) where
  ends := by
    rw [EndsInLine]
    rw [String.toList_ofList]
    exact fun hlast => absurd (getLast?_trimEndWhere hlast) (by decide)
  unified := by
    rw [String.toList_ofList]
    exact fun hmem => hs (mem_of_mem_trim hmem)

/-- The text of a value is a part of the text behind the equals sign. -/
theorem subset_of_takeEnumValue {value : List Char} (h : takeEnumValue s = some (value, behind)) :
    value ⊆ s := by
  rw [takeEnumValue] at h
  dsimp only at h
  split at h
  · split at h
    · next b hb =>
        cases h
        intro c hc
        obtain rfl := List.mem_singleton.mp hc
        exact (List.takeWhile_sublist _).subset (List.mem_of_mem_getLast? hb)
    · exact nomatch h
  · cases h
    exact fun c hc => (suffix_skipBlanks s).subset ((List.takeWhile_sublist _).subset hc)

/-- A value has a word for its name, and a trimmed part of the text for its
    number. -/
theorem legible_of_enumValueAt {v : EnumValue} (h : enumValueAt before s = some (v, behind)) :
    Unbroken v.name ∧ ('\r' ∉ s → ∀ t, v.value = some t → Written t) := by
  simp only [enumValueAt, Option.bind_eq_bind, Option.bind_eq_some_iff] at h
  obtain ⟨⟨name, rest⟩, hname, h⟩ := h
  have hword := unbroken_of_takeWord hname
  split at h
  · next value behind' hvalue =>
      cases h
      refine ⟨hword, fun hs t ht => ?_⟩
      cases ht
      obtain ⟨more, hmore, hvalue⟩ := Option.bind_eq_some_iff.mp hvalue
      refine written_trim fun hmem => hs ?_
      have hsuffix := (suffix_of_behindChar hmore).trans
        ((suffix_skipBlanks rest).trans (suffix_of_takeWord hname))
      exact hsuffix.subset (subset_of_takeEnumValue hvalue hmem)
  · cases h
    exact ⟨hword, fun _ => nofun⟩

theorem legible_of_enumBody {isScoped : Bool} {e : EnumDecl}
    (h : enumBody isScoped s = some (e, behind)) :
    e.Legible ∧ ('\r' ∉ s → ∀ v ∈ e.values, ∀ t, v.value = some t → Written t) := by
  simp only [enumBody, Option.bind_eq_bind, Option.bind_eq_some_iff] at h
  obtain ⟨⟨name, rest⟩, hname, under, hunder, body, hopen, _, -, h⟩ := h
  cases h
  have hsuffix := (suffix_of_behindChar hopen).trans ((suffix_skipBlanks under).trans
    ((suffix_of_skipUnderlying hunder).trans (suffix_of_takeWord hname)))
  refine ⟨⟨unbroken_of_takeWord hname, fun v hv => ?_⟩, fun hs v hv t ht => ?_⟩
  · obtain ⟨_, _, _, -, -, hfound⟩ := mem_scan hv
    exact (legible_of_enumValueAt hfound).1
  · obtain ⟨_, _, _, -, hplace, hfound⟩ := mem_scan hv
    refine (legible_of_enumValueAt hfound).2 (fun hmem => hs ?_) t ht
    exact hsuffix.subset ((List.takeWhile_sublist _).subset (hplace.subset hmem))

/-- **ENUMERATIONS OF A TEXT** are legible, and what is written for their
    values is written in the text. -/
theorem legible_of_mem_parseEnums {e : EnumDecl} (h : e ∈ parseEnums s) :
    e.Legible ∧ ('\r' ∉ s → ∀ v ∈ e.values, ∀ t, v.value = some t → Written t) := by
  obtain ⟨before, rest, behind, -, hplace, hfound⟩ := mem_scan h
  simp only [enumAt, Option.bind_eq_bind, Option.bind_eq_some_iff] at hfound
  obtain ⟨more, hmore, rest', hrest, hbody⟩ := hfound
  have hsuffix := ((suffix_of_skipSomeBlanks hrest).trans (suffix_of_behind? hmore)).trans hplace
  rcases Option.or_eq_some_iff.mp hbody with hscoped | ⟨-, hplain⟩
  · obtain ⟨inner, hinner, hscoped⟩ := Option.bind_eq_some_iff.mp hscoped
    obtain ⟨hlegible, hwritten⟩ := legible_of_enumBody hscoped
    refine ⟨hlegible, fun hs => hwritten fun hmem => hs ?_⟩
    exact ((suffix_of_behindScope hinner).trans hsuffix).subset hmem
  · obtain ⟨hlegible, hwritten⟩ := legible_of_enumBody hplain
    exact ⟨hlegible, fun hs => hwritten fun hmem => hs (hsuffix.subset hmem)⟩

/-! ## Classes -/

theorem unbroken_of_classAt {c : ClassText} (h : classAt before s = some (c, behind)) :
    Unbroken (String.ofList c.name) := by
  rw [classAt] at h
  split at h
  · exact nomatch h
  · simp only [Option.bind_eq_bind, Option.bind_eq_some_iff] at h
    obtain ⟨_, -, _, -, ⟨name, _⟩, hname, _, -, h⟩ := h
    cases h
    exact unbroken_of_takeWord hname

/-- **CLASSES OF A TEXT** are legible. -/
theorem legible_of_mem_parseClasses {header : String} {c : ClassDecl}
    (h : c ∈ parseClasses header s) : c.Legible := by
  obtain ⟨text, hscan, rfl⟩ := List.mem_map.mp h
  obtain ⟨before, rest, behind, -, -, hfound⟩ := mem_scan hscan
  exact ⟨unbroken_of_classAt hfound, fun m hm => unbroken_of_mem_parseMethods hm,
    fun e he => (legible_of_mem_parseEnums he).1⟩

end Header
end GemBinder
