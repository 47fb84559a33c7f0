import GemBinder.Proofs.Header.Pieces
import GemBinder.Proofs.Identifiers
import GemBinder.Proofs.Source.Registered
import GemBinder.Proofs.Source.Success

/-! # Every call is renamed

    A name is a word, and an opening parenthesis stands behind it: calls do not
    overlap, and behind a word character none begins.  So a text is cut into
    the pieces between its calls (`CutAtCalls`), and renaming joins the same
    pieces with other calls between them.  Whether a call is made somewhere in
    the new text can be told from the old one: a word that was there before is
    there with the same characters around it. -/

namespace GemBinder

open Text
open Header (WordText)

/-! ## The pieces between calls -/

/-- **A TEXT AND THE PIECES BETWEEN ITS CALLS**: with a call between neighbours
    the pieces make the text, and the places between neighbours are just those
    at which the call stands at a word boundary. -/
structure CutAtCalls (call : List Char) (before : Option Char) (s : List Char)
    (pieces : List (List Char)) : Prop where
  joined : s = joinWith call pieces
  places : ∀ u v, s = u ++ (call ++ v) → (isWordBoundary (lastOr before u) call.head? = true ↔
    ∃ ps qs, ps ≠ [] ∧ qs ≠ [] ∧ pieces = ps ++ qs ∧ u = joinWith call ps ∧ v = joinWith call qs)

/-- A call begins at the head of a text. -/
def Opens (call : List Char) (before : Option Char) (s : List Char) : Prop :=
  call <+: s ∧ isWordBoundary before call.head? = true

section Lists

variable {name symbol replacement s t w : List Char} {before : Option Char} {c : Char}

/-- The call of a name, as a text. -/
abbrev callText (name : List Char) : List Char := name ++ ['(']

theorem joinWith_cons_of_ne_nil {sep p : List Char} {pieces : List (List Char)} (h : pieces ≠ []) :
    joinWith sep (p :: pieces) = p ++ (sep ++ joinWith sep pieces) := by
  rw [joinWith, List.append_assoc]
  exact h

theorem joinWith_cons_cons (sep : List Char) (c : Char) (p : List Char)
    (pieces : List (List Char)) :
    joinWith sep ((c :: p) :: pieces) = c :: joinWith sep (p :: pieces) := by
  cases pieces with
  | nil => rfl
  | cons q pieces =>
      rw [joinWith_cons_of_ne_nil (List.cons_ne_nil q pieces),
        joinWith_cons_of_ne_nil (List.cons_ne_nil q pieces)]
      rfl

theorem callText_ne_nil (name : List Char) : callText name ≠ [] :=
  List.append_ne_nil_of_right_ne_nil _ (List.cons_ne_nil _ _)

/-- A word boundary in front of a word is a word boundary in front of any
    other. -/
theorem isWordBoundary_head? (hw : WordText w) (u : List Char) :
    isWordBoundary before (w ++ u).head? = !before.any isWordChar := by
  rw [isWordBoundary, hw.head?_isWordChar]
  cases before.any isWordChar <;> rfl

theorem opens_cons_iff {call : List Char} (hne : call ≠ []) :
    Opens call before (c :: s) ↔
      (call.isPrefixOf (c :: s) && isWordBoundary before (some c)) = true := by
  rw [Opens, Bool.and_eq_true, List.isPrefixOf_iff_prefix]
  refine and_congr_right fun ⟨v, hv⟩ => ?_
  have hhead := congrArg List.head? hv
  rw [List.head?_append_of_ne_nil _ hne] at hhead
  rw [hhead]
  rfl

/-- Behind a word character no call begins. -/
theorem not_opens_of_isWordChar (hname : WordText name) (hc : isWordChar c = true) :
    ¬ Opens (callText name) (some c) s := by
  rintro ⟨-, hbound⟩
  rw [isWordBoundary_head? hname, Option.any_some, hc] at hbound
  exact Bool.false_ne_true hbound

theorem replaceCalls_of_opens
    (hbound : isWordBoundary before (callText name).head? = true) :
    replaceCalls (callText name) replacement 0 before (callText name ++ t)
      = replacement ++ replaceCalls (callText name) replacement 0 (some '(') t := by
  obtain ⟨d, more, hcall⟩ := List.exists_cons_of_ne_nil (callText_ne_nil name)
  have hlast : lastOr (some d) more = some '(' := by
    have hend : lastOr none (callText name) = some '(' := by
      rw [lastOr, callText, List.getLast?_concat, Option.some_or]
    rw [hcall, lastOr_cons] at hend
    exact hend
  rw [hcall] at hbound ⊢
  rw [replaceCalls_call hbound, hlast]

theorem replaceCalls_of_not_opens (h : ¬ Opens (callText name) before (c :: s)) :
    replaceCalls (callText name) replacement 0 before (c :: s)
      = c :: replaceCalls (callText name) replacement 0 (some c) s := by
  rw [replaceCalls, if_neg fun hopens => h ((opens_cons_iff (callText_ne_nil name)).mpr hopens)]

/-- A text is passed through call by call, and character by character where no
    call begins. -/
theorem call_induction (name : List Char) {P : Option Char → List Char → Prop}
    (nil : ∀ before, P before [])
    (call : ∀ before t, isWordBoundary before (callText name).head? = true → P (some '(') t →
      P before (callText name ++ t))
    (other : ∀ before c s, ¬ Opens (callText name) before (c :: s) → P (some c) s →
      P before (c :: s)) (before : Option Char) (s : List Char) : P before s := by
  induction hn : s.length using Nat.strong_induction_on generalizing before s with
  | h n ih =>
      subst hn
      cases s with
      | nil => exact nil before
      | cons c s =>
          by_cases hopens : Opens (callText name) before (c :: s)
          · obtain ⟨⟨t, ht⟩, hbound⟩ := hopens
            rw [← ht]
            refine call before t hbound (ih t.length ?_ _ _ rfl)
            rw [← ht, List.length_append, callText, List.length_append, List.length_singleton]
            omega
          · exact other before c s hopens (ih s.length (Nat.lt_succ_self _) _ _ rfl)

/-! ### Cutting -/

/-- In a text that begins with a call, another one stands at the same place, or
    behind it, or begins inside its name. -/
theorem call_place_cases {u v : List Char} (hname : WordText name)
    (h : callText name ++ t = u ++ (callText name ++ v)) :
    (u = [] ∧ t = v) ∨ (∃ u', u = callText name ++ u' ∧ t = u' ++ (callText name ++ v)) ∨
      (¬ callText name <+: u ∧ ∃ e, u.getLast? = some e ∧ isWordChar e = true) := by
  rcases List.append_eq_append_iff.mp h with ⟨u', hu, ht⟩ | ⟨a, hcall, -⟩
  · exact .inr (.inl ⟨u', hu, ht⟩)
  · rcases List.prefix_concat_iff.mp (show u <+: name ++ ['('] from ⟨a, hcall.symm⟩) with rfl | hu
    · refine .inr (.inl ⟨[], (List.append_nil _).symm, List.append_cancel_left h⟩)
    · by_cases hnil : u = []
      · rw [hnil] at h
        exact .inl ⟨hnil, List.append_cancel_left h⟩
      · refine .inr (.inr ⟨fun hcall => ?_, _, List.getLast?_eq_some_getLast hnil, ?_⟩)
        · have hlen := (hcall.trans hu).length_le
          rw [callText, List.length_append, List.length_singleton] at hlen
          omega
        · exact hname.chars _ (hu.subset (List.getLast_mem hnil))

/-- The pieces of a text that begins with a call. -/
theorem CutAtCalls.call {pieces : List (List Char)} (hname : WordText name) (hne : pieces ≠ [])
    (hbound : isWordBoundary before (callText name).head? = true)
    (h : CutAtCalls (callText name) (some '(') t pieces) :
    CutAtCalls (callText name) before (callText name ++ t) ([] :: pieces) where
  joined := by
    rw [joinWith_cons_of_ne_nil hne, ← h.joined]
    rfl
  places := by
    intro u v huv
    -- between the empty piece and the next one, or behind the call
    have hright : (∃ ps qs, ps ≠ [] ∧ qs ≠ [] ∧ [] :: pieces = ps ++ qs ∧
        u = joinWith (callText name) ps ∧ v = joinWith (callText name) qs) ↔
        (u = [] ∧ v = t) ∨ ∃ ps qs, ps ≠ [] ∧ qs ≠ [] ∧ pieces = ps ++ qs ∧
          u = callText name ++ joinWith (callText name) ps ∧
          v = joinWith (callText name) qs := by
      constructor
      · rintro ⟨ps, qs, hps, hqs, hpieces, rfl, rfl⟩
        obtain ⟨p, ps, rfl⟩ := List.exists_cons_of_ne_nil hps
        obtain ⟨rfl, rfl⟩ := List.cons.inj hpieces
        by_cases hnil : ps = []
        · subst hnil
          exact .inl ⟨rfl, h.joined.symm⟩
        · exact .inr ⟨ps, qs, hnil, hqs, rfl, joinWith_cons_of_ne_nil hnil, rfl⟩
      · rintro (⟨rfl, rfl⟩ | ⟨ps, qs, hps, hqs, rfl, rfl, rfl⟩)
        · exact ⟨[[]], pieces, List.cons_ne_nil _ _, hne, rfl, rfl, h.joined⟩
        · exact ⟨[] :: ps, qs, List.cons_ne_nil _ _, hqs, rfl, (joinWith_cons_of_ne_nil (p := []) hps).symm,
            rfl⟩
    rw [hright]
    rcases call_place_cases hname huv with ⟨rfl, rfl⟩ | ⟨u', rfl, ht⟩ | ⟨hnone, e, he, hword⟩
    · exact iff_of_true hbound (.inl ⟨rfl, rfl⟩)
    · have hlast : lastOr before (callText name ++ u') = lastOr (some '(') u' := by
        rw [lastOr, lastOr, List.getLast?_append, callText, List.getLast?_concat]
        cases u'.getLast? <;> rfl
      rw [hlast, h.places u' v ht, or_iff_right fun hu =>
        callText_ne_nil name (List.append_eq_nil_iff.mp hu.1).1]
      simp only [List.append_cancel_left_eq]
    · refine iff_of_false ?_ ?_
      · rw [lastOr, he, Option.some_or, isWordBoundary_head? hname, Option.any_some, hword]
        exact Bool.false_ne_true
      · rintro (⟨rfl, -⟩ | ⟨ps, qs, -, -, -, rfl, -⟩)
        · cases he
        · exact hnone (List.prefix_append _ _)

/-- A character at which no call begins goes to the first piece. -/
theorem CutAtCalls.other {p : List Char} {pieces : List (List Char)}
    (hopens : ¬ Opens (callText name) before (c :: s))
    (h : CutAtCalls (callText name) (some c) s (p :: pieces)) :
    CutAtCalls (callText name) before (c :: s) ((c :: p) :: pieces) where
  joined := by rw [joinWith_cons_cons, ← h.joined]
  places := by
    intro u v huv
    cases u with
    | nil =>
        refine iff_of_false (fun hbound => hopens ⟨⟨v, huv.symm⟩, hbound⟩) ?_
        rintro ⟨ps, qs, hps, -, hpieces, hu, -⟩
        obtain ⟨q, ps, rfl⟩ := List.exists_cons_of_ne_nil hps
        obtain ⟨rfl, -⟩ := List.cons.inj hpieces
        rw [joinWith_cons_cons] at hu
        exact nomatch hu
    | cons d u =>
        obtain ⟨rfl, hs⟩ := List.cons.inj huv
        rw [lastOr_cons, h.places u v hs]
        constructor
        · rintro ⟨ps, qs, hps, hqs, hpieces, rfl, rfl⟩
          obtain ⟨q, ps, rfl⟩ := List.exists_cons_of_ne_nil hps
          obtain ⟨rfl, rfl⟩ := List.cons.inj hpieces
          exact ⟨(c :: p) :: ps, qs, List.cons_ne_nil _ _, hqs, rfl,
            (joinWith_cons_cons _ c p ps).symm, rfl⟩
        · rintro ⟨ps, qs, hps, hqs, hpieces, hu, rfl⟩
          obtain ⟨q, ps, rfl⟩ := List.exists_cons_of_ne_nil hps
          obtain ⟨rfl, rfl⟩ := List.cons.inj hpieces
          rw [joinWith_cons_cons] at hu
          exact ⟨p :: ps, qs, List.cons_ne_nil _ _, hqs, rfl, (List.cons.inj hu).2, rfl⟩

/-- **RENAMING IS JOINING ANEW**: a text is cut at its calls, and the pieces are
    joined with the replacement between them. -/
theorem exists_cutAtCalls (hname : WordText name) (replacement : List Char)
    (before : Option Char) (s : List Char) :
    ∃ p pieces, CutAtCalls (callText name) before s (p :: pieces) ∧
      replaceCalls (callText name) replacement 0 before s = joinWith replacement (p :: pieces) := by
  induction before, s using call_induction name with
  | nil before =>
      refine ⟨[], [], ⟨rfl, fun u v huv => ?_⟩, rfl⟩
      have hcall := (List.append_eq_nil_iff.mp huv.symm).2
      exact absurd (List.append_eq_nil_iff.mp hcall).1 (callText_ne_nil name)
  | call before t hbound ih =>
      obtain ⟨p, pieces, hcut, hjoin⟩ := ih
      have hne : p :: pieces ≠ [] := List.cons_ne_nil p pieces
      refine ⟨[], p :: pieces, hcut.call hname hne hbound, ?_⟩
      rw [replaceCalls_of_opens hbound, hjoin, joinWith_cons_of_ne_nil hne]
      rfl
  | other before c s hopens ih =>
      obtain ⟨p, pieces, hcut, hjoin⟩ := ih
      refine ⟨c :: p, pieces, hcut.other hopens, ?_⟩
      rw [replaceCalls_of_not_opens hopens, hjoin, joinWith_cons_cons]

/-! ### What is called afterwards -/

theorem callsFrom_of_opens (hopens : Opens (callText name) before s) :
    callsFrom (callText name) before s = true := by
  obtain ⟨⟨v, rfl⟩, hbound⟩ := hopens
  exact (callsFrom_eq_true_iff (callText_ne_nil name)).mpr ⟨[], v, rfl, hbound⟩

theorem callsFrom_of_not_opens (hopens : ¬ Opens (callText name) before (c :: s)) :
    callsFrom (callText name) before (c :: s) = callsFrom (callText name) (some c) s := by
  rw [opens_cons_iff (callText_ne_nil name), Bool.not_eq_true] at hopens
  rw [callsFrom, hopens, Bool.false_or]

theorem callsFrom_nil : callsFrom (callText name) before [] = false := by
  have hempty : (callText name).isEmpty = false :=
    Bool.eq_false_iff.mpr fun h => callText_ne_nil name (List.isEmpty_iff.mp h)
  rw [callsFrom, hempty, Bool.false_and]

/-- What is not called is not renamed. -/
theorem replaceCalls_of_not_calls (h : callsFrom (callText name) before s = false) :
    replaceCalls (callText name) replacement 0 before s = s := by
  induction s generalizing before with
  | nil => rfl
  | cons c s ih =>
      have hopens : ¬ Opens (callText name) before (c :: s) := fun hopens =>
        Bool.false_ne_true (h.symm.trans (callsFrom_of_opens hopens))
      rw [callsFrom_of_not_opens hopens] at h
      rw [replaceCalls_of_not_opens hopens, ih h]

/-- Behind a word character, the rest of a word and the parenthesis behind it
    were there before. -/
theorem prefix_of_prefix_replaceCalls (hname : WordText name) (hc : isWordChar c = true)
    (hw : ∀ d ∈ w, isWordChar d = true)
    (h : callText w <+: replaceCalls (callText name) replacement 0 (some c) s) :
    callText w <+: s := by
  have hstep : ∀ {d s}, replaceCalls (callText name) replacement 0 (some c) (d :: s)
      = d :: replaceCalls (callText name) replacement 0 (some d) s := fun {d s} =>
    replaceCalls_of_not_opens (not_opens_of_isWordChar hname hc)
  induction w generalizing c s with
  | nil =>
      cases s with
      | nil => exact h
      | cons d s =>
          rw [hstep] at h
          obtain ⟨rfl, -⟩ := List.cons_prefix_cons.mp h
          exact ⟨s, rfl⟩
  | cons e w ih =>
      obtain ⟨he, hw⟩ := List.forall_mem_cons.mp hw
      cases s with
      | nil => exact h
      | cons d s =>
          rw [hstep] at h
          obtain ⟨rfl, hrest⟩ := List.cons_prefix_cons.mp h
          exact List.cons_prefix_cons.mpr ⟨rfl, ih he hw hrest fun {d s} =>
            replaceCalls_of_not_opens (not_opens_of_isWordChar hname he)⟩

/-- Inside a word no call begins. -/
theorem callsFrom_behind_word (hname : WordText name) (hc : isWordChar c = true)
    (hw : ∀ d ∈ w, isWordChar d = true) :
    callsFrom (callText name) (some c) (w ++ s) = callsFrom (callText name) (lastOr (some c) w) s := by
  induction w generalizing c with
  | nil => rfl
  | cons d w ih =>
      obtain ⟨hd, hw⟩ := List.forall_mem_cons.mp hw
      rw [List.cons_append, callsFrom_of_not_opens (not_opens_of_isWordChar hname hc), ih hd hw,
        lastOr_cons]

/-- **WHERE A WORD IS CALLED**, another one is not, and the search goes on behind
    the parenthesis. -/
theorem callsFrom_callText (hname : WordText name) (hw : WordText w) (hne : name ≠ w) :
    callsFrom (callText name) before (callText w ++ t) = callsFrom (callText name) (some '(') t := by
  have hparen : ∀ u : List Char, ('(' :: u).head?.any isWordChar = false := fun _ =>
    (by decide : isWordChar '(' = false)
  obtain ⟨d, more, rfl⟩ := List.exists_cons_of_ne_nil hw.ne_nil
  obtain ⟨hd, hmore⟩ := List.forall_mem_cons.mp hw.chars
  have hhead : ¬ Opens (callText name) before (d :: (more ++ '(' :: t)) := by
    rintro ⟨⟨v, hv⟩, -⟩
    rw [callText, List.append_assoc] at hv
    have hwords : name ++ '(' :: v = (d :: more) ++ '(' :: t := hv
    exact hne (Header.append_inj_of_head? hwords hname.chars hw.chars (hparen v) (hparen t)).1
  have hlast : ∃ e, lastOr (some d) more = some e ∧ isWordChar e = true := by
    rw [← lastOr_cons none, lastOr, Option.or_none]
    exact ⟨_, List.getLast?_eq_some_getLast (List.cons_ne_nil d more),
      hw.chars _ (List.getLast_mem _)⟩
  obtain ⟨e, he, hword⟩ := hlast
  have hlist : callText (d :: more) ++ t = d :: (more ++ '(' :: t) := by
    rw [callText, List.append_assoc]
    rfl
  rw [hlist, callsFrom_of_not_opens hhead, callsFrom_behind_word hname hd hmore, he,
    callsFrom_of_not_opens (not_opens_of_isWordChar hname hword)]

/-- **NO CALL IS LEFT.** -/
theorem not_calls_replaceCalls (hname : WordText name) (hsymbol : WordText symbol)
    (hne : name ≠ symbol) :
    callsFrom (callText name) before (replaceCalls (callText name) (callText symbol) 0 before s)
      = false := by
  induction before, s using call_induction name with
  | nil before => exact callsFrom_nil
  | call before t hbound ih =>
      rw [replaceCalls_of_opens hbound, callsFrom_callText hname hsymbol hne, ih]
  | other before c s hopens ih =>
      rw [replaceCalls_of_not_opens hopens, callsFrom_of_not_opens ?_, ih]
      -- a call that begins here would have been there before
      rintro ⟨hcall, hbound⟩
      obtain ⟨d, more, rfl⟩ := List.exists_cons_of_ne_nil hname.ne_nil
      obtain ⟨hd, hmore⟩ := List.forall_mem_cons.mp hname.chars
      obtain ⟨rfl, hrest⟩ := List.cons_prefix_cons.mp hcall
      refine hopens ⟨List.cons_prefix_cons.mpr ⟨rfl, ?_⟩, hbound⟩
      exact prefix_of_prefix_replaceCalls hname hd hmore hrest

/-- **WHAT WAS CALLED** is called by the new name. -/
theorem calls_replaceCalls (hname : WordText name) (hsymbol : WordText symbol)
    (h : callsFrom (callText name) before s = true) :
    callsFrom (callText symbol) before
      (replaceCalls (callText name) (callText symbol) 0 before s) = true := by
  induction before, s using call_induction name with
  | nil before => exact absurd (callsFrom_nil.symm.trans h) Bool.false_ne_true
  | call before t hbound ih =>
      rw [replaceCalls_of_opens hbound]
      refine callsFrom_of_opens ⟨List.prefix_append _ _, ?_⟩
      rw [isWordBoundary_head? hname] at hbound
      rw [isWordBoundary_head? hsymbol, hbound]
  | other before c s hopens ih =>
      rw [callsFrom_of_not_opens hopens] at h
      rw [replaceCalls_of_not_opens hopens, callsFrom, ih h, Bool.or_true]

end Lists

/-! ## Code -/

/-- **THE CALLS OF A NAME ARE RENAMED, AND NOTHING ELSE**: one text is made of
    pieces with the calls of the name between them, all that stand at a word
    boundary, and the other one of the same pieces with calls of the new name. -/
def Renames (name symbol code renamed : String) : Prop :=
  ∃ pieces, CutAtCalls (callOf name) none code.toList pieces ∧
    renamed.toList = joinWith (callOf symbol) pieces

theorem wordText_of_identifierText {s : String} (h : IdentifierText s) (hne : s ≠ "") :
    WordText s.toList where
  ne_nil := fun hnil => hne (String.toList_eq_nil_iff.mp hnil)
  chars := fun c hc =>
    isWordChar_of_isIdentifierChar (toNat_lt_of_isIdentifierChar (h c hc)) (h c hc)

theorem symbolWith_ne_empty (vmPrefix stem : String) (arity : Nat) :
    symbolWith vmPrefix stem arity ≠ "" := by
  intro h
  have hmem : '_' ∈ (symbolWith vmPrefix stem arity).toList := by
    simp [symbolWith, String.toList_append]
  rw [h] at hmem
  exact List.not_mem_nil hmem

/-- The default name of a method is a word. -/
theorem Method.wordText_vmName {m : Method} (h : IdentifierText m.name) :
    WordText m.vmName.toList := by
  refine wordText_of_identifierText ?_ (symbolWith_ne_empty _ _ _)
  rw [Method.vmName_eq_symbolWith, identifierText_symbolWith (by decide)]
  exact identifierText_lowerString.mpr fun c hc => .inl (h c hc)

/-- **CODE IS RENAMED** to any symbol that is an identifier. -/
theorem retarget_renames {m : Method} {symbol : String} (hname : IdentifierText m.name)
    (hsymbol : IdentifierText symbol) (hempty : symbol ≠ "") (hne : symbol ≠ m.vmName)
    (code : String) :
    ∃ renamed, retarget code m symbol = .ok renamed ∧ Renames m.vmName symbol code renamed ∧
      ¬ Mentions m.vmName renamed ∧ retarget renamed m symbol = .ok renamed ∧
      (Mentions m.vmName code → Mentions symbol renamed) := by
  have hword := Method.wordText_vmName hname
  have hother := wordText_of_identifierText hsymbol hempty
  have hslash : '\\' ∉ symbol.toList := fun hmem => absurd (hsymbol _ hmem) (by decide)
  have hrun := retarget_of_plain hne.symm hslash
  have hlists : m.vmName.toList ≠ symbol.toList := fun h => hne (String.toList_inj.mp h).symm
  have hgone : callsFrom (callText m.vmName.toList) none (replaceCalls (callText m.vmName.toList)
      (callText symbol.toList) 0 none code.toList) = false :=
    not_calls_replaceCalls hword hother hlists
  refine ⟨_, hrun code, ?_, ?_, ?_, ?_⟩
  · obtain ⟨p, pieces, hcut, hjoin⟩ := exists_cutAtCalls hword (callOf symbol) none code.toList
    exact ⟨p :: pieces, hcut, String.toList_ofList.trans hjoin⟩
  · rw [← calls_eq_true_iff, calls, String.toList_ofList]
    exact Bool.eq_false_iff.mp hgone
  · rw [hrun, String.toList_ofList]
    exact congrArg (fun s => Except.ok (String.ofList s)) (replaceCalls_of_not_calls hgone)
  · intro hcalls
    rw [← calls_eq_true_iff, calls] at hcalls
    rw [← calls_eq_true_iff, calls, String.toList_ofList]
    exact calls_replaceCalls hword hother hcalls

/-! ## Code of a registry -/

namespace Generator

variable {g : Generator}

/-- What a registration has: code of the registry that calls its method by the
    default name, or types that can cross and are spelled without braces. -/
def Supplies (g : Generator) (r : Registration) : Prop :=
  (g.registry.bindingCode r.owner r.method = .ok none ∧ g.rules.supports r.method = true ∧
    r.toMember.WithoutBraces) ∨
  ∃ plain, g.registry.bindingCode r.owner r.method = .ok (some plain) ∧
    Mentions r.method.vmName plain

/-- Code that calls the default name defines any symbol it is renamed to. -/
theorem exists_bindingOf_of_mentions {r : Registration} {plain : String}
    (hname : IdentifierText r.method.name) (hsymbol : IdentifierText r.symbol)
    (hempty : r.symbol ≠ "")
    (hcode : g.registry.bindingCode r.owner r.method = .ok (some plain))
    (hcalls : Mentions r.method.vmName plain) :
    ∃ renamed, retarget plain r.method r.symbol = .ok renamed ∧
      g.bindingOf r = .ok (some renamed) := by
  by_cases hsame : r.symbol = r.method.vmName
  · have hrun : retarget plain r.method r.symbol = .ok plain := by
      rw [retarget, if_pos (beq_iff_eq.mpr hsame.symm)]
    refine ⟨plain, hrun, bindingOf_eq_some_iff.mpr ⟨plain, hcode, hrun, ?_⟩⟩
    rw [hsame]
    exact hcalls
  · obtain ⟨renamed, hrun, -, -, -, hmentions⟩ := retarget_renames hname hsymbol hempty hsame plain
    exact ⟨renamed, hrun, bindingOf_eq_some_iff.mpr ⟨plain, hcode, hrun, hmentions hcalls⟩⟩

/-- Classes with names that are identifiers, of which every registration has
    what it needs. -/
structure Supplied (g : Generator) (classes : List ClassDecl) : Prop where
  vmPrefix : IdentifierText g.config.vmPrefix
  members : ∀ m ∈ membersOf classes, IdentifierText m.owner ∧ IdentifierText m.method.name ∧
    ∃ code, g.registry.bindingCode m.owner m.method = .ok code
  registrations : ∀ r ∈ (g.plan classes).registrations, g.Supplies r

namespace Supplied

variable {classes : List ClassDecl} {r : Registration} {plain : String} {lines : List String}

theorem identifierText_symbol (h : g.Supplied classes)
    (hr : r ∈ (g.plan classes).registrations) : IdentifierText r.symbol ∧ r.symbol ≠ "" := by
  have hplain : ∀ {s : String}, IdentifierText s → PlainSpelling s := fun h c hc => .inl (h c hc)
  obtain ⟨howner, hname, -⟩ := h.members _ (Plan.mem_membersOf hr)
  refine ⟨(Plan.identifierText_symbol_iff h.vmPrefix (List.mem_append_left _ hr)).mpr
    ⟨hplain hname, fun _ => hplain howner⟩, ?_⟩
  rw [Plan.symbol_eq hr, symbolOf_eq_symbolWith]
  exact symbolWith_ne_empty _ _ _

/-- The code of the registry is renamed to the symbol of its registration. -/
theorem exists_bindingOf (h : g.Supplied classes) (hr : r ∈ (g.plan classes).registrations)
    (hcode : g.registry.bindingCode r.owner r.method = .ok (some plain)) :
    ∃ renamed, retarget plain r.method r.symbol = .ok renamed ∧
      g.bindingOf r = .ok (some renamed) := by
  obtain ⟨-, hname, -⟩ := h.members _ (Plan.mem_membersOf hr)
  obtain ⟨hsymbol, hempty⟩ := h.identifierText_symbol hr
  rcases h.registrations r hr with ⟨hnone, -⟩ | ⟨plain', hcode', hcalls⟩
  · exact nomatch hnone.symm.trans hcode
  · cases hcode'.symm.trans hcode
    exact exists_bindingOf_of_mentions hname hsymbol hempty hcode hcalls

/-- The C source can be written: what has no code has types that can cross. -/
theorem exists_cLines (h : g.Supplied classes) :
    ∃ lines, g.cLines classes (g.plan classes) = .ok lines := by
  refine Generator.exists_cLines (fun r hr => ?_) (fun m hm => (h.members m hm).2.2)
    (fun r hr hnone => ?_)
  · rcases h.registrations r hr with ⟨hnone, -⟩ | ⟨plain, hcode, -⟩
    · exact ⟨none, bindingOf_eq_none_iff.mpr hnone⟩
    · obtain ⟨renamed, -, hbinding⟩ := h.exists_bindingOf hr hcode
      exact ⟨some renamed, hbinding⟩
  · rcases h.registrations r hr with ⟨-, hsupports, hbraces⟩ | ⟨plain, hcode, -⟩
    · exact exists_wrapper hsupports hbraces
    · exact nomatch hcode.symm.trans hnone

/-- The renamed code stands in the C source, since it stands there under the
    label of its registration, and labels are distinct. -/
theorem exists_infix (h : g.Supplied classes)
    (hlines : g.cLines classes (g.plan classes) = .ok lines)
    (hr : r ∈ (g.plan classes).registrations)
    (hcode : g.registry.bindingCode r.owner r.method = .ok (some plain)) :
    ∃ renamed, retarget plain r.method r.symbol = .ok renamed ∧ Mentions r.symbol renamed ∧
      linesOfCode renamed <:+: lines := by
  obtain ⟨renamed, hrun, hbinding⟩ := h.exists_bindingOf hr hcode
  obtain ⟨overrides, -, wrappers, hoverrides, -, hwrappers, rfl⟩ := cLines_eq_ok hlines
  have hlabels : ∀ q ∈ (g.plan classes).registrations, ∀ r ∈ (g.plan classes).registrations,
      q.label = r.label → q = r := fun q hq r hr =>
    Plan.eq_of_label_eq (fun m hm hcolon => absurd ((h.members m hm).2.1 _ hcolon) (by decide)) hq hr
  rcases hasCode_of_wrappersFrom hoverrides hlabels hwrappers hr with
    ⟨hnone, -⟩ | ⟨code, hcode', hstands, -⟩
  · exact nomatch hnone.symm.trans hbinding
  · cases hcode'.symm.trans hbinding
    obtain ⟨-, -, -, hmentions⟩ := bindingOf_eq_some_iff.mp hbinding
    refine ⟨renamed, hrun, hmentions, hstands.trans ?_⟩
    exact (List.suffix_cons _ wrappers).isInfix.trans (List.infix_append _ _ _)

end Supplied

end Generator

/-- **RENAMING IS COMPLETE, AND CODE IS ACCEPTED UNDER ANY PLAN.**  To a symbol
    that is an identifier and not the default name of the method, code is renamed
    call by call, and nothing else in it changes; the default name is not called
    any more, renaming again changes nothing, and if the code called it, it now
    calls the symbol.  So whatever the prefix is, and with or without the class in
    a symbol, the C source of a plan can be written if the code that the registry
    has for its registrations calls their default names, and the renamed code
    stands in it. -/
theorem calls_renamed :
    (∀ (m : Method) (symbol code : String), IdentifierText m.name → IdentifierText symbol →
      symbol ≠ "" → symbol ≠ m.vmName →
      ∃ renamed, retarget code m symbol = .ok renamed ∧ Renames m.vmName symbol code renamed ∧
        ¬ Mentions m.vmName renamed ∧ retarget renamed m symbol = .ok renamed ∧
        (Mentions m.vmName code → Mentions symbol renamed)) ∧
    (∀ (g : Generator) (classes : List ClassDecl), IdentifierText g.config.vmPrefix →
      (∀ m ∈ membersOf classes, IdentifierText m.owner ∧ IdentifierText m.method.name ∧
        ∃ code, g.registry.bindingCode m.owner m.method = .ok code) →
      (∀ r ∈ (g.plan classes).registrations, g.Supplies r) →
      ∃ lines, g.cSource classes = .ok (joinStrings "\n" lines) ∧
        ∀ r ∈ (g.plan classes).registrations, ∀ plain,
          g.registry.bindingCode r.owner r.method = .ok (some plain) →
          ∃ renamed, retarget plain r.method r.symbol = .ok renamed ∧ Mentions r.symbol renamed ∧
            linesOfCode renamed <:+: lines) := by
  constructor
  · intro m symbol code hname hsymbol hempty hne
    exact retarget_renames hname hsymbol hempty hne code
  · intro g classes hvm hmembers hsupplied
    have h : g.Supplied classes := ⟨hvm, hmembers, hsupplied⟩
    obtain ⟨lines, hlines⟩ := h.exists_cLines
    refine ⟨lines, Attempt.bind_eq_ok.mpr ⟨lines, hlines, rfl⟩, ?_⟩
    intro r hr plain hcode
    exact h.exists_infix hlines hr hcode

/-- Code for the time of a clock, in which the default name is also a part of
    other names. -/
def clockCode : String :=
  codeLines ["void x_mrbc_m5_now_0(void);", opening (vmHead "mrbc_m5_now_0"),
    "  mrbc_m5_now_0_x(mrbc_m5_now_0);", "\x7d"]

/-- It is renamed to a symbol that begins with the default name; and the code of
    a registry for a clock is accepted under a prefix of its own. -/
theorem calls_renamed_clock :
    let now : Method := ⟨"now", "rtc_time_t&", [], false, false, false⟩
    (∃ renamed, retarget clockCode now "mrbc_m5_now_0_clock" = .ok renamed ∧
      Renames now.vmName "mrbc_m5_now_0_clock" clockCode renamed ∧ Mentions now.vmName clockCode ∧
      Mentions "mrbc_m5_now_0_clock" renamed ∧ ¬ Mentions now.vmName renamed) ∧
    ∃ lines renamed, clockGenerator.cSource clockAndTimer = .ok (joinStrings "\n" lines) ∧
      Mentions "vm_now_0" renamed ∧ linesOfCode renamed <:+: lines := by
  intro now
  obtain ⟨hcode, hplan⟩ := calls_renamed
  obtain ⟨renamed, hrun, hrenames, hgone, -, hcalls⟩ :=
    hcode now "mrbc_m5_now_0_clock" clockCode (by decide) (by decide) (by decide) (by decide)
  have hcalled : Mentions now.vmName clockCode := calls_eq_true_iff.mp (by decide +kernel)
  refine ⟨⟨renamed, hrun, hrenames, hcalled, hcalls hcalled, hgone⟩, ?_⟩
  have hmembers : ∀ m ∈ membersOf clockAndTimer, IdentifierText m.owner ∧
      IdentifierText m.method.name ∧
      (clockGenerator.registry.bindingCode m.owner m.method).isOk = true := by
    decide +kernel
  have hregistrations : (clockGenerator.plan clockAndTimer).registrations
      = [⟨⟨"Clock", now⟩, "vm_now_0"⟩,
         ⟨⟨"Clock", ⟨"set", "void", [⟨"int", "seconds"⟩], false, false, false⟩⟩, "vm_clock_set_1"⟩,
         ⟨⟨"Timer", ⟨"set", "void", [⟨"int", "seconds"⟩], false, false, false⟩⟩,
           "vm_timer_set_1"⟩] := by
    decide +kernel
  have hnow : clockGenerator.registry.bindingCode "Clock" now
      = .ok (some (codeLines [opening (vmHead "mrbc_m5_now_0"), "\x7d"])) :=
    Attempt.eq_ok_of_toOption (by decide +kernel)
  have hset : ∀ owner ∈ ["Clock", "Timer"], clockGenerator.registry.bindingCode owner
      ⟨"set", "void", [⟨"int", "seconds"⟩], false, false, false⟩ = .ok none := by
    intro owner howner
    refine Attempt.eq_ok_of_toOption ?_
    revert owner
    decide +kernel
  have hsupplied : ∀ r ∈ (clockGenerator.plan clockAndTimer).registrations,
      clockGenerator.Supplies r := by
    rw [hregistrations]
    refine List.forall_mem_cons.mpr ⟨.inr ⟨_, hnow, calls_eq_true_iff.mp (by decide +kernel)⟩,
      List.forall_mem_cons.mpr ⟨.inl ⟨hset _ (by decide), by decide +kernel, by decide, by decide⟩,
        List.forall_mem_singleton.mpr
          (.inl ⟨hset _ (by decide), by decide +kernel, by decide, by decide⟩)⟩⟩
  obtain ⟨lines, hsource, hlines⟩ := hplan clockGenerator clockAndTimer (by decide)
    (fun m hm => ⟨(hmembers m hm).1, (hmembers m hm).2.1, Attempt.exists_of_isOk (hmembers m hm).2.2⟩)
    hsupplied
  rw [hregistrations] at hlines
  obtain ⟨renamed, -, hmentions, hstands⟩ := hlines _ List.mem_cons_self _ hnow
  exact ⟨lines, renamed, hsource, hmentions, hstands⟩

end GemBinder
