import GemBinder.Proofs.OverrideFiles

/-! # What an override file is checked for

    Loading an override file checks the names of its entries, their actions
    and the arities, but not the code: a member for code may hold any value,
    and one that is no text makes the registry fail later, for the overloads
    of its arity.  So which files are checked in full can be told from what is
    written in them. -/

namespace GemBinder

open Files Text

/-! ## Entries -/

/-- The two parts of code that an entry can write. -/
inductive CodePart where
  | native
  | binding
deriving DecidableEq

/-- The member of an entry for a part of code. -/
def CodePart.member : CodePart → String
  | native => "native_wrapper"
  | binding => "binding"

/-- An entry with code for overloads of an arity. -/
structure IsCustom (spec : List (String × Json)) (arity : Nat) : Prop where
  action : spec.lookup "action" = some (.text "custom")
  arity : spec.lookup "arity" = some (.int arity)

/-- **WHAT AN ENTRY OF AN OVERRIDE FILE SAYS.**  An entry to skip may give any
    reason, and one with code may hold anything where the code is. -/
inductive Says (key : String) : Json → Action → Prop
  | skip {spec : List (String × Json)} {reason : String}
      (named : contains [':', ':'] key.toList = true)
      (action : spec.lookup "action" = some (.text "skip"))
      (given : (spec.lookup "reason").elim defaultSkipReason Json.shown = reason) :
      Says key (.object spec) (.skip reason)
  | custom {spec : List (String × Json)} {n : Nat}
      (named : contains [':', ':'] key.toList = true) (custom : IsCustom spec n) :
      Says key (.object spec) (.custom (literalSnippet n (spec.lookup CodePart.native.member))
        (literalSnippet n (spec.lookup CodePart.binding.member)))

/-- What a member for code may hold for its entry to give code or none: it is
    missing, null or a text. -/
def IsCode (v : Option Json) : Prop := v = none ∨ v = some .null ∨ ∃ t, v = some (.text t)

instance : DecidablePred IsCode
  | none => isTrue (.inl rfl)
  | some .null => isTrue (.inr (.inl rfl))
  | some (.text t) => isTrue (.inr (.inr ⟨t, rfl⟩))
  | some (.bool _) | some (.int _) | some (.real _) | some (.list _) | some (.object _) =>
      isFalse (by simp [IsCode])

variable {path : Path} {key : String} {v : Json} {a : Action} {m : Method} {part : CodePart}
  {spec : List (String × Json)} {n : Nat} {c : String}

/-- An arity is a number that is not negative. -/
theorem arity?_eq_some {v : Option Json} : arity? v = some n ↔ v = some (.int n) := by
  unfold arity?
  split
  · rename_i k
    by_cases hk : k < 0
    · rw [if_pos hk]
      refine iff_of_false nofun fun h => ?_
      cases h
      omega
    · rw [if_neg hk]
      simp only [Option.some.injEq, Json.int.injEq]
      omega
  · rename_i hno
    exact iff_of_false nofun fun h => hno n h

/-- **READING AN ENTRY** gives what it says, if it says anything. -/
theorem readAction_eq_ok : readAction path key v = .ok a ↔ Says key v a := by
  constructor
  · intro h
    unfold readAction at h
    split at h
    · rename_i spec hnamed
      split at h
      · rename_i haction
        cases h
        refine .skip hnamed haction ?_
        cases spec.lookup "reason" with
        | none => rfl
        | some reason => rfl
      · rename_i haction
        split at h
        · exact nomatch h
        · rename_i n harity
          cases h
          exact .custom hnamed ⟨haction, arity?_eq_some.mp harity⟩
      · exact nomatch h
    · exact nomatch h
  · rintro (@⟨spec, reason, hnamed, haction, hgiven⟩ | @⟨spec, n, hnamed, hcustom⟩)
    · unfold readAction
      rw [hnamed]
      dsimp only
      rw [haction, ← hgiven]
      cases spec.lookup "reason" with
      | none => rfl
      | some reason => rfl
    · unfold readAction
      rw [hnamed]
      dsimp only
      rw [hcustom.action, hcustom.arity, arity?_eq_some.mpr rfl]
      rfl

/-! ## The code of an entry -/

/-- A part of the code of an action. -/
def Action.code : CodePart → Action → Snippet
  | .native, .custom native _ => native
  | .binding, .custom _ binding => binding
  | _, .skip _ => fun _ => .ok none

/-- A part of the code for an overload. -/
def Registry.codeFor (r : Registry) : CodePart → String → Method → Attempt (Option String)
  | .native => r.nativeCode
  | .binding => r.bindingCode

theorem Registry.codeFor_eq (r : Registry) (part : CodePart) (owner : String) (m : Method) :
    r.codeFor part owner m = (r.action? owner m.name).elim (.ok none) (·.code part m) := by
  cases part with
  | native =>
      rw [codeFor, nativeCode]
      cases r.action? owner m.name with
      | none => rfl
      | some a => cases a <;> rfl
  | binding =>
      rw [codeFor, bindingCode]
      cases r.action? owner m.name with
      | none => rfl
      | some a => cases a <;> rfl

/-- A literal gives nothing for an overload of another arity. -/
theorem literalSnippet_of_ne {v : Option Json} (h : m.arity ≠ n) :
    literalSnippet n v m = .ok none := by
  unfold literalSnippet
  split
  · rfl
  · rfl
  · rw [if_pos (by simpa using h)]

/-- A literal for an overload of its arity gives its text. -/
theorem literalSnippet_eq_some {v : Option Json} :
    literalSnippet m.arity v m = .ok (some c) ↔ ∃ t, v = some (.text t) ∧ c = snippet t := by
  rcases v with _ | (_ | _ | _ | _ | t | _ | _)
  case some.text =>
    simp only [literalSnippet, bne_self_eq_false, Bool.false_eq_true, if_false, Except.ok.injEq,
      Option.some.injEq, Json.text.injEq, exists_eq_left', eq_comm]
  all_goals simp [literalSnippet]

/-- A literal for an overload of its arity fails unless it is code. -/
theorem exists_literalSnippet_iff {v : Option Json} :
    (∃ c, literalSnippet m.arity v m = .ok c) ↔ IsCode v := by
  rcases v with _ | (_ | _ | _ | _ | t | _ | _)
  all_goals simp [literalSnippet, IsCode]

namespace IsCustom

theorem ne_skip (h : IsCustom spec n) : spec.lookup "action" ≠ some (.text "skip") := by
  rw [h.action]
  simp

theorem arity_unique {k : Nat} (h : IsCustom spec n) (h' : IsCustom spec k) : n = k := by
  have harity := h.arity.symm.trans h'.arity
  rw [Option.some.injEq, Json.int.injEq] at harity
  exact Int.ofNat.inj harity

end IsCustom

namespace Says

/-- An entry with code for the arity of an overload gives it the literals of
    its members. -/
theorem code_custom (h : Says key (.object spec) a) (hcustom : IsCustom spec m.arity) :
    a.code part m = literalSnippet m.arity (spec.lookup part.member) m := by
  cases h with
  | skip _ haction _ => exact absurd haction hcustom.ne_skip
  | custom _ hcustom' =>
      rw [hcustom.arity_unique hcustom']
      cases part <;> rfl

/-- An entry without code for the arity of an overload gives it none. -/
theorem code_other (h : Says key v a) (hno : ∀ spec, v = .object spec → ¬ IsCustom spec m.arity) :
    a.code part m = .ok none := by
  cases h with
  | skip _ _ _ => cases part <;> rfl
  | @custom spec n _ hcustom =>
      have harity : m.arity ≠ n := by
        rintro rfl
        exact hno spec rfl hcustom
      cases part <;> exact literalSnippet_of_ne harity

/-- **WHERE CODE COMES FROM**: the entry is for the arity of the overload, and
    its member is a text. -/
theorem code_eq_some (h : Says key v a) :
    a.code part m = .ok (some c) ↔ ∃ spec t, v = .object spec ∧ IsCustom spec m.arity ∧
      spec.lookup part.member = some (.text t) ∧ c = snippet t := by
  by_cases hcustom : ∃ spec, v = .object spec ∧ IsCustom spec m.arity
  · obtain ⟨spec, rfl, hspec⟩ := hcustom
    rw [h.code_custom hspec, literalSnippet_eq_some]
    constructor
    · rintro ⟨t, ht, hc⟩
      exact ⟨spec, t, rfl, hspec, ht, hc⟩
    · rintro ⟨_, t, ⟨⟩, -, ht, hc⟩
      exact ⟨t, ht, hc⟩
  · rw [h.code_other fun spec hv hspec => hcustom ⟨spec, hv, hspec⟩]
    refine iff_of_false nofun ?_
    rintro ⟨spec, -, hv, hspec, -⟩
    exact hcustom ⟨spec, hv, hspec⟩

/-- **WHERE AN ENTRY FAILS**: it is for the arity of the overload, and its
    member is no code. -/
theorem exists_code_iff (h : Says key v a) :
    (∃ c, a.code part m = .ok c) ↔
      ∀ spec, v = .object spec → IsCustom spec m.arity → IsCode (spec.lookup part.member) := by
  by_cases hcustom : ∃ spec, v = .object spec ∧ IsCustom spec m.arity
  · obtain ⟨spec, rfl, hspec⟩ := hcustom
    rw [h.code_custom hspec, exists_literalSnippet_iff]
    constructor
    · rintro hcode _ ⟨⟩ -
      exact hcode
    · intro hcode
      exact hcode spec rfl hspec
  · refine iff_of_true ⟨none, h.code_other fun spec hv hspec => hcustom ⟨spec, hv, hspec⟩⟩ ?_
    intro spec hv hspec
    exact absurd ⟨spec, hv, hspec⟩ hcustom

end Says

/-! ## Entries for a method -/

/-- The entry that is written last for a method, in any letter case. -/
def entryFor? (members : List (String × Json)) (owner method : String) :
    Option (String × Json) :=
  members.reverse.find? fun e => lowerString e.1 == overrideKey owner method

/-- The members of a value, if it is an object. -/
def Json.parts : Json → List (String × Json)
  | .object members => members
  | _ => []

/-- Every member holds code where it is looked for, whether it counts or not. -/
def WritesCode (members : List (String × Json)) : Prop :=
  ∀ e ∈ members, IsCode (e.2.parts.lookup CodePart.native.member) ∧
    IsCode (e.2.parts.lookup CodePart.binding.member)

instance (members : List (String × Json)) : Decidable (WritesCode members) :=
  inferInstanceAs (Decidable (∀ e ∈ members, _))

theorem WritesCode.isCode {members : List (String × Json)} {owner method : String}
    (h : WritesCode members) (hentry : entryFor? members owner method = some (key, .object spec))
    (part : CodePart) : IsCode (spec.lookup part.member) := by
  obtain ⟨hnative, hbinding⟩ := h _ (List.mem_reverse.mp (List.mem_of_find?_eq_some hentry))
  cases part with
  | native => exact hnative
  | binding => exact hbinding

/-- What is found in two lists side by side. -/
theorem rel_find? {α β : Type} {R : α → β → Prop} {p : α → Bool} {q : β → Bool} {xs : List α}
    {ys : List β} (h : List.Forall₂ R xs ys) (hpq : ∀ x y, R x y → p x = q y) :
    Option.Rel R (xs.find? p) (ys.find? q) := by
  induction h with
  | nil => exact .none
  | @cons x y _ _ hxy _ ih =>
      rw [List.find?_cons, List.find?_cons, hpq x y hxy]
      cases q y with
      | true => exact .some hxy
      | false => exact ih

theorem rel_map_right {α β γ : Type} {R : α → β → Prop} {S : α → γ → Prop} {g : β → γ}
    {x : Option α} {y : Option β} (h : Option.Rel R x y) (hRS : ∀ a b, R a b → S a (g b)) :
    Option.Rel S x (y.map g) := by
  cases h with
  | none => exact .none
  | some hab => exact .some (hRS _ _ hab)

namespace Registry

variable {members : List (String × Json)} {r : Registry} {owner method : String}

/-- An object is taken if each of its members is an entry. -/
theorem exists_ofJson_iff :
    (∃ r, ofJson path members = .ok r) ↔ ∀ e ∈ members, ∃ a, Says e.1 e.2 a := by
  constructor
  · rintro ⟨r, h⟩ e he
    obtain ⟨entries, hentries, -⟩ := ofJson_eq_ok h
    obtain ⟨entry, -, -, ha⟩ := exists_of_mem_forall₂ hentries he
    exact ⟨entry.2, readAction_eq_ok.mp ha⟩
  · intro h
    refine Attempt.exists_bind (Attempt.exists_mapM fun e he => ?_) fun entries _ => ⟨_, rfl⟩
    obtain ⟨a, ha⟩ := h e he
    exact Attempt.exists_bind ⟨a, readAction_eq_ok.mpr ha⟩ fun a _ => ⟨(e.1, a), rfl⟩

/-- **THE ACTION FOR A METHOD** is what the last entry for it says. -/
theorem says_of_ofJson (h : ofJson path members = .ok r) (hnodup : (keysOf members).Nodup)
    (owner method : String) :
    Option.Rel (fun e a => Says e.1 e.2 a) (entryFor? members owner method)
      (r.action? owner method) := by
  obtain ⟨entries, hentries, rfl⟩ := ofJson_eq_ok h
  have hkeys : keysOf entries = keysOf members :=
    keysOf_eq_of_forall₂ (hentries.imp fun _ _ h => h.1)
  have hfound := rel_find? (List.rel_reverse hentries)
    (p := fun e => lowerString e.1 == overrideKey owner method)
    (q := fun e => lowerString e.1 == overrideKey owner method)
    fun e entry hentry => by rw [hentry.1]
  rw [(Remembers.ofEntries (hkeys ▸ hnodup)).action?_eq]
  exact rel_map_right hfound fun e entry hentry => readAction_eq_ok.mp hentry.2

/-- A registry that was read gives the code of the last entry for a method, if
    that entry is for its arity. -/
theorem codeFor_eq_some_of_ofJson (h : ofJson path members = .ok r)
    (hnodup : (keysOf members).Nodup) :
    r.codeFor part owner m = .ok (some c) ↔
      ∃ key spec t, entryFor? members owner m.name = some (key, .object spec) ∧
        IsCustom spec m.arity ∧ spec.lookup part.member = some (.text t) ∧ c = snippet t := by
  have hsays := says_of_ofJson h hnodup owner m.name
  rw [codeFor_eq]
  generalize entryFor? members owner m.name = e, r.action? owner m.name = a at hsays ⊢
  cases hsays with
  | none => exact iff_of_false nofun nofun
  | @some e a hentry =>
      obtain ⟨key, v⟩ := e
      rw [Option.elim_some, hentry.code_eq_some]
      constructor
      · rintro ⟨spec, t, rfl, hcustom, ht, hc⟩
        exact ⟨key, spec, t, rfl, hcustom, ht, hc⟩
      · rintro ⟨_, spec, t, ⟨⟩, hcustom, ht, hc⟩
        exact ⟨spec, t, rfl, hcustom, ht, hc⟩

/-- An overload makes a registry that was read fail just when the last entry
    for it holds what is no code. -/
theorem exists_codeFor_iff_of_ofJson (h : ofJson path members = .ok r)
    (hnodup : (keysOf members).Nodup) :
    (∃ c, r.codeFor part owner m = .ok c) ↔
      ∀ key spec, entryFor? members owner m.name = some (key, .object spec) →
        IsCustom spec m.arity → IsCode (spec.lookup part.member) := by
  have hsays := says_of_ofJson h hnodup owner m.name
  rw [codeFor_eq]
  generalize entryFor? members owner m.name = e, r.action? owner m.name = a at hsays ⊢
  cases hsays with
  | none => exact iff_of_true ⟨none, rfl⟩ nofun
  | @some e a hentry =>
      obtain ⟨key, v⟩ := e
      rw [Option.elim_some, hentry.exists_code_iff]
      constructor
      · rintro hcode _ spec ⟨⟩ hcustom
        exact hcode spec rfl hcustom
      · rintro hcode spec rfl hcustom
        exact hcode key spec rfl hcustom

end Registry

/-! ## Loading -/

variable {w : World} {text : String} {members : List (String × Json)} {sort : FileSort}
  {s : List Char} {depth : Nat}

/-- A text that the reader does not give up on at some depth: if it refuses
    it, then for a fault at a position. -/
def WithinBounds (depth : Nat) (s : List Char) : Prop :=
  ∀ e, Json.read depth s = .error e → ∃ fault position, e = .malformed fault position

/-- A text without an object is reported, unless the reader gives up on it. -/
theorem readObject_report {f : Failure} (h : readObject depth sort path s = .error f) :
    (∃ report, f = .report report) ↔ WithinBounds depth s := by
  have hbounds : ∀ {e}, Json.read depth s = .error e →
      (WithinBounds depth s ↔ ∃ fault position, e = .malformed fault position) := by
    intro e hread
    constructor
    · intro hwithin
      exact hwithin e hread
    · intro he e' hread'
      cases hread.symm.trans hread'
      exact he
  rw [readObject] at h
  split at h
  · rename_i n hread
    cases h
    rw [hbounds hread]
    exact iff_of_false (by rintro ⟨_, ⟨⟩⟩) (by rintro ⟨_, _, ⟨⟩⟩)
  · rename_i hread
    cases h
    rw [hbounds hread]
    exact iff_of_false (by rintro ⟨_, ⟨⟩⟩) (by rintro ⟨_, _, ⟨⟩⟩)
  · rename_i e hdigits hdeep hread
    cases h
    rw [hbounds hread]
    refine iff_of_true ⟨_, rfl⟩ ?_
    cases e with
    | malformed fault position => exact ⟨fault, position, rfl⟩
    | tooManyDigits n => exact absurd rfl (hdigits n)
    | tooDeep => exact absurd rfl hdeep
  · cases h
  · rename_i hread
    cases h
    refine iff_of_true ⟨_, rfl⟩ fun e he => ?_
    rw [hread] at he
    cases he

theorem outcome_loadObject (h : fileText w.tree w.workDir path = .ok text) :
    outcome (loadObject sort path) w = (readObject w.depths.values sort path text.toList, w) := by
  rw [loadObject, outcome_get_bind, h]
  exact Step.outcome_ofAttempt _ _

/-- **LOADING A FILE** is reading its text and then its object. -/
theorem outcome_loadRegistry (h : fileText w.tree w.workDir path = .ok text) :
    (outcome (loadRegistry path) w).1 =
      readObject w.depths.values overrideFiles path text.toList >>= fun members =>
        (Registry.ofJson path members).mapError .report := by
  have hobject : outcome (loadObject overrideFiles path) w = _ := outcome_loadObject h
  rw [loadRegistry]
  cases hmembers : readObject w.depths.values overrideFiles path text.toList with
  | error f =>
      rw [hmembers] at hobject
      rw [outcome_bind_of_error hobject]
      rfl
  | ok members =>
      rw [hmembers] at hobject
      rw [outcome_bind_of_ok hobject]
      show _ = (Registry.ofJson path members).mapError Failure.report
      cases Registry.ofJson path members <;> rfl

/-- **A FILE IS CHECKED WHEN IT IS LOADED**: a fault in it is reported, and
    no overload makes a registry that is loaded fail. -/
structure CheckedOnLoading (w : World) (path : Path) : Prop where
  reported : ∀ f w', outcome (loadRegistry path) w = (.error f, w') → ∃ report, f = .report report
  total : ∀ r w', outcome (loadRegistry path) w = (.ok r, w') →
    ∀ part owner m, ∃ c, r.codeFor part owner m = .ok c

theorem checkedOnLoading_of_error {f : Failure} (h : (outcome (loadRegistry path) w).1 = .error f) :
    CheckedOnLoading w path ↔ ∃ report, f = .report report := by
  rcases hrun : outcome (loadRegistry path) w with ⟨result, w'⟩
  rw [hrun] at h
  cases h
  constructor
  · intro hchecked
    exact hchecked.reported f w' hrun
  · intro hreport
    refine ⟨fun f' w'' hrun' => ?_, fun r w'' hrun' => ?_⟩
    · cases hrun.symm.trans hrun'
      exact hreport
    · exact nomatch hrun.symm.trans hrun'

theorem checkedOnLoading_of_ok {r : Registry} (h : (outcome (loadRegistry path) w).1 = .ok r) :
    CheckedOnLoading w path ↔ ∀ part owner m, ∃ c, r.codeFor part owner m = .ok c := by
  rcases hrun : outcome (loadRegistry path) w with ⟨result, w'⟩
  rw [hrun] at h
  cases h
  constructor
  · intro hchecked
    exact hchecked.total r w' hrun
  · intro hcode
    refine ⟨fun f w'' hrun' => ?_, fun r' w'' hrun' => ?_⟩
    · exact nomatch hrun.symm.trans hrun'
    · cases hrun.symm.trans hrun'
      exact hcode

/-- A method of a name and an arity. -/
def overloadOf (method : String) (n : Nat) : Method :=
  { name := method, returnType := "void", parameters := List.replicate n ⟨"int", none⟩ }

theorem arity_overloadOf (method : String) (n : Nat) : (overloadOf method n).arity = n :=
  List.length_replicate

/-- Without an object in it, a file is checked unless the reader gives up. -/
theorem checkedOnLoading_of_no_object (h : fileText w.tree w.workDir path = .ok text)
    (hnone : ∀ members, Json.read w.depths.values text.toList ≠ .ok (.object members)) :
    CheckedOnLoading w path ↔ WithinBounds w.depths.values text.toList := by
  have hload := outcome_loadRegistry h
  cases hobject : readObject w.depths.values overrideFiles path text.toList with
  | error f =>
      rw [hobject] at hload
      exact (checkedOnLoading_of_error hload).trans (readObject_report hobject)
  | ok members => exact absurd (readObject_eq_ok.mp hobject) (hnone members)

/-- With an object in it, a file is checked if its entries write code where
    it is looked for. -/
theorem checkedOnLoading_of_object (h : fileText w.tree w.workDir path = .ok text)
    (hread : Json.read w.depths.values text.toList = .ok (.object members)) :
    CheckedOnLoading w path ↔ ((∀ e ∈ members, ∃ a, Says e.1 e.2 a) →
      ∀ owner method key spec n, entryFor? members owner method = some (key, .object spec) →
        IsCustom spec n → ∀ part : CodePart, IsCode (spec.lookup part.member)) := by
  have hload : (outcome (loadRegistry path) w).1
      = (Registry.ofJson path members).mapError Failure.report := by
    rw [outcome_loadRegistry h, readObject_eq_ok.mpr hread]
    rfl
  rw [← @Registry.exists_ofJson_iff path]
  cases hregistry : Registry.ofJson path members with
  | error report =>
      rw [hregistry] at hload
      refine iff_of_true ((checkedOnLoading_of_error hload).mpr ⟨report, rfl⟩) ?_
      rintro ⟨r, hr⟩
      exact nomatch hr
  | ok r =>
      rw [hregistry] at hload
      have hnodup := Json.nodup_read hread
      rw [checkedOnLoading_of_ok hload]
      constructor
      · intro htotal _ owner method key spec n hentry hcustom part
        have hwritten := (Registry.exists_codeFor_iff_of_ofJson hregistry hnodup).mp
          (htotal part owner (overloadOf method n))
        rw [arity_overloadOf] at hwritten
        exact hwritten key spec hentry hcustom
      · intro hwritten part owner m
        refine (Registry.exists_codeFor_iff_of_ofJson hregistry hnodup).mpr ?_
        intro key spec hentry hcustom
        exact hwritten ⟨r, rfl⟩ owner m.name key spec m.arity hentry hcustom part

/-- Whether the halves of surrogate pairs that a text escapes come in pairs,
    where `opened` tells whether a first half stands before the text. -/
def pairsFrom : Bool → List Char → Bool
  | opened, [] => !opened
  | opened, '\\' :: 'u' :: a :: b :: c :: d :: rest =>
      match Json.unit? a b c d with
      | none => !opened && pairsFrom false rest
      | some n =>
          if Json.isHigh n then !opened && pairsFrom true rest
          else opened == Json.isLow n && pairsFrom false rest
  | opened, '\\' :: _ :: rest => !opened && pairsFrom false rest
  | opened, _ :: rest => !opened && pairsFrom false rest

example : pairsFrom false "\"\\ud83d\\ude00\"".toList = true := by decide

example : pairsFrom false "\"\\ud83d\\u0041\"".toList = false := by decide

/-- **WHAT A FILE HOLDS**: a text whose escapes are all of characters.  Half of
    a surrogate pair alone is none, and where readers differ on it, nothing is
    said. -/
structure Holds (w : World) (path : Path) (text : String) : Prop where
  written : fileText w.tree w.workDir path = .ok text
  paired : pairsFrom false text.toList = true

/-- **WHERE OVERRIDE FILES ARE CHECKED WHEN THEY ARE LOADED.**  A fault in the
    text of a file is reported, and a registry that is loaded fails for no
    overload, if and only if the reader does not give up on the text and, where
    it writes entries, each that counts for a method and has code for an arity
    writes its code as texts, or not at all.  In any case a registry that is
    loaded gives a code for an overload just when the last entry for the method,
    in any letter case, is one with code for the overload's arity that writes
    this code. -/
theorem Registry.checked_on_loading_iff (h : Holds w path text) :
    (CheckedOnLoading w path ↔ WithinBounds w.depths.values text.toList ∧
      ∀ members, Json.read w.depths.values text.toList = .ok (.object members) →
        (∀ e ∈ members, ∃ a, Says e.1 e.2 a) → ∀ owner method key spec n,
          entryFor? members owner method = some (key, .object spec) → IsCustom spec n →
            ∀ part : CodePart, IsCode (spec.lookup part.member)) ∧
    ∀ r w', outcome (loadRegistry path) w = (.ok r, w') →
      ∃ members, Json.read w.depths.values text.toList = .ok (.object members) ∧
        ∀ part owner m c, r.codeFor part owner m = .ok (some c) ↔
          ∃ key spec t, entryFor? members owner m.name = some (key, .object spec) ∧
            IsCustom spec m.arity ∧ spec.lookup part.member = some (.text t) ∧ c = snippet t := by
  constructor
  · by_cases hobject : ∃ members, Json.read w.depths.values text.toList = .ok (.object members)
    · obtain ⟨members, hread⟩ := hobject
      rw [checkedOnLoading_of_object h.written hread]
      constructor
      · intro hwritten
        refine ⟨fun e he => ?_, fun members' hread' => ?_⟩
        · rw [hread] at he
          exact nomatch he
        · rw [hread] at hread'
          cases hread'
          exact hwritten
      · rintro ⟨-, hwritten⟩
        exact hwritten members hread
    · have hnone : ∀ members, Json.read w.depths.values text.toList ≠ .ok (.object members) := by
        intro members hread
        exact hobject ⟨members, hread⟩
      rw [checkedOnLoading_of_no_object h.written hnone]
      exact iff_self_and.mpr fun _ members hread => absurd hread (hnone members)
  · intro r w' hr
    have hload := outcome_loadRegistry h.written
    rw [hr] at hload
    obtain ⟨members, hobject, hregistry⟩ := Attempt.bind_eq_ok.mp hload.symm
    have hread := readObject_eq_ok.mp hobject
    refine ⟨members, hread, fun part owner m c => ?_⟩
    exact codeFor_eq_some_of_ofJson (Attempt.mapError_eq_ok.mp hregistry) (Json.nodup_read hread)

/-- An override file with a number in the place of code. -/
def numberForCode : World where
  tree := ({} : FileTree).put ["a.json"] (.file (encode
    "\x7b\"A::f\": \x7b\"action\": \"custom\", \"arity\": 0, \"native_wrapper\": 5\x7d\x7d"))

/-- An entry with code for overloads without parameters. -/
def codeFile : String :=
  "\x7b\"A::f\": \x7b\"action\": \"custom\", \"arity\": 0, \"native_wrapper\": \"x\"\x7d\x7d"

/-- An override file with this entry. -/
def textForCode : World where
  tree := ({} : FileTree).put ["a.json"] (.file (encode codeFile))

/-- The number is loaded, and fails when the code is asked for. -/
theorem number_loaded_as_code :
    (∃ r w', outcome (loadRegistry (Path.ofString "a.json")) numberForCode = (.ok r, w') ∧
      (r.nativeCode "A" (overloadOf "f" 0)).isOk = false) ∧
      ¬ CheckedOnLoading numberForCode (Path.ofString "a.json") := by
  have hload : (outcome (loadRegistry (Path.ofString "a.json")) numberForCode).1.toOption.map
      (fun r => (r.nativeCode "A" (overloadOf "f" 0)).isOk) = some false := by
    decide +kernel
  obtain ⟨r, hr, hfail⟩ := Option.map_eq_some_iff.mp hload
  have hrun := outcome_eq_ok_of_toOption hr
  refine ⟨⟨r, _, hrun, hfail⟩, fun hchecked => ?_⟩
  obtain ⟨c, hc⟩ := hchecked.total r _ hrun .native "A" (overloadOf "f" 0)
  rw [show r.nativeCode "A" (overloadOf "f" 0) = .ok c from hc] at hfail
  exact nomatch hfail

theorem fileText_textForCode :
    fileText textForCode.tree textForCode.workDir (Path.ofString "a.json") = .ok codeFile := by
  have hok : (fileText textForCode.tree textForCode.workDir (Path.ofString "a.json")).toOption
      = some codeFile := by
    decide +kernel
  exact Attempt.eq_ok_of_toOption hok

theorem Registry.checked_on_loading_iff_text :
    CheckedOnLoading textForCode (Path.ofString "a.json") ∧
      ∃ members key spec,
        Json.read textForCode.depths.values codeFile.toList = .ok (.object members) ∧
        entryFor? members "A" "f" = some (key, .object spec) ∧ IsCustom spec 0 := by
  obtain ⟨hchecked, hcode⟩ := checked_on_loading_iff ⟨fileText_textForCode, by decide⟩
  have hwritten : (Json.read textForCode.depths.values codeFile.toList).toOption.map
      (fun v => decide (WritesCode v.parts)) = some true := by
    decide +kernel
  have hload : (outcome (loadRegistry (Path.ofString "a.json")) textForCode).1.toOption.map
      (fun r => (r.nativeCode "A" (overloadOf "f" 0)).toOption) = some (some (some "x\n")) := by
    decide +kernel
  constructor
  · refine hchecked.mpr ⟨fun e he => ?_, fun members hread _ owner method key spec n hentry _ => ?_⟩
    · rw [he] at hwritten
      cases hwritten
    · rw [hread] at hwritten
      exact (of_decide_eq_true (Option.some.inj hwritten)).isCode hentry
  · obtain ⟨r, hr, hx⟩ := Option.map_eq_some_iff.mp hload
    obtain ⟨members, hread, hcode⟩ := hcode r _ (outcome_eq_ok_of_toOption hr)
    obtain ⟨key, spec, t, hentry, hcustom, -, -⟩ := (hcode .native "A" (overloadOf "f" 0) "x\n").mp
      (Attempt.eq_ok_of_toOption hx)
    exact ⟨members, key, spec, hread, hentry, hcustom⟩

end GemBinder
