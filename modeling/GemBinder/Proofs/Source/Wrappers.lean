import GemBinder.BuiltinOverrides
import GemBinder.Proofs.Failure
import GemBinder.Proofs.Source.Retarget
import GemBinder.Proofs.Symbols
import GemBinder.Proofs.Text.Lines
import GemBinder.Source

/-! # The wrappers of the C source

    The wrapper that the rules make is a head with the symbol of its
    registration, indented lines and a closing brace.  Among the wrappers of
    all registrations there are, besides comments and empty lines, only
    these and the lines of code of the registry (`mem_wrappersFrom`); where
    there is no such code, the wrappers stand in the order of the
    registrations (`wrappersFrom_eq_ok`).

    A reader of the source finds declarations and heads of functions by how
    their lines begin.  The lines that neither can be mistaken for are
    called framing. -/

namespace GemBinder

open Text

/-! ## Framing -/

/-- How the lines begin that neither declare a function nor open one that is
    static. -/
def framingMarks : List String :=
  ["/*", " *", "#include <", "static mrbc_class *", "void ", "  ", "\x7d"]

/-- A line that is empty or begins with a framing mark. -/
def Framing (line : String) : Prop := line = "" ∨ ∃ mark ∈ framingMarks, Begins mark line

instance (line : String) : Decidable (Framing line) :=
  inferInstanceAs (Decidable (_ ∨ _))

theorem Framing.of_begins {mark line : String} (hmark : mark ∈ framingMarks)
    (h : Begins mark line) : Framing line :=
  .inr ⟨mark, hmark, h⟩

/-- A framing line does not begin like one that no framing mark is
    compatible with. -/
theorem Framing.not_begins {line other : String} (h : Framing line) (hempty : ¬ Begins other "")
    (hmarks : ∀ mark ∈ framingMarks, ¬ Begins other mark ∧ ¬ Begins mark other) :
    ¬ Begins other line := by
  rcases h with rfl | ⟨mark, hmark, hbegins⟩
  · exact hempty
  · exact hbegins.not_begins (hmarks mark hmark).1 (hmarks mark hmark).2

theorem Framing.not_declaring {line : String} (h : Framing line) : ¬ Begins "extern " line :=
  h.not_begins (by decide) (by decide)

theorem Framing.not_static {line : String} (h : Framing line) : ¬ Begins "static void " line :=
  h.not_begins (by decide) (by decide)

theorem opening_vmHead (symbol : String) : opening (vmHead symbol)
    = "static void " ++ symbol ++ "(mrbc_vm *vm, mrbc_value *v, int argc) \x7b" := by
  show "static void " ++ symbol ++ "(mrbc_vm *vm, mrbc_value *v, int argc)" ++ " \x7b" = _
  rw [String.append_assoc]
  rfl

/-- The head of a wrapper can be told by how it begins. -/
theorem begins_opening_vmHead (symbol : String) :
    Begins "static void " (opening (vmHead symbol)) :=
  ((begins_append "static void " symbol).append _).append _

namespace Generator

variable {g : Generator}

/-! ## One wrapper -/

theorem filling_eq_ok {α : Type} {r : Except Placeholder.FillError α} {a : α} :
    filling r = .ok a ↔ r = .ok a :=
  Attempt.mapError_eq_ok

theorem argumentLine_eq_ok {type name line : String} {index : Nat}
    (h : g.argumentLine type name index = .ok line) : Begins "  " line := by
  obtain ⟨how, -, h⟩ := Attempt.bind_eq_ok.mp h
  obtain ⟨value, -, h⟩ := Attempt.bind_eq_ok.mp h
  cases Attempt.pure_eq_ok.mp h
  exact (((((begins_append "  " _).append _).append _).append _).append _).append _

theorem argumentLines_eq_ok {m : Method} {lines : List String}
    (h : g.argumentLines m = .ok lines) : ∀ line ∈ lines, Begins "  " line := by
  intro line hline
  obtain ⟨x, -, hx⟩ := Attempt.exists_of_mem_mapM h hline
  exact argumentLine_eq_ok hx

/-- The call of the native function. -/
def nativeCall (g : Generator) (m : Member) : String :=
  m.method.nativeName m.owner g.config.vendorPrefix ++ "(" ++
    joinStrings ", " (localNames m.method) ++ ")"

/-- The last lines of a wrapper are the call and the statement behind it. -/
theorem callLines_eq_ok {m : Member} {lines : List String} (h : g.callLines m = .ok lines) :
    ∃ before done, lines = ["  " ++ before ++ g.nativeCall m ++ ";", "  " ++ done] := by
  obtain ⟨how, -, h⟩ := Attempt.bind_eq_ok.mp h
  by_cases hvoid : (how.category == .void) = true
  · rw [if_pos hvoid] at h
    obtain ⟨done, -, h⟩ := Attempt.bind_eq_ok.mp h
    cases Attempt.pure_eq_ok.mp h
    exact ⟨"", done, rfl⟩
  · rw [if_neg hvoid] at h
    obtain ⟨done, -, h⟩ := Attempt.bind_eq_ok.mp h
    cases Attempt.pure_eq_ok.mp h
    exact ⟨how.cType ++ " result = ", done, rfl⟩

/-- **THE FORM OF A WRAPPER**: its head, indented lines, of which the last
    call the native function, and a brace. -/
theorem wrapper_eq_ok {r : Registration} {lines : List String} (h : g.wrapper r = .ok lines) :
    ∃ arguments before done, (∀ line ∈ arguments, Begins "  " line) ∧
      lines = opening (vmHead r.symbol) :: arguments ++
        ["  " ++ before ++ g.nativeCall r.toMember ++ ";", "  " ++ done] ++ ["\x7d"] := by
  obtain ⟨arguments, harguments, h⟩ := Attempt.bind_eq_ok.mp h
  obtain ⟨call, hcall, h⟩ := Attempt.bind_eq_ok.mp h
  cases Attempt.pure_eq_ok.mp h
  obtain ⟨before, done, rfl⟩ := callLines_eq_ok hcall
  refine ⟨arguments, before, done, argumentLines_eq_ok harguments, ?_⟩
  rw [opening_vmHead]
  rfl

/-- The lines of a wrapper behind its head are framing. -/
theorem wrapper_tail {r : Registration} {lines : List String} (h : g.wrapper r = .ok lines) :
    ∃ body, lines = opening (vmHead r.symbol) :: body ∧ ∀ line ∈ body, Framing line := by
  obtain ⟨arguments, before, done, harguments, rfl⟩ := wrapper_eq_ok h
  refine ⟨_, rfl, ?_⟩
  intro line hline
  have hindent : "  " ∈ framingMarks := by decide
  rcases List.mem_append.mp hline with hin | hlast
  · rcases List.mem_append.mp hin with harg | hcall
    · exact .of_begins hindent (harguments line harg)
    · rcases List.mem_cons.mp hcall with rfl | hdone
      · exact .of_begins hindent (((begins_append "  " before).append _).append _)
      · rw [List.mem_singleton.mp hdone]
        exact .of_begins hindent (begins_append "  " done)
  · rw [List.mem_singleton.mp hlast]
    exact .inr ⟨"\x7d", by decide, by decide⟩

/-! ## All wrappers -/

variable {overrides : List (String × String)} {written : List String}

/-- What is written for a registration before the others: nothing for code
    that was written already, code that was not, or a wrapper of the rules. -/
theorem wrappersFrom_cons_eq_ok {r : Registration} {more : List Registration}
    {lines : List String} (h : g.wrappersFrom overrides written (r :: more) = .ok lines) :
    (∃ code, overrides.lookup r.label = some code ∧ code ∈ written ∧
      g.wrappersFrom overrides written more = .ok lines) ∨
    (∃ code rest, overrides.lookup r.label = some code ∧ code ∉ written ∧
      g.wrappersFrom overrides (code :: written) more = .ok rest ∧
      lines = s!"/* {r.label} (override) */" :: linesOfCode code ++ "" :: rest) ∨
    (∃ own rest, overrides.lookup r.label = none ∧ g.wrapper r = .ok own ∧
      g.wrappersFrom overrides written more = .ok rest ∧ lines = own ++ "" :: rest) := by
  rw [wrappersFrom] at h
  cases hlookup : overrides.lookup r.label with
  | some code =>
      rw [hlookup] at h
      dsimp only at h
      by_cases hwritten : written.contains code = true
      · rw [if_pos hwritten] at h
        exact .inl ⟨code, rfl, List.contains_iff_mem.mp hwritten, h⟩
      · rw [if_neg hwritten] at h
        rw [List.contains_iff_mem] at hwritten
        obtain ⟨rest, hrest, h⟩ := Attempt.bind_eq_ok.mp h
        exact .inr (.inl ⟨code, rest, rfl, hwritten, hrest, (Attempt.pure_eq_ok.mp h).symm⟩)
  | none =>
      rw [hlookup] at h
      obtain ⟨own, hown, h⟩ := Attempt.bind_eq_ok.mp h
      obtain ⟨rest, hrest, h⟩ := Attempt.bind_eq_ok.mp h
      exact .inr (.inr ⟨own, rest, rfl, hown, hrest, (Attempt.pure_eq_ok.mp h).symm⟩)

/-- **WHAT STANDS BELOW THE WRAPPERS** is an empty line, a line of a wrapper
    that the rules make, or a comment or a line of code of the registry. -/
theorem mem_wrappersFrom {rs : List Registration} {lines : List String} {line : String}
    (h : g.wrappersFrom overrides written rs = .ok lines) (hline : line ∈ lines) :
    line = "" ∨
      (∃ r ∈ rs, ∃ own, g.wrapper r = .ok own ∧ line ∈ own) ∨
      (∃ r ∈ rs, ∃ code, overrides.lookup r.label = some code ∧
        (line = s!"/* {r.label} (override) */" ∨ line ∈ linesOfCode code)) := by
  induction rs generalizing written lines with
  | nil =>
      cases h
      exact nomatch hline
  | cons r more ih =>
      -- what is found below a later registration is found below them all
      have hlater : ∀ {written lines}, g.wrappersFrom overrides written more = .ok lines →
          line ∈ lines → line = "" ∨
            (∃ q ∈ r :: more, ∃ own, g.wrapper q = .ok own ∧ line ∈ own) ∨
            (∃ q ∈ r :: more, ∃ code, overrides.lookup q.label = some code ∧
              (line = s!"/* {q.label} (override) */" ∨ line ∈ linesOfCode code)) := by
        intro written lines h hline
        rcases ih h hline with hempty | ⟨q, hq, own, hown⟩ | ⟨q, hq, code, hcode⟩
        · exact .inl hempty
        · exact .inr (.inl ⟨q, List.mem_cons_of_mem _ hq, own, hown⟩)
        · exact .inr (.inr ⟨q, List.mem_cons_of_mem _ hq, code, hcode⟩)
      rcases wrappersFrom_cons_eq_ok h with
        ⟨code, -, -, hrest⟩ | ⟨code, rest, hlookup, -, hrest, rfl⟩ | ⟨own, rest, -, hown, hrest, rfl⟩
      · exact hlater hrest hline
      · rcases List.mem_append.mp hline with hcode | hline
        · refine .inr (.inr ⟨r, List.mem_cons_self, code, hlookup, ?_⟩)
          exact List.mem_cons.mp hcode
        · rcases List.mem_cons.mp hline with hempty | hline
          · exact .inl hempty
          · exact hlater hrest hline
      · rcases List.mem_append.mp hline with hmem | hline
        · exact .inr (.inl ⟨r, List.mem_cons_self, own, hown, hmem⟩)
        · rcases List.mem_cons.mp hline with hempty | hline
          · exact .inl hempty
          · exact hlater hrest hline

/-- A registration has its code among lines: a wrapper of the rules if there
    is no code for its label, else that code, unless it was written before. -/
structure Written (g : Generator) (overrides : List (String × String)) (written lines : List String)
    (r : Registration) : Prop where
  wrapper : overrides.lookup r.label = none → ∃ own, g.wrapper r = .ok own ∧ own <:+: lines
  code : ∀ code, overrides.lookup r.label = some code →
    code ∈ written ∨ linesOfCode code <:+: lines

/-- What has its code among some of the lines has it among all. -/
theorem Written.mono {r : Registration} {before rest lines : List String}
    (h : Written g overrides before rest r) (hrest : rest <:+: lines)
    (hbefore : ∀ code ∈ before, code ∈ written ∨ linesOfCode code <:+: lines) :
    Written g overrides written lines r where
  wrapper := by
    intro hnone
    obtain ⟨own, hown, hstands⟩ := h.wrapper hnone
    exact ⟨own, hown, hstands.trans hrest⟩
  code := by
    intro code hcode
    rcases h.code code hcode with hwritten | hstands
    · exact hbefore code hwritten
    · exact .inr (hstands.trans hrest)

/-- **EVERY REGISTRATION HAS ITS CODE** below the wrappers. -/
theorem written_of_wrappersFrom {rs : List Registration} {lines : List String}
    (h : g.wrappersFrom overrides written rs = .ok lines) :
    ∀ r ∈ rs, Written g overrides written lines r := by
  induction rs generalizing written lines with
  | nil => exact nofun
  | cons r more ih =>
      rcases wrappersFrom_cons_eq_ok h with
        ⟨code, hlookup, hwritten, hrest⟩ | ⟨code, rest, hlookup, -, hrest, rfl⟩ |
        ⟨own, rest, hlookup, hown, hrest, rfl⟩
      · refine List.forall_mem_cons.mpr ⟨⟨?_, ?_⟩, ih hrest⟩
        · intro hnone
          exact nomatch hlookup.symm.trans hnone
        · intro text htext
          cases hlookup.symm.trans htext
          exact .inl hwritten
      · have hcode : linesOfCode code <:+: s!"/* {r.label} (override) */" :: linesOfCode code
            ++ "" :: rest := ⟨[_], "" :: rest, rfl⟩
        have hlater : rest <:+: s!"/* {r.label} (override) */" :: linesOfCode code
            ++ "" :: rest :=
          (List.suffix_cons "" rest).isInfix.trans (List.suffix_append _ _).isInfix
        refine List.forall_mem_cons.mpr ⟨⟨?_, ?_⟩, fun q hq => (ih hrest q hq).mono hlater ?_⟩
        · intro hnone
          exact nomatch hlookup.symm.trans hnone
        · intro text htext
          cases hlookup.symm.trans htext
          exact .inr hcode
        · -- the code that is new since stands here
          refine List.forall_mem_cons.mpr ⟨.inr hcode, fun text htext => .inl htext⟩
      · have hlater : rest <:+: own ++ "" :: rest :=
          (List.suffix_cons "" rest).isInfix.trans (List.suffix_append _ _).isInfix
        refine List.forall_mem_cons.mpr ⟨⟨?_, ?_⟩, fun q hq =>
          (ih hrest q hq).mono hlater fun text htext => .inl htext⟩
        · intro _
          exact ⟨own, hown, (List.prefix_append own _).isInfix⟩
        · intro text htext
          exact nomatch hlookup.symm.trans htext

/-- Without code of the registry every registration has its own wrapper. -/
theorem wrappersFrom_eq_ok {rs : List Registration} {lines : List String}
    (h : g.wrappersFrom [] written rs = .ok lines) :
    ∃ own, List.Forall₂ (fun r w => g.wrapper r = .ok w) rs own ∧
      lines = own.flatMap (· ++ [""]) := by
  induction rs generalizing lines with
  | nil =>
      cases h
      exact ⟨[], .nil, rfl⟩
  | cons r more ih =>
      obtain ⟨own, hown, h⟩ := Attempt.bind_eq_ok.mp h
      obtain ⟨rest, hrest, h⟩ := Attempt.bind_eq_ok.mp h
      cases Attempt.pure_eq_ok.mp h
      obtain ⟨others, hothers, rfl⟩ := ih hrest
      refine ⟨own :: others, .cons hown hothers, ?_⟩
      rw [List.flatMap_cons, List.append_assoc]
      rfl

/-! ## Code of the registry -/

/-- There is code for a registration just when the registry has some that,
    renamed, mentions the symbol. -/
theorem bindingOf_eq_some_iff {r : Registration} {code : String} :
    g.bindingOf r = .ok (some code) ↔
      ∃ plain, g.registry.bindingCode r.owner r.method = .ok (some plain) ∧
        retarget plain r.method r.symbol = .ok code ∧ Mentions r.symbol code := by
  rw [← calls_eq_true_iff]
  constructor
  · intro h
    obtain ⟨found, hfound, h⟩ := Attempt.bind_eq_ok.mp h
    cases found with
    | none => exact nomatch Attempt.pure_eq_ok.mp h
    | some plain =>
        obtain ⟨renamed, hrenamed, h⟩ := Attempt.bind_eq_ok.mp h
        by_cases hcalls : calls r.symbol renamed = true
        · rw [if_pos hcalls] at h
          cases Attempt.pure_eq_ok.mp h
          exact ⟨plain, hfound, hrenamed, hcalls⟩
        · rw [if_neg hcalls] at h
          exact nomatch h
  · rintro ⟨plain, hfound, hrenamed, hcalls⟩
    refine Attempt.bind_eq_ok.mpr ⟨some plain, hfound, ?_⟩
    refine Attempt.bind_eq_ok.mpr ⟨code, hrenamed, ?_⟩
    rw [if_pos hcalls]
    rfl

theorem bindingOf_eq_none_iff {r : Registration} :
    g.bindingOf r = .ok none ↔ g.registry.bindingCode r.owner r.method = .ok none := by
  constructor
  · intro h
    obtain ⟨found, hfound, h⟩ := Attempt.bind_eq_ok.mp h
    cases found with
    | none => exact hfound
    | some plain =>
        obtain ⟨renamed, -, h⟩ := Attempt.bind_eq_ok.mp h
        by_cases hcalls : calls r.symbol renamed = true
        · rw [if_pos hcalls] at h
          exact nomatch Attempt.pure_eq_ok.mp h
        · rw [if_neg hcalls] at h
          exact nomatch h
  · intro h
    exact Attempt.bind_eq_ok.mpr ⟨none, h, rfl⟩

/-- There is code to be written out just when there is an answer for every
    registration. -/
theorem overridesOf_eq_ok_iff {rs : List Registration} :
    (∃ overrides, g.overridesOf rs = .ok overrides) ↔ ∀ r ∈ rs, ∃ code, g.bindingOf r = .ok code := by
  induction rs with
  | nil => exact iff_of_true ⟨[], rfl⟩ nofun
  | cons r more ih =>
      rw [List.forall_mem_cons, ← ih]
      constructor
      · rintro ⟨overrides, h⟩
        obtain ⟨code, hcode, h⟩ := Attempt.bind_eq_ok.mp h
        obtain ⟨rest, hrest, -⟩ := Attempt.bind_eq_ok.mp h
        exact ⟨⟨code, hcode⟩, rest, hrest⟩
      · rintro ⟨⟨code, hcode⟩, rest, hrest⟩
        rw [overridesOf]
        rw [hcode, hrest]
        cases code with
        | none => exact ⟨_, rfl⟩
        | some code => exact ⟨_, rfl⟩

/-- Code stands under a label just when it was made for a registration of
    the label. -/
theorem mem_overridesOf {rs : List Registration} {label code : String}
    (h : g.overridesOf rs = .ok overrides) :
    (label, code) ∈ overrides ↔ ∃ r ∈ rs, r.label = label ∧ g.bindingOf r = .ok (some code) := by
  induction rs generalizing overrides with
  | nil =>
      cases h
      exact iff_of_false nofun (by rintro ⟨r, hr, -⟩; exact nomatch hr)
  | cons r more ih =>
      obtain ⟨found, hfound, h⟩ := Attempt.bind_eq_ok.mp h
      obtain ⟨rest, hrest, h⟩ := Attempt.bind_eq_ok.mp h
      rw [List.exists_mem_cons_iff, ← ih hrest, hfound]
      cases found with
      | none =>
          cases Attempt.pure_eq_ok.mp h
          constructor
          · exact .inr
          · rintro (⟨-, hnone⟩ | hmem)
            · exact nomatch hnone
            · exact hmem
      | some text =>
          cases Attempt.pure_eq_ok.mp h
          rw [List.mem_append, List.mem_singleton, Prod.mk.injEq]
          constructor
          · rintro (hmem | ⟨rfl, rfl⟩)
            · exact .inr hmem
            · exact .inl ⟨rfl, rfl⟩
          · rintro (⟨rfl, htext⟩ | hmem)
            · cases htext
              exact .inr ⟨rfl, rfl⟩
            · exact .inl hmem

theorem mem_of_lookup_eq_some {label code : String} (h : overrides.lookup label = some code) :
    (label, code) ∈ overrides := by
  obtain ⟨before, after, rfl, -⟩ := List.lookup_eq_some_iff.mp h
  exact List.mem_append_right _ List.mem_cons_self

/-- No code is found for a registration only if none was made for it. -/
theorem bindingOf_of_lookup_eq_none {rs : List Registration} {r : Registration}
    (h : g.overridesOf rs = .ok overrides) (hr : r ∈ rs)
    (hlookup : overrides.lookup r.label = none) : g.bindingOf r = .ok none := by
  obtain ⟨code, hcode⟩ := overridesOf_eq_ok_iff.mp ⟨_, h⟩ r hr
  cases code with
  | none => exact hcode
  | some code =>
      have hmem := (mem_overridesOf h).mpr ⟨r, hr, rfl, hcode⟩
      have hother := List.lookup_eq_none_iff.mp hlookup _ hmem
      exact absurd rfl (bne_iff_ne.mp hother)

end Generator
end GemBinder
