import Mathlib.Data.List.Flatten
import GemBinder.Proofs.Source.Text
import GemBinder.Proofs.Text.Tokens

/-! # Every registration is registered once and has code

    The registrations of a plan are taken apart and put together three times:
    code of the registry is looked up by a label, wrappers are written in the
    order of the plan, and the function that registers them goes by classes.
    Where classes have names of their own and names are words, a label is
    that of one registration (`Plan.eq_of_label_eq`), and nothing is dropped,
    doubled or attached to another class. -/

namespace GemBinder

open Text

/-! ## Labels -/

/-- A method whose name holds no colon can be told from its label. -/
theorem Member.key_eq_of_label_eq {a b : Member} (ha : ':' ∉ a.method.name.toList)
    (hb : ':' ∉ b.method.name.toList) (h : a.label = b.label) : a.key = b.key := by
  have hlist : ∀ m : Member, m.label.toList
      = (m.owner.toList ++ [':'] ++ ':' :: m.method.name.toList)
        ++ '/' :: (toString m.method.arity).toList := by
    intro m
    show (m.owner ++ "::" ++ m.method.name ++ "/" ++ toString m.method.arity).toList = _
    simp only [String.toList_append, List.append_assoc]
    rfl
  have hdigits : ∀ n : Nat, '/' ∉ (toString n).toList := notMem_repr (by decide)
  have hlabels := congrArg String.toList h
  rw [hlist, hlist] at hlabels
  obtain ⟨hnames, harity⟩ := (append_mark_inj (hdigits _) (hdigits _)).mp hlabels
  obtain ⟨howner, hname⟩ := (append_mark_inj ha hb).mp hnames
  have howner := String.toList_inj.mp (List.append_cancel_right howner)
  rw [Member.key, Member.key, howner, String.toList_inj.mp hname, toString_nat_inj harity]

/-- Of the registrations of a plan one has a label, if names hold no colon. -/
theorem Plan.eq_of_label_eq {classes : List ClassDecl} {vmPrefix : String} {q r : Registration}
    (hcolon : ∀ m ∈ membersOf classes, ':' ∉ m.method.name.toList)
    (hq : q ∈ (Plan.of classes vmPrefix).registrations)
    (hr : r ∈ (Plan.of classes vmPrefix).registrations) (h : q.label = r.label) : q = r := by
  obtain ⟨a, ha, rfl⟩ := List.mem_map.mp hq
  obtain ⟨b, hb, rfl⟩ := List.mem_map.mp hr
  have hkey : a.key = b.key := Member.key_eq_of_label_eq (hcolon a (Reach.mem_of_mem_kept ha))
    (hcolon b (Reach.mem_of_mem_kept hb)) h
  rw [Reach.eq_of_key_eq ha hb hkey]

/-! ## The function that registers -/

/-- The line that defines a class. -/
def classLine (c : ClassDecl) : String :=
  s!"  c_{c.name} = mrbc_define_class(vm, \"{c.name}\", mrbc_class_object);"

/-- How a line begins that defines a class. -/
def classMark : String := "  c_"

/-- How a line begins that registers a method. -/
def methodMark : String := "  mrbc_define_method("

theorem begins_classLine (c : ClassDecl) : Begins classMark (classLine c) :=
  (((begins_append classMark c.name).append _).append _).append _

theorem begins_registrationLine (r : Registration) :
    Begins methodMark (Generator.registrationLine r) :=
  ((((((begins_append methodMark "vm, c_").append _).append _).append _).append _).append _).append _

/-- The lines of a class and its registrations. -/
def classBlock (rs : List Registration) (c : ClassDecl) : List String :=
  classLine c :: (rs.filter (·.owner == c.name)).map Generator.registrationLine

/-- How a list of lines defines classes and registers methods. -/
structure Registers (head : String) (classes : List ClassDecl) (rs : List Registration)
    (lines : List String) : Prop where
  opens : lines.head? = some head
  /-- Every class is defined once, in their order. -/
  defined : marked classMark lines = classes.map classLine
  /-- Behind a class its registrations follow in order, and then no other. -/
  following : ∀ c ∈ classes, ∃ before next after,
    lines = before ++ classBlock rs c ++ next :: after ∧ ¬ Begins methodMark next
  /-- Every registration is registered once, and nothing else. -/
  methods : (marked methodMark lines).Perm (rs.map Generator.registrationLine)

/-- Registrations that are sorted out by their classes are all there. -/
theorem flatMap_filter_owner_perm {classes : List ClassDecl} {rs : List Registration}
    (hnames : (classes.map (·.name)).Nodup) (howners : ∀ r ∈ rs, r.owner ∈ classes.map (·.name)) :
    (classes.flatMap fun c => rs.filter (·.owner == c.name)).Perm rs := by
  induction classes generalizing rs with
  | nil =>
      rw [List.eq_nil_iff_forall_not_mem.mpr fun r hr => nomatch howners r hr]
      exact .nil
  | cons c more ih =>
      obtain ⟨hc, hmore⟩ := List.nodup_cons.mp hnames
      -- for the other classes those of the first can be left out
      have hothers : (more.flatMap fun d => rs.filter (·.owner == d.name))
          = more.flatMap fun d => (rs.filter (·.owner != c.name)).filter (·.owner == d.name) := by
        refine List.flatMap_congr fun d hd => ?_
        rw [List.filter_filter]
        refine List.filter_congr fun r _ => ?_
        by_cases howner : r.owner = d.name
        · have hne : r.owner ≠ c.name := by
            intro h
            have hmem : d.name ∈ more.map (·.name) := List.mem_map_of_mem hd
            rw [← howner, h] at hmem
            exact hc hmem
          rw [bne_iff_ne.mpr hne, Bool.and_true]
        · rw [beq_eq_false_iff_ne.mpr howner, Bool.false_and]
      have hrest : ∀ r ∈ rs.filter (·.owner != c.name), r.owner ∈ more.map (·.name) := by
        intro r hr
        obtain ⟨hr, hne⟩ := List.mem_filter.mp hr
        exact (List.mem_cons.mp (howners r hr)).resolve_left (bne_iff_ne.mp hne)
      rw [List.flatMap_cons, hothers]
      exact ((ih hmore hrest).append_left _).trans (List.filter_append_perm _ _)

namespace Generator

variable {g : Generator} {classes : List ClassDecl} {rs : List Registration}

/-- The opening line of the function that registers. -/
def initOpening (g : Generator) : String := s!"void {g.config.initFunction}(mrbc_vm *vm) \x7b"

theorem initLines_eq :
    g.initLines classes rs = g.initOpening :: classes.flatMap (classBlock rs) ++ ["\x7d", ""] := rfl

/-- The opening line does not begin like another. -/
theorem not_begins_initOpening {mark : String} (hshort : ¬ Begins mark "void ")
    (hlong : ¬ Begins "void " mark) : ¬ Begins mark g.initOpening :=
  ((begins_append "void " g.config.initFunction).append _).not_begins hshort hlong

/-- The lines with a mark come from the classes, if neither the opening nor
    the end has it. -/
theorem marked_initLines {mark : String} (hshort : ¬ Begins mark "void ")
    (hlong : ¬ Begins "void " mark) (hend : ∀ line ∈ ["\x7d", ""], ¬ Begins mark line) :
    marked mark (g.initLines classes rs)
      = classes.flatMap fun c => marked mark (classBlock rs c) := by
  rw [initLines_eq, marked_append, marked_cons_of_not (not_begins_initOpening hshort hlong),
    marked_eq_nil hend, List.append_nil]
  exact List.filter_flatMap

/-- Behind the block of a class comes another class or the end. -/
theorem exists_next_block (classes : List ClassDecl) (rs : List Registration) :
    ∃ next after, classes.flatMap (classBlock rs) ++ ["\x7d", ""] = next :: after ∧
      ¬ Begins methodMark next := by
  cases classes with
  | nil => exact ⟨"\x7d", [""], rfl, by decide⟩
  | cons c more =>
      refine ⟨classLine c, _, rfl, ?_⟩
      exact (begins_classLine c).not_begins (by decide) (by decide)

/-- **EVERY REGISTRATION IS REGISTERED ONCE**, behind its class. -/
theorem registers_initLines (hnames : (classes.map (·.name)).Nodup)
    (howners : ∀ r ∈ rs, r.owner ∈ classes.map (·.name)) :
    Registers g.initOpening classes rs (g.initLines classes rs) where
  opens := rfl
  defined := by
    rw [marked_initLines (by decide) (by decide) (by decide)]
    have hblock : ∀ c, marked classMark (classBlock rs c) = [classLine c] := by
      intro c
      rw [classBlock, marked_cons_of_begins (begins_classLine c), marked_eq_nil]
      intro line hline
      obtain ⟨r, -, rfl⟩ := List.mem_map.mp hline
      exact (begins_registrationLine r).not_begins (by decide) (by decide)
    simp only [hblock]
    exact List.map_eq_flatMap.symm
  following := by
    intro c hc
    obtain ⟨before, after, rfl⟩ := List.append_of_mem hc
    obtain ⟨next, rest, hrest, hnext⟩ := exists_next_block after rs
    refine ⟨g.initOpening :: before.flatMap (classBlock rs), next, rest, ?_, hnext⟩
    rw [initLines_eq, ← hrest, List.flatMap_append, List.flatMap_cons]
    simp only [List.cons_append, List.append_assoc]
  methods := by
    rw [marked_initLines (by decide) (by decide) (by decide)]
    have hblock : ∀ c, marked methodMark (classBlock rs c)
        = (rs.filter (·.owner == c.name)).map registrationLine := by
      intro c
      rw [classBlock, marked_cons_of_not, marked_eq_self]
      · intro line hline
        obtain ⟨r, -, rfl⟩ := List.mem_map.mp hline
        exact begins_registrationLine r
      · exact (begins_classLine c).not_begins (by decide) (by decide)
    simp only [hblock]
    rw [← List.map_flatMap]
    exact (flatMap_filter_owner_perm hnames howners).map _

/-! ## Code for every registration -/

/-- A registration has code among lines: the wrapper of the rules, or code
    of the registry that mentions its symbol. -/
def HasCode (g : Generator) (lines : List String) (r : Registration) : Prop :=
  (g.bindingOf r = .ok none ∧ opening (vmHead r.symbol) ∈ lines) ∨
    ∃ code, g.bindingOf r = .ok (some code) ∧ linesOfCode code <:+: lines ∧
      Mentions r.symbol (joinStrings "\n" (linesOfCode code))

/-- If a label is that of one registration, what is written for it is its
    own. -/
theorem hasCode_of_wrappersFrom {overrides : List (String × String)} {wrappers : List String}
    (hoverrides : g.overridesOf rs = .ok overrides)
    (hlabels : ∀ q ∈ rs, ∀ r ∈ rs, q.label = r.label → q = r)
    (hwrappers : g.wrappersFrom overrides [] rs = .ok wrappers) {r : Registration} (hr : r ∈ rs) :
    g.HasCode wrappers r := by
  have hwritten := written_of_wrappersFrom hwrappers r hr
  cases hlookup : overrides.lookup r.label with
  | none =>
      obtain ⟨own, hown, hstands⟩ := hwritten.wrapper hlookup
      obtain ⟨arguments, before, done, -, rfl⟩ := wrapper_eq_ok hown
      refine .inl ⟨bindingOf_of_lookup_eq_none hoverrides hr hlookup, hstands.subset ?_⟩
      exact List.mem_cons_self
  | some code =>
      obtain ⟨q, hq, hlabel, hcode⟩ :=
        (mem_overridesOf hoverrides).mp (mem_of_lookup_eq_some hlookup)
      cases hlabels q hq r hr hlabel
      obtain ⟨plain, -, -, hmentions⟩ := bindingOf_eq_some_iff.mp hcode
      rcases hwritten.code code hlookup with hnil | hstands
      · exact nomatch hnil
      · exact .inr ⟨code, hcode, hstands, hmentions.linesOfCode⟩

end Generator

/-- **NO REGISTERED METHOD IS LEFT WITHOUT CODE**, and every one is registered
    once, behind its class. -/
theorem registrations_bound (g : Generator) (classes : List ClassDecl) (text : String)
    (hnames : (classes.map (·.name)).Nodup)
    (hwords : ∀ c ∈ classes, IsWord c.name ∧ ∀ m ∈ c.methods, IsWord m.name)
    (h : g.cSource classes = .ok text) :
    ∃ front wrappers init,
      text = joinStrings "\n" (front ++ "/* VM method wrappers */" :: wrappers ++ init) ∧
      Registers g.initOpening classes (g.plan classes).registrations init ∧
      (OneLine g.config.vmPrefix → OneLine g.config.gemName → init <:+ linesOf text) ∧
      ∀ r ∈ (g.plan classes).registrations, g.HasCode wrappers r := by
  obtain ⟨lines, hlines, h⟩ := Attempt.bind_eq_ok.mp h
  cases Attempt.pure_eq_ok.mp h
  obtain ⟨overrides, members, wrappers, hoverrides, -, hwrappers, rfl⟩ :=
    Generator.cLines_eq_ok hlines
  have hmembers : ∀ m ∈ membersOf classes, IsWord m.owner ∧ IsWord m.method.name ∧
      m.owner ∈ classes.map (·.name) := by
    intro m hm
    obtain ⟨c, hc, howner, hmethod⟩ := mem_membersOf.mp hm
    rw [howner]
    exact ⟨(hwords c hc).1, (hwords c hc).2 _ hmethod, List.mem_map_of_mem hc⟩
  refine ⟨_, wrappers, _, rfl, ?_, ?_, ?_⟩
  · exact Generator.registers_initLines hnames fun r hr => (hmembers _ (Plan.mem_membersOf hr)).2.2
  · intro hvm hgem
    have hrs : ∀ r ∈ (g.plan classes).registrations,
        OneLine r.owner ∧ OneLine r.method.name ∧ OneLine r.symbol := by
      intro r hr
      obtain ⟨howner, hname, -⟩ := hmembers _ (Plan.mem_membersOf hr)
      refine ⟨howner.oneLine, hname.oneLine, ?_⟩
      rw [Plan.symbol_eq hr]
      exact notMem_symbolOf isMark_newline (by decide) (by decide) hvm howner.oneLine hname.oneLine
    refine suffix_linesOf_joinStrings (List.cons_ne_nil _ _) ?_
    exact Generator.oneLine_initLines hgem (fun c hc => (hwords c hc).1.oneLine) hrs
  · intro r hr
    refine Generator.hasCode_of_wrappersFrom hoverrides (fun q hq r hr => ?_) hwrappers hr
    exact Plan.eq_of_label_eq (fun m hm => (hmembers m hm).2.1.notMem (by decide)) hq hr

/-- A generator with a prefix of its own, whose registry binds the time of a
    clock. -/
def clockGenerator : Generator where
  config := { vmPrefix := "vm" }
  registry := ({} : Registry).register "Clock" "now" (.custom
    (fun _ => .ok (some (codeLines [opening "int clock_now(void)", "\x7d"])))
    (fun m => .ok (some (codeLines [opening (vmHead m.vmName), "\x7d"]))))

/-- Two classes, of which one has a method that is bound by code, and both
    have one that the rules bind. -/
def clockAndTimer : List ClassDecl :=
  [{ name := "Clock", methods :=
      [⟨"now", "rtc_time_t&", [], false, false, false⟩,
       ⟨"set", "void", [⟨"int", "seconds"⟩], false, false, false⟩] },
   { name := "Timer", methods := [⟨"set", "void", [⟨"int", "seconds"⟩], false, false, false⟩] }]

/-- All three methods are registered and have code. -/
theorem registrations_bound_clockAndTimer :
    ∃ text wrappers init, clockGenerator.cSource clockAndTimer = .ok text ∧
      init <:+ linesOf text ∧
      Registers clockGenerator.initOpening clockAndTimer
        (clockGenerator.plan clockAndTimer).registrations init ∧
      ((clockGenerator.plan clockAndTimer).registrations.map (·.symbol)
        = ["vm_now_0", "vm_clock_set_1", "vm_timer_set_1"]) ∧
      ∀ r ∈ (clockGenerator.plan clockAndTimer).registrations, clockGenerator.HasCode wrappers r := by
  have hrun : (clockGenerator.cSource clockAndTimer).isOk = true := by decide +kernel
  obtain ⟨text, htext⟩ := Attempt.exists_of_isOk hrun
  obtain ⟨front, wrappers, init, -, hinit, hsuffix, hcode⟩ :=
    registrations_bound clockGenerator clockAndTimer text (by decide) (by decide) htext
  exact ⟨text, wrappers, init, htext, hsuffix (by decide) (by decide), hinit, by decide +kernel, hcode⟩

end GemBinder
