import Mathlib.Data.List.Forall2
import Mathlib.Data.List.Perm.Basic
import GemBinder.Proofs.Plan

/-! # Plans class by class

    Keys hold the name of the class, so that members of classes with
    different names never supersede each other: what is kept and what is
    shadowed of some classes are the parts of each of them, one behind the
    other.  Classes meet in one thing only, the symbols without a class that
    their registered members claim.  So the order of the classes does not
    matter, and one more class does nothing to the others but put their class
    into the symbols that it claims as well. -/

namespace GemBinder

/-! ## Members of different keys -/

/-- No member of the one list has the key of a member of the other. -/
def KeysApart (ms ns : List Member) : Prop := ∀ m ∈ ms, ∀ n ∈ ns, m.key ≠ n.key

section KeysApart

variable {ms ns before : List Member}

theorem lastOfKey?_append_of_keysApart (h : KeysApart before ns) {n : Member} (hn : n ∈ ns) :
    lastOfKey? n.key (before ++ ms) = lastOfKey? n.key ms := by
  have hnone : before.filter (·.key == n.key) = [] := by
    rw [List.filter_eq_nil_iff]
    intro m hm hkey
    exact h m hm n hn (beq_iff_eq.mp hkey)
  rw [lastOfKey?, lastOfKey?, List.filter_append, hnone, List.nil_append]

theorem lastDeclared_append (h : KeysApart ms ns) :
    lastDeclared (ms ++ ns) = lastDeclared ms ++ lastDeclared ns := by
  induction ms with
  | nil => rfl
  | cons m more ih =>
      have hmore : KeysApart more ns := fun a ha => h a (List.mem_cons_of_mem m ha)
      have hnone : ns.any (·.key == m.key) = false := by
        rw [List.any_eq_false]
        intro n hn hkey
        exact h m List.mem_cons_self n hn (beq_iff_eq.mp hkey).symm
      rw [List.cons_append, lastDeclared, lastDeclared, List.any_append, hnone, Bool.or_false,
        ih hmore]
      by_cases hlater : more.any (·.key == m.key) = true
      · rw [if_pos hlater, if_pos hlater]
      · rw [if_neg hlater, if_neg hlater, List.cons_append]

/-- Members of other keys supersede nothing. -/
theorem supersededAfter_append_left (h : KeysApart before ns) :
    supersededAfter (before ++ ms) ns = supersededAfter ms ns := by
  induction ns generalizing ms with
  | nil => rfl
  | cons n more ih =>
      have hmore : KeysApart before more := fun m hm a ha => h m hm a (List.mem_cons_of_mem n ha)
      rw [supersededAfter, supersededAfter, lastOfKey?_append_of_keysApart h List.mem_cons_self,
        List.append_assoc, ih hmore]

theorem supersededAfter_append (before ms ns : List Member) :
    supersededAfter before (ms ++ ns)
      = supersededAfter before ms ++ supersededAfter (before ++ ms) ns := by
  induction ms generalizing before with
  | nil => rw [List.nil_append, List.append_nil, supersededAfter, List.nil_append]
  | cons m more ih =>
      rw [List.cons_append, supersededAfter, supersededAfter, ih, List.append_assoc,
        List.append_assoc]
      rfl

theorem superseded_append (h : KeysApart ms ns) :
    superseded (ms ++ ns) = superseded ms ++ superseded ns := by
  have hleft : supersededAfter (ms ++ []) ns = supersededAfter [] ns :=
    supersededAfter_append_left h
  rw [List.append_nil] at hleft
  rw [superseded, supersededAfter_append, List.nil_append, hleft]
  rfl

end KeysApart

/-! ## Each class on its own -/

/-- What the declarations of one class leave. -/
def ClassDecl.reach (c : ClassDecl) : Reach := Reach.of (membersOf [c])

theorem mem_membersOf_singleton {c : ClassDecl} {m : Member} :
    m ∈ membersOf [c] ↔ m.owner = c.name ∧ m.method ∈ c.methods := by
  rw [mem_membersOf]
  constructor
  · rintro ⟨d, hd, h⟩
    rw [List.mem_singleton.mp hd] at h
    exact h
  · intro h
    exact ⟨c, List.mem_singleton_self c, h⟩

theorem membersOf_cons (c : ClassDecl) (classes : List ClassDecl) :
    membersOf (c :: classes) = membersOf [c] ++ membersOf classes := by
  rw [membersOf, membersOf, membersOf, List.flatMap_cons, List.flatMap_singleton]

theorem keysApart_of_notMem {c : ClassDecl} {classes : List ClassDecl}
    (h : c.name ∉ classes.map (·.name)) : KeysApart (membersOf [c]) (membersOf classes) := by
  intro m hm n hn hkey
  obtain ⟨howner, -⟩ := mem_membersOf_singleton.mp hm
  obtain ⟨d, hd, howner', -⟩ := mem_membersOf.mp hn
  have hname : c.name = d.name := by
    rw [← howner, ← howner']
    exact congrArg Prod.fst hkey
  exact h (List.mem_map.mpr ⟨d, hd, hname.symm⟩)

/-- **WHAT IS KEPT OF CLASSES** of different names is what is kept of each. -/
theorem Reach.kept_membersOf {classes : List ClassDecl} (h : (classes.map (·.name)).Nodup) :
    (Reach.of (membersOf classes)).kept = classes.flatMap fun c => c.reach.kept := by
  induction classes with
  | nil => rfl
  | cons c more ih =>
      rw [List.map_cons, List.nodup_cons] at h
      rw [List.flatMap_cons, ← ih h.2, membersOf_cons, Reach.kept_eq_lastDeclared,
        lastDeclared_append (keysApart_of_notMem h.1), ← Reach.kept_eq_lastDeclared,
        ← Reach.kept_eq_lastDeclared]
      rfl

/-- **WHAT IS SHADOWED OF CLASSES** of different names is what is shadowed of
    each. -/
theorem Reach.shadowed_membersOf {classes : List ClassDecl} (h : (classes.map (·.name)).Nodup) :
    (Reach.of (membersOf classes)).shadowed = classes.flatMap fun c => c.reach.shadowed := by
  induction classes with
  | nil => rfl
  | cons c more ih =>
      rw [List.map_cons, List.nodup_cons] at h
      rw [List.flatMap_cons, ← ih h.2, membersOf_cons, Reach.shadowed_eq_superseded,
        superseded_append (keysApart_of_notMem h.1), ← Reach.shadowed_eq_superseded,
        ← Reach.shadowed_eq_superseded]
      rfl

/-- Whatever declarations leave of a class has its name. -/
theorem ClassDecl.owner_eq_of_mem_reach {c : ClassDecl} {m : Member}
    (h : m ∈ c.reach.kept ∨ m ∈ c.reach.shadowed) : m.owner = c.name := by
  have hmem : m ∈ membersOf [c] :=
    (Reach.perm (membersOf [c])).mem_iff.mp (List.mem_append.mpr h)
  exact (mem_membersOf_singleton.mp hmem).1

/-- Of every key that is declared, one member is kept. -/
theorem Reach.exists_kept_of_mem {ms : List Member} {m : Member} (h : m ∈ ms) :
    ∃ a ∈ (Reach.of ms).kept, a.key = m.key := by
  have hne : ms.filter (·.key == m.key) ≠ [] :=
    List.ne_nil_of_mem (List.mem_filter.mpr ⟨h, beq_self_eq_true _⟩)
  have hlast : lastOfKey? m.key ms = some (_ : Member) := List.getLast?_eq_some_getLast hne
  have hmem : (ms.filter (·.key == m.key)).getLast hne
      ∈ (Reach.of ms).kept.filter (·.key == m.key) := by
    rw [Reach.kept_filter_key, hlast]
    exact List.mem_singleton_self _
  obtain ⟨hkept, hkey⟩ := List.mem_filter.mp hmem
  exact ⟨_, hkept, beq_iff_eq.mp hkey⟩

/-! ## Symbols -/

/-- A symbol is a matter of which members are kept, not of their order. -/
theorem symbolOf_congr {vmPrefix : String} {kept kept' : List Member}
    (h : ∀ m, m ∈ kept ↔ m ∈ kept') : symbolOf vmPrefix kept = symbolOf vmPrefix kept' := by
  have hcontested : ∀ symbol,
      isContested vmPrefix kept symbol = isContested vmPrefix kept' symbol := by
    intro symbol
    rw [Bool.eq_iff_iff, isContested_iff, isContested_iff]
    simp only [h]
  funext m
  rw [symbolOf, symbolOf, hcontested]

/-- A registered member of a class claims a symbol. -/
def Plan.Claims (p : Plan) (vmPrefix owner symbol : String) : Prop :=
  ∃ a ∈ p.registrations, a.owner = owner ∧ a.method.vmName vmPrefix = symbol

/-- What one more class makes of a registration: the member stays, and the
    symbol changes just when it was without its class and is claimed now.
    It then has the class in it. -/
structure Registration.Requalified (vmPrefix : String) (claimed : Prop) (r r' : Registration) :
    Prop where
  member : r'.toMember = r.toMember
  changes : r'.symbol ≠ r.symbol ↔ r.symbol = r.method.vmName vmPrefix ∧ claimed
  qualified : r'.symbol ≠ r.symbol → r'.symbol = r.method.vmNameIn r.owner vmPrefix

/-- **A PLAN WITH ONE MORE CLASS**: what it registers and shadows of the other
    classes is the same as before, in the same order, and of the symbols
    those change that the new class claims. -/
structure Plan.Extends (vmPrefix owner : String) (p p' : Plan) : Prop where
  registrations : List.Forall₂
    (fun r r' => r.Requalified vmPrefix (p'.Claims vmPrefix owner (r.method.vmName vmPrefix)) r')
    p.registrations (p'.registrations.filter (·.owner != owner))
  shadowed : List.Forall₂
    (fun r r' => r.Requalified vmPrefix (p'.Claims vmPrefix owner (r.method.vmName vmPrefix)) r')
    p.shadowed (p'.shadowed.filter (·.owner != owner))

section Extension

variable {before after : List ClassDecl} {c : ClassDecl} {vmPrefix : String}

/-- Without the members of the new class, what is left of every class in turn
    is what was there before. -/
theorem filter_flatMap_owner {f : ClassDecl → List Member}
    (howner : ∀ d, ∀ m ∈ f d, m.owner = d.name) (hnew : c.name ∉ (before ++ after).map (·.name)) :
    ((before ++ c :: after).flatMap f).filter (·.owner != c.name)
      = (before ++ after).flatMap f := by
  have hkeep : ∀ classes : List ClassDecl, (∀ d ∈ classes, d.name ≠ c.name) →
      (classes.flatMap f).filter (·.owner != c.name) = classes.flatMap f := by
    intro classes hne
    rw [List.filter_eq_self]
    intro m hm
    obtain ⟨d, hd, hmd⟩ := List.mem_flatMap.mp hm
    rw [howner d m hmd]
    exact bne_iff_ne.mpr (hne d hd)
  have hdrop : (f c).filter (·.owner != c.name) = [] := by
    rw [List.filter_eq_nil_iff]
    intro m hm
    rw [howner c m hm]
    simp
  have hne : ∀ d ∈ before ++ after, d.name ≠ c.name := by
    intro d hd heq
    exact hnew (List.mem_map.mpr ⟨d, hd, heq⟩)
  rw [List.flatMap_append, List.flatMap_cons, List.filter_append, List.filter_append, hdrop,
    List.nil_append, List.flatMap_append,
    hkeep before fun d hd => hne d (List.mem_append_left _ hd),
    hkeep after fun d hd => hne d (List.mem_append_right _ hd)]

theorem nodup_names_insert (hdistinct : ((before ++ after).map (·.name)).Nodup)
    (hnew : c.name ∉ (before ++ after).map (·.name)) :
    ((before ++ c :: after).map (·.name)).Nodup := by
  have hperm : (before ++ c :: after).Perm (c :: (before ++ after)) := List.perm_middle
  rw [(hperm.map _).nodup_iff, List.map_cons, List.nodup_cons]
  exact ⟨hnew, hdistinct⟩

variable (hdistinct : ((before ++ after).map (·.name)).Nodup)
  (hnew : c.name ∉ (before ++ after).map (·.name))
include hdistinct hnew

theorem mem_kept_insert {a : Member} :
    a ∈ (Reach.of (membersOf (before ++ c :: after))).kept ↔
      a ∈ (Reach.of (membersOf (before ++ after))).kept ∨ a ∈ c.reach.kept := by
  rw [Reach.kept_membersOf (nodup_names_insert hdistinct hnew), Reach.kept_membersOf hdistinct,
    List.flatMap_append, List.flatMap_cons, List.flatMap_append]
  simp only [List.mem_append]
  constructor
  · rintro (h | h | h)
    · exact .inl (.inl h)
    · exact .inr h
    · exact .inl (.inr h)
  · rintro ((h | h) | h)
    · exact .inl h
    · exact .inr (.inr h)
    · exact .inr (.inl h)

/-- The registered members of the new class are those that are kept of it
    alone. -/
theorem claims_insert_iff {symbol : String} :
    (Plan.of (before ++ c :: after) vmPrefix).Claims vmPrefix c.name symbol ↔
      ∃ a ∈ c.reach.kept, a.method.vmName vmPrefix = symbol := by
  have hregistered : ∀ a : Member,
      a ∈ (Plan.of (before ++ c :: after) vmPrefix).registrations.map (·.toMember) ↔
        a ∈ (Reach.of (membersOf (before ++ after))).kept ∨ a ∈ c.reach.kept := by
    intro a
    rw [Plan.registrations_map_toMember]
    exact mem_kept_insert hdistinct hnew
  constructor
  · rintro ⟨r, hr, howner, hsymbol⟩
    rcases (hregistered r.toMember).mp (List.mem_map_of_mem hr) with hold | hown
    · obtain ⟨d, hd, hname, -⟩ := mem_membersOf.mp (Reach.mem_of_mem_kept hold)
      exact absurd (List.mem_map.mpr ⟨d, hd, hname.symm.trans howner⟩) hnew
    · exact ⟨r.toMember, hown, hsymbol⟩
  · rintro ⟨a, ha, hsymbol⟩
    obtain ⟨r, hr, rfl⟩ := List.mem_map.mp ((hregistered a).mpr (.inr ha))
    exact ⟨r, hr, ClassDecl.owner_eq_of_mem_reach (.inl ha), hsymbol⟩

/-- **A NEW CLASS CONTESTS WHAT IT CLAIMS**: the symbol of a member of the
    other classes is contested if it was before, or if a member that is kept
    of the new class claims it. -/
theorem isContested_insert {m : Member} (hm : m ∈ membersOf (before ++ after)) :
    isContested vmPrefix (Reach.of (membersOf (before ++ c :: after))).kept
        (m.method.vmName vmPrefix) = true ↔
      isContested vmPrefix (Reach.of (membersOf (before ++ after))).kept
        (m.method.vmName vmPrefix) = true ∨
      ∃ a ∈ c.reach.kept, a.method.vmName vmPrefix = m.method.vmName vmPrefix := by
  rw [isContested_iff, isContested_iff]
  simp only [mem_kept_insert hdistinct hnew]
  constructor
  · rintro ⟨a, ha, b, hb, hsa, hsb, hne⟩
    rcases ha with ha | ha
    · rcases hb with hb | hb
      · exact .inl ⟨a, ha, b, hb, hsa, hsb, hne⟩
      · exact .inr ⟨b, hb, hsb⟩
    · exact .inr ⟨a, ha, hsa⟩
  · rintro (⟨a, ha, b, hb, hsa, hsb, hne⟩ | ⟨a, ha, hsa⟩)
    · exact ⟨a, .inl ha, b, .inl hb, hsa, hsb, hne⟩
    · -- the member itself, or what has superseded it, claims the symbol for its own class
      obtain ⟨b, hb, hkey⟩ := Reach.exists_kept_of_mem hm
      obtain ⟨howner, hname, harity⟩ : b.owner = m.owner ∧ b.method.name = m.method.name ∧
          b.method.arity = m.method.arity := by
        simpa [Member.key] using hkey
      have hsb : b.method.vmName vmPrefix = m.method.vmName vmPrefix := by
        rw [Method.vmName_eq_symbolWith, Method.vmName_eq_symbolWith, hname, harity]
      obtain ⟨d, hd, hown, -⟩ := mem_membersOf.mp hm
      refine ⟨a, .inr ha, b, .inl hb, hsa, hsb, ?_⟩
      rw [ClassDecl.owner_eq_of_mem_reach (.inl ha), howner, hown]
      intro heq
      exact hnew (List.mem_map.mpr ⟨d, hd, heq.symm⟩)

theorem requalified_insert {m : Member} (hm : m ∈ membersOf (before ++ after))
    (howner : m.owner ≠ "") :
    Registration.Requalified vmPrefix
      ((Plan.of (before ++ c :: after) vmPrefix).Claims vmPrefix c.name (m.method.vmName vmPrefix))
      ⟨m, symbolOf vmPrefix (Reach.of (membersOf (before ++ after))).kept m⟩
      ⟨m, symbolOf vmPrefix (Reach.of (membersOf (before ++ c :: after))).kept m⟩ := by
  have hne := Member.vmNameIn_ne_vmName howner vmPrefix
  have hinsert : isContested vmPrefix (Reach.of (membersOf (before ++ c :: after))).kept
        (m.method.vmName vmPrefix) = true ↔
      isContested vmPrefix (Reach.of (membersOf (before ++ after))).kept
        (m.method.vmName vmPrefix) = true ∨
      (Plan.of (before ++ c :: after) vmPrefix).Claims vmPrefix c.name
        (m.method.vmName vmPrefix) := by
    rw [claims_insert_iff hdistinct hnew]
    exact isContested_insert hdistinct hnew hm
  by_cases hold : isContested vmPrefix (Reach.of (membersOf (before ++ after))).kept
      (m.method.vmName vmPrefix) = true
  · -- a contested symbol stays contested
    have hboth : symbolOf vmPrefix (Reach.of (membersOf (before ++ c :: after))).kept m
        = symbolOf vmPrefix (Reach.of (membersOf (before ++ after))).kept m := by
      rw [symbolOf, symbolOf, if_pos hold, if_pos (hinsert.mpr (.inl hold))]
    have hqualified : symbolOf vmPrefix (Reach.of (membersOf (before ++ after))).kept m
        = m.method.vmNameIn m.owner vmPrefix := if_pos hold
    refine ⟨rfl, ?_, fun h => absurd hboth h⟩
    constructor
    · intro h
      exact absurd hboth h
    · rintro ⟨hbare, -⟩
      exact absurd (hqualified.symm.trans hbare) hne
  · have hbare : symbolOf vmPrefix (Reach.of (membersOf (before ++ after))).kept m
        = m.method.vmName vmPrefix := if_neg hold
    by_cases hclaimed : (Plan.of (before ++ c :: after) vmPrefix).Claims vmPrefix c.name
        (m.method.vmName vmPrefix)
    · have hqualified : symbolOf vmPrefix (Reach.of (membersOf (before ++ c :: after))).kept m
          = m.method.vmNameIn m.owner vmPrefix := if_pos (hinsert.mpr (.inr hclaimed))
      refine ⟨rfl, ?_, fun _ => hqualified⟩
      refine iff_of_true ?_ ⟨hbare, hclaimed⟩
      rw [hqualified, hbare]
      exact hne
    · have hsame : symbolOf vmPrefix (Reach.of (membersOf (before ++ c :: after))).kept m
          = m.method.vmName vmPrefix := by
        refine if_neg fun h => ?_
        rcases hinsert.mp h with h | h
        · exact hold h
        · exact hclaimed h
      have hboth := hsame.trans hbare.symm
      exact ⟨rfl, iff_of_false (not_not.mpr hboth) fun h => hclaimed h.2,
        fun h => absurd hboth h⟩

/-- **ONE MORE CLASS** extends the plan of the others. -/
theorem extends_insert (hnames : ∀ d ∈ before ++ after, d.name ≠ "") :
    (Plan.of (before ++ after) vmPrefix).Extends vmPrefix c.name
      (Plan.of (before ++ c :: after) vmPrefix) := by
  have hdistinct' := nodup_names_insert hdistinct hnew
  -- registered and shadowed members alike are those of before with the symbols of now
  have hpart : ∀ ms ms' : List Member, (∀ m ∈ ms, m ∈ membersOf (before ++ after)) →
      ms'.filter (·.owner != c.name) = ms →
      List.Forall₂ (fun r r' => r.Requalified vmPrefix
          ((Plan.of (before ++ c :: after) vmPrefix).Claims vmPrefix c.name
            (r.method.vmName vmPrefix)) r')
        (ms.map fun m => (⟨m, symbolOf vmPrefix (Reach.of (membersOf (before ++ after))).kept m⟩ :
          Registration))
        ((ms'.map fun m => (⟨m, symbolOf vmPrefix
            (Reach.of (membersOf (before ++ c :: after))).kept m⟩ : Registration)).filter
          (·.owner != c.name)) := by
    intro ms ms' hms hfilter
    rw [List.filter_map]
    show List.Forall₂ _ _ ((ms'.filter (·.owner != c.name)).map _)
    rw [hfilter, List.forall₂_map_left_iff, List.forall₂_map_right_iff, List.forall₂_same]
    intro m hm
    exact requalified_insert hdistinct hnew (hms m hm) (owner_ne_empty hnames (hms m hm))
  have hperm := Reach.perm (membersOf (before ++ after))
  constructor
  · refine hpart _ _ (fun m hm => hperm.mem_iff.mp (List.mem_append_left _ hm)) ?_
    rw [Reach.kept_membersOf hdistinct', Reach.kept_membersOf hdistinct]
    exact filter_flatMap_owner (fun d m hm => ClassDecl.owner_eq_of_mem_reach (.inl hm)) hnew
  · refine hpart _ _ (fun m hm => hperm.mem_iff.mp (List.mem_append_right _ hm)) ?_
    rw [Reach.shadowed_membersOf hdistinct', Reach.shadowed_membersOf hdistinct]
    exact filter_flatMap_owner (fun d m hm => ClassDecl.owner_eq_of_mem_reach (.inr hm)) hnew

end Extension

/-! ## The order of classes -/

/-- Two plans with the same registrations and the same shadowed ones, each as
    often, whatever their order. -/
structure Plan.Reorders (p p' : Plan) : Prop where
  registrations : p.registrations.Perm p'.registrations
  shadowed : p.shadowed.Perm p'.shadowed

theorem reorders_of_perm {classes classes' : List ClassDecl} (vmPrefix : String)
    (hdistinct : (classes.map (·.name)).Nodup) (hperm : classes'.Perm classes) :
    (Plan.of classes' vmPrefix).Reorders (Plan.of classes vmPrefix) := by
  have hdistinct' : (classes'.map (·.name)).Nodup := (hperm.map _).nodup_iff.mpr hdistinct
  have hkept : (Reach.of (membersOf classes')).kept.Perm (Reach.of (membersOf classes)).kept := by
    rw [Reach.kept_membersOf hdistinct', Reach.kept_membersOf hdistinct]
    exact hperm.flatMap_right _
  have hshadowed : (Reach.of (membersOf classes')).shadowed.Perm
      (Reach.of (membersOf classes)).shadowed := by
    rw [Reach.shadowed_membersOf hdistinct', Reach.shadowed_membersOf hdistinct]
    exact hperm.flatMap_right _
  have hsymbols : symbolOf vmPrefix (Reach.of (membersOf classes')).kept =
      symbolOf vmPrefix (Reach.of (membersOf classes)).kept :=
    symbolOf_congr fun _ => hkept.mem_iff
  constructor
  · show ((Reach.of (membersOf classes')).kept.map _).Perm ((Reach.of (membersOf classes)).kept.map _)
    rw [hsymbols]
    exact hkept.map _
  · show ((Reach.of (membersOf classes')).shadowed.map _).Perm
      ((Reach.of (membersOf classes)).shadowed.map _)
    rw [hsymbols]
    exact hshadowed.map _

/-- **PLANS ARE LOCAL**: the order of the classes does not matter, and one
    more class leaves the members of the others where they were and changes
    those of their symbols that it claims, from the one without the class to
    the one with it. -/
theorem plan_order_free_and_local (classes : List ClassDecl) (vmPrefix : String)
    (hnames : ∀ c ∈ classes, c.name ≠ "") (hdistinct : (classes.map (·.name)).Nodup) :
    (∀ classes', classes'.Perm classes →
      (Plan.of classes' vmPrefix).Reorders (Plan.of classes vmPrefix)) ∧
    ∀ before after c, classes = before ++ after → c.name ∉ classes.map (·.name) →
      (Plan.of classes vmPrefix).Extends vmPrefix c.name
        (Plan.of (before ++ c :: after) vmPrefix) := by
  constructor
  · intro classes' hperm
    exact reorders_of_perm vmPrefix hdistinct hperm
  · rintro before after c rfl hnew
    exact extends_insert hdistinct hnew hnames

/-- A class with a method that the display has as well. -/
def lamp : ClassDecl :=
  { name := "Lamp", methods := [⟨"clear", "void", [], false, false, false⟩] }

/-- The speaker may come first, and a lamp between the two puts its class and
    that of the display into the symbol that both claim. -/
theorem plan_order_free_and_local_displayAndSpeaker :
    (Plan.of displayAndSpeaker.reverse "vm").Reorders (Plan.of displayAndSpeaker "vm") ∧
      (Plan.of displayAndSpeaker "vm").Extends "vm" "Lamp"
        (Plan.of (displayAndSpeaker.take 1 ++ lamp :: displayAndSpeaker.drop 1) "vm") ∧
      (Plan.of displayAndSpeaker "vm").registrations.map (·.symbol)
        = ["vm_clear_0", "vm_display_stop_1", "vm_speaker_stop_1"] ∧
      (Plan.of (displayAndSpeaker.take 1 ++ lamp :: displayAndSpeaker.drop 1)
          "vm").registrations.map (·.symbol)
        = ["vm_display_clear_0", "vm_display_stop_1", "vm_lamp_clear_0", "vm_speaker_stop_1"] := by
  obtain ⟨horder, hlocal⟩ := plan_order_free_and_local displayAndSpeaker "vm" (by decide) (by decide)
  have hreverse := horder displayAndSpeaker.reverse (List.reverse_perm _)
  have hlamp := hlocal (displayAndSpeaker.take 1) (displayAndSpeaker.drop 1) lamp rfl (by decide)
  exact ⟨hreverse, hlamp, by decide +kernel, by decide +kernel⟩

end GemBinder
