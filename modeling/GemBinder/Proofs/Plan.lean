import GemBinder.Proofs.Symbols

/-! # The plan of registrations

    `Reach.declare` updates two lists at every declaration.  What they hold
    in the end can be said of the declarations alone: a member is kept just
    when no later one has its key (`lastDeclared`), and every declaration
    moves the last one of its key before it to those that are shadowed
    (`superseded`).  A symbol has the class in it just when registered
    members of two classes claim the one without. -/

namespace GemBinder

open Text

/-! ## Last declarations and those before them -/

/-- The members that no later one has the key of, in order. -/
def lastDeclared : List Member → List Member
  | [] => []
  | m :: more => if more.any (·.key == m.key) then lastDeclared more else m :: lastDeclared more

/-- The last member of a key. -/
def lastOfKey? (key : String × String × Nat) (ms : List Member) : Option Member :=
  (ms.filter (·.key == key)).getLast?

theorem lastOfKey?_append_singleton (key : String × String × Nat) (ms : List Member) (m : Member) :
    lastOfKey? key (ms ++ [m]) = if m.key = key then some m else lastOfKey? key ms := by
  rw [lastOfKey?, List.filter_append]
  by_cases hkey : m.key = key
  · have hone : [m].filter (·.key == key) = [m] :=
      List.filter_cons_of_pos (beq_iff_eq.mpr hkey)
    rw [hone, if_pos hkey, List.getLast?_concat]
  · have hnone : [m].filter (·.key == key) = [] :=
      List.filter_cons_of_neg fun h => hkey (beq_iff_eq.mp h)
    rw [hnone, if_neg hkey, List.append_nil, lastOfKey?]

/-- For each declaration the member that it supersedes, if there is one:
    the last of its key before it. -/
def supersededAfter (before : List Member) : List Member → List Member
  | [] => []
  | m :: more => (lastOfKey? m.key before).toList ++ supersededAfter (before ++ [m]) more

/-- The superseded members, in the order of what superseded them. -/
def superseded (ms : List Member) : List Member := supersededAfter [] ms

/-- One more declaration drops the members of its key and stands last. -/
theorem lastDeclared_append_singleton (ms : List Member) (m : Member) :
    lastDeclared (ms ++ [m]) = (lastDeclared ms).filter (·.key != m.key) ++ [m] := by
  induction ms with
  | nil => rfl
  | cons a more ih =>
      rw [List.cons_append, lastDeclared, lastDeclared, List.any_append, ih]
      by_cases hlater : more.any (·.key == a.key) = true
      · rw [if_pos hlater, hlater, Bool.true_or, if_pos rfl]
      · rw [if_neg hlater, Bool.eq_false_iff.mpr hlater, Bool.false_or, List.any_cons,
          List.any_nil, Bool.or_false]
        by_cases hkey : m.key = a.key
        · rw [if_pos (beq_iff_eq.mpr hkey), List.filter_cons_of_neg]
          rw [bne_iff_ne, not_not]
          exact hkey.symm
        · rw [if_neg (fun h => hkey (beq_iff_eq.mp h)), List.filter_cons_of_pos, List.cons_append]
          exact bne_iff_ne.mpr (Ne.symm hkey)

/-- One more declaration supersedes the last member of its key. -/
theorem supersededAfter_append_singleton (before ms : List Member) (m : Member) :
    supersededAfter before (ms ++ [m])
      = supersededAfter before ms ++ (lastOfKey? m.key (before ++ ms)).toList := by
  induction ms generalizing before with
  | nil =>
      rw [List.nil_append, supersededAfter, supersededAfter, supersededAfter, List.append_nil,
        List.append_nil, List.nil_append]
  | cons a more ih =>
      rw [List.cons_append, supersededAfter, supersededAfter, ih, List.append_assoc,
        List.append_assoc]
      rfl

theorem superseded_append_singleton (ms : List Member) (m : Member) :
    superseded (ms ++ [m]) = superseded ms ++ (lastOfKey? m.key ms).toList :=
  supersededAfter_append_singleton [] ms m

/-! ## What declarations leave -/

/-- **THE LAST DECLARATIONS ARE KEPT**, in their order. -/
theorem Reach.kept_eq_lastDeclared (ms : List Member) : (Reach.of ms).kept = lastDeclared ms := by
  induction ms using List.reverseRecOn with
  | nil => rfl
  | append_singleton ms m ih =>
      rw [Reach.of_append_singleton, Reach.kept_declare, ih, lastDeclared_append_singleton]

/-- Of every key the last declaration is kept, and no other. -/
theorem Reach.kept_filter_key (ms : List Member) (key : String × String × Nat) :
    (Reach.of ms).kept.filter (·.key == key) = (lastOfKey? key ms).toList := by
  induction ms using List.reverseRecOn with
  | nil => rfl
  | append_singleton ms m ih =>
      rw [Reach.of_append_singleton, Reach.kept_declare, lastOfKey?_append_singleton,
        List.filter_append, List.filter_filter]
      by_cases hkey : m.key = key
      · -- those of the key before have been dropped
        have hnone : (Reach.of ms).kept.filter (fun a => a.key == key && a.key != m.key) = [] := by
          rw [List.filter_eq_nil_iff]
          rintro a - ha
          obtain ⟨hsame, hother⟩ := Bool.and_eq_true_iff.mp ha
          exact bne_iff_ne.mp hother ((beq_iff_eq.mp hsame).trans hkey.symm)
        have hone : [m].filter (·.key == key) = [m] :=
          List.filter_cons_of_pos (beq_iff_eq.mpr hkey)
        rw [hnone, hone, if_pos hkey]
        rfl
      · -- those of the key stay as they were
        have hsame : (Reach.of ms).kept.filter (fun a => a.key == key && a.key != m.key)
            = (Reach.of ms).kept.filter (·.key == key) := by
          refine List.filter_congr fun a _ => ?_
          by_cases ha : a.key = key
          · rw [beq_iff_eq.mpr ha, Bool.true_and]
            exact bne_iff_ne.mpr fun h => hkey (h.symm.trans ha)
          · rw [beq_eq_false_iff_ne.mpr ha, Bool.false_and]
        have hnone : [m].filter (·.key == key) = [] :=
          List.filter_cons_of_neg fun h => hkey (beq_iff_eq.mp h)
        rw [hsame, hnone, ih, if_neg hkey, List.append_nil]

/-- **WHAT IS SHADOWED WAS SUPERSEDED**, in the order of what superseded it. -/
theorem Reach.shadowed_eq_superseded (ms : List Member) :
    (Reach.of ms).shadowed = superseded ms := by
  induction ms using List.reverseRecOn with
  | nil => rfl
  | append_singleton ms m ih =>
      rw [Reach.of_append_singleton, superseded_append_singleton, ← ih, ← Reach.kept_filter_key]
      rfl

/-- **NO DECLARATION IS LOST OR DOUBLED.** -/
theorem Reach.perm (ms : List Member) : ((Reach.of ms).kept ++ (Reach.of ms).shadowed).Perm ms := by
  induction ms using List.reverseRecOn with
  | nil => exact .nil
  | append_singleton ms m ih =>
      -- a declaration splits what was kept by the key of the member
      have hsplit : ((Reach.of ms).kept.filter (·.key == m.key)
          ++ (Reach.of ms).kept.filter (·.key != m.key)).Perm (Reach.of ms).kept :=
        List.filter_append_perm _ _
      rw [Reach.of_append_singleton]
      calc ((Reach.of ms).kept.filter (·.key != m.key) ++ [m])
              ++ ((Reach.of ms).shadowed ++ (Reach.of ms).kept.filter (·.key == m.key))
          _ = (Reach.of ms).kept.filter (·.key != m.key)
              ++ (([m] ++ (Reach.of ms).shadowed)
                ++ (Reach.of ms).kept.filter (·.key == m.key)) := by
            rw [List.append_assoc, List.append_assoc]
          List.Perm _ ((([m] ++ (Reach.of ms).shadowed)
                ++ (Reach.of ms).kept.filter (·.key == m.key))
              ++ (Reach.of ms).kept.filter (·.key != m.key)) := List.perm_append_comm
          _ = ([m] ++ (Reach.of ms).shadowed)
              ++ ((Reach.of ms).kept.filter (·.key == m.key)
                ++ (Reach.of ms).kept.filter (·.key != m.key)) := List.append_assoc _ _ _
          List.Perm _ (([m] ++ (Reach.of ms).shadowed) ++ (Reach.of ms).kept) :=
            hsplit.append_left _
          _ = [m] ++ ((Reach.of ms).shadowed ++ (Reach.of ms).kept) := List.append_assoc _ _ _
          List.Perm _ ([m] ++ ms) := (List.perm_append_comm.trans ih).append_left _
          List.Perm _ (ms ++ [m]) := List.perm_append_comm

/-! ## Symbols with the class in them -/

/-- With a class that has a name, the symbols with and without it differ. -/
theorem Member.vmNameIn_ne_vmName {m : Member} (h : m.owner ≠ "") (vmPrefix : String) :
    m.method.vmNameIn m.owner vmPrefix ≠ m.method.vmName vmPrefix := by
  have hempty : ¬ m.owner.isEmpty = true := by
    rw [String.isEmpty_iff]
    exact h
  rw [Member.vmNameIn_eq_symbolWith, Method.vmName_eq_symbolWith, Ne, symbolWith_inj]
  rintro ⟨hstem, -⟩
  rw [Member.qualifiedStem, if_neg hempty] at hstem
  -- the stem with the class is longer
  have hlength := congrArg String.length hstem
  simp only [String.length_append] at hlength
  have hscore : "_".length = 1 := rfl
  omega

/-- Registered members of two classes claim a symbol. -/
def Plan.Contests (p : Plan) (vmPrefix symbol : String) : Prop :=
  ∃ a ∈ p.registrations, ∃ b ∈ p.registrations, a.owner ≠ b.owner ∧
    a.method.vmName vmPrefix = symbol ∧ b.method.vmName vmPrefix = symbol

/-- A symbol of a plan: with the class in it if it is contested without, and
    only then. -/
structure Plan.Names (p : Plan) (vmPrefix : String) (r : Registration) : Prop where
  qualified : r.symbol = r.method.vmNameIn r.owner vmPrefix ↔
    p.Contests vmPrefix (r.method.vmName vmPrefix)
  bare : r.symbol = r.method.vmName vmPrefix ↔
    ¬ p.Contests vmPrefix (r.method.vmName vmPrefix)

theorem Plan.contests_iff {classes : List ClassDecl} {vmPrefix symbol : String} :
    (Plan.of classes vmPrefix).Contests vmPrefix symbol ↔
      isContested vmPrefix (Reach.of (membersOf classes)).kept symbol = true := by
  rw [isContested_iff, ← Plan.registrations_map_toMember classes vmPrefix]
  constructor
  · rintro ⟨a, ha, b, hb, howner, hsa, hsb⟩
    exact ⟨a.toMember, List.mem_map_of_mem ha, b.toMember, List.mem_map_of_mem hb, hsa, hsb, howner⟩
  · rintro ⟨m, hm, m', hm', hsa, hsb, howner⟩
    obtain ⟨a, ha, rfl⟩ := List.mem_map.mp hm
    obtain ⟨b, hb, rfl⟩ := List.mem_map.mp hm'
    exact ⟨a, ha, b, hb, howner, hsa, hsb⟩

/-- A registration or a shadowed one is named after its member. -/
theorem Plan.names_register {classes : List ClassDecl} {vmPrefix : String} {m : Member}
    (howner : m.owner ≠ "") :
    (Plan.of classes vmPrefix).Names vmPrefix
      ⟨m, symbolOf vmPrefix (Reach.of (membersOf classes)).kept m⟩ := by
  have hne := Member.vmNameIn_ne_vmName howner vmPrefix
  by_cases hcontested : isContested vmPrefix (Reach.of (membersOf classes)).kept
      (m.method.vmName vmPrefix) = true
  · have hsymbol : symbolOf vmPrefix (Reach.of (membersOf classes)).kept m
        = m.method.vmNameIn m.owner vmPrefix := if_pos hcontested
    rw [hsymbol]
    have hcontests := Plan.contests_iff.mpr hcontested
    exact ⟨iff_of_true rfl hcontests, iff_of_false hne (not_not.mpr hcontests)⟩
  · have hsymbol : symbolOf vmPrefix (Reach.of (membersOf classes)).kept m
        = m.method.vmName vmPrefix := if_neg hcontested
    rw [hsymbol]
    have hcontests := mt Plan.contests_iff.mp hcontested
    exact ⟨iff_of_false hne.symm hcontests, iff_of_true rfl hcontests⟩

theorem Plan.shadowed_map_toMember (classes : List ClassDecl) (vmPrefix : String) :
    (Plan.of classes vmPrefix).shadowed.map (·.toMember)
      = (Reach.of (membersOf classes)).shadowed := by
  show ((Reach.of (membersOf classes)).shadowed.map _).map _ = _
  rw [List.map_map]
  exact List.map_id _

theorem owner_ne_empty {classes : List ClassDecl} (hnames : ∀ c ∈ classes, c.name ≠ "")
    {m : Member} (hm : m ∈ membersOf classes) : m.owner ≠ "" := by
  obtain ⟨c, hc, howner, -⟩ := mem_membersOf.mp hm
  rw [howner]
  exact hnames c hc

/-! ## The partition -/

/-- What a plan makes of the members of classes. -/
structure Plan.Partitions (p : Plan) (ms : List Member) : Prop where
  /-- Every declaration is registered or shadowed, and once. -/
  complete : (p.registrations.map (·.toMember) ++ p.shadowed.map (·.toMember)).Perm ms
  /-- Of every key the last declaration is registered, and no other. -/
  last : ∀ key, (p.registrations.map (·.toMember)).filter (·.key == key)
    = (lastOfKey? key ms).toList
  registered : p.registrations.map (·.toMember) = lastDeclared ms
  shadowed : p.shadowed.map (·.toMember) = superseded ms

/-- **A PLAN PARTITIONS THE METHODS OF CLASSES** into the last declarations and
    those that they have superseded, and puts the class into a symbol just
    when two classes claim it. -/
theorem plan_partitions (classes : List ClassDecl) (vmPrefix : String)
    (hnames : ∀ c ∈ classes, c.name ≠ "") :
    (Plan.of classes vmPrefix).Partitions (membersOf classes) ∧
      ∀ r ∈ (Plan.of classes vmPrefix).registrations ++ (Plan.of classes vmPrefix).shadowed,
        (Plan.of classes vmPrefix).Names vmPrefix r := by
  have hperm := Reach.perm (membersOf classes)
  constructor
  · constructor
    · rw [Plan.registrations_map_toMember, Plan.shadowed_map_toMember]
      exact hperm
    · intro key
      rw [Plan.registrations_map_toMember]
      exact Reach.kept_filter_key (membersOf classes) key
    · rw [Plan.registrations_map_toMember]
      exact Reach.kept_eq_lastDeclared (membersOf classes)
    · rw [Plan.shadowed_map_toMember]
      exact Reach.shadowed_eq_superseded (membersOf classes)
  · intro r hr
    rw [Plan.of] at hr
    rw [← List.map_append] at hr
    obtain ⟨m, hm, rfl⟩ := List.mem_map.mp hr
    exact Plan.names_register (owner_ne_empty hnames (hperm.mem_iff.mp hm))

/-- Two classes with a method of one name and arity; one of them declares it
    twice. -/
def displayAndSpeaker : List ClassDecl :=
  [{ name := "Display", methods :=
      [⟨"stop", "void", [⟨"int", "frames"⟩], false, false, false⟩,
       ⟨"clear", "void", [], false, false, false⟩,
       ⟨"stop", "void", [⟨"float", "seconds"⟩], false, false, false⟩] },
   { name := "Speaker", methods := [⟨"stop", "bool", [⟨"int", "channel"⟩], false, false, false⟩] }]

/-- The later overload is registered behind the method between the two, and
    both classes claim the symbol that it would have without its class. -/
theorem plan_partitions_displayAndSpeaker :
    (Plan.of displayAndSpeaker "vm").registrations.map (·.toMember)
        = [⟨"Display", ⟨"clear", "void", [], false, false, false⟩⟩,
           ⟨"Display", ⟨"stop", "void", [⟨"float", "seconds"⟩], false, false, false⟩⟩,
           ⟨"Speaker", ⟨"stop", "bool", [⟨"int", "channel"⟩], false, false, false⟩⟩] ∧
      (Plan.of displayAndSpeaker "vm").shadowed.map (·.toMember)
        = [⟨"Display", ⟨"stop", "void", [⟨"int", "frames"⟩], false, false, false⟩⟩] ∧
      ∀ r ∈ (Plan.of displayAndSpeaker "vm").registrations, r.method.name = "stop" →
        (Plan.of displayAndSpeaker "vm").Contests "vm" (r.method.vmName "vm") := by
  obtain ⟨hplan, hnames⟩ := plan_partitions displayAndSpeaker "vm" (by decide)
  have hsymbols : ∀ r ∈ (Plan.of displayAndSpeaker "vm").registrations, r.method.name = "stop" →
      r.symbol = r.method.vmNameIn r.owner "vm" := by decide +kernel
  refine ⟨hplan.registered.trans (by decide +kernel), hplan.shadowed.trans (by decide +kernel), ?_⟩
  intro r hr hstop
  exact (hnames r (List.mem_append_left _ hr)).qualified.mp (hsymbols r hr hstop)

end GemBinder
