import Mathlib.Data.List.Forall2
import Mathlib.Data.List.Infix
import Mathlib.Data.List.Lex
import Mathlib.Tactic.FinCases
import GemBinder.Header.Frontend
import GemBinder.Proofs.Failure
import GemBinder.Proofs.World

/-! # What the compiler front end offers of a header

    A cursor is known by its position in the tree: the indices on the way
    down to it.  In the lexicographic order a position comes before those
    below it, and those below it before its later siblings, so this is the
    order in which a document shows its cursors.

    The traversal enters namespaces and the classes that it offers, and no
    other cursor.  `Cursor.offers` goes along with it and notes positions; a
    position is noted just when its cursor is offered and the traversal
    passes through every cursor above it (`Cursor.mem_offers`). -/

namespace GemBinder.Header

open Files Text

/-! ## What a cursor has to be -/

/-- Access that lets others in: public, or none that is known. -/
def CursorInfo.Accessible (i : CursorInfo) : Prop :=
  i.access = none ∨ i.access = some "PUBLIC" ∨ i.access = some "INVALID"

instance (i : CursorInfo) : Decidable i.Accessible := inferInstanceAs (Decidable (_ ∨ _ ∨ _))

/-- **AN OFFERED CLASS**: an accessible definition of a class with a name,
    in the header itself. -/
structure CursorInfo.Offered (inHeader : InHeader) (i : CursorInfo) : Prop where
  kind : i.kind = some "CLASS_DECL" ∨ i.kind = some "STRUCT_DECL"
  inHeader : inHeader i = true
  definition : i.isDefinition = true
  named : i.name ≠ ""
  accessible : i.Accessible

/-- A method that can be called from outside. -/
def CursorInfo.Callable (i : CursorInfo) : Prop := i.kind = some "CXX_METHOD" ∧ i.Accessible

instance (i : CursorInfo) : Decidable i.Callable := inferInstanceAs (Decidable (_ ∧ _))

variable {inHeader : InHeader} {i : CursorInfo}

theorem isKind_iff {kind : String} (hkind : kind ≠ "") : i.isKind kind = true ↔ i.kind = some kind := by
  rw [CursorInfo.isKind, beq_iff_eq]
  cases i.kind with
  | none => simpa using hkind.symm
  | some k => simp

theorem isNamespace_iff : i.isNamespace = true ↔ i.kind = some "NAMESPACE" :=
  isKind_iff (by decide)

theorem isOpen_iff : i.isOpen = true ↔ i.Accessible := by
  unfold CursorInfo.isOpen CursorInfo.Accessible
  cases i.access with
  | none => simp
  | some access => simp

theorem offersClass_iff : offersClass inHeader i = true ↔ i.Offered inHeader := by
  simp only [offersClass, CursorInfo.isClass, CursorInfo.definesName, Bool.and_eq_true,
    Bool.or_eq_true, isKind_iff (show "CLASS_DECL" ≠ "" by decide),
    isKind_iff (show "STRUCT_DECL" ≠ "" by decide), isOpen_iff, Bool.not_eq_true',
    String.isEmpty_eq_false_iff]
  constructor
  · rintro ⟨⟨⟨hkind, hheader⟩, hdefinition, hname⟩, haccess⟩
    exact ⟨hkind, hheader, hdefinition, hname, haccess⟩
  · rintro ⟨hkind, hheader, hdefinition, hname, haccess⟩
    exact ⟨⟨⟨hkind, hheader⟩, hdefinition, hname⟩, haccess⟩

theorem isMethod_iff : i.isMethod = true ↔ i.Callable := by
  rw [CursorInfo.isMethod, Bool.and_eq_true, isKind_iff (by decide), isOpen_iff]
  rfl

/-- A namespace is no class. -/
theorem not_isNamespace_of_offersClass (h : offersClass inHeader i = true) :
    i.isNamespace = false := by
  rw [Bool.eq_false_iff, Ne, isNamespace_iff]
  intro hspace
  rcases (offersClass_iff.mp h).kind with hkind | hkind
  · exact absurd (hspace.symm.trans hkind) (by decide)
  · exact absurd (hspace.symm.trans hkind) (by decide)

/-- What the traversal goes through. -/
def CursorInfo.Passed (inHeader : InHeader) (i : CursorInfo) : Prop :=
  i.isNamespace = true ∨ offersClass inHeader i = true

/-! ## Positions -/

/-- The cursor at a position below a cursor. -/
def Cursor.at? (c : Cursor) : List Nat → Option Cursor
  | [] => some c
  | k :: p => c.children[k]?.bind (·.at? p)

/-- The cursor at a position below the root of a tree; the root itself is
    none of its cursors. -/
def cursorAt? (nodes : List Cursor) : List Nat → Option Cursor
  | [] => none
  | k :: p => nodes[k]?.bind (·.at? p)

mutual

/-- The positions of the offered classes of a cursor. -/
def Cursor.offers (inHeader : InHeader) : Cursor → List (List Nat)
  | .node info children =>
      if info.isNamespace then offersFrom inHeader 0 children
      else if offersClass inHeader info then [] :: offersFrom inHeader 0 children
      else []

/-- The positions of the offered classes of cursors, of which the first has
    a given index. -/
def offersFrom (inHeader : InHeader) (k : Nat) : List Cursor → List (List Nat)
  | [] => []
  | c :: more => (c.offers inHeader).map (k :: ·) ++ offersFrom inHeader (k + 1) more

end

/-- What holds of a cursor whenever it holds of those below it holds of all
    cursors. -/
theorem Cursor.induction {P : Cursor → Prop}
    (node : ∀ info children, (∀ c ∈ children, P c) → P (.node info children)) (c : Cursor) :
    P c := by
  refine Cursor.rec (motive_1 := P) (motive_2 := fun children => ∀ c ∈ children, P c)
    node ?_ ?_ c
  · exact nofun
  · intro c more hc hmore
    exact List.forall_mem_cons.mpr ⟨hc, hmore⟩

variable {nodes : List Cursor} {k : Nat} {p q : List Nat}

/-- A position below cursors is one below a cursor, with its index. -/
theorem mem_offersFrom : p ∈ offersFrom inHeader k nodes ↔
    ∃ j c q, nodes[j]? = some c ∧ q ∈ c.offers inHeader ∧ p = (k + j) :: q := by
  induction nodes generalizing k with
  | nil => simp [offersFrom]
  | cons c more ih =>
      rw [offersFrom, List.mem_append, List.mem_map, ih]
      constructor
      · rintro (⟨q, hq, rfl⟩ | ⟨j, d, q, hd, hq, rfl⟩)
        · exact ⟨0, c, q, rfl, hq, rfl⟩
        · exact ⟨j + 1, d, q, hd, hq, by rw [Nat.add_assoc, Nat.add_comm 1 j]⟩
      · rintro ⟨j, d, q, hd, hq, rfl⟩
        cases j with
        | zero =>
            obtain rfl := Option.some.inj hd
            exact .inl ⟨q, hq, rfl⟩
        | succ j => exact .inr ⟨j, d, q, hd, hq, by rw [Nat.add_assoc, Nat.add_comm 1 j]⟩

theorem mem_offersFrom_zero : p ∈ offersFrom inHeader 0 nodes ↔
    ∃ j c q, nodes[j]? = some c ∧ q ∈ c.offers inHeader ∧ p = j :: q := by
  simp only [mem_offersFrom, Nat.zero_add]

/-! ## Which positions are noted -/

/-- **A REACHED POSITION**, where `look` finds the cursors: it has a class to
    offer, and the traversal goes through every cursor above it. -/
structure Reached (inHeader : InHeader) (look : List Nat → Option Cursor) (p : List Nat) :
    Prop where
  offered : ∃ n, look p = some n ∧ offersClass inHeader n.info = true
  above : ∀ q a, q <+: p → q ≠ p → look q = some a → a.info.Passed inHeader

variable {look : List Nat → Option Cursor}

theorem prefix_cons_cases (h : q <+: k :: p) : q = [] ∨ ∃ r, q = k :: r ∧ r <+: p := by
  cases q with
  | nil => exact .inl rfl
  | cons j r =>
      obtain ⟨rfl, hr⟩ := List.cons_prefix_cons.mp h
      exact .inr ⟨r, rfl, hr⟩

/-- A position is reached just when what is at the top is passed, if
    anything is, and the rest of the position is reached from the cursor
    below. -/
theorem reached_cons (hlook : ∀ k p, look (k :: p) = nodes[k]?.bind (·.at? p)) :
    Reached inHeader look (k :: p) ↔ (∀ a, look [] = some a → a.info.Passed inHeader) ∧
      ∃ c, nodes[k]? = some c ∧ Reached inHeader c.at? p := by
  constructor
  · rintro ⟨⟨n, hn, hoffers⟩, habove⟩
    rw [hlook, Option.bind_eq_some_iff] at hn
    obtain ⟨c, hc, hat⟩ := hn
    refine ⟨fun a => habove [] a List.nil_prefix nofun, c, hc, ⟨n, hat, hoffers⟩, ?_⟩
    intro q a hprefix hne ha
    refine habove (k :: q) a (List.cons_prefix_cons.mpr ⟨rfl, hprefix⟩) ?_ ?_
    · exact fun heq => hne (List.cons.inj heq).2
    · rw [hlook]
      exact Option.bind_eq_some_iff.mpr ⟨c, hc, ha⟩
  · rintro ⟨htop, c, hc, ⟨n, hat, hoffers⟩, habove⟩
    refine ⟨⟨n, ?_, hoffers⟩, ?_⟩
    · rw [hlook]
      exact Option.bind_eq_some_iff.mpr ⟨c, hc, hat⟩
    · intro q a hprefix hne ha
      rcases prefix_cons_cases hprefix with rfl | ⟨r, rfl, hr⟩
      · exact htop a ha
      · rw [hlook, hc] at ha
        exact habove r a hr (fun heq => hne (congrArg _ heq)) ha

theorem reached_nil {c : Cursor} :
    Reached inHeader c.at? [] ↔ offersClass inHeader c.info = true := by
  constructor
  · rintro ⟨⟨n, hn, hoffers⟩, -⟩
    obtain rfl := Option.some.inj hn
    exact hoffers
  · intro hoffers
    exact ⟨⟨c, rfl, hoffers⟩, fun q a hq hne => absurd (List.prefix_nil.mp hq) hne⟩

/-- **THE NOTED POSITIONS** are those that the traversal reaches. -/
theorem Cursor.mem_offers {c : Cursor} : p ∈ c.offers inHeader ↔ Reached inHeader c.at? p := by
  induction c using Cursor.induction generalizing p with
  | node info children ih =>
      rw [Cursor.offers]
      cases p with
      | nil =>
          have hbelow : [] ∉ offersFrom inHeader 0 children := by
            rw [mem_offersFrom_zero]
            rintro ⟨j, c, q, -, -, heq⟩
            exact nomatch heq
          rw [reached_nil, Cursor.info]
          by_cases hoffers : offersClass inHeader info = true
          · simp [not_isNamespace_of_offersClass hoffers, hoffers]
          · split
            · simp [hbelow, hoffers]
            · simp [hoffers]
      | cons j p =>
          have hbelow : j :: p ∈ offersFrom inHeader 0 children ↔
              ∃ c, children[j]? = some c ∧ Reached inHeader c.at? p := by
            rw [mem_offersFrom_zero]
            constructor
            · rintro ⟨j, c, p, hc, hp, heq⟩
              obtain ⟨rfl, rfl⟩ := List.cons.inj heq
              exact ⟨c, hc, (ih c (List.mem_of_getElem? hc)).mp hp⟩
            · rintro ⟨c, hc, hp⟩
              exact ⟨j, c, p, hc, (ih c (List.mem_of_getElem? hc)).mpr hp, rfl⟩
          have htop : (∀ a, (Cursor.node info children).at? [] = some a → a.info.Passed inHeader) ↔
              info.Passed inHeader := by
            constructor
            · intro h
              exact h _ rfl
            · rintro h a ha
              obtain rfl := Option.some.inj ha
              exact h
          have hlook : ∀ k p, (Cursor.node info children).at? (k :: p) =
              children[k]?.bind (·.at? p) := fun _ _ => rfl
          rw [reached_cons hlook, ← hbelow, htop, CursorInfo.Passed]
          by_cases hspace : info.isNamespace = true
          · simp [hspace]
          · by_cases hoffers : offersClass inHeader info = true
            · simp [hspace, hoffers]
            · simp [hspace, hoffers]

theorem mem_offersFrom_iff_reached :
    p ∈ offersFrom inHeader 0 nodes ↔ Reached inHeader (cursorAt? nodes) p := by
  cases p with
  | nil =>
      constructor
      · intro h
        obtain ⟨j, c, q, -, -, heq⟩ := mem_offersFrom_zero.mp h
        exact nomatch heq
      · rintro ⟨⟨n, hn, -⟩, -⟩
        exact nomatch hn
  | cons j p =>
      have htop : ∀ a, cursorAt? nodes [] = some a → a.info.Passed inHeader := nofun
      rw [reached_cons fun _ _ => rfl, and_iff_right htop, mem_offersFrom_zero]
      constructor
      · rintro ⟨j, c, p, hc, hp, heq⟩
        obtain ⟨rfl, rfl⟩ := List.cons.inj heq
        exact ⟨c, hc, Cursor.mem_offers.mp hp⟩
      · rintro ⟨c, hc, hp⟩
        exact ⟨j, c, p, hc, Cursor.mem_offers.mpr hp, rfl⟩

/-- A position is reached just when its cursor is offered and each one above
    it is a namespace or is reached itself. -/
theorem reached_iff : Reached inHeader look p ↔
    ∃ n, look p = some n ∧ n.info.Offered inHeader ∧
      ∀ q a, q <+: p → q ≠ p → look q = some a →
        a.info.kind = some "NAMESPACE" ∨ Reached inHeader look q := by
  constructor
  · rintro ⟨⟨n, hn, hoffers⟩, habove⟩
    refine ⟨n, hn, offersClass_iff.mp hoffers, fun q a hq hne ha => ?_⟩
    rcases habove q a hq hne ha with hspace | hclass
    · exact .inl (isNamespace_iff.mp hspace)
    · -- what is above a cursor above is above as well
      refine .inr ⟨⟨a, ha, hclass⟩, fun r b hr hrq hb => habove r b (hr.trans hq) ?_ hb⟩
      rintro rfl
      exact hrq (hr.eq_of_length (Nat.le_antisymm hr.length_le hq.length_le))
  · rintro ⟨n, hn, hoffered, habove⟩
    refine ⟨⟨n, hn, offersClass_iff.mpr hoffered⟩, fun q a hq hne ha => ?_⟩
    rcases habove q a hq hne ha with hspace | ⟨⟨b, hb, hclass⟩, -⟩
    · exact .inl (isNamespace_iff.mpr hspace)
    · obtain rfl := Option.some.inj (ha.symm.trans hb)
      exact .inr hclass

/-! ## The order of positions -/

/-- Positions come in the order of the document, each once. -/
theorem pairwise_offersFrom (h : ∀ c ∈ nodes, (c.offers inHeader).Pairwise (· < ·)) :
    (offersFrom inHeader k nodes).Pairwise (· < ·) := by
  induction nodes generalizing k with
  | nil => exact List.Pairwise.nil
  | cons c more ih =>
      obtain ⟨hc, hmore⟩ := List.forall_mem_cons.mp h
      rw [offersFrom, List.pairwise_append, List.pairwise_map]
      refine ⟨hc.imp fun hlt => List.cons_lt_cons_iff.mpr (.inr ⟨rfl, hlt⟩), ih hmore, ?_⟩
      intro a ha b hb
      obtain ⟨p, -, rfl⟩ := List.mem_map.mp ha
      obtain ⟨j, d, q, -, -, rfl⟩ := mem_offersFrom.mp hb
      exact List.cons_lt_cons_iff.mpr (.inl (by omega))

theorem Cursor.pairwise_offers (c : Cursor) : (c.offers inHeader).Pairwise (· < ·) := by
  induction c using Cursor.induction with
  | node info children ih =>
      rw [Cursor.offers]
      have hchildren := pairwise_offersFrom (k := 0) ih
      split
      · exact hchildren
      · split
        · refine List.pairwise_cons.mpr ⟨?_, hchildren⟩
          intro p hp
          obtain ⟨j, d, q, -, -, rfl⟩ := mem_offersFrom_zero.mp hp
          exact List.nil_lt_cons j q
        · exact List.Pairwise.nil

/-! ## The cursors at the positions -/

theorem forall₂_offersFrom
    (h : ∀ c ∈ nodes, List.Forall₂ (fun p n => c.at? p = some n) (c.offers inHeader)
      (c.classes inHeader)) :
    List.Forall₂ (fun p n => ∃ j c q, p = (k + j) :: q ∧ nodes[j]? = some c ∧ c.at? q = some n)
      (offersFrom inHeader k nodes) (classesOf inHeader nodes) := by
  induction nodes generalizing k with
  | nil => exact List.Forall₂.nil
  | cons c more ih =>
      obtain ⟨hc, hmore⟩ := List.forall_mem_cons.mp h
      rw [offersFrom, classesOf]
      refine List.rel_append ?_ ?_
      · rw [List.forall₂_map_left_iff]
        exact hc.imp fun p n hat => ⟨0, c, p, rfl, rfl, hat⟩
      · refine (ih (k := k + 1) hmore).imp ?_
        rintro _ n ⟨j, d, q, rfl, hd, hat⟩
        exact ⟨j + 1, d, q, by rw [Nat.add_assoc, Nat.add_comm 1 j], hd, hat⟩

/-- The traversal takes the cursors at the noted positions. -/
theorem Cursor.forall₂_offers (c : Cursor) :
    List.Forall₂ (fun p n => c.at? p = some n) (c.offers inHeader) (c.classes inHeader) := by
  induction c using Cursor.induction with
  | node info children ih =>
      rw [Cursor.offers, Cursor.classes]
      have hchildren : List.Forall₂ (fun p n => (Cursor.node info children).at? p = some n)
          (offersFrom inHeader 0 children) (classesOf inHeader children) := by
        refine (forall₂_offersFrom ih).imp ?_
        rintro _ n ⟨j, d, q, rfl, hd, hat⟩
        rw [Nat.zero_add]
        exact Option.bind_eq_some_iff.mpr ⟨d, hd, hat⟩
      split
      · exact hchildren
      · split
        · exact List.Forall₂.cons rfl hchildren
        · exact List.Forall₂.nil

/-! ## The classes of a header -/

/-- **THE TREE OF A HEADER**: the header is a file, and the compiler front end
    can be used and presents the header as cursors. -/
structure Presents (compiler : Compiler) (w : World) (header : String) (nodes : List Cursor) :
    Prop where
  isFile : w.tree.isFile w.workDir (Path.ofString header) = true
  usable : compiler.check = .ok ()
  output : ∃ diagnostics,
    compiler.outputFor w.workDir (w.resolved (Path.ofString header)).parts =
      .cursors nodes diagnostics

/-- Whether a cursor stands in the file that a header names. -/
def insideOf (w : World) (header : String) : InHeader :=
  standsIn w.workDir (w.resolved (Path.ofString header))

variable {compiler : Compiler} {w : World} {header : String}

/-- Telling messages ends well, in the working directory. -/
theorem exists_debugAll {α : Type} (message : α → String) (l : List α) (w : World) :
    ∃ w', w'.workDir = w.workDir ∧ outcome (forIn l PUnit.unit fun a _ => do
      Step.debug (message a)
      pure (.yield PUnit.unit) : Step PUnit) w = (.ok ⟨⟩, w') := by
  obtain ⟨w', hw'⟩ := Step.exists_tellAll (f := fun a => Step.debug (message a))
    (fun _ _ => ⟨_, rfl⟩) l w
  refine ⟨w', ?_, hw'⟩
  have hround : ∀ a, Keeps (fun v : World => v.workDir = w.workDir) (Step.debug (message a)) :=
    fun a => Keeps.modify fun v hv => (World.workDir_tell v _).trans hv
  have hkeeps : Keeps (fun v : World => v.workDir = w.workDir)
      (forIn l PUnit.unit fun a _ => do
        Step.debug (message a)
        pure (.yield PUnit.unit) : Step PUnit) :=
    Keeps.forIn l PUnit.unit fun a _ _ => (hround a).bind fun _ => Keeps.pure _
  have hend := hkeeps w rfl
  rw [hw'] at hend
  exact hend

theorem Presents.outcome_compiledHeader (h : Presents compiler w header nodes) :
    ∃ w', w'.workDir = w.workDir ∧ outcome (compiledHeader compiler header) w =
      (.ok (w.resolved (Path.ofString header), nodes), w') := by
  obtain ⟨diagnostics, houtput⟩ := h.output
  have hrequire : outcome (requireFile header) w =
      (.ok (w.resolved (Path.ofString header)), w) := by
    rw [requireFile, outcome_get_bind, if_pos h.isFile]
    rfl
  have hcheck : outcome (Step.ofAttempt compiler.check) w = (.ok (), w) := by
    rw [Step.outcome_ofAttempt, h.usable]
  obtain ⟨w', hwork, htell⟩ := exists_debugAll (fun d => s!"[clang] {d}") diagnostics w
  refine ⟨w', hwork, ?_⟩
  rw [compiledHeader, outcome_bind_of_ok hrequire, outcome_bind_of_ok hcheck, outcome_get_bind,
    houtput]
  dsimp only
  rw [outcome_bind_of_ok htell]
  rfl

/-- The classes of a header are those that the traversal takes from its tree. -/
theorem Presents.outcome_classes {f : Frontend} (hf : f.engine = .compiler compiler)
    (h : Presents compiler w header nodes) :
    ∃ w', outcome (f.classes header) w =
      (.ok ((classesOf (insideOf w header) nodes).map
        (Cursor.toClass (w.resolved (Path.ofString header)).toString)), w') := by
  obtain ⟨w₁, hwork, hcompiled⟩ := h.outcome_compiledHeader
  obtain ⟨w', -, htell⟩ := exists_debugAll (fun notice => notice)
    ((classesOf (insideOf w header) nodes).flatMap Cursor.classNotices) w₁
  refine ⟨w', ?_⟩
  rw [Frontend.classes, hf]
  dsimp only
  rw [outcome_bind_of_ok hcompiled, outcome_get_bind, hwork]
  exact outcome_bind_of_ok htell

/-- **WHAT A HEADER OFFERS**: the compiler front end returns, in the order of
    the document and once for each cursor, the offered classes of the header
    above which there are only namespaces and classes that are returned as
    well; each with its methods that can be called from outside. -/
theorem classes_of_tree {f : Frontend} (hf : f.engine = .compiler compiler)
    (h : Presents compiler w header nodes) :
    ∃ positions classes w', outcome (f.classes header) w = (.ok classes, w') ∧
      positions.Pairwise (· < ·) ∧
      (∀ p, p ∈ positions ↔ ∃ n, cursorAt? nodes p = some n ∧
        n.info.Offered (insideOf w header) ∧
        ∀ q a, q <+: p → q ≠ p → cursorAt? nodes q = some a →
          a.info.kind = some "NAMESPACE" ∨ q ∈ positions) ∧
      List.Forall₂ (fun p c => ∃ n, cursorAt? nodes p = some n ∧ c.name = n.info.name ∧
        c.methods = (n.children.filter (·.info.Callable)).map (·.info.toMethod))
        positions classes := by
  obtain ⟨w', houtcome⟩ := h.outcome_classes hf
  refine ⟨offersFrom (insideOf w header) 0 nodes, _, w', houtcome,
    pairwise_offersFrom fun c _ => c.pairwise_offers, ?_, ?_⟩
  · intro p
    simp only [mem_offersFrom_iff_reached]
    exact reached_iff
  · rw [List.forall₂_map_right_iff]
    refine (forall₂_offersFrom fun c _ => c.forall₂_offers).imp ?_
    rintro _ n ⟨j, d, q, rfl, hd, hat⟩
    rw [Nat.zero_add]
    refine ⟨n, Option.bind_eq_some_iff.mpr ⟨d, hd, hat⟩, rfl, ?_⟩
    refine congrArg _ (List.filter_congr fun m _ => ?_)
    rw [Bool.eq_iff_iff, isMethod_iff, decide_eq_true_iff]

/-- A machine with an empty header. -/
def oneHeader : World where
  tree := ({} : FileTree).put ["a.h"] (.file [])

/-- A compiler front end that presents that header as cursors. -/
def Compiler.showing (nodes : List Cursor) : Compiler := .present [("a.h", .cursors nodes [])]

theorem presents_oneHeader (nodes : List Cursor) :
    Presents (.showing nodes) oneHeader "a.h" nodes where
  isFile := by decide +kernel
  usable := rfl
  output := ⟨[], rfl⟩

/-- A class in a namespace with a public and a private class inside, beside
    another one that is only announced. -/
def nestedClasses : List Cursor :=
  [.node { kind := some "NAMESPACE", name := "N" }
    [.node { kind := some "CLASS_DECL", name := "A" }
      [.node { kind := some "STRUCT_DECL", name := "Open", access := some "PUBLIC" } [],
        .node { kind := some "CLASS_DECL", name := "Hidden", access := some "PRIVATE" } [],
        .node { kind := some "CXX_METHOD", name := "f", access := some "PUBLIC",
                returnType := "int", arguments := [("int", "n"), ("const char *", "")],
                isConst := .answer true } [],
        .node { kind := some "CXX_METHOD", name := "g", access := some "PROTECTED" } []],
      .node { kind := some "CLASS_DECL", name := "Later", isDefinition := false } []]]

/-- Of the classes in the namespace, the one that is defined is returned with
    its public method, and of those inside it the public one. -/
theorem classes_of_tree_nestedClasses :
    let f : Frontend := { engine := .compiler (.showing nestedClasses) }
    Presents (.showing nestedClasses) oneHeader "a.h" nestedClasses ∧
      ∃ positions classes w', outcome (f.classes "a.h") oneHeader = (.ok classes, w') ∧
        List.Forall₂ (fun p c => ∃ n, cursorAt? nestedClasses p = some n ∧ c.name = n.info.name ∧
          c.methods = (n.children.filter (·.info.Callable)).map (·.info.toMethod))
          positions classes ∧
        [0, 0] ∈ positions ∧ [0, 0, 0] ∈ positions ∧ [0, 0, 1] ∉ positions ∧ [0, 1] ∉ positions ∧
        ∃ c ∈ classes, c.name = "A" ∧ c.methods =
          [⟨"f", "int", [⟨"int", "n"⟩, ⟨"const char *", none⟩], false, true, false⟩] := by
  intro f
  have hpresents := presents_oneHeader nestedClasses
  obtain ⟨positions, classes, w', houtcome, -, hpositions, hclasses⟩ :=
    classes_of_tree (f := f) rfl hpresents
  have houter : [0, 0] ∈ positions := by
    refine (hpositions _).mpr ⟨_, rfl, ⟨.inl rfl, rfl, rfl, by decide, .inl rfl⟩, ?_⟩
    intro q a hq hne ha
    have hinits : q ∈ [[], [0], [0, 0]] := (List.mem_inits q [0, 0]).mpr hq
    fin_cases hinits
    · exact nomatch ha
    · obtain rfl := Option.some.inj ha
      exact .inl rfl
    · exact absurd rfl hne
  have hinner : [0, 0, 0] ∈ positions := by
    refine (hpositions _).mpr ⟨_, rfl, ⟨.inr rfl, rfl, rfl, by decide, .inr (.inl rfl)⟩, ?_⟩
    intro q a hq hne ha
    have hinits : q ∈ [[], [0], [0, 0], [0, 0, 0]] := (List.mem_inits q [0, 0, 0]).mpr hq
    fin_cases hinits
    · exact nomatch ha
    · obtain rfl := Option.some.inj ha
      exact .inl rfl
    · exact .inr houter
    · exact absurd rfl hne
  refine ⟨hpresents, positions, classes, w', houtcome, hclasses, houter, hinner, ?_, ?_, ?_⟩
  · intro hmem
    obtain ⟨n, hn, hoffered, -⟩ := (hpositions _).mp hmem
    obtain rfl := Option.some.inj hn
    exact absurd hoffered.accessible (by decide)
  · intro hmem
    obtain ⟨n, hn, hoffered, -⟩ := (hpositions _).mp hmem
    obtain rfl := Option.some.inj hn
    exact absurd hoffered.definition (by decide)
  · obtain ⟨c, hc, n, hn, hname, hmethods⟩ := exists_of_mem_forall₂ hclasses houter
    obtain rfl := Option.some.inj hn
    exact ⟨c, hc, hname, hmethods.trans (by decide +kernel)⟩

end GemBinder.Header
