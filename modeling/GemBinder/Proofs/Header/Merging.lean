import Mathlib.Data.List.Induction
import Mathlib.Data.List.Nodup
import GemBinder.Header.Frontend
import GemBinder.Proofs.Outcome

/-! # Classes of several headers

    A class may occur in several headers, and several times in one.  All
    occurrences of a name become one class: it stands where the name was
    found first, keeps the header of that occurrence, has the methods of all
    occurrences in their order, and of their enumerations those that no
    earlier occurrence has brought along.

    One more occurrence changes one class or adds one (`Merges.addClass`),
    so this holds by induction over everything that was found. -/

namespace GemBinder.Header

open Files Text

variable {found merged : List ClassDecl} {c d : ClassDecl} {name : String}

/-! ## One class -/

/-- The occurrences of a name, in the order in which they were found. -/
def occurrencesOf (name : String) (found : List ClassDecl) : List ClassDecl :=
  found.filter (·.name == name)

/-- Enumerations together with those of a later occurrence that are not
    among them. -/
def addEnums (known later : List EnumDecl) : List EnumDecl :=
  known ++ later.filter (!known.contains ·)

/-- **A CLASS MADE OF OCCURRENCES.** -/
structure MadeOf (occurrences : List ClassDecl) (c : ClassDecl) : Prop where
  header : occurrences.head?.map (·.header) = some c.header
  methods : c.methods = occurrences.flatMap (·.methods)
  enums : c.enums = (occurrences.map (·.enums)).foldl addEnums []

theorem MadeOf.single (c : ClassDecl) : MadeOf [c] c where
  header := rfl
  methods := (List.append_nil c.methods).symm
  enums := by
    show c.enums = [] ++ c.enums.filter (!([] : List EnumDecl).contains ·)
    rw [List.nil_append, List.filter_eq_self.mpr]
    intro e _
    rfl

/-- One more occurrence is merged into the class of those before it. -/
theorem MadeOf.mergeInto {occurrences : List ClassDecl} (h : MadeOf occurrences d)
    (c : ClassDecl) : MadeOf (occurrences ++ [c]) (mergeInto d c) where
  header := by
    cases occurrences with
    | nil => exact nomatch h.header
    | cons first more => exact h.header
  methods := by
    show d.methods ++ c.methods = _
    rw [List.flatMap_append, ← h.methods, List.flatMap_singleton]
  enums := by
    show addEnums d.enums c.enums = _
    rw [List.map_append, List.foldl_append, ← h.enums]
    rfl

theorem mem_addEnums {e : EnumDecl} {known later : List EnumDecl} :
    e ∈ addEnums known later ↔ e ∈ known ∨ e ∈ later := by
  simp only [addEnums, List.mem_append, List.mem_filter, Bool.not_eq_true',
    List.contains_eq_mem, decide_eq_false_iff_not]
  by_cases he : e ∈ known
  · simp [he]
  · simp [he]

/-- As a set, the enumerations of a class are those of its occurrences. -/
theorem MadeOf.mem_enums {occurrences : List ClassDecl} {e : EnumDecl}
    (h : MadeOf occurrences c) : e ∈ c.enums ↔ ∃ d ∈ occurrences, e ∈ d.enums := by
  have hfold : ∀ (lists : List (List EnumDecl)) (known : List EnumDecl),
      e ∈ lists.foldl addEnums known ↔ e ∈ known ∨ ∃ l ∈ lists, e ∈ l := by
    intro lists
    induction lists with
    | nil => simp
    | cons l lists ih =>
        intro known
        rw [List.foldl_cons, ih, mem_addEnums]
        simp [or_assoc]
  rw [h.enums, hfold]
  simp

/-! ## One more occurrence -/

theorem map_name_addClass (c : ClassDecl) (merged : List ClassDecl) :
    (addClass c merged).map (·.name) =
      if c.name ∈ merged.map (·.name) then merged.map (·.name)
      else merged.map (·.name) ++ [c.name] := by
  induction merged with
  | nil => rfl
  | cons d more ih =>
      rw [addClass]
      by_cases hname : d.name = c.name
      · rw [if_pos (by simpa using hname)]
        simp [mergeInto, hname]
      · rw [if_neg (by simpa using hname), List.map_cons, ih]
        simp only [List.map_cons, List.mem_cons, Ne.symm hname, false_or]
        split <;> rfl

/-- **ONE MORE OCCURRENCE** is merged into the class of its name, or is a
    class of its own; the other classes stay as they are. -/
theorem mem_addClass (hnodup : (merged.map (·.name)).Nodup) (h : d ∈ addClass c merged) :
    (d ∈ merged ∧ d.name ≠ c.name) ∨ (∃ first ∈ merged, first.name = c.name ∧ d = mergeInto first c)
      ∨ (c.name ∉ merged.map (·.name) ∧ d = c) := by
  induction merged with
  | nil => exact .inr (.inr ⟨List.not_mem_nil, List.mem_singleton.mp h⟩)
  | cons first more ih =>
      obtain ⟨hfirst, hmore⟩ := List.nodup_cons.mp hnodup
      rw [addClass] at h
      by_cases hname : first.name = c.name
      · rw [if_pos (by simpa using hname)] at h
        rcases List.mem_cons.mp h with rfl | hd
        · exact .inr (.inl ⟨first, List.mem_cons_self, hname, rfl⟩)
        · -- the names of the others differ from that of the first
          refine .inl ⟨List.mem_cons_of_mem _ hd, fun heq => hfirst ?_⟩
          exact List.mem_map.mpr ⟨d, hd, heq.trans hname.symm⟩
      · rw [if_neg (by simpa using hname)] at h
        rcases List.mem_cons.mp h with rfl | hd
        · exact .inl ⟨List.mem_cons_self, hname⟩
        · rcases ih hmore hd with ⟨hmem, hne⟩ | ⟨again, hmem, hagain, heq⟩ | ⟨hnew, heq⟩
          · exact .inl ⟨List.mem_cons_of_mem _ hmem, hne⟩
          · exact .inr (.inl ⟨again, List.mem_cons_of_mem _ hmem, hagain, heq⟩)
          · refine .inr (.inr ⟨?_, heq⟩)
            rw [List.map_cons, List.mem_cons, not_or]
            exact ⟨Ne.symm hname, hnew⟩

theorem eraseDups_append_singleton (names : List String) (name : String) :
    (names ++ [name]).eraseDups =
      if name ∈ names then names.eraseDups else names.eraseDups ++ [name] := by
  rw [List.eraseDups_append]
  by_cases h : name ∈ names
  · simp [List.removeAll, h]
  · simp [List.removeAll, h, List.eraseDups_cons]

/-! ## All occurrences -/

/-- **CLASSES MERGED BY THEIR NAMES**: the names are distinct and come in
    the order of their first occurrences, and each class is made of the
    occurrences of its name. -/
structure Merges (found merged : List ClassDecl) : Prop where
  names : merged.map (·.name) = (found.map (·.name)).eraseDups
  nodup : (merged.map (·.name)).Nodup
  madeOf : ∀ c ∈ merged, MadeOf (occurrencesOf c.name found) c

/-- A name is among the merged ones just when it has an occurrence. -/
theorem Merges.mem_names (h : Merges found merged) :
    name ∈ merged.map (·.name) ↔ name ∈ found.map (·.name) := by
  rw [h.names, List.mem_eraseDups]

theorem occurrencesOf_append (name : String) (found more : List ClassDecl) :
    occurrencesOf name (found ++ more) = occurrencesOf name found ++ occurrencesOf name more :=
  List.filter_append ..

theorem occurrencesOf_eq_nil (h : name ∉ found.map (·.name)) : occurrencesOf name found = [] := by
  refine List.filter_eq_nil_iff.mpr ?_
  intro d hd heq
  exact h (List.mem_map.mpr ⟨d, hd, by simpa using heq⟩)

/-- **MERGING IS KEPT** by one more occurrence. -/
theorem Merges.addClass (h : Merges found merged) (c : ClassDecl) :
    Merges (found ++ [c]) (addClass c merged) where
  names := by
    rw [map_name_addClass, List.map_append, List.map_singleton, eraseDups_append_singleton,
      h.names]
    simp only [List.mem_eraseDups]
  nodup := by
    rw [map_name_addClass]
    split
    · exact h.nodup
    · next hnew =>
        exact h.nodup.append (List.nodup_singleton _) (List.disjoint_singleton.mpr hnew)
  madeOf := by
    intro d hd
    rw [occurrencesOf_append]
    rcases mem_addClass h.nodup hd with ⟨hmem, hne⟩ | ⟨first, hfirst, hname, rfl⟩ | ⟨hnew, rfl⟩
    · -- an occurrence of another name
      have hother : occurrencesOf d.name [c] = [] :=
        occurrencesOf_eq_nil (by simpa using hne)
      rw [hother, List.append_nil]
      exact h.madeOf d hmem
    · have hagain : occurrencesOf first.name [c] = [c] := by simp [occurrencesOf, hname]
      show MadeOf (occurrencesOf first.name found ++ occurrencesOf first.name [c]) _
      rw [hagain]
      exact (h.madeOf first hfirst).mergeInto c
    · have hself : occurrencesOf d.name [d] = [d] := by simp [occurrencesOf]
      rw [occurrencesOf_eq_nil (h.mem_names.not.mp hnew), hself]
      exact MadeOf.single d

/-- **ALL OCCURRENCES ARE MERGED** by their names. -/
theorem merges_mergeClasses (found : List ClassDecl) : Merges found (mergeClasses found) := by
  induction found using List.reverseRecOn with
  | nil => exact ⟨rfl, List.nodup_nil, nofun⟩
  | append_singleton found c ih =>
      have hfold : mergeClasses (found ++ [c]) = addClass c (mergeClasses found) :=
        List.foldl_concat ..
      rw [hfold]
      exact ih.addClass c

/-! ## Headers one after the other -/

/-- What is told about a header that was read. -/
def Frontend.tally (f : Frontend) (header : String) (classes : List ClassDecl) : String :=
  let methods := (classes.flatMap (·.methods)).length
  s!"[{f.name}] {header}: {classes.length} class(es), {methods} method(s)"

/-- **HEADERS ARE READ ONE AFTER THE OTHER**, each with success: `found` has
    the classes of each of them. -/
inductive Frontend.Reads (f : Frontend) :
    World → List String → List (List ClassDecl) → World → Prop where
  | nil {w : World} : f.Reads w [] [] w
  | cons {w w' w'' : World} {header : String} {classes : List ClassDecl} {headers : List String}
      {found : List (List ClassDecl)} :
      outcome (f.classes header) w = (.ok classes, w') →
      f.Reads (w'.tell { level := .debug, message := f.tally header classes }) headers found w'' →
      f.Reads w (header :: headers) (classes :: found) w''

variable {f : Frontend} {headers : List String} {w w' : World}

/-- What a run over headers gives is what was found in each of them. -/
theorem Frontend.Reads.outcome_forIn {lists : List (List ClassDecl)}
    (h : f.Reads w headers lists w') (found : List ClassDecl) :
    outcome (forIn headers found fun header found => do
        let classes ← f.classes header
        let methods := (classes.flatMap (·.methods)).length
        Step.debug s!"[{f.name}] {header}: {classes.length} class(es), {methods} method(s)"
        pure (.yield (found ++ classes)) : Step (List ClassDecl)) w =
      (.ok (found ++ lists.flatten), w') := by
  induction h generalizing found with
  | nil =>
      rw [List.flatten_nil, List.append_nil]
      rfl
  | cons hclasses _ ih =>
      rw [List.forIn_cons, bind_assoc, outcome_bind_of_ok hclasses, List.flatten_cons,
        ← List.append_assoc, ← ih]
      rfl

/-- **THE CLASSES OF HEADERS**: where every header can be read, so can all of
    them, and their classes are merged by their names. -/
theorem allClasses_merges {lists : List (List ClassDecl)} (h : f.Reads w headers lists w') :
    ∃ merged, outcome (f.allClasses headers) w = (.ok merged, w') ∧
      Merges lists.flatten merged ∧
      ∀ c ∈ merged, ∀ e, e ∈ c.enums ↔ ∃ d ∈ lists.flatten, d.name = c.name ∧ e ∈ d.enums := by
  have hmerges := merges_mergeClasses lists.flatten
  refine ⟨mergeClasses lists.flatten, ?_, hmerges, ?_⟩
  · rw [Frontend.allClasses, outcome_bind_of_ok (h.outcome_forIn [])]
    rfl
  · intro c hc e
    rw [(hmerges.madeOf c hc).mem_enums]
    simp only [occurrencesOf, List.mem_filter, beq_iff_eq, and_assoc]

/-- Two headers with a class in common. -/
def twoHeaders : World where
  tree := ((({} : FileTree).put ["a"]
    (.file (encode "class A\x7benum E\x7bX\x7d;void f();\x7d;"))).put ["b"]
    (.file (encode "class B\x7b\x7d;class A\x7benum E\x7bX\x7d;enum G\x7bY\x7d;void g();\x7d;")))

/-- The class that both headers declare keeps its place and its header, and
    gets the method and the enumeration that only the second one has. -/
theorem allClasses_merges_twoHeaders :
    let first : List ClassDecl := [⟨"A", [⟨"f", "void", [], false, false, false⟩],
      [⟨"E", [⟨"X", none⟩], false⟩], "a"⟩]
    let second : List ClassDecl := [⟨"B", [], [], "b"⟩,
      ⟨"A", [⟨"g", "void", [], false, false, false⟩],
        [⟨"E", [⟨"X", none⟩], false⟩, ⟨"G", [⟨"Y", none⟩], false⟩], "b"⟩]
    ∃ w', Frontend.Reads {} twoHeaders ["a", "b"] [first, second] w' ∧
      ∃ merged, outcome (({} : Frontend).allClasses ["a", "b"]) twoHeaders = (.ok merged, w') ∧
        Merges (first ++ second) merged ∧ merged.map (·.name) = ["A", "B"] := by
  intro first second
  have hfirst := outcome_eq_ok_of_toOption (x := ({} : Frontend).classes "a")
    (s := twoHeaders) (a := first) (by decide +kernel)
  have hsecond := outcome_eq_ok_of_toOption (x := ({} : Frontend).classes "b")
    (s := (outcome (({} : Frontend).classes "a") twoHeaders).2.tell
      { level := .debug, message := ({} : Frontend).tally "a" first })
    (a := second) (by decide +kernel)
  have hreads := Frontend.Reads.cons hfirst (.cons hsecond .nil)
  obtain ⟨merged, houtcome, hmerges, -⟩ := allClasses_merges hreads
  refine ⟨_, hreads, merged, houtcome, hmerges, ?_⟩
  rw [hmerges.names]
  decide

end GemBinder.Header
