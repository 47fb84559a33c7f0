import GemBinder.Proofs.Header.Braces
import GemBinder.Proofs.Header.HeadLayout
import GemBinder.Proofs.Header.Occurrences
import GemBinder.Proofs.Header.Reading

/-! # Nested code

    The body of a class is found by its braces, its methods are those outside
    all blocks, and the search for classes goes on behind it.  Two texts that
    differ in a block inside the body of a class are compared along the search:
    the same classes are found before that one (`exists_scan_around`), since
    whether a class is found at a place does not depend on what stands behind
    its opening brace; the bodies of that one have the same top level, since
    both blocks are left out; and behind it nothing can tell what stood in
    front of its closing brace (`scanFrom_behind_close`). -/

namespace GemBinder.Header

open Files

variable {s z y rest head name before u v w w' code : List Char} {c : ClassText}

/-! ## The search for a class -/

/-- What stands behind an opening brace does not matter to whether a class is
    found before it. -/
theorem classAt_eq_none_congr (h : classAt before (z ++ '{' :: y) = none) (y' : List Char) :
    classAt before (z ++ '{' :: y') = none := by
  cases hfind : classAt before (z ++ '{' :: y') with
  | none => rfl
  | some found =>
      obtain ⟨hbarred, head, more, htext, hhead, -⟩ :=
        classAt_eq_some_iff.mp (show _ = some (found.1, found.2) from hfind)
      obtain ⟨more', htext'⟩ : ∃ more', z ++ '{' :: y = head ++ '{' :: more' := by
        rcases first_mark_cases htext.symm hhead.brace_notMem with ⟨rfl, -⟩ | ⟨z', rfl, -⟩
        · exact ⟨y, rfl⟩
        · exact ⟨z' ++ '{' :: y, by rw [List.append_assoc, List.cons_append]⟩
      have hfound : classAt before (z ++ '{' :: y)
          = some (⟨found.1.name, (takeBlock more').1⟩, (takeBlock more').2) :=
        classAt_eq_some_iff.mpr ⟨hbarred, head, more', htext', hhead, rfl⟩
      exact nomatch h.symm.trans hfound

/-! ## The search goes on -/

/-- Behind a closing brace, no class is barred by what stands before it. -/
theorem isBarred_behind_close (t p q : List Char) :
    isBarred (t ++ '}' :: p) = isBarred (t ++ '}' :: q) := by
  have hprefix : ∀ p, "enum ".toList.reverse <+: t ++ '}' :: p ↔ "enum ".toList.reverse <+: t :=
    fun p => ⟨fun h => prefix_of_prefix_append h (by decide),
      fun h => h.trans (List.prefix_append _ _)⟩
  have hsame : "enum ".toList.reverse.isPrefixOf (t ++ '}' :: p)
      = "enum ".toList.reverse.isPrefixOf (t ++ '}' :: q) := by
    rw [Bool.eq_iff_iff, List.isPrefixOf_iff_prefix, List.isPrefixOf_iff_prefix, hprefix, hprefix]
  rw [isBarred, isBarred, hsame]
  cases t with
  | nil => rfl
  | cons d t => rfl

/-- **BEHIND A CLOSING BRACE** the search does not depend on what stands before
    it. -/
theorem scanFrom_behind_close (t p q : List Char) (skip : Nat) (s : List Char) :
    scanFrom classAt (t ++ '}' :: p) skip s = scanFrom classAt (t ++ '}' :: q) skip s := by
  induction s generalizing t skip with
  | nil => rfl
  | cons d s ih =>
      cases skip with
      | succ skip => exact ih (d :: t) skip
      | zero =>
          have hsame : classAt (t ++ '}' :: p) (d :: s) = classAt (t ++ '}' :: q) (d :: s) := by
            rw [classAt_eq, classAt_eq, isBarred_behind_close t p q]
          rw [scanFrom, scanFrom, hsame]
          cases classAt (t ++ '}' :: q) (d :: s) with
          | none => exact ih (d :: t) 0
          | some found => exact congrArg (found.1 :: ·) (ih (d :: t) _)

theorem append_block (head w rest : List Char) :
    (head ++ block w) ++ rest = head ++ '{' :: (w ++ '}' :: rest) := by
  rw [block, List.append_assoc, List.cons_append, List.append_assoc]
  rfl

theorem append_block_ne_nil (head w : List Char) : head ++ block w ≠ [] :=
  List.append_ne_nil_of_right_ne_nil _ (List.cons_ne_nil _ _)

/-- A class whose body is closed is found, and the search goes on behind it. -/
theorem scanFrom_closed (hhead : ClassHead name head) (hbarred : isBarred before = false)
    (hclosed : Balanced w) (rest : List Char) :
    scanFrom classAt before 0 (head ++ '{' :: (w ++ '}' :: rest))
      = ⟨name, w⟩ :: scanFrom classAt ((head ++ block w).reverse ++ before) 0 rest := by
  have hfound : classAt before ((head ++ block w) ++ rest) = some (⟨name, w⟩, rest) := by
    rw [append_block]
    exact classAt_eq_some_iff.mpr ⟨hbarred, head, _, rfl, hhead, takeBlock_closed hclosed rest⟩
  rw [← append_block]
  exact scanFrom_found (append_block_ne_nil head w) hfound

/-- **A CLASS IS FOUND** where its head stands, and the search goes on behind
    its body. -/
theorem scanFrom_class (hhead : ClassHead name head) (hbarred : isBarred before = false)
    (y : List Char) :
    scanFrom classAt before 0 (head ++ '{' :: y)
      = ⟨name, (takeBlock y).1⟩ :: scanFrom classAt ['}'] 0 (takeBlock y).2 := by
  rcases takeBlock_cases y with ⟨w, rest, htake, rfl, hw⟩ | ⟨htake, -⟩
  · have hplace : (head ++ block w).reverse ++ before
        = [] ++ '}' :: (w.reverse ++ '{' :: (head.reverse ++ before)) := by
      simp [block]
    rw [scanFrom_closed hhead hbarred hw, htake, hplace]
    exact congrArg (_ :: ·) (scanFrom_behind_close [] _ _ 0 rest)
  · have hfound : classAt before ((head ++ '{' :: y) ++ []) = some (⟨name, y⟩, []) := by
      rw [List.append_nil]
      exact classAt_eq_some_iff.mpr ⟨hbarred, head, y, rfl, hhead, htake⟩
    have hscan := scanFrom_found (List.append_ne_nil_of_right_ne_nil _ (List.cons_ne_nil _ _))
      hfound
    rw [List.append_nil] at hscan
    rw [hscan, htake]
    rfl

/-- Where another class is found first, its body is closed before the head of the
    one at hand, which the search comes to behind that body. -/
theorem exists_behind_of_mem {o : Located ClassText}
    (ho : o ∈ scanFrom (located classAt) before 0 ((u ++ '{' :: z) ++ '{' :: y))
    (htext : o.text = head ++ '{' :: y) (hhead : '{' ∉ head)
    (hfind : classAt before ((u ++ '{' :: z) ++ '{' :: y) = some (c, rest))
    (hbody : takeBlock (z ++ '{' :: y) = (c.body, rest)) :
    Balanced c.body ∧ ∃ p, z = c.body ++ '}' :: (p ++ head) ∧
      o ∈ scanFrom (located classAt) ((u ++ block c.body).reverse ++ before) 0
        ((p ++ head) ++ '{' :: y) := by
  have hother : ∀ c rest, o ≠ ⟨before, (u ++ '{' :: z) ++ '{' :: y, c, rest⟩ := by
    rintro c rest rfl
    have hsame : u ++ '{' :: z = head := List.append_cancel_right htext
    simp [← hsame] at hhead
  rcases takeBlock_cases (z ++ '{' :: y) with ⟨w, rest', htake, hsplit, hw⟩ | ⟨htake, -⟩
  · obtain ⟨rfl, rfl⟩ := Prod.mk.inj (htake.symm.trans hbody)
    have hwhole : (u ++ '{' :: z) ++ '{' :: y = (u ++ block c.body) ++ rest' := by
      rw [List.append_assoc, List.cons_append, hsplit, ← append_block]
    have hmore : o ∈ scanFrom (located classAt) ((u ++ block c.body).reverse ++ before) 0
        rest' := by
      rw [hwhole] at ho hfind hother
      rw [scanFrom_found (append_block_ne_nil _ _) (located_eq_some hfind)] at ho
      exact (List.mem_cons.mp ho).resolve_left (hother _ _)
    obtain ⟨p, hp⟩ := text_suffix_of_mem_scanFrom hmore
    rw [htext, ← List.append_assoc] at hp
    subst hp
    rw [← List.cons_append, ← List.append_assoc] at hsplit
    exact ⟨hw, p, List.append_cancel_right hsplit, hmore⟩
  · -- a body without an end reaches over the rest of the text
    obtain ⟨-, rfl⟩ := Prod.mk.inj (htake.symm.trans hbody)
    rw [← List.append_nil ((u ++ '{' :: z) ++ '{' :: y)] at ho hfind hother
    rw [scanFrom_found (by simp) (located_eq_some hfind)] at ho
    exact absurd ((List.mem_cons.mp ho).resolve_left (hother _ _)) List.not_mem_nil

/-- **AROUND A CLASS**: where a class is found before a brace, the same classes
    are found in front of it, whatever stands behind the brace, and the search
    goes on behind its body. -/
theorem exists_scan_around {o : Located ClassText}
    (ho : o ∈ scanFrom (located classAt) before 0 (z ++ '{' :: y))
    (htext : o.text = head ++ '{' :: y) (hhead : '{' ∉ head) :
    ∃ earlier name, ∀ y', scanFrom classAt before 0 (z ++ '{' :: y')
      = earlier ++ ⟨name, (takeBlock y').1⟩ :: scanFrom classAt ['}'] 0 (takeBlock y').2 := by
  -- the induction is along the text in front of the brace, from one class to the next
  induction hlength : z.length using Nat.strong_induction_on generalizing z before with
  | _ n ih =>
  cases hfind : classAt before (z ++ '{' :: y) with
  | none =>
      cases z with
      | nil =>
          rw [List.nil_append, scanFrom_none (located_eq_none hfind)] at ho
          have hle := (text_suffix_of_mem_scanFrom ho).length_le
          rw [htext, List.length_append, List.length_cons] at hle
          omega
      | cons d z =>
          have hmore : o ∈ scanFrom (located classAt) (d :: before) 0 (z ++ '{' :: y) := by
            rwa [List.cons_append, scanFrom_none (located_eq_none (by exact hfind))] at ho
          obtain ⟨earlier, name, hscan⟩ := ih z.length (by simp [← hlength]) hmore rfl
          refine ⟨earlier, name, fun y' => ?_⟩
          have hnone := classAt_eq_none_congr hfind y'
          rw [List.cons_append] at hnone ⊢
          rw [scanFrom_none hnone, hscan]
  | some found =>
      obtain ⟨c, rest⟩ := found
      obtain ⟨hbarred, head', more, heq, hhead', hbody⟩ := classAt_eq_some_iff.mp hfind
      rcases first_mark_cases heq.symm hhead'.brace_notMem with ⟨rfl, rfl⟩ | ⟨z', rfl, rfl⟩
      · exact ⟨[], c.name, scanFrom_class hhead' hbarred⟩
      · obtain ⟨hw, p, rfl, hmore⟩ := exists_behind_of_mem ho htext hhead hfind hbody
        obtain ⟨earlier, name, hscan⟩ := ih (p ++ head).length (by simp [← hlength]; omega) hmore rfl
        refine ⟨c :: earlier, name, fun y' => ?_⟩
        have hwhole : (head' ++ '{' :: (c.body ++ '}' :: (p ++ head))) ++ '{' :: y'
            = head' ++ '{' :: (c.body ++ '}' :: ((p ++ head) ++ '{' :: y')) := by
          simp only [List.append_assoc, List.cons_append]
        rw [hwhole, scanFrom_closed hhead' hbarred hw, hscan]
        rfl

/-! ## A block inside a class -/

/-- **A BLOCK NESTED IN A CLASS** of a text: the class as it is found, the head
    of the class up to its opening brace, the text around the block inside the
    body, and what stands behind the body. -/
structure NestedBlock (s : List Char) where
  found : Located ClassText
  head : List Char
  before : List Char
  code : List Char
  after : List Char
  back : List Char
  mem : found ∈ occurrences classAt s
  text : found.text = head ++ '{' :: (found.thing.body ++ back)
  opening : '{' ∉ head
  body : found.thing.body = before ++ (block code ++ after)
  balanced : Balanced code

/-- Every class has its body in the text, behind the opening brace of its head:
    so a block in the body of a class is a nested block. -/
theorem exists_body_of_mem_occurrences {o : Located ClassText} (ho : o ∈ occurrences classAt s) :
    ∃ head back, o.text = head ++ '{' :: (o.thing.body ++ back) ∧ '{' ∉ head ∧
      takeBlock (o.thing.body ++ back) = (o.thing.body, o.behind) := by
  obtain ⟨-, hfound⟩ := of_mem_occurrences ho
  obtain ⟨-, head, y, htext, hhead, hbody⟩ := classAt_eq_some_iff.mp hfound
  obtain ⟨back, hback⟩ : ∃ back, y = o.thing.body ++ back := by
    rcases takeBlock_cases y with ⟨w, rest, htake, rfl, -⟩ | ⟨htake, -⟩
    · obtain ⟨rfl, -⟩ := Prod.mk.inj (htake.symm.trans hbody)
      exact ⟨_, rfl⟩
    · obtain ⟨rfl, -⟩ := Prod.mk.inj (htake.symm.trans hbody)
      exact ⟨[], (List.append_nil _).symm⟩
  subst hback
  exact ⟨head, back, htext, hhead.brace_notMem, hbody⟩

/-- Other code in a block does not change where the body around it ends. -/
theorem takeBlock_other {back : List Char} (hw : Balanced w) (hw' : Balanced w')
    (h : takeBlock ((u ++ (block w ++ v)) ++ back) = (u ++ (block w ++ v), rest)) :
    takeBlock ((u ++ (block w' ++ v)) ++ back) = (u ++ (block w' ++ v), rest) := by
  have hdepth : ∀ t, depthFrom? 0 ((u ++ (block w' ++ v)) ++ t)
      = depthFrom? 0 ((u ++ (block w ++ v)) ++ t) := by
    intro t
    simp only [List.append_assoc, depthFrom?_append, hw.depth_block, hw'.depth_block]
  rcases takeBlock_cases ((u ++ (block w ++ v)) ++ back) with ⟨x, more, htake, hsplit, hx⟩ |
    ⟨htake, hopen⟩
  · obtain ⟨rfl, rfl⟩ := Prod.mk.inj (htake.symm.trans h)
    obtain rfl := List.append_cancel_left hsplit
    have hbody := hdepth []
    rw [List.append_nil, List.append_nil, balanced_iff.mp hx] at hbody
    exact takeBlock_closed (balanced_iff.mpr hbody) more
  · obtain ⟨hbody, rfl⟩ := Prod.mk.inj (htake.symm.trans h)
    obtain rfl : back = [] := List.append_right_eq_self.mp hbody
    have hwhole := takeBlock_open ((congrArg Option.isSome (hdepth [])).trans hopen)
    rwa [List.append_nil] at hwhole ⊢

namespace NestedBlock

variable (b : NestedBlock s)

/-- The text up to the opening brace of the class. -/
def front : List Char := b.found.before.reverse ++ b.head

/-- The body of the class with other code in the block. -/
def bodyWith (code : List Char) : List Char := b.before ++ (block code ++ b.after)

/-- **THE TEXT WITH OTHER CODE** in the block. -/
def withCode (code : List Char) : List Char := b.front ++ '{' :: (b.bodyWith code ++ b.back)

/-- The text is the one with the code that is there. -/
theorem withCode_self : b.withCode b.code = s := by
  obtain ⟨hplace, -⟩ := of_mem_occurrences b.mem
  rw [withCode, front, bodyWith, ← b.body, List.append_assoc, ← b.text, hplace]

/-- The body ends where it ended, and the search goes on there. -/
theorem takeBlock_bodyWith (hcode : Balanced code) :
    takeBlock (b.bodyWith code ++ b.back) = (b.bodyWith code, b.found.behind) := by
  obtain ⟨head, back, htext, hhead, htake⟩ := exists_body_of_mem_occurrences b.mem
  have hback : back = b.back := by
    rcases first_mark_cases (htext.symm.trans b.text) hhead with ⟨-, hsame⟩ | ⟨z, hz, -⟩
    · exact List.append_cancel_left hsame
    · have hopening := b.opening
      simp [hz] at hopening
  rw [hback, b.body] at htake
  exact takeBlock_other b.balanced hcode htake

/-- **THE CLASSES OF THE TEXT WITH OTHER CODE**: those before and behind the one
    around the block are the same, and so is its name. -/
theorem exists_scan_withCode : ∃ earlier name later, ∀ code, Balanced code →
    scan classAt (b.withCode code) = earlier ++ ⟨name, b.bodyWith code⟩ :: later := by
  have hmem : b.found ∈ scanFrom (located classAt) [] 0
      (b.front ++ '{' :: (b.bodyWith b.code ++ b.back)) := by
    have hself := b.withCode_self
    rw [withCode] at hself
    rw [hself]
    exact b.mem
  have htext : b.found.text = b.head ++ '{' :: (b.bodyWith b.code ++ b.back) := by
    rw [b.text, b.body]
    rfl
  obtain ⟨earlier, name, hscan⟩ := exists_scan_around hmem htext b.opening
  refine ⟨earlier, name, scanFrom classAt ['}'] 0 b.found.behind, fun code hcode => ?_⟩
  rw [withCode, scan, hscan, b.takeBlock_bodyWith hcode]

/-- The code in the block is not at the top level of the body. -/
theorem topLevel_bodyWith (hcode : Balanced code) :
    topLevel (b.bodyWith code) = topLevel (b.bodyWith b.code) :=
  topLevel_block hcode b.balanced _ _

end NestedBlock

/-- **NESTED CODE IS NOT READ**: a text with other code in a block inside a
    class has the same classes with the same methods. -/
theorem map_parseClasses_withCode (header : String) (b : NestedBlock s) (hcode : Balanced code) :
    (parseClasses header (b.withCode code)).map (fun c => (c.name, c.methods))
      = (parseClasses header s).map fun c => (c.name, c.methods) := by
  obtain ⟨earlier, name, later, hscan⟩ := b.exists_scan_withCode
  have hself := hscan b.code b.balanced
  rw [b.withCode_self] at hself
  rw [parseClasses, parseClasses, hscan code hcode, hself]
  simp only [List.map_append, List.map_cons, ClassText.toClass, b.topLevel_bodyWith hcode]

/-- **NESTED CODE IS IGNORED** by the text front end: two headers without
    comments that differ in the code of a block inside a class are read with the
    same classes, in the same order and with the same methods. -/
theorem nested_code_ignored {f : Frontend} (hf : f.engine = .text) {header : String}
    {world world' : World} (b : NestedBlock s) (hcode : Balanced code)
    (hs : stripComments s = s) (hs' : stripComments (b.withCode code) = b.withCode code)
    (hread : readHeader world.tree world.workDir (Path.ofString header) = .ok (String.ofList s))
    (hread' : readHeader world'.tree world'.workDir (Path.ofString header)
      = .ok (String.ofList (b.withCode code))) :
    ∃ found found' after after', outcome (f.classes header) world = (.ok found, after) ∧
      outcome (f.classes header) world' = (.ok found', after') ∧
      found'.map (fun c => (c.name, c.methods)) = found.map fun c => (c.name, c.methods) := by
  obtain ⟨after, houtcome⟩ := outcome_classes_of_text hf hread
  obtain ⟨after', houtcome'⟩ := outcome_classes_of_text hf hread'
  rw [String.toList_ofList, hs] at houtcome
  rw [String.toList_ofList, hs'] at houtcome'
  exact ⟨_, _, after, after', houtcome, houtcome', map_parseClasses_withCode header b hcode⟩

/-- A class with a method between two others whose body calls something. -/
def cellText : List Char :=
  "class Cell \x7b void open(); void run() \x7b go(); \x7d int size(); \x7d;".toList

/-- The body of the method as a block of the class. -/
def cellBlock : NestedBlock cellText where
  found :=
    { before := []
      text := cellText
      thing := ⟨"Cell".toList, " void open(); void run() \x7b go(); \x7d int size(); ".toList⟩
      behind := [';'] }
  head := "class Cell ".toList
  before := " void open(); void run() ".toList
  code := " go(); ".toList
  after := " int size(); ".toList
  back := ['}', ';']
  mem := by decide +kernel
  text := by decide
  opening := by decide
  body := by decide
  balanced := balanced_iff.mpr (by decide)

/-- A machine with a header of some text. -/
def headerOf (text : List Char) : World where
  tree := ({} : FileTree).put ["a.h"] (.file (Text.encode (String.ofList text)))

/-- Code with a class of its own. -/
def localClass : List Char :=
  " class Inner \x7b void hidden(); \x7d; if (a) \x7b go(); \x7d ".toList

/-- With that class in the body of the method, the methods are the same. -/
theorem nested_code_ignored_cell :
    ∃ found found' after after', outcome (({} : Frontend).classes "a.h") (headerOf cellText)
        = (.ok found, after) ∧
      outcome (({} : Frontend).classes "a.h") (headerOf (cellBlock.withCode localClass))
        = (.ok found', after') ∧
      found'.map (fun c => (c.name, c.methods)) = found.map fun c => (c.name, c.methods) := by
  have hread : ∀ text, (readHeader (headerOf text).tree (headerOf text).workDir
      (Path.ofString "a.h")).toOption = some (String.ofList text) →
        readHeader (headerOf text).tree (headerOf text).workDir (Path.ofString "a.h")
          = .ok (String.ofList text) := by
    intro text h
    cases hattempt : readHeader (headerOf text).tree (headerOf text).workDir
        (Path.ofString "a.h") with
    | error f => simp [hattempt, Except.toOption] at h
    | ok t => simpa [hattempt, Except.toOption] using h
  exact nested_code_ignored rfl cellBlock (balanced_iff.mpr (by decide)) (by decide +kernel)
    (by decide +kernel) (hread _ (by decide +kernel)) (hread _ (by decide +kernel))

end GemBinder.Header
