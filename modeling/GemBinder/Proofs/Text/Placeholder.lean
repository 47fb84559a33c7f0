import Mathlib.Data.List.Basic
import GemBinder.Proofs.Text.Lines
import GemBinder.Text.Placeholder

/-! # Templates that can be filled in

    Text without braces is copied, and a field that is a plain name is
    replaced by the value of that name.  A template of text, one such field
    and more text can therefore be filled in, and what it gives is known. -/

namespace GemBinder.Text.Placeholder

/-! ## Text without braces -/

/-- A text without braces. -/
def BraceFree (s : List Char) : Prop := '{' ∉ s ∧ '}' ∉ s

instance (s : List Char) : Decidable (BraceFree s) :=
  inferInstanceAs (Decidable (_ ∧ _))

theorem BraceFree.append {s t : List Char} (hs : BraceFree s) (ht : BraceFree t) :
    BraceFree (s ++ t) := by
  refine ⟨?_, ?_⟩
  · rw [List.mem_append]
    exact not_or.mpr ⟨hs.1, ht.1⟩
  · rw [List.mem_append]
    exact not_or.mpr ⟨hs.2, ht.2⟩

theorem BraceFree.of_subset {s t : List Char} (ht : BraceFree t) (h : ∀ c ∈ s, c ∈ t) :
    BraceFree s :=
  ⟨fun hm => ht.1 (h _ hm), fun hm => ht.2 (h _ hm)⟩

variable {values : List (String × Value)} {depth : Nat}

/-- A character that is no brace is copied. -/
theorem fillFrom_cons {c : Char} {rest : List Char} {fuel : Nat} (hopen : c ≠ '{')
    (hclose : c ≠ '}') :
    fillFrom values (depth + 1) (fuel + 1) (c :: rest)
      = (fillFrom values (depth + 1) fuel rest).map (c :: ·) := by
  conv_lhs => unfold fillFrom
  rw [if_neg (fun heq => hclose (beq_iff_eq.mp heq)),
    if_neg (fun heq => hopen (beq_iff_eq.mp heq))]
  cases fillFrom values (depth + 1) fuel rest with
  | error e => rfl
  | ok filled => rfl

/-- Text without braces is copied. -/
theorem fillFrom_append {s t u : List Char} {fuel : Nat} (hs : BraceFree s)
    (ht : fillFrom values (depth + 1) fuel t = .ok u) :
    fillFrom values (depth + 1) (s.length + fuel) (s ++ t) = .ok (s ++ u) := by
  induction s with
  | nil =>
      rw [List.length_nil, Nat.zero_add]
      exact ht
  | cons c rest ih =>
      have hopen : c ≠ '{' := fun h => hs.1 (h ▸ List.mem_cons_self)
      have hclose : c ≠ '}' := fun h => hs.2 (h ▸ List.mem_cons_self)
      have hrest : BraceFree rest := hs.of_subset fun d hd => List.mem_cons_of_mem _ hd
      rw [List.length_cons, Nat.add_right_comm, List.cons_append, fillFrom_cons hopen hclose,
        ih hrest]
      rfl

theorem fillFrom_nil (fuel : Nat) : fillFrom values (depth + 1) fuel [] = .ok [] := by
  cases fuel with
  | zero => rfl
  | succ n => rfl

theorem fillFrom_of_braceFree {s : List Char} (hs : BraceFree s) (fuel : Nat) :
    fillFrom values (depth + 1) (s.length + fuel) s = .ok s := by
  have hfill : fillFrom values (depth + 1) (s.length + fuel) (s ++ []) = .ok (s ++ []) :=
    fillFrom_append hs (fillFrom_nil fuel)
  rw [List.append_nil] at hfill
  exact hfill

/-- A template without braces is what it gives. -/
theorem fill_of_braceFree {template : String} (h : BraceFree template.toList) :
    fill values template = .ok template := by
  unfold fill
  dsimp only
  rw [fillFrom_of_braceFree h 1]
  exact congrArg _ String.ofList_toList

/-! ## Fields -/

/-- A name in which no other part of a field begins. -/
def PlainName (name : List Char) : Prop := ∀ c ∈ name, c ∉ ['{', '}', ':', '!', '[']

instance (name : List Char) : Decidable (PlainName name) :=
  List.decidableBAll (fun c => c ∉ ['{', '}', ':', '!', '[']) name

theorem takeFieldName_of_plain {name : List Char} (h : PlainName name) (rest : List Char) :
    takeFieldName false (name ++ '}' :: rest) = .ok (name, '}' :: rest) := by
  induction name with
  | nil => rfl
  | cons c more ih =>
      have hc := h c List.mem_cons_self
      simp only [List.mem_cons, List.not_mem_nil, or_false, not_or] at hc
      obtain ⟨hopen, hclose, hcolon, hmark, hbracket⟩ := hc
      have hplain : PlainName more := fun d hd => h d (List.mem_cons_of_mem _ hd)
      have hend : ¬ (c == '}' || c == ':' || c == '!') = true := by
        simp only [Bool.or_eq_true, beq_iff_eq]
        rintro ((heq | heq) | heq)
        · exact hclose heq
        · exact hcolon heq
        · exact hmark heq
      have hinside : (c == '[') = false := beq_eq_false_iff_ne.mpr hbracket
      rw [List.cons_append, takeFieldName, if_neg Bool.false_ne_true]
      rw [if_neg (fun heq => hopen (beq_iff_eq.mp heq)), if_neg hend, hinside, ih hplain]
      rfl

theorem takeField_of_plain {name : List Char} (h : PlainName name) (rest : List Char) :
    takeField (name ++ '}' :: rest) = .ok (⟨name, none, []⟩, rest) := by
  rw [takeField]
  rw [takeFieldName_of_plain h]
  rfl

/-- A field with a plain name is read, looked up and shown. -/
theorem fillFrom_field {name after shown u : List Char} {v : Value} {fuel : Nat}
    (hname : PlainName name) (hne : name ≠ []) (hvalue : lookUp values name = .ok v)
    (hshown : v.layout [] = .ok shown)
    (hafter : fillFrom values (depth + 1) fuel after = .ok u) :
    fillFrom values (depth + 1) (fuel + 1) ('{' :: (name ++ '}' :: after)) = .ok (shown ++ u) := by
  cases name with
  | nil => exact absurd rfl hne
  | cons c more =>
      have hopen : c ≠ '{' := by
        rintro rfl
        exact hname '{' List.mem_cons_self (by decide)
      have hread := takeField_of_plain hname after
      rw [List.cons_append] at hread ⊢
      -- only the left side is opened, for the right one has the rest in it
      conv_lhs => unfold fillFrom
      rw [if_neg (by decide), if_pos (by decide)]
      split
      · next heq => exact nomatch heq
      · next heq => exact absurd (List.cons.inj heq).1 hopen
      · rw [hread]
        show (do
          let v ← lookUp values (c :: more)
          let v ← convert v none
          let layout ← pure []
          let shown ← v.layout layout
          return shown ++ (← fillFrom values (depth + 1) fuel after)) = _
        rw [hvalue]
        show (do
          let shown ← v.layout []
          return shown ++ (← fillFrom values (depth + 1) fuel after)) = _
        rw [hshown, hafter]
        rfl

/-- **A FIELD IS REPLACED BY ITS VALUE**, and the text around it stays. -/
theorem fill_field {before after name shown : String} {v : Value}
    (hbefore : BraceFree before.toList) (hafter : BraceFree after.toList)
    (hname : PlainName name.toList) (hne : name ≠ "")
    (hvalue : lookUp values name.toList = .ok v) (hshown : v.layout [] = .ok shown.toList) :
    fill values (before ++ ("\x7b" ++ name ++ "\x7d") ++ after)
      = .ok (before ++ shown ++ after) := by
  have hlist : (before ++ ("\x7b" ++ name ++ "\x7d") ++ after).toList
      = before.toList ++ '{' :: (name.toList ++ '}' :: after.toList) := by
    simp only [String.toList_append, List.append_assoc]
    rfl
  have hnil : name.toList ≠ [] := fun h => hne (String.toList_eq_nil_iff.mp h)
  have hlength : (before.toList ++ '{' :: (name.toList ++ '}' :: after.toList)).length + 1
      = before.toList.length + (after.toList.length + (name.toList.length + 2) + 1) := by
    simp only [List.length_append, List.length_cons]
    omega
  unfold fill
  dsimp only
  rw [hlist, hlength, fillFrom_append hbefore
    (fillFrom_field hname hnil hvalue hshown (fillFrom_of_braceFree hafter _))]
  refine congrArg Except.ok (String.toList_inj.mp ?_)
  rw [String.toList_ofList, String.toList_append, String.toList_append, List.append_assoc]

end GemBinder.Text.Placeholder
