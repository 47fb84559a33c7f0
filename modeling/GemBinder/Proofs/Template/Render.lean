import Mathlib.Data.List.Basic
import GemBinder.Template.Reader
import GemBinder.Template.Render

/-! # How templates are filled in

    A sequence of parts is filled in part by part, and a loop item by item.
    What a loop puts between its items is a separator, if it is left out
    behind the last one. -/

namespace GemBinder.Template

open Text

/-! ## The shapes of parts -/

/-- The field of a thing that a name stands for. -/
def field (thing name : String) : Expr := .attribute (.name thing) name

/-- Parts one after the other. -/
def sequence : List Node → Node
  | [] => .empty
  | n :: more => .cat n (sequence more)

/-- A separator that is left out behind the last item of a loop. -/
def between (sep : String) : Node :=
  .branch (.negation (field "loop" "last")) (sequence [.text sep]) .empty

/-- A loop that puts nothing out if there are no items. -/
def loopOver (x : String) (items : Expr) (body : List Node) : Node :=
  .each x items (sequence body) .empty

/-- A template is read from its segments, if all of them are used up and name
    nothing that is unknown. -/
theorem read_of_segments {source : String} {parts : List Segment} {n : Node}
    (hparts : segments ((unifyLineEnds source.toList).length + 2) true
      (unifyLineEnds source.toList) = .ok parts)
    (hnode : readNodes (2 * parts.length + 2) parts = .ok (n, none, []))
    (hknown : n.unknown? false = none) : read source = .ok n := by
  simp only [read, hparts, hnode, hknown, bind, Except.bind, Option.isSome_none, Bool.false_eq_true,
    if_false, pure, Except.pure]

variable {env : Env}

/-! ## One step of filling in -/

theorem eval_attribute (e : Expr) (n : String) :
    (Expr.attribute e n).eval env = e.eval env >>= fun v => v.attribute n := rfl

theorem eval_item (e : Expr) (v : Json) :
    (Expr.item e (.literal v)).eval env = e.eval env >>= fun w => w.item (.plain v) := rfl

theorem eval_filtered (e : Expr) (filter : String) :
    (Expr.filtered e filter).eval env = e.eval env >>= applyFilter env filter := rfl

theorem eval_tested (e : Expr) (test : String) :
    (Expr.tested e test).eval env = e.eval env >>= fun v => do
      return .plain (.bool (← applyTest test v)) := rfl

theorem eval_negation (e : Expr) :
    (Expr.negation e).eval env = e.eval env >>= fun v => do
      return .plain (.bool (!(← v.truth))) := rfl

theorem render_cat (a b : Node) :
    (Node.cat a b).render env = do return (← a.render env) ++ (← b.render env) := rfl

/-! ## Parts in a row -/

/-- A sequence of parts is filled in part by part. -/
inductive Fills (env : Env) : List Node → String → Prop where
  | nil : Fills env [] ""
  | cons {n : Node} {more : List Node} {s t : String} (h : n.render env = .ok s)
      (hmore : Fills env more t) : Fills env (n :: more) (s ++ t)

theorem Fills.render {nodes : List Node} {s : String} (h : Fills env nodes s) :
    (sequence nodes).render env = .ok s := by
  induction h with
  | nil => rfl
  | cons h _ ih => rw [sequence, render_cat, h, ih]; rfl

theorem Fills.append {nodes more : List Node} {s t : String} (h : Fills env nodes s)
    (hmore : Fills env more t) : Fills env (nodes ++ more) (s ++ t) := by
  induction h with
  | nil => rwa [String.empty_append]
  | cons h _ ih => rw [List.cons_append, String.append_assoc]; exact .cons h ih

@[simp]
theorem render_text (s : String) : (Node.text s).render env = .ok s := rfl

/-! ## Expressions -/

theorem eval_name {x : String} {v : Value} (h : env.names.lookup x = some v) :
    (Expr.name x).eval env = .ok v := by
  show Except.ok ((env.names.lookup x).getD _) = _
  rw [h]; rfl

/-- The field of an object. -/
theorem eval_field {x n : String} {members : List (String × Json)} {v : Json}
    (hx : env.names.lookup x = some (.plain (.object members)))
    (hn : objectNames.contains n = false) (hv : members.lookup n = some v) :
    (field x n).eval env = .ok (.plain v) := by
  rw [field, eval_attribute, eval_name hx]
  show (Value.plain (.object members)).attribute n = _
  simp only [Value.attribute, hn, hv, Bool.false_eq_true, if_false, Option.map_some,
    Option.getD_some]

/-- The member of an object, also where every object has something of that
    name. -/
theorem eval_member {x n : String} {members : List (String × Json)} {v : Json}
    (hx : env.names.lookup x = some (.plain (.object members)))
    (hv : members.lookup n = some v) :
    (Expr.item (.name x) (.literal (.text n))).eval env = .ok (.plain v) := by
  rw [eval_item, eval_name hx]
  show (Value.plain (.object members)).item (.plain (.text n)) = _
  rw [Value.item, hv]

/-- A text is put out as it is. -/
theorem render_output {e : Expr} {s : String} (h : e.eval env = .ok (.plain (.text s))) :
    (Node.output e).render env = .ok s := by
  show e.eval env >>= Value.shown = _
  rw [h]; rfl

/-- The name of a type for Ruby is put out. -/
theorem render_rubyType {e : Expr} {s : String} (h : e.eval env = .ok (.plain (.text s))) :
    (Node.output (.filtered e "ruby_type")).render env = .ok (env.rubyType s) := by
  refine render_output ?_
  rw [eval_filtered, h]; rfl

/-- A branch goes by its condition. -/
theorem render_branch {c : Expr} {v : Value} {yes no : Node} (hc : c.eval env = .ok v) {b : Bool}
    (hb : v.truth = .ok b) :
    (Node.branch c yes no).render env = if b then yes.render env else no.render env := by
  show (c.eval env >>= fun v => do if ← v.truth then yes.render env else no.render env) = _
  rw [hc]
  show (do if ← v.truth then yes.render env else no.render env) = _
  rw [hb]; rfl

/-! ## Loops -/

/-- The names inside a loop. -/
def Env.inLoop (env : Env) (x : String) (v : Json) (index length : Nat) : Env :=
  (env.bind "loop" (.loop index length)).bind x (.plain v)

@[simp]
theorem lookup_inLoop_self (x : String) (v : Json) (i n : Nat) :
    (env.inLoop x v i n).names.lookup x = some (.plain v) := by
  rw [Env.inLoop, Env.bind]; exact List.lookup_cons_self

theorem lookup_inLoop_loop {x : String} (hx : x ≠ "loop") (v : Json) (i n : Nat) :
    (env.inLoop x v i n).names.lookup "loop" = some (.loop i n) := by
  have hne : ("loop" == x) = false := beq_eq_false_iff_ne.mpr (Ne.symm hx)
  simp only [Env.inLoop, Env.bind, List.lookup_cons, hne, beq_self_eq_true]

/-- Behind the last item of a loop there is no separator. -/
theorem render_between {x : String} (hx : x ≠ "loop") (v : Json) (i n : Nat) (sep : String) :
    (between sep).render (env.inLoop x v i n) = .ok (if i + 1 == n then "" else sep) := by
  have hlast : (field "loop" "last").eval (env.inLoop x v i n) =
      .ok (.plain (.bool (i + 1 == n))) := by
    rw [field, eval_attribute, eval_name (lookup_inLoop_loop hx v i n)]; rfl
  have hcondition : (Expr.negation (field "loop" "last")).eval (env.inLoop x v i n) =
      .ok (.plain (.bool !(i + 1 == n))) := by
    rw [eval_negation, hlast]; rfl
  rw [between, render_branch hcondition (b := !(i + 1 == n)) rfl]
  cases i + 1 == n with
  | true => rfl
  | false =>
      have hfills : Fills (env.inLoop x v i n) [.text sep] (sep ++ "") :=
        .cons (render_text sep) .nil
      rw [String.append_empty] at hfills
      exact hfills.render

theorem mapM_of_ok {α β ε : Type} {f : α → Except ε β} {g : α → β} {l : List α}
    (h : ∀ a ∈ l, f a = .ok (g a)) : l.mapM f = .ok (l.map g) := by
  induction l with
  | nil => rfl
  | cons a l ih =>
      rw [List.mapM_cons, h a List.mem_cons_self, ih fun b hb => h b (List.mem_cons_of_mem _ hb)]
      rfl

/-- **A LOOP IS FILLED IN ITEM BY ITEM**. -/
theorem render_loopOver {α : Type} {x : String} {items : Expr} {body : List Node} {as : List α}
    (view : α → Json) {f : α → Nat → Nat → String}
    (hitems : items.eval env = .ok (.plain (.list (as.map view))))
    (hbody : ∀ a ∈ as, ∀ i n, Fills (env.inLoop x (view a) i n) body (f a i n)) :
    (loopOver x items body).render env =
      .ok (String.join (as.zipIdx.map fun (a, i) => f a i as.length)) := by
  have hvs : (items.eval env >>= Value.items) = .ok (as.map view) := by rw [hitems]; rfl
  have heq : (loopOver x items body).render env =
      (items.eval env >>= Value.items) >>= fun vs =>
        if vs.isEmpty then Node.empty.render env
        else (numbered vs).mapM (fun p => (sequence body).render (env.inLoop x p.1 p.2.1 p.2.2)) >>=
          fun shown => .ok (String.join shown) := by
    rw [loopOver, bind_assoc]; rfl
  rw [heq, hvs]
  show (if (as.map view).isEmpty then _ else _) = _
  cases as with
  | nil => rfl
  | cons a as =>
      have hnumbered : numbered ((a :: as).map view) =
          (a :: as).zipIdx.map fun p => (view p.1, p.2, (a :: as).length) := by
        rw [numbered, List.length_map, List.zipIdx_map, List.map_map]; rfl
      have hshown : (numbered ((a :: as).map view)).mapM (fun p =>
            (sequence body).render (env.inLoop x p.1 p.2.1 p.2.2)) =
          .ok ((a :: as).zipIdx.map fun p => f p.1 p.2 (a :: as).length) := by
        rw [hnumbered, List.mapM_map]
        refine mapM_of_ok fun p hp => ?_
        exact (hbody p.1 (List.fst_mem_of_mem_zipIdx hp) p.2 _).render
      rw [hshown]; rfl

/-- A loop without a separator joins what its items give. -/
theorem render_loopOver_join {α : Type} {x : String} {items : Expr} {body : List Node}
    {as : List α} (view : α → Json) {f : α → String}
    (hitems : items.eval env = .ok (.plain (.list (as.map view))))
    (hbody : ∀ a ∈ as, ∀ i n, Fills (env.inLoop x (view a) i n) body (f a)) :
    (loopOver x items body).render env = .ok (String.join (as.map f)) := by
  rw [render_loopOver view hitems hbody]
  have hmap : as.zipIdx.map (fun (a, _) => f a) = (as.zipIdx.map Prod.fst).map f := by
    rw [List.map_map]; rfl
  rw [hmap, List.zipIdx_map_fst]

/-- What is put out with a separator behind all but the last item is joined
    by the separator. -/
theorem join_zipIdx {α : Type} (f : α → String) (sep : String) (as : List α) (k : Nat) :
    String.join ((as.zipIdx k).map fun (a, i) =>
        f a ++ if i + 1 == k + as.length then "" else sep) = joinStrings sep (as.map f) := by
  induction as generalizing k with
  | nil => rfl
  | cons a as ih =>
      rw [List.zipIdx_cons, List.map_cons, String.join_cons]
      cases as with
      | nil => simp [joinStrings]
      | cons b as =>
          have hrest := ih (k + 1)
          have hlength : k + (a :: b :: as).length = k + 1 + (b :: as).length := by
            simp only [List.length_cons]; omega
          have hmore : (k + 1 == k + 1 + (b :: as).length) = false := by simp
          rw [hlength, hrest]
          simp only [hmore, Bool.false_eq_true, if_false, List.map_cons, joinStrings]

/-- **A LOOP WITH A SEPARATOR** joins what its items give by the separator. -/
theorem render_loopOver_between {α : Type} {x : String} (hx : x ≠ "loop") {items : Expr}
    {body : List Node} {sep : String} {as : List α} (view : α → Json) {f : α → String}
    (hitems : items.eval env = .ok (.plain (.list (as.map view))))
    (hbody : ∀ a ∈ as, ∀ i n, Fills (env.inLoop x (view a) i n) body (f a)) :
    (loopOver x items (body ++ [between sep])).render env =
      .ok (joinStrings sep (as.map f)) := by
  rw [render_loopOver view hitems (f := fun a i n => f a ++ if i + 1 == n then "" else sep)]
  · have hjoin := join_zipIdx f sep as 0
    rw [Nat.zero_add] at hjoin
    rw [hjoin]
  · intro a ha i n
    refine (hbody a ha i n).append ?_
    have hsep : Fills (env.inLoop x (view a) i n) [between sep]
        ((if i + 1 == n then "" else sep) ++ "") := .cons (render_between hx (view a) i n sep) .nil
    rwa [String.append_empty] at hsep

end GemBinder.Template
