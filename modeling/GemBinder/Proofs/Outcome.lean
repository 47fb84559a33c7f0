import GemBinder.Failure

/-! # How steps end

    A step on a state may fail, and what it has changed until then stays
    changed.  Its outcome is a result or a failure, together with a state in
    either case.  A property of states that every part of a step keeps, on
    success and on failure, is kept by the step. -/

namespace GemBinder

variable {ε σ α β : Type}

/-- **THE OUTCOME OF A STEP**: its result or its failure, and the state that
    it leaves. -/
def outcome (x : ExceptT ε (StateM σ) α) (s : σ) : Except ε α × σ := x.run.run s

section Outcome

variable {x : ExceptT ε (StateM σ) α} {f : α → ExceptT ε (StateM σ) β}
  {h : ε → ExceptT ε (StateM σ) α} {a : α} {b : β} {e : ε} {s s' s'' : σ}

@[simp] theorem outcome_pure (a : α) (s : σ) :
    outcome (pure a : ExceptT ε (StateM σ) α) s = (.ok a, s) := rfl

@[simp] theorem outcome_throw (e : ε) (s : σ) :
    outcome (throw e : ExceptT ε (StateM σ) α) s = (.error e, s) := rfl

@[simp] theorem outcome_get (s : σ) : outcome (get : ExceptT ε (StateM σ) σ) s = (.ok s, s) := rfl

@[simp] theorem outcome_modify (g : σ → σ) (s : σ) :
    outcome (modify g : ExceptT ε (StateM σ) PUnit) s = (.ok ⟨⟩, g s) := rfl

/-! ## Two steps in a row -/

theorem outcome_bind_of_ok (hx : outcome x s = (.ok a, s')) :
    outcome (x >>= f) s = outcome (f a) s' := by
  show (ExceptT.bindCont f (x.run.run s).1).run (x.run.run s).2 = _
  rw [show x.run.run s = _ from hx]
  rfl

theorem outcome_bind_of_error (hx : outcome x s = (.error e, s')) :
    outcome (x >>= f) s = (.error e, s') := by
  show (ExceptT.bindCont f (x.run.run s).1).run (x.run.run s).2 = _
  rw [show x.run.run s = _ from hx]
  rfl

@[simp] theorem outcome_get_bind (f : σ → ExceptT ε (StateM σ) β) (s : σ) :
    outcome (get >>= f) s = outcome (f s) s := outcome_bind_of_ok (outcome_get s)

@[simp] theorem outcome_modify_bind (g : σ → σ) (f : PUnit → ExceptT ε (StateM σ) β) (s : σ) :
    outcome (modify g >>= f) s = outcome (f ⟨⟩) (g s) := outcome_bind_of_ok (outcome_modify g s)

theorem outcome_bind_eq_ok :
    outcome (x >>= f) s = (.ok b, s'') ↔
      ∃ a s', outcome x s = (.ok a, s') ∧ outcome (f a) s' = (.ok b, s'') := by
  rcases hx : outcome x s with ⟨r, t⟩
  cases r with
  | error e =>
      rw [outcome_bind_of_error hx]
      constructor
      · intro h
        exact nomatch congrArg Prod.fst h
      · rintro ⟨a, s', ha, -⟩
        exact nomatch congrArg Prod.fst ha
  | ok a =>
      rw [outcome_bind_of_ok hx]
      constructor
      · intro h
        exact ⟨a, t, rfl, h⟩
      · rintro ⟨a', s', ha, h⟩
        cases ha
        exact h

theorem outcome_bind_eq_error :
    outcome (x >>= f) s = (.error e, s'') ↔
      outcome x s = (.error e, s'') ∨
        ∃ a s', outcome x s = (.ok a, s') ∧ outcome (f a) s' = (.error e, s'') := by
  rcases hx : outcome x s with ⟨r, t⟩
  cases r with
  | error e' =>
      rw [outcome_bind_of_error hx]
      constructor
      · intro h
        cases h
        exact .inl rfl
      · rintro (h | ⟨a, s', ha, -⟩)
        · cases h
          rfl
        · exact nomatch congrArg Prod.fst ha
  | ok a =>
      rw [outcome_bind_of_ok hx]
      constructor
      · intro h
        exact .inr ⟨a, t, rfl, h⟩
      · rintro (h | ⟨a', s', ha, h⟩)
        · exact nomatch congrArg Prod.fst h
        · cases ha
          exact h

theorem outcome_eq_error (h : (outcome x s).1.isOk = false) :
    ∃ e, outcome x s = (.error e, (outcome x s).2) := by
  rcases hx : outcome x s with ⟨r, t⟩
  rw [hx] at h
  cases r with
  | error e => exact ⟨e, rfl⟩
  | ok a => exact nomatch h

theorem outcome_eq_ok (h : (outcome x s).1.isOk = true) :
    ∃ a, outcome x s = (.ok a, (outcome x s).2) := by
  rcases hx : outcome x s with ⟨r, t⟩
  rw [hx] at h
  cases r with
  | error e => exact nomatch h
  | ok a => exact ⟨a, rfl⟩

theorem outcome_eq_ok_of_toOption (h : (outcome x s).1.toOption = some a) :
    outcome x s = (.ok a, (outcome x s).2) := by
  rcases hx : outcome x s with ⟨r, t⟩
  rw [hx] at h
  cases r with
  | error e => exact nomatch h
  | ok b => rw [Option.some.inj h]

/-! ## Caught failures -/

theorem outcome_tryCatch_of_ok (hx : outcome x s = (.ok a, s')) :
    outcome (tryCatch x h) s = (.ok a, s') := by
  show (match (x.run.run s).1 with
    | .ok a => pure (.ok a)
    | .error e => (h e).run : StateM σ (Except ε α)).run (x.run.run s).2 = _
  rw [show x.run.run s = _ from hx]
  rfl

theorem outcome_tryCatch_of_error (hx : outcome x s = (.error e, s')) :
    outcome (tryCatch x h) s = outcome (h e) s' := by
  show (match (x.run.run s).1 with
    | .ok a => pure (.ok a)
    | .error e => (h e).run : StateM σ (Except ε α)).run (x.run.run s).2 = _
  rw [show x.run.run s = _ from hx]
  rfl

end Outcome

/-! ## Invariants -/

/-- **AN INVARIANT OF A STEP**: a property of states that the step keeps,
    whether it ends well or fails. -/
def Keeps (I : σ → Prop) (x : ExceptT ε (StateM σ) α) : Prop := ∀ s, I s → I (outcome x s).2

namespace Keeps

variable {I : σ → Prop} {x : ExceptT ε (StateM σ) α}

theorem pure (a : α) : Keeps I (Pure.pure a : ExceptT ε (StateM σ) α) := by
  intro s hs
  exact hs

theorem throw (e : ε) : Keeps I (MonadExcept.throw e : ExceptT ε (StateM σ) α) := by
  intro s hs
  exact hs

theorem modify {g : σ → σ} (hg : ∀ s, I s → I (g s)) :
    Keeps I (modify g : ExceptT ε (StateM σ) PUnit) := by
  intro s hs
  exact hg s hs

theorem bind {f : α → ExceptT ε (StateM σ) β} (hx : Keeps I x) (hf : ∀ a, Keeps I (f a)) :
    Keeps I (x >>= f) := by
  intro s hs
  rcases hr : outcome x s with ⟨r, t⟩
  have ht : I t := by
    have h := hx s hs
    rwa [hr] at h
  cases r with
  | error e =>
      rw [outcome_bind_of_error hr]
      exact ht
  | ok a =>
      rw [outcome_bind_of_ok hr]
      exact hf a t ht

theorem tryCatch {h : ε → ExceptT ε (StateM σ) α} (hx : Keeps I x) (hh : ∀ e, Keeps I (h e)) :
    Keeps I (MonadExcept.tryCatch x h) := by
  intro s hs
  rcases hr : outcome x s with ⟨r, t⟩
  have ht : I t := by
    have h := hx s hs
    rwa [hr] at h
  cases r with
  | error e =>
      rw [outcome_tryCatch_of_error hr]
      exact hh e t ht
  | ok a =>
      rw [outcome_tryCatch_of_ok hr]
      exact ht

/-- A step that looks at the state first may use what holds of it. -/
theorem get_bind {f : σ → ExceptT ε (StateM σ) β} (hf : ∀ s, I s → I (outcome (f s) s).2) :
    Keeps I (get >>= f) := by
  intro s hs
  rw [outcome_get_bind]
  exact hf s hs

/-- A loop keeps what each round keeps. -/
theorem forIn {γ : Type} {f : γ → β → ExceptT ε (StateM σ) (ForInStep β)} :
    ∀ (l : List γ) (b : β), (∀ c ∈ l, ∀ b, Keeps I (f c b)) → Keeps I (ForIn.forIn l b f)
  | [], b, _ => pure b
  | c :: l, b, hf => by
      rw [List.forIn_cons]
      refine bind (hf c List.mem_cons_self b) fun r => ?_
      cases r with
      | done b => exact pure b
      | yield b => exact forIn l b fun c' hc => hf c' (List.mem_cons_of_mem c hc)

end Keeps

/-! ## Results -/

/-- **WHAT A STEP GIVES**: whenever it ends well, its result has a property. -/
def Gives (P : α → Prop) (x : ExceptT ε (StateM σ) α) : Prop :=
  ∀ s a s', outcome x s = (.ok a, s') → P a

namespace Gives

variable {P : α → Prop} {Q : β → Prop} {x : ExceptT ε (StateM σ) α}

theorem trivial : Gives (fun _ : α => True) x := fun _ _ _ _ => True.intro

theorem pure {a : α} (h : P a) : Gives P (Pure.pure a : ExceptT ε (StateM σ) α) := by
  intro s b s' hb
  cases hb
  exact h

theorem bind {f : α → ExceptT ε (StateM σ) β} (hx : Gives P x) (hf : ∀ a, P a → Gives Q (f a)) :
    Gives Q (x >>= f) := by
  intro s b s'' h
  obtain ⟨a, s', ha, hb⟩ := outcome_bind_eq_ok.mp h
  exact hf a (hx s a s' ha) s' b s'' hb

/-- A loop gives what each round hands on. -/
theorem forIn {γ : Type} {f : γ → β → ExceptT ε (StateM σ) (ForInStep β)} :
    ∀ (l : List γ) (b : β), Q b → (∀ c ∈ l, ∀ b, Q b → Gives (fun r => Q r.value) (f c b)) →
      Gives Q (ForIn.forIn l b f)
  | [], _, hb, _ => pure hb
  | c :: l, b, hb, hf => by
      rw [List.forIn_cons]
      refine bind (hf c List.mem_cons_self b hb) fun r hr => ?_
      cases r with
      | done b => exact pure hr
      | yield b => exact forIn l b hr fun c' hc => hf c' (List.mem_cons_of_mem c hc)

end Gives

/-! ## Two runs side by side -/

/-- **OUTCOMES THAT MATCH**: one result or one failure, and states that are
    related. -/
def Matched (R : σ → σ → Prop) (left right : Except ε α × σ) : Prop :=
  left.1 = right.1 ∧ R left.2 right.2

namespace Matched

variable {R : σ → σ → Prop} {x : ExceptT ε (StateM σ) α} {s t : σ}

theorem bind {f : α → ExceptT ε (StateM σ) β} (hx : Matched R (outcome x s) (outcome x t))
    (hf : ∀ a s' t', outcome x s = (.ok a, s') → R s' t' →
      Matched R (outcome (f a) s') (outcome (f a) t')) :
    Matched R (outcome (x >>= f) s) (outcome (x >>= f) t) := by
  rcases hs : outcome x s with ⟨r, s'⟩
  rcases ht : outcome x t with ⟨r', t'⟩
  rw [hs, ht] at hx
  obtain ⟨hr, hR⟩ := hx
  obtain rfl : r = r' := hr
  cases r with
  | error e =>
      rw [outcome_bind_of_error hs, outcome_bind_of_error ht]
      exact ⟨rfl, hR⟩
  | ok a =>
      rw [outcome_bind_of_ok hs, outcome_bind_of_ok ht]
      exact hf a s' t' hs hR

theorem tryCatch {h : ε → ExceptT ε (StateM σ) α} (hx : Matched R (outcome x s) (outcome x t))
    (hh : ∀ e s' t', R s' t' → Matched R (outcome (h e) s') (outcome (h e) t')) :
    Matched R (outcome (MonadExcept.tryCatch x h) s) (outcome (MonadExcept.tryCatch x h) t) := by
  rcases hs : outcome x s with ⟨r, s'⟩
  rcases ht : outcome x t with ⟨r', t'⟩
  rw [hs, ht] at hx
  obtain ⟨hr, hR⟩ := hx
  obtain rfl : r = r' := hr
  cases r with
  | error e =>
      rw [outcome_tryCatch_of_error hs, outcome_tryCatch_of_error ht]
      exact hh e s' t' hR
  | ok a =>
      rw [outcome_tryCatch_of_ok hs, outcome_tryCatch_of_ok ht]
      exact ⟨rfl, hR⟩

end Matched
end GemBinder
