import Mathlib.Data.List.Forall2
import GemBinder.Failure

/-! # Attempts that succeed

    A step that is made of others succeeds just when they do, one after the
    other, whatever its failures are.  Taking a success apart gives their
    results. -/

namespace GemBinder

variable {ε α β : Type}

theorem Attempt.bind_eq_ok {x : Except ε α} {f : α → Except ε β} {b : β} :
    x >>= f = .ok b ↔ ∃ a, x = .ok a ∧ f a = .ok b := by
  cases x with
  | error e =>
      constructor
      · intro h
        exact nomatch h
      · rintro ⟨a, ha, -⟩
        exact nomatch ha
  | ok a =>
      constructor
      · intro h
        exact ⟨a, rfl, h⟩
      · rintro ⟨a', ha, h⟩
        cases ha
        exact h

theorem Attempt.pure_eq_ok {a b : α} : (pure a : Except ε α) = .ok b ↔ a = b := by
  constructor
  · intro h
    exact Except.ok.inj h
  · rintro rfl
    rfl

theorem Attempt.map_eq_ok {x : Except ε α} {f : α → β} {b : β} :
    x.map f = .ok b ↔ ∃ a, x = .ok a ∧ f a = b := by
  cases x with
  | error e => exact iff_of_false nofun nofun
  | ok a =>
      constructor
      · intro h
        exact ⟨a, rfl, Except.ok.inj h⟩
      · rintro ⟨a', ha, rfl⟩
        cases ha
        rfl

theorem Attempt.mapError_eq_ok {δ : Type} {x : Except ε α} {f : ε → δ} {a : α} :
    x.mapError f = .ok a ↔ x = .ok a := by
  cases x with
  | error e => exact iff_of_false nofun nofun
  | ok a' => exact ⟨fun h => congrArg _ (Except.ok.inj h), fun h => congrArg _ (Except.ok.inj h)⟩

/-- One step after the other succeeds if both do. -/
theorem Attempt.exists_bind {x : Except ε α} {f : α → Except ε β} (hx : ∃ a, x = .ok a)
    (hf : ∀ a, x = .ok a → ∃ b, f a = .ok b) : ∃ b, x >>= f = .ok b := by
  obtain ⟨a, ha⟩ := hx
  obtain ⟨b, hb⟩ := hf a ha
  exact ⟨b, Attempt.bind_eq_ok.mpr ⟨a, ha, hb⟩⟩

theorem Attempt.exists_of_isOk {x : Attempt α} (h : x.isOk = true) : ∃ a, x = .ok a := by
  cases x with
  | error e => exact nomatch h
  | ok a => exact ⟨a, rfl⟩

theorem Attempt.eq_ok_of_toOption {x : Except ε α} {a : α} (h : x.toOption = some a) :
    x = .ok a := by
  cases x with
  | error e => exact nomatch h
  | ok b => exact congrArg _ (Option.some.inj h)

/-- A member of one of two related lists is related to a member of the other. -/
theorem exists_of_mem_forall₂ {R : α → β → Prop} {xs : List α} {ys : List β} {x : α}
    (h : List.Forall₂ R xs ys) (hx : x ∈ xs) : ∃ y ∈ ys, R x y := by
  induction h with
  | nil => exact nomatch hx
  | cons hxy _ ih =>
      rcases List.mem_cons.mp hx with rfl | hmore
      · exact ⟨_, List.mem_cons_self, hxy⟩
      · obtain ⟨y, hy, hR⟩ := ih hmore
        exact ⟨y, List.mem_cons_of_mem _ hy, hR⟩

/-- Doing a thing for every member of a list succeeds just when each does. -/
theorem Attempt.mapM_eq_ok {f : α → Except ε β} {xs : List α} {ys : List β} :
    xs.mapM f = .ok ys ↔ List.Forall₂ (fun x y => f x = .ok y) xs ys := by
  induction xs generalizing ys with
  | nil =>
      rw [List.mapM_nil, Attempt.pure_eq_ok, List.forall₂_nil_left_iff]
      exact eq_comm
  | cons x xs ih =>
      rw [List.mapM_cons, Attempt.bind_eq_ok, List.forall₂_cons_left_iff]
      constructor
      · rintro ⟨y, hy, hrest⟩
        obtain ⟨more, hmore, hdone⟩ := Attempt.bind_eq_ok.mp hrest
        exact ⟨y, more, hy, ih.mp hmore, (Attempt.pure_eq_ok.mp hdone).symm⟩
      · rintro ⟨y, more, hy, hmore, rfl⟩
        exact ⟨y, hy, Attempt.bind_eq_ok.mpr ⟨more, ih.mpr hmore, rfl⟩⟩

/-- Doing a thing for every member of a list succeeds if each does. -/
theorem Attempt.exists_mapM {f : α → Except ε β} {xs : List α} (h : ∀ x ∈ xs, ∃ y, f x = .ok y) :
    ∃ ys, xs.mapM f = .ok ys := by
  induction xs with
  | nil => exact ⟨[], rfl⟩
  | cons x more ih =>
      obtain ⟨hx, hmore⟩ := List.forall_mem_cons.mp h
      rw [List.mapM_cons]
      refine Attempt.exists_bind hx fun y _ => ?_
      exact Attempt.exists_bind (ih hmore) fun ys _ => ⟨y :: ys, rfl⟩

/-- A result came from one of the members. -/
theorem Attempt.exists_of_mem_mapM {f : α → Attempt β} {xs : List α} {ys : List β} {y : β}
    (h : xs.mapM f = .ok ys) (hy : y ∈ ys) : ∃ x ∈ xs, f x = .ok y := by
  exact exists_of_mem_forall₂ (Attempt.mapM_eq_ok.mp h).flip hy

end GemBinder
