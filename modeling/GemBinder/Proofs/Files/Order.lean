import Mathlib.Data.List.Sort
import Mathlib.Data.String.Basic
import GemBinder.Files.Path

/-! # The order of paths

    Names are compared one by one, which is a linear order.  So a list of
    lists of names has one sorted form.  Paths are compared by their names, so
    a list of paths is brought in order too. -/

namespace GemBinder.Files

theorem namesLe_total (p q : List String) : (namesLe p q || namesLe q p) = true := by
  induction p generalizing q with
  | nil => rfl
  | cons a p ih =>
      cases q with
      | nil => rfl
      | cons b q =>
          rcases lt_trichotomy a b with hlt | rfl | hlt
          · simp [namesLe, hlt]
          · have hboth := ih q
            simp only [namesLe, beq_self_eq_true, Bool.true_and, Bool.or_eq_true] at hboth ⊢
            exact hboth.imp .inr .inr
          · simp [namesLe, hlt]

theorem namesLe_trans (p q r : List String) (hpq : namesLe p q = true) (hqr : namesLe q r = true) :
    namesLe p r = true := by
  induction p generalizing q r with
  | nil => rfl
  | cons a p ih =>
      cases q with
      | nil => exact nomatch hpq
      | cons b q =>
          cases r with
          | nil => exact nomatch hqr
          | cons c r =>
              simp only [namesLe, Bool.or_eq_true, decide_eq_true_eq, Bool.and_eq_true,
                beq_iff_eq] at hpq hqr ⊢
              rcases hpq with hab | ⟨rfl, hpq⟩
              · rcases hqr with hbc | ⟨rfl, -⟩
                · exact .inl (hab.trans hbc)
                · exact .inl hab
              · rcases hqr with hbc | ⟨rfl, hqr⟩
                · exact .inl hbc
                · exact .inr ⟨rfl, ih q r hpq hqr⟩

theorem namesLe_antisymm (p q : List String) (hpq : namesLe p q = true)
    (hqp : namesLe q p = true) : p = q := by
  induction p generalizing q with
  | nil =>
      cases q with
      | nil => rfl
      | cons b q => exact nomatch hqp
  | cons a p ih =>
      cases q with
      | nil => exact nomatch hpq
      | cons b q =>
          simp only [namesLe, Bool.or_eq_true, decide_eq_true_eq, Bool.and_eq_true,
            beq_iff_eq] at hpq hqp
          rcases hpq with hab | ⟨rfl, hpq⟩
          · rcases hqp with hba | ⟨rfl, -⟩
            · exact absurd (hab.trans hba) (lt_irrefl a)
            · exact absurd hab (lt_irrefl _)
          · rcases hqp with haa | ⟨-, hqp⟩
            · exact absurd haa (lt_irrefl a)
            · rw [ih q hpq hqp]

instance : Std.Total fun p q : List String => namesLe p q = true :=
  ⟨fun p q => by simpa using namesLe_total p q⟩

instance : IsTrans (List String) fun p q => namesLe p q = true := ⟨namesLe_trans⟩

instance : Std.Antisymm fun p q : List String => namesLe p q = true := ⟨namesLe_antisymm⟩

/-- The one sorted form is also the one that insertion finds, step by step. -/
theorem mergeSort_namesLe (l : List (List String)) :
    l.mergeSort namesLe = l.insertionSort fun p q => namesLe p q = true := by
  simpa using List.mergeSort_eq_insertionSort (fun p q => namesLe p q = true) l

/-! ## Paths in order -/

/-- Paths that are sorted are in order. -/
theorem pairwise_sorted (l : List Path) : (l.mergeSort Path.le).Pairwise fun p q => p.le q :=
  List.pairwise_mergeSort (fun p q r => namesLe_trans p.names q.names r.names)
    (fun p q => namesLe_total p.names q.names) l

end GemBinder.Files
