import GemBinder.Proofs.TypeRules

/-! # The names that the default conventions know

    The patterns of the default conventions say how a name begins or ends.  A
    search finds them just in the names that begin or end so; an end may have
    one newline behind it. -/

namespace GemBinder

open Text TypeSpelling Pattern

namespace Pattern

/-! ## Searching -/

/-- A pattern is found just if it matches at some place of the text. -/
theorem searchFrom_iff {r : Compiled} {before s : List Char} :
    searchFrom r before s = true ↔ ∃ front back, s = front ++ back ∧
      (run r.modes r.root ⟨front.reverse ++ before, back, []⟩ some).isSome = true := by
  induction s generalizing before with
  | nil =>
      constructor
      · intro h
        exact ⟨[], [], rfl, h⟩
      · rintro ⟨front, back, heq, h⟩
        obtain ⟨rfl, rfl⟩ := List.append_eq_nil_iff.mp heq.symm
        exact h
  | cons c s ih =>
      rw [searchFrom, Bool.or_eq_true, ih]
      constructor
      · rintro (h | ⟨front, back, rfl, h⟩)
        · exact ⟨[], c :: s, rfl, h⟩
        · refine ⟨c :: front, back, rfl, ?_⟩
          rw [List.reverse_cons, List.append_assoc]
          exact h
      · rintro ⟨front, back, heq, h⟩
        cases front with
        | nil =>
            obtain rfl : c :: s = back := heq
            exact .inl h
        | cons d front =>
            obtain ⟨rfl, rfl⟩ := List.cons.inj heq
            rw [List.reverse_cons, List.append_assoc] at h
            exact .inr ⟨front, back, rfl, h⟩

theorem isSome_step_bind {ok : Char → Bool} {p : Place} :
    ((p.step ok).bind some).isSome = true ↔ ∃ c, p.after.head? = some c ∧ ok c = true := by
  rw [Place.step]
  cases p.after with
  | nil => exact iff_of_false Bool.false_ne_true fun ⟨_, h, _⟩ => nomatch h
  | cons c rest =>
      by_cases hc : ok c = true
      · show ((if ok c = true then _ else none).bind some).isSome = true ↔ _
        rw [if_pos hc]
        exact iff_of_true rfl ⟨c, rfl, hc⟩
      · show ((if ok c = true then _ else none).bind some).isSome = true ↔ _
        rw [if_neg hc]
        refine iff_of_false Bool.false_ne_true ?_
        rintro ⟨d, hd, hok⟩
        exact hc (Option.some.inj hd ▸ hok)

theorem sequence_cons {n : Node} {more : List Node} (h : more ≠ []) :
    Node.sequence (n :: more) = .cat n (Node.sequence more) := by
  obtain ⟨next, others, rfl⟩ := List.exists_cons_of_ne_nil h
  rfl

/-- **A LITERAL WITH AN END OF LINE BEHIND IT** matches where nothing stands
    behind the literal, or one newline. -/
theorem run_literal_lineEnd (literal : List Char) (p : Place) :
    (run {} (Node.sequence (literal.map .char ++ [.anchor .lineEnd])) p some).isSome = true ↔
      p.after = literal ∨ p.after = literal ++ ['\n'] := by
  induction literal generalizing p with
  | nil =>
      show (if (p.after.isEmpty || p.after == ['\n'] || (false && _)) = true then some p
        else none).isSome = true ↔ p.after = [] ∨ p.after = ['\n']
      rw [Bool.false_and, Bool.or_false]
      split
      · next h =>
          rw [Bool.or_eq_true, List.isEmpty_iff, beq_iff_eq] at h
          exact iff_of_true rfl h
      · next h =>
          rw [Bool.or_eq_true, List.isEmpty_iff, beq_iff_eq] at h
          exact iff_of_false Bool.false_ne_true h
  | cons c literal ih =>
      have hmore : literal.map Node.char ++ [.anchor .lineEnd] ≠ [] :=
        List.append_ne_nil_of_right_ne_nil _ (List.cons_ne_nil _ _)
      rw [List.map_cons, List.cons_append, sequence_cons hmore]
      show ((p.step (c == ·)).bind fun q => run {} _ q some).isSome = true ↔ _
      rw [Place.step]
      cases hafter : p.after with
      | nil => exact iff_of_false Bool.false_ne_true (by rintro (h | h) <;> exact nomatch h)
      | cons d rest =>
          rw [List.cons_append, List.cons.injEq, List.cons.injEq, ← and_or_left]
          by_cases hc : (c == d) = true
          · show ((if (c == d) = true then _ else none).bind _).isSome = true ↔ _
            rw [if_pos hc, Option.bind_some, ih, and_iff_right (beq_iff_eq.mp hc).symm]
          · show ((if (c == d) = true then _ else none).bind _).isSome = true ↔ _
            rw [if_neg hc]
            exact iff_of_false Bool.false_ne_true fun h => hc (beq_iff_eq.mpr h.1.symm)

end Pattern

/-! ## The default conventions -/

namespace TypeRules

variable {s : List Char}

/-- A text holds a name with a given end just if it ends so, or does before one
    newline. -/
theorem occursIn_endingIn (literal : List Char) :
    (endingIn literal).occursIn s = true ↔ literal <:+ s ∨ literal ++ ['\n'] <:+ s := by
  rw [Compiled.occursIn, searchFrom_iff]
  constructor
  · rintro ⟨front, back, rfl, h⟩
    rcases (run_literal_lineEnd literal _).mp h with rfl | rfl
    · exact .inl (List.suffix_append front back)
    · exact .inr (List.suffix_append front _)
  · rintro (⟨front, rfl⟩ | ⟨front, rfl⟩)
    · exact ⟨front, literal, rfl, (run_literal_lineEnd literal _).mpr (.inl rfl)⟩
    · exact ⟨front, _, rfl, (run_literal_lineEnd literal _).mpr (.inr rfl)⟩

/-- What ends in another character does not end so. -/
theorem not_occursIn_endingIn (literal : List Char) {c d : Char} (h : s.getLast? = some c)
    (hend : literal.getLast? = some d) (hd : c ≠ d) (hnewline : c ≠ '\n') :
    (endingIn literal).occursIn s = false := by
  rw [Bool.eq_false_iff]
  intro hoccurs
  rcases (occursIn_endingIn literal).mp hoccurs with ⟨front, rfl⟩ | ⟨front, rfl⟩
  · rw [List.getLast?_append, hend] at h
    exact hd (Option.some.inj h).symm
  · rw [← List.append_assoc, List.getLast?_concat] at h
    exact hnewline (Option.some.inj h).symm

/-- A name begins with a capital letter just if its first character is one. -/
theorem occursIn_capitalized :
    capitalized.occursIn s = true ↔ ∃ c, s.head? = some c ∧ 'A' ≤ c ∧ c ≤ 'Z' := by
  have hrun : ∀ p : Place, (run capitalized.modes capitalized.root p some).isSome = true ↔
      p.before = [] ∧ ∃ c, p.after.head? = some c ∧ 'A' ≤ c ∧ c ≤ 'Z' := by
    rintro ⟨before, after, captures⟩
    cases before with
    | cons d before => exact iff_of_false Bool.false_ne_true fun h => nomatch h.1
    | nil =>
        show ((Place.step _ _).bind some).isSome = true ↔ _
        rw [isSome_step_bind, and_iff_right rfl]
        refine exists_congr fun c => and_congr_right fun _ => ?_
        show ((decide ('A' ≤ c) && decide (c ≤ 'Z') || false) != false) = true ↔ _
        rw [Bool.bne_false, Bool.or_false, Bool.and_eq_true, decide_eq_true_eq, decide_eq_true_eq]
  rw [Compiled.occursIn, searchFrom_iff]
  constructor
  · rintro ⟨front, back, rfl, h⟩
    obtain ⟨hbefore, hfirst⟩ := (hrun _).mp h
    rw [List.append_nil, List.reverse_eq_nil_iff] at hbefore
    rw [hbefore]
    exact hfirst
  · intro h
    exact ⟨[], s, rfl, (hrun _).mpr ⟨rfl, h⟩⟩

/-- **A REFERENCE TO A POINTER** is known by its first character alone: no
    convention says how the name of a pointer ends. -/
theorem referenceObstacle?_default (h : (referenceBase s).getLast? = some '*') :
    TypeRules.default.referenceObstacle? s =
      if capitalized.occursIn (referenceBase s) = true then some .objectReference else none := by
  have hclass := not_occursIn_endingIn ['_', 'C', 'l', 'a', 's', 's'] h rfl
    (by decide) (by decide)
  have hbase := not_occursIn_endingIn ['_', 'B', 'a', 's', 'e'] h rfl
    (by decide) (by decide)
  have hstruct := not_occursIn_endingIn ['_', 't'] h rfl (by decide) (by decide)
  have hknown : isOneOf TypeRules.default.knownStructs (referenceBase s) = false :=
    not_isOneOf (by decide) (List.mem_of_getLast? h)
  have hobjects : TypeRules.default.objectPatterns.any (·.occursIn (referenceBase s))
      = capitalized.occursIn (referenceBase s) := by
    show (capitalized.occursIn _ || (Compiled.occursIn _ _ || (Compiled.occursIn _ _ || false))) = _
    rw [hclass, hbase, Bool.or_false, Bool.or_false, Bool.or_false]
  have hstructs : TypeRules.default.structPatterns.any (·.occursIn (referenceBase s)) = false := by
    show (Compiled.occursIn _ _ || false) = false
    rw [hstruct, Bool.or_false]
  rw [referenceObstacle?, hobjects, hknown, hstructs]
  rfl

end TypeRules
end GemBinder
