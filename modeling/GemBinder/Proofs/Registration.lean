import Mathlib.Data.List.Basic
import Mathlib.Data.List.Induction
import Mathlib.Data.List.Nodup
import GemBinder.Registration

/-! # What declaring members leaves reachable

    `Reach.declare` puts a member behind all that are kept and moves the
    member of its key, if there is one, to those that are shadowed.  Two
    facts follow for every sequence of declarations: what is kept was
    declared, and no two kept members have one key. -/

namespace GemBinder

theorem mem_membersOf {classes : List ClassDecl} {m : Member} :
    m ∈ membersOf classes ↔ ∃ c ∈ classes, m.owner = c.name ∧ m.method ∈ c.methods := by
  rw [membersOf, List.mem_flatMap]
  constructor
  · rintro ⟨c, hc, hm⟩
    obtain ⟨method, hmethod, rfl⟩ := List.mem_map.mp hm
    exact ⟨c, hc, rfl, hmethod⟩
  · rintro ⟨c, hc, howner, hmethod⟩
    obtain ⟨owner, method⟩ := m
    cases howner
    exact ⟨c, hc, List.mem_map_of_mem hmethod⟩

/-! ## One declaration after the others -/

/-- The last declaration acts on what the ones before it have left. -/
theorem Reach.of_append_singleton (ms : List Member) (m : Member) :
    Reach.of (ms ++ [m]) = (Reach.of ms).declare m := by
  rw [Reach.of, List.foldl_append]
  rfl

theorem Reach.kept_declare (r : Reach) (m : Member) :
    (r.declare m).kept = r.kept.filter (·.key != m.key) ++ [m] := rfl

/-- What is kept after a declaration is the member, or was kept before under
    another key. -/
theorem Reach.mem_kept_declare {r : Reach} {m a : Member} :
    a ∈ (r.declare m).kept ↔ (a ∈ r.kept ∧ a.key ≠ m.key) ∨ a = m := by
  rw [Reach.kept_declare, List.mem_append, List.mem_filter, List.mem_singleton, bne_iff_ne]

/-! ## All declarations -/

/-- What is kept was declared. -/
theorem Reach.mem_of_mem_kept {ms : List Member} {a : Member}
    (h : a ∈ (Reach.of ms).kept) : a ∈ ms := by
  induction ms using List.reverseRecOn with
  | nil => exact nomatch h
  | append_singleton ms m ih =>
      rw [Reach.of_append_singleton, Reach.mem_kept_declare] at h
      rcases h with ⟨hkept, -⟩ | rfl
      · exact List.mem_append_left _ (ih hkept)
      · exact List.mem_append_right _ (List.mem_singleton_self _)

/-- **ONE MEMBER FOR EACH KEY** is kept. -/
theorem Reach.kept_keys_nodup (ms : List Member) :
    ((Reach.of ms).kept.map Member.key).Nodup := by
  induction ms using List.reverseRecOn with
  | nil => exact List.nodup_nil
  | append_singleton ms m ih =>
      rw [Reach.of_append_singleton, Reach.kept_declare, List.map_append]
      refine List.Nodup.append ?_ (List.nodup_singleton _) ?_
      · -- the keys that stay are some of those before
        exact ih.sublist (List.filter_sublist.map _)
      · intro k hk hm
        obtain ⟨a, ha, rfl⟩ := List.mem_map.mp hk
        have hne : a.key ≠ m.key := bne_iff_ne.mp (List.mem_filter.mp ha).2
        exact hne (List.mem_singleton.mp hm)

/-- Kept members with one key are one member. -/
theorem Reach.eq_of_key_eq {ms : List Member} {a b : Member}
    (ha : a ∈ (Reach.of ms).kept) (hb : b ∈ (Reach.of ms).kept) (h : a.key = b.key) : a = b :=
  List.inj_on_of_nodup_map (Reach.kept_keys_nodup ms) ha hb h

theorem Reach.kept_nodup (ms : List Member) : (Reach.of ms).kept.Nodup :=
  List.Nodup.of_map _ (Reach.kept_keys_nodup ms)

/-! ## Registrations -/

/-- The members of the registrations are those that are kept. -/
theorem Plan.registrations_map_toMember (classes : List ClassDecl) (vmPrefix : String) :
    (Plan.of classes vmPrefix).registrations.map (·.toMember)
      = (Reach.of (membersOf classes)).kept := by
  show ((Reach.of (membersOf classes)).kept.map _).map _ = _
  rw [List.map_map]
  exact List.map_id _

/-- A registered member is a member of the classes. -/
theorem Plan.mem_membersOf {classes : List ClassDecl} {vmPrefix : String} {r : Registration}
    (h : r ∈ (Plan.of classes vmPrefix).registrations) : r.toMember ∈ membersOf classes := by
  refine Reach.mem_of_mem_kept ?_
  rw [← Plan.registrations_map_toMember classes vmPrefix]
  exact List.mem_map_of_mem h

/-- The symbol of a registration is the one that its member has among those
    that are kept. -/
theorem Plan.symbol_eq {classes : List ClassDecl} {vmPrefix : String} {r : Registration}
    (h : r ∈ (Plan.of classes vmPrefix).registrations) :
    r.symbol = symbolOf vmPrefix (Reach.of (membersOf classes)).kept r.toMember := by
  obtain ⟨m, -, rfl⟩ := List.mem_map.mp h
  rfl

end GemBinder
