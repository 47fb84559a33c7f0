import Mathlib.Data.List.Basic
import GemBinder.Override
import GemBinder.Proofs.Text.Casing

/-! # What a registry finds was entered

    A registry is built by entering actions one after the other, where an
    action replaces one of its key.  Whatever it finds for a method was
    entered under a key that is the method's in lower case. -/

namespace GemBinder

open Text

/-! ## Tables -/

section Tables

variable {α : Type} {key k : String} {a b : α}

theorem mem_of_mem_insertKey {t : List (String × α)} (h : (k, a) ∈ insertKey key b t) :
    (k = key ∧ a = b) ∨ (k, a) ∈ t := by
  induction t with
  | nil =>
      cases List.mem_singleton.mp h
      exact .inl ⟨rfl, rfl⟩
  | cons e more ih =>
      obtain ⟨k', b'⟩ := e
      rw [insertKey] at h
      by_cases hkey : (k' == key) = true
      · rw [if_pos hkey] at h
        rcases List.mem_cons.mp h with heq | hmore
        · cases heq
          exact .inl ⟨beq_iff_eq.mp hkey, rfl⟩
        · exact .inr (List.mem_cons_of_mem _ hmore)
      · rw [if_neg hkey] at h
        rcases List.mem_cons.mp h with heq | hmore
        · rw [heq]
          exact .inr List.mem_cons_self
        · rcases ih hmore with hnew | hold
          · exact .inl hnew
          · exact .inr (List.mem_cons_of_mem _ hold)

/-- What stands in a table is one of its entries. -/
theorem mem_of_mem_tableOf {entries : List (String × α)} (h : (k, a) ∈ tableOf entries) :
    (k, a) ∈ entries := by
  have hfold : ∀ (entries t : List (String × α)),
      (k, a) ∈ entries.foldl (fun t e => insertKey e.1 e.2 t) t →
      (k, a) ∈ entries ∨ (k, a) ∈ t := by
    intro entries
    induction entries with
    | nil => intro t h; exact .inr h
    | cons e more ih =>
        intro t h
        rcases ih _ h with hmore | hold
        · exact .inl (List.mem_cons_of_mem _ hmore)
        · rcases mem_of_mem_insertKey hold with ⟨rfl, rfl⟩ | ht
          · exact .inl List.mem_cons_self
          · exact .inr ht
  rcases hfold entries [] h with hmem | hnil
  · exact hmem
  · exact nomatch hnil

end Tables

/-! ## Registries -/

namespace Registry

/-- **WHAT STANDS IN A REGISTRY WAS ENTERED**, under a key of any letter case. -/
theorem mem_of_mem_ofEntries {entries : List (String × Action)} {k : String} {a : Action}
    (h : (k, a) ∈ (ofEntries entries).entries) :
    ∃ key, (key, a) ∈ entries ∧ k = lowerString key := by
  have hfold : ∀ (entries : List (String × Action)) (r : Registry),
      (k, a) ∈ (entries.foldl (fun r e => r.insert e.1 e.2) r).entries →
      (∃ key, (key, a) ∈ entries ∧ k = lowerString key) ∨ (k, a) ∈ r.entries := by
    intro entries
    induction entries with
    | nil => intro r h; exact .inr h
    | cons e more ih =>
        intro r h
        rcases ih _ h with ⟨key, hkey, hlower⟩ | hold
        · exact .inl ⟨key, List.mem_cons_of_mem _ hkey, hlower⟩
        · rcases mem_of_mem_insertKey hold with ⟨rfl, rfl⟩ | hr
          · exact .inl ⟨e.1, List.mem_cons_self, rfl⟩
          · exact .inr hr
  rcases hfold _ {} h with ⟨key, hkey, hlower⟩ | hnil
  · exact ⟨key, mem_of_mem_tableOf hkey, hlower⟩
  · exact nomatch hnil

theorem mem_of_action? {r : Registry} {owner method : String} {a : Action}
    (h : r.action? owner method = some a) : (overrideKey owner method, a) ∈ r.entries := by
  obtain ⟨before, after, hentries, -⟩ := List.lookup_eq_some_iff.mp h
  rw [hentries]
  exact List.mem_append_right _ List.mem_cons_self

/-- An action for a method was entered under its key. -/
theorem exists_entry_of_action? {entries : List (String × Action)} {owner method : String}
    {a : Action} (h : (ofEntries entries).action? owner method = some a) :
    ∃ key, (key, a) ∈ entries ∧ overrideKey owner method = lowerString key :=
  mem_of_mem_ofEntries (mem_of_action? h)

end Registry

/-! ## Marks in keys -/

/-- A mark that letter case leaves alone is in a method's key if it is in its
    name or in that of its class. -/
theorem mem_overrideKey {owner method : String} {mark : Char}
    (hfix : ∀ before after, lowerAt before mark after = [mark])
    (h : mark ∈ owner.toList ∨ mark ∈ method.toList) :
    mark ∈ (overrideKey owner method).toList := by
  have hkey : (overrideKey owner method).toList
      = lower (owner.toList ++ "::".toList ++ method.toList) := by
    rw [overrideKey, lowerString]
    rw [String.toList_ofList]
    show lower (owner ++ "::" ++ method).toList = _
    rw [String.toList_append, String.toList_append]
  rw [hkey]
  refine mem_lower_of_mem hfix ?_
  rcases h with howner | hmethod
  · exact List.mem_append_left _ (List.mem_append_left _ howner)
  · exact List.mem_append_right _ hmethod

end GemBinder
