import Mathlib.Data.List.Forall2
import Mathlib.Data.List.Nodup
import Mathlib.Data.Option.NAry
import GemBinder.Proofs.Override

/-! # The last entry for a method counts

    Registries are made from maps of entries, get further entries, and are
    laid over one another.  What such a registry has for a method is the last
    entry that was supplied to it under the method's name, in any letter
    case: the tables hold one action a key, each of these steps keeps the keys
    in lower case, and the lower case of a lower case is itself. -/

namespace GemBinder

open Text

/-! ## Tables -/

section Tables

variable {α : Type} {key k : String} {a b : α} {t s u entries : List (String × α)}

/-- The keys of a table, in order. -/
def keysOf (t : List (String × α)) : List String := t.map (·.1)

/-- A table with further entries, each of which replaces one of its key. -/
def extended (t entries : List (String × α)) : List (String × α) :=
  entries.foldl (fun t e => insertKey e.1 e.2 t) t

theorem extended_nil (t : List (String × α)) : extended t [] = t := rfl

theorem extended_cons (e : String × α) :
    extended t (e :: entries) = extended (insertKey e.1 e.2 t) entries := rfl

theorem tableOf_eq (entries : List (String × α)) : tableOf entries = extended [] entries := rfl

theorem lookup_cons_ite (e : String × α) :
    (e :: t).lookup k = if k = e.1 then some e.2 else t.lookup k := by
  rw [List.lookup_cons]
  by_cases hk : k = e.1
  · rw [if_pos hk, beq_iff_eq.mpr hk]
  · rw [if_neg hk, beq_false_of_ne hk]

theorem mem_keysOf_insertKey : k ∈ keysOf (insertKey key a t) ↔ k = key ∨ k ∈ keysOf t := by
  induction t with
  | nil => simp [keysOf, insertKey]
  | cons e more ih =>
      obtain ⟨k', b⟩ := e
      rw [insertKey]
      by_cases hkey : k' = key
      · simp [keysOf, hkey]
      · rw [if_neg (by simpa using hkey)]
        simp only [keysOf, List.map_cons, List.mem_cons] at ih ⊢
        rw [ih, or_left_comm]

theorem insertKey_of_notMem (h : key ∉ keysOf t) : insertKey key a t = t ++ [(key, a)] := by
  induction t with
  | nil => rfl
  | cons e more ih =>
      obtain ⟨hne, hmore⟩ := List.ne_and_not_mem_of_not_mem_cons h
      rw [insertKey, if_neg (by simpa using Ne.symm hne), ih hmore, List.cons_append]

theorem keysOf_insertKey_of_mem (h : key ∈ keysOf t) : keysOf (insertKey key a t) = keysOf t := by
  induction t with
  | nil => exact nomatch h
  | cons e more ih =>
      obtain ⟨k', b⟩ := e
      rw [insertKey]
      by_cases hkey : k' = key
      · rw [if_pos (by simpa using hkey)]
        rfl
      · rw [if_neg (by simpa using hkey)]
        have hmore := (List.mem_cons.mp h).resolve_left (Ne.symm hkey)
        exact congrArg (k' :: ·) (ih hmore)

theorem nodup_keysOf_insertKey (h : (keysOf t).Nodup) : (keysOf (insertKey key a t)).Nodup := by
  by_cases hkey : key ∈ keysOf t
  · rw [keysOf_insertKey_of_mem hkey]
    exact h
  · rw [insertKey_of_notMem hkey, keysOf, List.map_append]
    exact List.Nodup.append h (List.nodup_singleton _) (List.disjoint_singleton.mpr hkey)

theorem lookup_insertKey :
    (insertKey key a t).lookup k = if k = key then some a else t.lookup k := by
  induction t with
  | nil => exact lookup_cons_ite (key, a)
  | cons e more ih =>
      obtain ⟨k', b⟩ := e
      rw [insertKey]
      by_cases hkey : k' = key
      · subst hkey
        rw [if_pos BEq.rfl, lookup_cons_ite, lookup_cons_ite]
        split <;> rfl
      · rw [if_neg (by simpa using hkey), lookup_cons_ite, lookup_cons_ite, ih]
        by_cases hk : k = k'
        · rw [if_pos hk, if_pos hk, if_neg (hk ▸ hkey)]
        · rw [if_neg hk, if_neg hk]

/-! ### Extended tables -/

theorem nodup_keysOf_extended (h : (keysOf t).Nodup) : (keysOf (extended t entries)).Nodup := by
  induction entries generalizing t with
  | nil => exact h
  | cons e more ih => exact ih (nodup_keysOf_insertKey h)

theorem mem_keysOf_extended :
    k ∈ keysOf (extended t entries) ↔ k ∈ keysOf entries ∨ k ∈ keysOf t := by
  induction entries generalizing t with
  | nil => simp [extended_nil, keysOf]
  | cons e more ih =>
      rw [extended_cons, ih, mem_keysOf_insertKey]
      simp only [keysOf, List.map_cons, List.mem_cons]
      tauto

/-- Entries with new keys are put behind the table. -/
theorem extended_of_nodup (h : (keysOf (t ++ entries)).Nodup) : extended t entries = t ++ entries := by
  induction entries generalizing t with
  | nil => rw [extended_nil, List.append_nil]
  | cons e more ih =>
      have hnew : e.1 ∉ keysOf t := by
        rw [keysOf, List.map_append] at h
        exact fun he => (List.nodup_append.mp h).2.2 e.1 he e.1 List.mem_cons_self rfl
      rw [List.append_cons] at h ⊢
      rw [extended_cons, insertKey_of_notMem hnew, ih h]

/-- What is found in an extended table is the last of the entries. -/
theorem lookup_extended :
    (extended t entries).lookup k = (entries.reverse.lookup k).or (t.lookup k) := by
  induction entries generalizing t with
  | nil => rfl
  | cons e more ih =>
      rw [extended_cons, ih, lookup_insertKey, List.reverse_cons, List.lookup_append, Option.or_assoc]
      congr 1
      rw [lookup_cons_ite]
      split <;> rfl

/-- Among distinct keys the order is of no account. -/
theorem lookup_reverse_of_nodup (h : (keysOf t).Nodup) : t.reverse.lookup k = t.lookup k := by
  have hsame : extended [] t = t := extended_of_nodup h
  calc t.reverse.lookup k
      = (t.reverse.lookup k).or (([] : List (String × α)).lookup k) := Option.or_none.symm
    _ = t.lookup k := by rw [← lookup_extended, hsame]

/-! ### Extending twice -/

theorem insertKey_insertKey_self : insertKey key a (insertKey key b t) = insertKey key a t := by
  induction t with
  | nil => simp [insertKey]
  | cons e more ih =>
      obtain ⟨k', c⟩ := e
      by_cases hkey : k' = key <;> simp [insertKey, hkey, ih]

theorem insertKey_comm (hmem : key ∈ keysOf t) (hne : key ≠ k) :
    insertKey key a (insertKey k b t) = insertKey k b (insertKey key a t) := by
  induction t with
  | nil => exact nomatch hmem
  | cons e more ih =>
      obtain ⟨k', c⟩ := e
      by_cases hkey : k' = key
      · subst hkey
        simp [insertKey, hne]
      · have hmore := (List.mem_cons.mp hmem).resolve_left (Ne.symm hkey)
        by_cases hk : k' = k
        · subst hk
          simp [insertKey, hkey]
        · simp [insertKey, hkey, hk, ih hmore]

/-- A key that is there may be set before or after other keys are. -/
theorem insertKey_extended (hmem : key ∈ keysOf t) (hne : key ∉ keysOf entries) :
    insertKey key a (extended t entries) = extended (insertKey key a t) entries := by
  induction entries generalizing t with
  | nil => rfl
  | cons e more ih =>
      obtain ⟨hfirst, hmore⟩ := List.ne_and_not_mem_of_not_mem_cons hne
      rw [extended_cons, extended_cons, ih (mem_keysOf_insertKey.mpr (.inr hmem)) hmore,
        insertKey_comm hmem hfirst]

theorem extended_insertKey (hs : (keysOf s).Nodup) :
    extended t (insertKey key a s) = insertKey key a (extended t s) := by
  induction s generalizing t with
  | nil => rfl
  | cons e more ih =>
      obtain ⟨k', b⟩ := e
      obtain ⟨hfresh, hmore⟩ := List.nodup_cons.mp hs
      rw [insertKey]
      by_cases hkey : k' = key
      · subst hkey
        rw [if_pos BEq.rfl, extended_cons, extended_cons,
          insertKey_extended (mem_keysOf_insertKey.mpr (.inl rfl)) hfresh, insertKey_insertKey_self]
      · rw [if_neg (by simpa using hkey), extended_cons, extended_cons, ih hmore]

theorem extended_extended (hs : (keysOf s).Nodup) :
    extended (extended t s) u = extended t (extended s u) := by
  induction u generalizing s with
  | nil => rfl
  | cons e more ih =>
      rw [extended_cons, extended_cons, ← ih (nodup_keysOf_insertKey hs), extended_insertKey hs]

end Tables

/-! ## Registries -/

/-- An entry under the lower case of its key. -/
def lowered (e : String × Action) : String × Action := (lowerString e.1, e.2)

namespace Registry

variable {r s t : Registry} {entries : List (String × Action)} {owner method : String} {a : Action}

/-- **A REGISTRY IN ORDER**: its keys are in lower case, and no two of them are
    the same. -/
structure Ordered (r : Registry) : Prop where
  inLowerCase : ∀ k ∈ keysOf r.entries, lowerString k = k
  distinct : (keysOf r.entries).Nodup

theorem map_lowered {l : List (String × Action)} (h : ∀ k ∈ keysOf l, lowerString k = k) :
    l.map lowered = l := by
  have hsame : ∀ e ∈ l, lowered e = id e :=
    fun e he => Prod.ext (h e.1 (List.mem_map_of_mem he)) rfl
  rw [List.map_congr_left hsame, List.map_id]

theorem tableOf_of_nodup (h : (keysOf entries).Nodup) : tableOf entries = entries :=
  extended_of_nodup h

theorem entries_ofEntries (entries : List (String × Action)) :
    (ofEntries entries).entries = tableOf ((tableOf entries).map lowered) := by
  have hfold : ∀ (l : List (String × Action)) (r : Registry),
      (l.foldl (fun r e => r.insert e.1 e.2) r).entries = extended r.entries (l.map lowered) := by
    intro l
    induction l with
    | nil => intro r; rfl
    | cons e more ih => intro r; exact ih _
  exact hfold (tableOf entries) {}

theorem ordered_ofEntries (entries : List (String × Action)) : (ofEntries entries).Ordered where
  inLowerCase := by
    intro k hk
    obtain ⟨e, he, rfl⟩ := List.mem_map.mp hk
    obtain ⟨key, -, hkey⟩ := mem_of_mem_ofEntries he
    rw [hkey, lowerString_lowerString]
  distinct := by
    rw [entries_ofEntries]
    exact nodup_keysOf_extended List.nodup_nil

theorem Ordered.register (h : r.Ordered) : (r.register owner method a).Ordered where
  inLowerCase := by
    intro k hk
    rcases mem_keysOf_insertKey.mp hk with rfl | hold
    · exact lowerString_lowerString _
    · exact h.inLowerCase k hold
  distinct := nodup_keysOf_insertKey h.distinct

/-- Registries in order are laid over one another as tables are. -/
theorem entries_merged (hr : r.Ordered) (hs : s.Ordered) :
    (r.merged s).entries = extended r.entries s.entries := by
  have hdistinct : (keysOf (extended r.entries s.entries)).Nodup := nodup_keysOf_extended hr.distinct
  have hlower : ∀ k ∈ keysOf (extended r.entries s.entries), lowerString k = k := by
    intro k hk
    rcases mem_keysOf_extended.mp hk with hsecond | hfirst
    · exact hs.inLowerCase k hsecond
    · exact hr.inLowerCase k hfirst
  calc (r.merged s).entries
      = tableOf ((tableOf (extended r.entries s.entries)).map lowered) := entries_ofEntries _
    _ = extended r.entries s.entries := by
        rw [tableOf_of_nodup hdistinct, map_lowered hlower, tableOf_of_nodup hdistinct]

theorem ordered_merged (r s : Registry) : (r.merged s).Ordered := ordered_ofEntries _

theorem ordered_empty : ({} : Registry).Ordered := ordered_ofEntries []

/-! ### Laws -/

theorem ext_entries (h : r.entries = s.entries) : r = s := congrArg Registry.mk h

theorem merged_empty (hr : r.Ordered) : r.merged {} = r :=
  ext_entries (entries_merged hr ordered_empty)

theorem empty_merged (hr : r.Ordered) : ({} : Registry).merged r = r :=
  ext_entries ((entries_merged ordered_empty hr).trans (tableOf_of_nodup hr.distinct))

theorem merged_assoc (hr : r.Ordered) (hs : s.Ordered) (ht : t.Ordered) :
    (r.merged s).merged t = r.merged (s.merged t) := by
  refine ext_entries ?_
  rw [entries_merged (ordered_merged r s) ht, entries_merged hr hs,
    entries_merged hr (ordered_merged s t), entries_merged hs ht, extended_extended hs.distinct]

/-! ## What was supplied -/

/-- The action that was supplied last for a method, among entries in the order
    in which they were supplied. -/
def latest? (supplied : List (String × Action)) (owner method : String) : Option Action :=
  (supplied.reverse.find? fun e => lowerString e.1 == overrideKey owner method).map (·.2)

theorem latest?_eq_lookup (supplied : List (String × Action)) (owner method : String) :
    latest? supplied owner method =
      (supplied.map lowered).reverse.lookup (overrideKey owner method) := by
  have hfind : ∀ (l : List (String × Action)) (k : String),
      (l.find? fun e => lowerString e.1 == k).map (·.2) = (l.map lowered).lookup k := by
    intro l k
    induction l with
    | nil => rfl
    | cons e more ih =>
        rw [List.find?_cons, List.map_cons, lookup_cons_ite, ← ih]
        by_cases hk : k = lowerString e.1
        · rw [beq_iff_eq.mpr hk.symm, if_pos (show k = (lowered e).1 from hk)]
          rfl
        · rw [beq_false_of_ne (Ne.symm hk), if_neg (show ¬ k = (lowered e).1 from hk)]
  rw [latest?, hfind, List.map_reverse]

/-- **WHAT A REGISTRY REMEMBERS** of the entries that were supplied to it: at
    each key the last one. -/
structure Remembers (r : Registry) (supplied : List (String × Action)) : Prop where
  ordered : r.Ordered
  lookup_eq : ∀ k, r.entries.lookup k = (supplied.map lowered).reverse.lookup k

namespace Remembers

variable {supplied more : List (String × Action)}

theorem action?_eq (h : r.Remembers supplied) (owner method : String) :
    r.action? owner method = latest? supplied owner method := by
  rw [latest?_eq_lookup]
  exact h.lookup_eq _

theorem ofEntries (h : (keysOf entries).Nodup) : (ofEntries entries).Remembers entries where
  ordered := ordered_ofEntries entries
  lookup_eq k := by
    rw [entries_ofEntries, tableOf_of_nodup h, tableOf_eq, lookup_extended]
    exact Option.or_none

theorem register (h : r.Remembers supplied) :
    (r.register owner method a).Remembers (supplied ++ [(s!"{owner}::{method}", a)]) where
  ordered := h.ordered.register
  lookup_eq k := by
    have hlast : ((supplied ++ [(s!"{owner}::{method}", a)]).map lowered).reverse
        = (overrideKey owner method, a) :: (supplied.map lowered).reverse := by
      rw [List.map_append, List.reverse_append]
      rfl
    rw [hlast, lookup_cons_ite, ← h.lookup_eq]
    exact lookup_insertKey

theorem merged (hr : r.Remembers supplied) (hs : s.Remembers more) :
    (r.merged s).Remembers (supplied ++ more) where
  ordered := ordered_merged r s
  lookup_eq k := by
    rw [entries_merged hr.ordered hs.ordered, lookup_extended,
      lookup_reverse_of_nodup hs.ordered.distinct, hs.lookup_eq, hr.lookup_eq, List.map_append,
      List.reverse_append, List.lookup_append]

end Remembers

end Registry

/-! ## Lists side by side -/

section Forall₂

variable {α β : Type} {R : α → β → Prop} {xs : List α} {ys : List β}

theorem forall₂_modify {f : α → α} {g : β → β} (h : List.Forall₂ R xs ys)
    (hfg : ∀ x y, R x y → R (f x) (g y)) (i : Nat) :
    List.Forall₂ R (xs.modify i f) (ys.modify i g) := by
  induction h generalizing i with
  | nil => simp
  | cons hxy hmore ih =>
      cases i with
      | zero => exact .cons (hfg _ _ hxy) hmore
      | succ i => exact .cons hxy (ih i)

theorem rel_getElem? (h : List.Forall₂ R xs ys) (i : Nat) : Option.Rel R xs[i]? ys[i]? := by
  induction h generalizing i with
  | nil => exact .none
  | cons hxy _ ih =>
      cases i with
      | zero => exact .some hxy
      | succ i => exact ih i

theorem forall₂_map₂ {f : α → α → α} {g : β → β → β} {x x' : Option α} {y y' : Option β}
    (h : Option.Rel R x y) (h' : Option.Rel R x' y')
    (hfg : ∀ a b a' b', R a b → R a' b' → R (f a a') (g b b')) :
    List.Forall₂ R (Option.map₂ f x x').toList (Option.map₂ g y y').toList := by
  cases h with
  | none => exact .nil
  | some hab =>
      cases h' with
      | none => exact .nil
      | some hab' => exact .cons (hfg _ _ _ _ hab hab') .nil

end Forall₂

/-! ## Sequences of calls -/

/-- Entries in order, no two of which have the same key. -/
structure EntryMap where
  entries : List (String × Action)
  distinct : (keysOf entries).Nodup

/-- A call: it makes a registry from a map of entries, registers an action with
    one of the registries at hand, or lays one of them over another. -/
inductive RegistryCall where
  | construct (m : EntryMap)
  | register (i : Nat) (owner method : String) (a : Action)
  | merged (i j : Nat)

namespace RegistryCall

/-- The registries at hand after a call.  A new one is put behind the others;
    a call that names one that is not there does nothing. -/
def perform (shelf : List Registry) : RegistryCall → List Registry
  | construct m => shelf ++ [.ofEntries m.entries]
  | register i owner method a => shelf.modify i (·.register owner method a)
  | merged i j => shelf ++ (Option.map₂ Registry.merged shelf[i]? shelf[j]?).toList

/-- The entries that were supplied to each registry at hand, in the order in
    which they take effect, after a call. -/
def supply (supplied : List (List (String × Action))) :
    RegistryCall → List (List (String × Action))
  | construct m => supplied ++ [m.entries]
  | register i owner method a => supplied.modify i (· ++ [(s!"{owner}::{method}", a)])
  | merged i j => supplied ++ (Option.map₂ (· ++ ·) supplied[i]? supplied[j]?).toList

/-- The registries that calls make. -/
def made (calls : List RegistryCall) : List Registry := calls.foldl perform []

/-- The entries that calls supply to each of the registries that they make. -/
def supplied (calls : List RegistryCall) : List (List (String × Action)) := calls.foldl supply []

variable {shelf : List Registry} {told : List (List (String × Action))}

/-- **A CALL KEEPS WHAT REGISTRIES REMEMBER.** -/
theorem remembers_perform (h : List.Forall₂ Registry.Remembers shelf told) (call : RegistryCall) :
    List.Forall₂ Registry.Remembers (call.perform shelf) (call.supply told) := by
  cases call with
  | construct m =>
      exact List.rel_append h (.cons (Registry.Remembers.ofEntries m.distinct) .nil)
  | register i owner method a => exact forall₂_modify h (fun _ _ hr => hr.register) i
  | merged i j =>
      exact List.rel_append h (forall₂_map₂ (rel_getElem? h i) (rel_getElem? h j)
        fun _ _ _ _ hr hs => hr.merged hs)

theorem remembers_made (calls : List RegistryCall) :
    List.Forall₂ Registry.Remembers (made calls) (supplied calls) := by
  have hrun : ∀ (calls : List RegistryCall) (shelf told),
      List.Forall₂ Registry.Remembers shelf told →
      List.Forall₂ Registry.Remembers (calls.foldl perform shelf) (calls.foldl supply told) := by
    intro calls
    induction calls with
    | nil => intro shelf told h; exact h
    | cons call more ih => intro shelf told h; exact ih _ _ (remembers_perform h call)
  exact hrun calls [] [] .nil

/-- The registry that a call writes to. -/
def target? : RegistryCall → Option Nat
  | register i _ _ _ => some i
  | _ => none

/-- A call leaves every registry that it does not write to. -/
theorem getElem?_perform {n : Nat} (hn : n < shelf.length) {call : RegistryCall}
    (hcall : call.target? ≠ some n) :
    n < (call.perform shelf).length ∧ (call.perform shelf)[n]? = shelf[n]? := by
  cases call with
  | construct m => exact ⟨by simp [perform]; omega, List.getElem?_append_left hn⟩
  | register i owner method a =>
      have hne : i ≠ n := fun h => hcall (congrArg some h)
      rw [perform, List.length_modify, List.getElem?_modify_ne _ _ hne]
      exact ⟨hn, rfl⟩
  | merged i j => exact ⟨by simp [perform]; omega, List.getElem?_append_left hn⟩

/-- **REGISTRIES ARE COPIES**: calls leave every registry that none of them
    writes to. -/
theorem getElem?_calls {n : Nat} {calls : List RegistryCall} (hn : n < shelf.length)
    (hcalls : ∀ call ∈ calls, call.target? ≠ some n) :
    (calls.foldl perform shelf)[n]? = shelf[n]? := by
  induction calls generalizing shelf with
  | nil => rfl
  | cons call calls ih =>
      obtain ⟨hcall, hmore⟩ := List.forall_mem_cons.mp hcalls
      obtain ⟨hlength, hsame⟩ := getElem?_perform hn hcall
      rw [List.foldl_cons, ih hlength hmore, hsame]

end RegistryCall
end GemBinder
