import GemBinder.Failure
import GemBinder.Text.Lines
import GemBinder.Symbol

/-! # Overrides

    What the rules cannot bind can be skipped or bound by hand.  A registry
    holds an action for a class and a method, in any letter case.  A key
    says nothing about parameters: code written by hand sees the overload at
    hand and declines those it is not for. -/

namespace GemBinder

open Text

/-- Code for an overload, nothing if it is not for that one. -/
abbrev Snippet := Method → Attempt (Option String)

/-- What is done with the overloads of a method: all are skipped, or those
    that code is for are bound by it. -/
inductive Action where
  | skip (reason : String)
  | custom (native binding : Snippet)
deriving Inhabited

/-- The reason for skipping. -/
def Action.skipReason? : Action → Option String
  | .skip reason => some reason
  | .custom _ _ => none

/-- Code that is written out as a literal text for one arity. -/
def literalSnippet (arity : Nat) (text : Option Json) : Snippet := fun m =>
  match text with
  | none => .ok none
  | some .null => .ok none
  | some v =>
      if m.arity != arity then .ok none
      else
        match v with
        | .text s => .ok (some (snippet s))
        | _ => .error .snippetNotText

/-- The key of a method in a registry. -/
def overrideKey (owner method : String) : String := lowerString s!"{owner}::{method}"

/-! ## Tables -/

/-- A table with one more entry, which replaces one of its key. -/
def insertKey {α : Type} (key : String) (a : α) : List (String × α) → List (String × α)
  | [] => [(key, a)]
  | (k, b) :: more => if k == key then (k, a) :: more else (k, b) :: insertKey key a more

/-- The table of entries, of which later ones replace earlier ones. -/
def tableOf {α : Type} (entries : List (String × α)) : List (String × α) :=
  entries.foldl (fun t (k, a) => insertKey k a t) []

/-! ## Registries -/

/-- Actions by their keys, which are in lower case. -/
structure Registry where
  entries : List (String × Action) := []
deriving Inhabited

namespace Registry

/-- The registry with an action at a key. -/
def insert (r : Registry) (key : String) (a : Action) : Registry :=
  ⟨insertKey (lowerString key) a r.entries⟩

/-- The registry of a table of entries.  Keys that differ in letter case
    only are one key, and the last of them counts. -/
def ofEntries (entries : List (String × Action)) : Registry :=
  (tableOf entries).foldl (fun r (k, a) => r.insert k a) {}

/-- The number of keys. -/
def size (r : Registry) : Nat := r.entries.length

/-- The registry with an action for a method. -/
def register (r : Registry) (owner method : String) (a : Action) : Registry :=
  ⟨insertKey (overrideKey owner method) a r.entries⟩

/-- Both registries, where the second wins. -/
def merged (r s : Registry) : Registry :=
  ofEntries (s.entries.foldl (fun t (k, a) => insertKey k a t) r.entries)

/-- Whether there is an action at a key. -/
def contains (r : Registry) (key : String) : Bool := (r.entries.lookup key).isSome

/-- The action for a method. -/
def action? (r : Registry) (owner method : String) : Option Action :=
  r.entries.lookup (overrideKey owner method)

/-- The reason for which a method is skipped. -/
def skipReason? (r : Registry) (owner method : String) : Option String :=
  (r.action? owner method).bind Action.skipReason?

/-- The native code for an overload. -/
def nativeCode (r : Registry) (owner : String) (m : Method) : Attempt (Option String) :=
  match r.action? owner m.name with
  | some (.custom native _) => native m
  | _ => .ok none

/-- The binding code for an overload. -/
def bindingCode (r : Registry) (owner : String) (m : Method) : Attempt (Option String) :=
  match r.action? owner m.name with
  | some (.custom _ binding) => binding m
  | _ => .ok none

/-- The entries in the order of their keys. -/
def sorted (r : Registry) : List (String × Action) :=
  r.entries.mergeSort fun a b => a.1 ≤ b.1

end Registry
end GemBinder
