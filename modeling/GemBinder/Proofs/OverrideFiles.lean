import GemBinder.CommandLine.Run
import GemBinder.Proofs.Failure
import GemBinder.Proofs.Registry
import GemBinder.Proofs.World

/-! # The last override file counts

    The object in an override file is a map of entries: the names of its
    members are distinct, since the reader keeps one member a name.  Files
    that are loaded one after the other are such maps laid over the registry
    that was there before. -/

namespace GemBinder

open Files Text

/-! ## The names of an object -/

namespace Json

variable {members : List (String × Json)} {v : Json} {s rest : List Char}

theorem insertMember_eq (name : String) (v : Json) (members : List (String × Json)) :
    insertMember name v members = insertKey name v members := by
  induction members with
  | nil => rfl
  | cons e more ih => rw [insertMember, insertKey, ih]

/-- A member that is read is put among those before it. -/
theorem nodup_readMembers {room fuel : Nat} {earlier : List (String × Json)}
    (h : readMembers room fuel earlier s = .ok (members, rest)) (hearlier : (keysOf earlier).Nodup) :
    (keysOf members).Nodup := by
  induction fuel generalizing earlier s with
  | zero => exact nomatch h
  | succ fuel ih =>
      unfold readMembers at h
      split at h
      · obtain ⟨⟨name, rest₁⟩, -, h⟩ := Attempt.bind_eq_ok.mp h
        dsimp only at h
        split at h
        · obtain ⟨⟨v, rest₂⟩, -, h⟩ := Attempt.bind_eq_ok.mp h
          have hnext : (keysOf (insertMember (String.ofList name) v earlier)).Nodup := by
            rw [insertMember_eq]
            exact nodup_keysOf_insertKey hearlier
          dsimp only at h
          split at h
          · cases h
            exact hnext
          · exact ih h hnext
          · exact nomatch h
        · exact nomatch h
      · exact nomatch h

/-- A number is no object. -/
theorem not_object_readNumber (h : readNumber s = .ok (v, rest)) : v ≠ .object members := by
  unfold readNumber at h
  dsimp only at h
  cases hwhole : readWhole (Prod.snd _) with
  | none =>
      rw [hwhole] at h
      exact nomatch h
  | some found =>
      rw [hwhole] at h
      dsimp only at h
      split at h
      · split at h
        · exact nomatch h
        · cases h
          exact nofun
      · cases h
        exact nofun

theorem not_object_readWord (h : readWord s = .ok (v, rest)) : v ≠ .object members := by
  rw [readWord] at h
  split at h
  · rename_i w v' hfind
    cases h
    have hwords : ∀ w ∈ wordValues, w.2 ≠ .object members := by
      simp [wordValues]
    exact hwords _ (List.mem_of_find?_eq_some hfind)
  · exact not_object_readNumber h

theorem nodup_readValue {room fuel : Nat} (h : readValue room fuel s = .ok (.object members, rest)) :
    (keysOf members).Nodup := by
  cases fuel with
  | zero => exact nomatch h
  | succ fuel =>
      unfold readValue at h
      split at h
      · -- a text
        obtain ⟨⟨t, rest₁⟩, -, hv⟩ := Attempt.map_eq_ok.mp h
        exact nomatch hv
      · exact nomatch h
      · exact nomatch h
      · -- an object
        split at h
        · cases h
          exact List.nodup_nil
        · obtain ⟨⟨found, rest₁⟩, hfound, hv⟩ := Attempt.map_eq_ok.mp h
          cases hv
          exact nodup_readMembers hfound List.nodup_nil
      · -- a list
        split at h
        · exact nomatch h
        · obtain ⟨⟨items, rest₁⟩, -, hv⟩ := Attempt.map_eq_ok.mp h
          exact nomatch hv
      · exact absurd rfl (not_object_readWord h)

/-- **THE NAMES OF AN OBJECT ARE DISTINCT**, whatever text it was read from. -/
theorem nodup_read {depth : Nat} (h : read depth s = .ok (.object members)) :
    (keysOf members).Nodup := by
  rw [read] at h
  split at h
  · exact nomatch h
  · split at h
    · exact nomatch h
    · rename_i v rest hvalue
      split at h
      · cases h
        exact nodup_readValue hvalue
      · exact nomatch h

end Json

/-! ## What is in an override file -/

/-- A map of entries is what an override file says: its object has the same
    names in the same order, and each entry is what its member writes. -/
def EntryMap.WrittenIn (m : EntryMap) (w : World) (path : Path) : Prop :=
  ∃ text members, fileText w.tree w.workDir path = .ok text ∧
    readObject w.depths.values overrideFiles path text.toList = .ok members ∧
    List.Forall₂ (fun member entry => entry.1 = member.1 ∧
      readAction path member.1 member.2 = .ok entry.2) members m.entries

variable {path : Path} {w w' w'' : World} {r : Registry} {members : List (String × Json)}

/-- What a file gives is the object that its text writes. -/
theorem readObject_eq_ok {depth : Nat} {sort : FileSort} {s : List Char} :
    readObject depth sort path s = .ok members ↔ Json.read depth s = .ok (.object members) := by
  constructor
  · intro h
    rw [readObject] at h
    split at h
    · cases h
    · cases h
    · cases h
    · rename_i hread
      cases h
      exact hread
    · cases h
  · intro h
    rw [readObject, h]

theorem nodup_readObject {depth : Nat} {sort : FileSort} {s : List Char}
    (h : readObject depth sort path s = .ok members) : (keysOf members).Nodup :=
  Json.nodup_read (readObject_eq_ok.mp h)

theorem readObject_of_loadObject {sort : FileSort}
    (h : outcome (loadObject sort path) w = (.ok members, w')) :
    ∃ text, fileText w.tree w.workDir path = .ok text ∧
      readObject w.depths.values sort path text.toList = .ok members := by
  rw [loadObject, outcome_get_bind] at h
  split at h
  · split at h
    · exact nomatch congrArg Prod.fst h
    · exact nomatch congrArg Prod.fst h
  · exact nomatch congrArg Prod.fst h
  · rename_i text htext
    rw [Step.outcome_ofAttempt] at h
    exact ⟨text, htext, congrArg Prod.fst h⟩

theorem keysOf_eq_of_forall₂ {α β : Type} {t : List (String × α)} {u : List (String × β)}
    (h : List.Forall₂ (fun e e' => e'.1 = e.1) t u) : keysOf u = keysOf t := by
  induction h with
  | nil => rfl
  | cons hkey _ ih =>
      rw [keysOf, List.map_cons, hkey]
      exact congrArg _ ih

/-- The entries of an object have its names. -/
theorem ofJson_eq_ok (h : Registry.ofJson path members = .ok r) :
    ∃ entries, List.Forall₂ (fun (member : String × Json) (entry : String × Action) =>
      entry.1 = member.1 ∧ readAction path member.1 member.2 = .ok entry.2) members entries ∧
        r = .ofEntries entries := by
  rw [Registry.ofJson] at h
  obtain ⟨entries, hentries, hr⟩ := Attempt.bind_eq_ok.mp h
  refine ⟨entries, (Attempt.mapM_eq_ok.mp hentries).imp fun member entry hentry => ?_,
    (Attempt.pure_eq_ok.mp hr).symm⟩
  obtain ⟨a, ha, hpair⟩ := Attempt.bind_eq_ok.mp hentry
  cases Attempt.pure_eq_ok.mp hpair
  exact ⟨rfl, ha⟩

/-- **WHAT IS LOADED FROM A FILE** is the registry of the map that is written
    in it. -/
theorem exists_entryMap_of_loadRegistry (h : outcome (loadRegistry path) w = (.ok r, w')) :
    ∃ m : EntryMap, m.WrittenIn w path ∧ r = .ofEntries m.entries := by
  rw [loadRegistry] at h
  obtain ⟨members, w₁, hmembers, h⟩ := outcome_bind_eq_ok.mp h
  obtain ⟨text, htext, hobject⟩ := readObject_of_loadObject hmembers
  cases hregistry : Registry.ofJson path members with
  | error e =>
      rw [hregistry] at h
      exact nomatch congrArg Prod.fst h
  | ok registry =>
      rw [hregistry] at h
      obtain ⟨-, w₂, -, hlast⟩ := outcome_bind_eq_ok.mp h
      cases hlast
      obtain ⟨entries, hentries, rfl⟩ := ofJson_eq_ok hregistry
      have hnodup : (keysOf entries).Nodup := by
        rw [keysOf_eq_of_forall₂ (hentries.imp fun _ _ h => h.1)]
        exact nodup_readObject hobject
      exact ⟨⟨entries, hnodup⟩, ⟨text, members, htext, hobject, hentries⟩, rfl⟩

/-! ## Files in turn -/

/-- **FILES THAT ARE LOADED IN TURN**: each from the world that the one before
    it has left, and each gives the registry of the map that is written in
    it. -/
inductive LoadedInTurn : World → List Path → List EntryMap → World → Prop
  | nil (w : World) : LoadedInTurn w [] [] w
  | cons {w w' w'' : World} {path : Path} {paths : List Path} {m : EntryMap} {ms : List EntryMap}
      (written : m.WrittenIn w path)
      (loaded : outcome (loadRegistry path) w = (.ok (.ofEntries m.entries), w'))
      (more : LoadedInTurn w' paths ms w'') : LoadedInTurn w (path :: paths) (m :: ms) w''

/-- A registry with those of maps laid over it, one after the other. -/
def Registry.overlaid (base : Registry) (ms : List EntryMap) : Registry :=
  ms.foldl (fun r m => r.merged (.ofEntries m.entries)) base

theorem Registry.Ordered.action?_merged {s : Registry} (hr : r.Ordered) (hs : s.Ordered)
    (owner method : String) :
    (r.merged s).action? owner method = (s.action? owner method).or (r.action? owner method) := by
  rw [action?, entries_merged hr hs, lookup_extended, lookup_reverse_of_nodup hs.distinct]
  rfl

/-- The last map that has a method in any letter case decides on it. -/
theorem Registry.Ordered.action?_overlaid (hr : r.Ordered) (ms : List EntryMap)
    (owner method : String) :
    (r.overlaid ms).action? owner method =
      (ms.reverse.findSome? fun m => latest? m.entries owner method).or
        (r.action? owner method) := by
  induction ms generalizing r with
  | nil => rfl
  | cons m more ih =>
      have hm := Remembers.ofEntries m.distinct
      rw [overlaid, List.foldl_cons, ← overlaid, ih (ordered_merged r _),
        hr.action?_merged hm.ordered, hm.action?_eq, List.reverse_cons, List.findSome?_append,
        List.findSome?_singleton, Option.or_assoc]

namespace CommandLine.Options

/-- The registry that options begin with. -/
def baseRegistry (o : Options) : Registry := if o.noDefaultOverrides then {} else .builtin

theorem ordered_baseRegistry (o : Options) : o.baseRegistry.Ordered := by
  rw [baseRegistry]
  split
  · exact Registry.ordered_empty
  · exact Registry.ordered_ofEntries _

theorem loadedInTurn_of_loadRegistry {o : Options} (h : outcome o.loadRegistry w = (.ok r, w')) :
    ∃ ms, LoadedInTurn w (o.overrides.map Path.ofString) ms w' ∧ r = o.baseRegistry.overlaid ms := by
  have hloop : ∀ (files : List String) (base : Registry) (w : World),
      outcome (forIn files base fun file registry => do
        let loaded ← GemBinder.loadRegistry (Path.ofString file)
        pure (.yield (registry.merged loaded)) : Step Registry) w = (.ok r, w') →
      ∃ ms, LoadedInTurn w (files.map Path.ofString) ms w' ∧ r = base.overlaid ms := by
    intro files
    induction files with
    | nil =>
        intro base w h
        cases h
        exact ⟨[], .nil _, rfl⟩
    | cons file files ih =>
        intro base w h
        rw [List.forIn_cons, bind_assoc] at h
        obtain ⟨s, w₁, hs, h⟩ := outcome_bind_eq_ok.mp h
        obtain ⟨m, hwritten, rfl⟩ := exists_entryMap_of_loadRegistry hs
        obtain ⟨ms, hms, rfl⟩ := ih _ _ h
        exact ⟨m :: ms, .cons hwritten hs hms, rfl⟩
  rw [loadRegistry] at h
  obtain ⟨registry, w₁, hregistry, h⟩ := outcome_bind_eq_ok.mp h
  cases h
  exact hloop o.overrides o.baseRegistry w hregistry

end CommandLine.Options

/-! ## Every way to a registry -/

/-- **THE LAST ENTRY COUNTS.**  After any calls, each registry has for a method
    the last action that was supplied to it under the method's name in any
    letter case, and none if there was none.  Laying one registry over another
    makes a new one and leaves both as they are, and whatever is done later,
    each of them stays until it is registered with itself.  It is associative
    and has the empty registry as its identity.  So among override files, the
    last one that has a method in any letter case decides on it, and all of
    them come before the registry that was there at first. -/
theorem Registry.last_entry_counts :
    (∀ calls : List RegistryCall,
      List.Forall₂ (fun (r : Registry) supplied => ∀ owner method,
          r.action? owner method = latest? supplied owner method)
        (RegistryCall.made calls) (RegistryCall.supplied calls)) ∧
    (∀ (shelf : List Registry) (i j : Nat) (later : List RegistryCall),
      (∀ n, n < shelf.length → (∀ call ∈ later, call.target? ≠ some n) →
        ((RegistryCall.merged i j :: later).foldl RegistryCall.perform shelf)[n]? = shelf[n]?) ∧
      ∀ r s, shelf[i]? = some r → shelf[j]? = some s →
        (∀ call ∈ later, call.target? ≠ some shelf.length) →
        ((RegistryCall.merged i j :: later).foldl RegistryCall.perform shelf)[shelf.length]? =
          some (r.merged s)) ∧
    (∀ calls : List RegistryCall, ∀ r ∈ RegistryCall.made calls, ∀ s ∈ RegistryCall.made calls,
      ∀ t ∈ RegistryCall.made calls, (r.merged s).merged t = r.merged (s.merged t) ∧
        r.merged {} = r ∧ ({} : Registry).merged r = r) ∧
    (∀ (o : CommandLine.Options) (w w' : World) (r : Registry),
      outcome o.loadRegistry w = (.ok r, w') →
        ∃ ms, LoadedInTurn w (o.overrides.map Path.ofString) ms w' ∧ ∀ owner method,
          r.action? owner method =
            (ms.reverse.findSome? fun m => latest? m.entries owner method).or
              (o.baseRegistry.action? owner method)) := by
  refine ⟨?_, ?_, ?_, ?_⟩
  · intro calls
    exact (RegistryCall.remembers_made calls).imp fun _ _ h => h.action?_eq
  · intro shelf i j later
    constructor
    · intro n hn hlater
      exact RegistryCall.getElem?_calls hn (List.forall_mem_cons.mpr ⟨nofun, hlater⟩)
    · intro r s hr hs hlater
      have hperform : (RegistryCall.merged i j).perform shelf = shelf ++ [r.merged s] := by
        rw [RegistryCall.perform, hr, hs]
        rfl
      rw [List.foldl_cons, hperform, RegistryCall.getElem?_calls (by simp) hlater,
        List.getElem?_concat_length]
  · intro calls r hr s hs t ht
    have hordered : ∀ r ∈ RegistryCall.made calls, r.Ordered := by
      intro r hr
      obtain ⟨supplied, -, h⟩ := exists_of_mem_forall₂ (RegistryCall.remembers_made calls) hr
      exact h.ordered
    have hfirst := hordered r hr
    exact ⟨merged_assoc hfirst (hordered s hs) (hordered t ht), merged_empty hfirst,
      empty_merged hfirst⟩
  · intro o w w' r h
    obtain ⟨ms, hms, rfl⟩ := CommandLine.Options.loadedInTurn_of_loadRegistry h
    exact ⟨ms, hms, o.ordered_baseRegistry.action?_overlaid ms⟩

/-- A registry with an action under one spelling of a name, one with another
    action under another, and the second laid over the first. -/
def twoSpellings : List RegistryCall :=
  [.construct ⟨[("A::f", .skip "a")], List.nodup_singleton _⟩,
   .construct ⟨[("a::F", .skip "b")], List.nodup_singleton _⟩, .merged 0 1]

/-- The same actions in two override files. -/
def twoFiles : World where
  tree := (({} : FileTree).put ["a.json"]
    (.file (encode "\x7b\"A::f\": \x7b\"action\": \"skip\", \"reason\": \"a\"\x7d\x7d"))).put
      ["b.json"]
        (.file (encode "\x7b\"a::F\": \x7b\"action\": \"skip\", \"reason\": \"b\"\x7d\x7d"))

/-- The options that name these files, without the built-in registry. -/
def twoFilesOptions : CommandLine.Options :=
  { overrides := ["a.json", "b.json"], noDefaultOverrides := true }

theorem Registry.last_entry_counts_twoFiles :
    (let shelf := RegistryCall.made (twoSpellings.take 2)
      let later := [RegistryCall.merged 0 1, .register 0 "A" "f" (.skip "c")].foldl
        RegistryCall.perform shelf
      ∃ r s, shelf = [r, s] ∧ later[1]? = some s ∧ later[2]? = some (r.merged s)) ∧
      (∀ r ∈ RegistryCall.made twoSpellings, r.merged {} = r) ∧
      ∃ r w', outcome twoFilesOptions.loadRegistry twoFiles = (.ok r, w') ∧
        r.skipReason? "A" "f" = some "b" ∧
        ∃ ms, LoadedInTurn twoFiles [Path.ofString "a.json", Path.ofString "b.json"] ms w' ∧
          r.action? "A" "f" =
            (ms.reverse.findSome? fun m => latest? m.entries "A" "f").or none := by
  obtain ⟨-, hcopy, hlaws, hfiles⟩ := last_entry_counts
  refine ⟨?_, fun r hr => (hlaws _ r hr r hr r hr).2.1, ?_⟩
  · obtain ⟨hkept, hnew⟩ := hcopy (RegistryCall.made (twoSpellings.take 2)) 0 1
      [.register 0 "A" "f" (.skip "c")]
    exact ⟨_, _, rfl, hkept 1 (by decide) (by decide), hnew _ _ rfl rfl (by decide)⟩
  have hreason : (outcome twoFilesOptions.loadRegistry twoFiles).1.toOption.bind
      (·.skipReason? "A" "f") = some "b" := by
    decide +kernel
  obtain ⟨r, hr, hskip⟩ := Option.bind_eq_some_iff.mp hreason
  have hrun := outcome_eq_ok_of_toOption hr
  obtain ⟨ms, hms, haction⟩ := hfiles twoFilesOptions twoFiles _ r hrun
  exact ⟨r, _, hrun, hskip, ms, hms, haction "A" "f"⟩

end GemBinder
