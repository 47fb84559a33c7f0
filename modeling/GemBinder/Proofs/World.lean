import GemBinder.Proofs.Files.Tree
import GemBinder.Proofs.Outcome
import GemBinder.World

/-! # Steps and the files

    A step that only tells touches no files, as long as no handler writes its
    lines to one, and an operation on the files touches nothing else.  So a
    property of the files is kept by a step whose operations keep it. -/

namespace GemBinder

open Files

/-- No handler shows its lines in a file. -/
def LogSetup.OnConsole (s : LogSetup) : Prop := ∀ h ∈ s.handlers, h.sink = .console

namespace World

variable {w : World}

/-! ## Telling -/

theorem handle_of_console {h : Handler} (hc : h.sink = .console) (e : LogEntry) (w : World) :
    ∃ console, w.handle e h = { w with console := console } := by
  rw [handle, hc]
  split
  · exact ⟨w.console, rfl⟩
  · split
    · exact ⟨w.console, rfl⟩
    · exact ⟨_, rfl⟩

theorem foldl_handle (e : LogEntry) :
    ∀ (handlers : List Handler) (w : World), (∀ h ∈ handlers, h.sink = .console) →
      ∃ console, handlers.foldl (handle e) w = { w with console := console }
  | [], w, _ => ⟨w.console, rfl⟩
  | h :: handlers, w, hc => by
      obtain ⟨console, hw⟩ := handle_of_console (hc h List.mem_cons_self) e w
      obtain ⟨console', hrest⟩ := foldl_handle e handlers { w with console := console }
        fun h' hh => hc h' (List.mem_cons_of_mem h hh)
      exact ⟨console', by rw [List.foldl_cons, hw, hrest]⟩

/-- What is told on the console changes the journal and the console only. -/
theorem tell_eq (hlog : w.log.OnConsole) (e : LogEntry) :
    ∃ journal console, w.tell e = { w with journal := journal, console := console } := by
  rw [tell]
  split
  · exact ⟨w.journal, w.console, rfl⟩
  · obtain ⟨console, hw⟩ := foldl_handle e w.log.handlers { w with journal := w.journal ++ [e] } hlog
    exact ⟨_, console, hw⟩

theorem workDir_handle (e : LogEntry) (w : World) (h : Handler) :
    (w.handle e h).workDir = w.workDir := by
  unfold handle appendTo
  repeat' split
  all_goals rfl

/-- What is told leaves the working directory as it is. -/
theorem workDir_tell (w : World) (e : LogEntry) : (w.tell e).workDir = w.workDir := by
  have hfold : ∀ (handlers : List Handler) (v : World),
      (handlers.foldl (handle e) v).workDir = v.workDir := by
    intro handlers
    induction handlers with
    | nil => intro v; rfl
    | cons h handlers ih =>
        intro v
        rw [List.foldl_cons, ih, workDir_handle]
  rw [tell]
  split
  · rfl
  · rw [hfold]

/-- **THE SITE OF A RUN**: the files have a property, the working directory
    is that of the run, and what is told goes to the console. -/
structure Site (workDir : Place) (P : FileTree → Prop) (w : World) : Prop where
  files : P w.tree
  workDir : w.workDir = workDir
  onConsole : w.log.OnConsole

variable {workDir : Place} {P Q : FileTree → Prop}

theorem Site.tell (h : w.Site workDir P) (e : LogEntry) : (w.tell e).Site workDir P := by
  obtain ⟨journal, console, hw⟩ := tell_eq h.onConsole e
  rw [hw]
  exact ⟨h.files, h.workDir, h.onConsole⟩

theorem Site.imp (h : w.Site workDir P) (hPQ : ∀ t, P t → Q t) : w.Site workDir Q :=
  ⟨hPQ _ h.files, h.workDir, h.onConsole⟩

/-- **A WORLD IN WHICH A RUN CAN BEGIN**: the tree is that of a file system,
    the working directory is a directory of it, and no handler writes to a
    file. -/
structure Sound (w : World) : Prop where
  wellFormed : w.tree.WellFormed
  working : w.tree.at? w.workDir = some .directory
  onConsole : w.log.OnConsole

/-- Where the files and the working directory are those of before, a run can
    begin as well. -/
theorem Sound.of_site {v : World} (hw : w.Sound) (h : v.Site w.workDir (· = w.tree)) :
    v.Sound where
  wellFormed := by
    rw [h.files]
    exact hw.wellFormed
  working := by
    rw [h.files, h.workDir]
    exact hw.working
  onConsole := h.onConsole

end World

namespace Step

open World

variable {α : Type} {workDir : Place} {P : FileTree → Prop}

/-! ## Steps that touch no files -/

theorem keeps_tellEntry (e : LogEntry) :
    Keeps (Site workDir P) (modify (·.tell e) : Step PUnit) :=
  Keeps.modify fun _ hw => hw.tell e

theorem keeps_debug (message : String) : Keeps (Site workDir P) (debug message) :=
  keeps_tellEntry _

theorem keeps_info (message : String) : Keeps (Site workDir P) (info message) :=
  keeps_tellEntry _

theorem keeps_warning (message : String) : Keeps (Site workDir P) (warning message) :=
  keeps_tellEntry _

theorem keeps_failed (message : String) (f : Failure) :
    Keeps (Site workDir P) (failed message f) := keeps_tellEntry _

theorem keeps_ofAttempt (a : Attempt α) : Keeps (Site workDir P) (ofAttempt a) := by
  cases a with
  | error f => exact Keeps.throw f
  | ok a => exact Keeps.pure a

theorem outcome_ofAttempt (a : Attempt α) (w : World) : outcome (ofAttempt a) w = (a, w) := by
  cases a with
  | error f => rfl
  | ok a => rfl

theorem outcome_tellEntries :
    ∀ (entries : List LogEntry) (w : World),
      outcome (forIn entries PUnit.unit fun e _ => do
          modify (·.tell e)
          pure (.yield PUnit.unit) : Step PUnit) w = (.ok ⟨⟩, entries.foldl World.tell w)
  | [], _ => rfl
  | e :: entries, w => by
      rw [List.foldl_cons, ← outcome_tellEntries entries (w.tell e), List.forIn_cons, bind_assoc,
        outcome_modify_bind]
      rfl

/-- A loop that only tells ends well. -/
theorem exists_tellAll {α : Type} {f : α → Step Unit}
    (hf : ∀ a w, ∃ w', outcome (f a) w = (.ok (), w')) :
    ∀ (l : List α) (w : World), ∃ w', outcome (forIn l PUnit.unit fun a _ => do
        f a
        pure (.yield PUnit.unit) : Step PUnit) w = (.ok ⟨⟩, w')
  | [], w => ⟨w, rfl⟩
  | a :: l, w => by
      obtain ⟨w₁, h⟩ := hf a w
      obtain ⟨w', h'⟩ := exists_tellAll hf l w₁
      refine ⟨w', ?_⟩
      rw [List.forIn_cons, bind_assoc, outcome_bind_of_ok h]
      exact h'

theorem keeps_look (f : FileTree → Place → α) : Keeps (Site workDir P) (look f) := by
  refine Keeps.get_bind fun w hw => ?_
  exact hw

theorem keeps_now : Keeps (Site workDir P) now := by
  refine Keeps.get_bind fun w hw => ?_
  exact ⟨hw.files, hw.workDir, hw.onConsole⟩

/-! ## Operations on the files -/

theorem outcome_disk (d : Place → Disk α) (w : World) :
    outcome (disk d) w =
      ((outcome (d w.workDir) w.tree).1.mapError .disk,
        { w with tree := (outcome (d w.workDir) w.tree).2 }) := by
  have htry : outcome (tryDisk d) w =
      (.ok (outcome (d w.workDir) w.tree).1,
        { w with tree := (outcome (d w.workDir) w.tree).2 }) := rfl
  rw [disk, outcome_bind_of_ok htry]
  cases (outcome (d w.workDir) w.tree).1 with
  | error e => rfl
  | ok a => rfl

theorem keeps_disk {d : Place → Disk α} (h : Keeps P (d workDir)) :
    Keeps (Site workDir P) (disk d) := by
  rintro w ⟨hfiles, rfl, hlog⟩
  rw [outcome_disk]
  exact ⟨h w.tree hfiles, rfl, hlog⟩

/-- A step that is run at the end of another, on every way out of it. -/
theorem outcome_ensuring {last : Step Unit} {t : Step α} {r : Except Failure α} {w w' w'' : World}
    (ht : outcome t w = (r, w')) (hlast : outcome last w' = (.ok (), w'')) :
    outcome (ensuring last t) w = (r, w'') := by
  rw [ensuring]
  cases r with
  | error f =>
      have hmap : outcome (Except.ok <$> t : Step (Except Failure α)) w = (.error f, w') := by
        rw [map_eq_pure_bind, outcome_bind_of_error ht]
      have hcaught : outcome (do
          try Except.ok <$> t catch f => pure (Except.error f) : Step (Except Failure α)) w
            = (.ok (.error f), w') := by
        rw [outcome_tryCatch_of_error hmap, outcome_pure]
      rw [outcome_bind_of_ok hcaught, outcome_bind_of_ok hlast]
      rfl
  | ok a =>
      have hmap : outcome (Except.ok <$> t : Step (Except Failure α)) w = (.ok (.ok a), w') := by
        rw [map_eq_pure_bind, outcome_bind_of_ok ht, outcome_pure]
      have hcaught : outcome (do
          try Except.ok <$> t catch f => pure (Except.error f) : Step (Except Failure α)) w
            = (.ok (.ok a), w') := outcome_tryCatch_of_ok hmap
      rw [outcome_bind_of_ok hcaught, outcome_bind_of_ok hlast]
      rfl

end Step
end GemBinder
