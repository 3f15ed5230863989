import Mathlib.Data.List.Perm.Subperm
import ModuleBundle.Proofs.Loading.Loaded

/-!
Files that are opened. Opening a file is reading it and, if it can be read, having its text
analyzed; the journal tells of nothing else that has to do with contents. What steps open is
told by a list of files, of which they open all unless they fail.
-/

set_option autoImplicit false

namespace ModuleBundle

/-- Whether an event has to do with the contents of a file, not only with where it is. -/
def Event.isOpening : Event → Bool
  | .resolve _ => false
  | .read _ => true
  | .analyze _ _ => true

def Journal.openings (journal : Journal) : Journal := journal.filter Event.isOpening

def Resolution.file? (r : Resolution) : Option Path := r.resolved.toOption

namespace Session

variable {α β : Type}

def events (steps : Session α) : Journal := (steps.run.run []).2

theorem Appends.run_eq {steps : Session α} (appends : steps.Appends) (journal : Journal) :
    steps.run.run journal = (steps.outcome, journal ++ steps.events) := by
  obtain ⟨result, events, run⟩ := appends
  simp only [outcome, Session.events, run, List.nil_append]

theorem events_bind {first : Session α} {next : α → Session β} (here : first.Appends)
    (later : ∀ value, (next value).Appends) :
    (first >>= next).events = first.events ++
      match first.outcome with
      | .ok value => (next value).events
      | .error _ => [] := by
  unfold events
  rw [run_bind, here.run_eq]
  cases first.outcome with
  | error e => exact (List.append_nil _).symm
  | ok value => simp only [(later value).run_eq, List.nil_append]

end Session

namespace Workspace

open Session

variable {w : Workspace} {α β : Type} {files : List Path}

def opening (w : Workspace) (path : Path) : Journal :=
  .read path ::
    match w.fileSystem.read path with
    | .ok text => [.analyze path text]
    | .error _ => []

/-- The steps open only these files, each once, and all of them unless they fail. -/
def Opens (w : Workspace) (steps : Session α) (files : List Path) : Prop :=
  ∃ opened : List Path, opened.Subperm files ∧
    steps.events.openings.Perm (opened.flatMap w.opening) ∧
    ∀ value, steps.outcome = .ok value → opened.Perm files

namespace Opens

theorem pure (value : α) : w.Opens (pure value : Session α) [] :=
  ⟨[], .refl _, .refl _, fun _ _ => .refl _⟩

theorem throw (error : BundleError) (files : List Path) : w.Opens (throw error : Session α) files :=
  ⟨[], List.nil_subperm, .refl _, nofun⟩

theorem record {events : List Event} (none : Journal.openings events = []) :
    w.Opens (record events) [] := by
  refine ⟨[], .refl _, ?_, fun _ _ => .refl _⟩
  change (Journal.openings ([] ++ events)).Perm []
  rw [List.nil_append, none]

theorem bind {first : Session α} {next : α → Session β} {others : List Path}
    (here : first.Appends) (later : ∀ value, (next value).Appends)
    (opens : w.Opens first files)
    (continues : ∀ value, first.outcome = .ok value → w.Opens (next value) others) :
    w.Opens (first >>= next) (files ++ others) := by
  obtain ⟨opened, within, told, complete⟩ := opens
  unfold Opens
  rw [events_bind here later, outcome_bind here later]
  cases ended : first.outcome with
  | error e =>
    refine ⟨opened, within.trans (List.sublist_append_left _ _).subperm, ?_, nofun⟩
    rw [List.append_nil]
    exact told
  | ok value =>
    obtain ⟨more, inside, added, whole⟩ := continues value ended
    refine ⟨opened ++ more, within.append inside, ?_, fun last made => ?_⟩
    · rw [Journal.openings, List.filter_append, List.flatMap_append]
      exact told.append added
    · exact (complete value ended).append (whole last made)

theorem bind_error {first : Session α} {next : α → Session β} (here : first.Appends)
    (later : ∀ value, (next value).Appends) (opens : w.Opens first files) {error : BundleError}
    (failed : first.outcome = .error error) : w.Opens (first >>= next) files := by
  have both : w.Opens (first >>= next) (files ++ []) :=
    .bind here later opens fun value ended => nomatch failed.symm.trans ended
  rwa [List.append_nil] at both

theorem bind_pure {first : Session α} (here : first.Appends) (opens : w.Opens first files)
    (finish : α → β) : w.Opens (first >>= fun value => Pure.pure (finish value)) files := by
  have both := Opens.bind here (fun _ => .pure _) opens fun value _ => .pure (finish value)
  rwa [List.append_nil] at both

theorem record_bind {events : List Event} (none : Journal.openings events = [])
    {next : Session β} (later : next.Appends) (opens : w.Opens next files) :
    w.Opens (ModuleBundle.record events >>= fun _ => next) files :=
  .bind (.record _) (fun _ => later) (.record none) fun _ _ => opens

theorem exact {steps : Session α} (told : steps.events.openings = files.flatMap w.opening) :
    w.Opens steps files :=
  ⟨files, .refl _, .of_eq told, fun _ _ => .refl _⟩

end Opens

variable {id : Nat} {path : Path}

theorem record_bind_events (events : List Event) {next : Session α} (appends : next.Appends) :
    (record events >>= fun _ => next).events = events ++ next.events := by
  rw [events_bind (.record _) fun _ => appends]
  rfl

theorem excuse_events (failure : Failure) (error : BundleError) :
    (w.excuse id path failure error).events = [] := by
  unfold excuse
  cases w.mode <;> rfl

theorem analyze_events (text : String) : (w.analyze id path text).events = [.analyze path text] := by
  unfold analyze
  cases w.analyzer path text with
  | ok analysis => rfl
  | error message =>
    rw [record_bind_events _ (excuse_appends _ _), excuse_events, List.append_nil]

theorem loadEntry_openings (reference : Path) :
    (w.loadEntry id reference).events.openings =
      (resolve w.fileSystem w.extensions reference).toOption.toList.flatMap w.opening := by
  unfold loadEntry
  cases resolve w.fileSystem w.extensions reference with
  | error e => rfl
  | ok path =>
    simp only [Except.toOption, Option.toList_some, List.flatMap_singleton, opening]
    cases w.fileSystem.read path with
    | error e => rfl
    | ok text =>
      rw [record_bind_events _ (.bind (.record _) fun _ => analyze_appends text),
        record_bind_events _ (analyze_appends text), analyze_events]
      rfl

theorem loadDependency_openings (specifier : String) (importer : Path) (resolution : Resolution) :
    (w.loadDependency id specifier importer resolution).events.openings =
      resolution.file?.toList.flatMap w.opening := by
  unfold loadDependency Resolution.file?
  cases resolution.resolved with
  | error e => rw [excuse_events]; rfl
  | ok path =>
    simp only [Except.toOption, Option.toList_some, List.flatMap_singleton, opening]
    cases w.fileSystem.read path with
    | error e =>
      rw [record_bind_events _ (excuse_appends _ _), excuse_events]
      rfl
    | ok text =>
      rw [record_bind_events _ (analyze_appends text), analyze_events]
      rfl

end Workspace

def Pending.files (p : Pending) : List Path := p.resolution.file?.toList

theorem Pending.load_openings (w : Workspace) (p : Pending) :
    (p.load w).events.openings = p.files.flatMap w.opening :=
  Workspace.loadDependency_openings _ _ _

end ModuleBundle
