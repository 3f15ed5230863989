import ModuleBundle.Proofs.Graph.Openings

/-!
Each file is loaded once. The journal of a build, however it ends, tells of no file that is read
twice or analyzed twice. If the build finishes, what was analyzed is exactly the text of every
module that has a file with a text.
-/

set_option autoImplicit false

namespace ModuleBundle

def Event.read? : Event → Option Path
  | .read path => some path
  | _ => none

def Event.analysis? : Event → Option (Path × String)
  | .analyze path text => some (path, text)
  | _ => none

namespace Journal

def reads (journal : Journal) : List Path := journal.filterMap Event.read?

def analyses (journal : Journal) : List (Path × String) := journal.filterMap Event.analysis?

theorem reads_openings (journal : Journal) : journal.openings.reads = journal.reads := by
  rw [reads, openings, List.filterMap_filter]
  exact List.filterMap_congr fun event _ => by cases event <;> rfl

theorem analyses_openings (journal : Journal) : journal.openings.analyses = journal.analyses := by
  rw [analyses, openings, List.filterMap_filter]
  exact List.filterMap_congr fun event _ => by cases event <;> rfl

end Journal

namespace Workspace

variable {w : Workspace}

def call? (w : Workspace) (path : Path) : Option (Path × String) :=
  (w.fileSystem.read path).toOption.map (path, ·)

theorem call?_eq_some_iff {path : Path} {call : Path × String} :
    w.call? path = some call ↔ call.1 = path ∧ w.fileSystem.read path = .ok call.2 := by
  obtain ⟨known, text⟩ := call
  unfold call?
  cases w.fileSystem.read path <;> simp [Except.toOption, eq_comm]

theorem reads_flatMap_opening (files : List Path) :
    Journal.reads (files.flatMap w.opening) = files := by
  induction files with
  | nil => rfl
  | cons path rest ih =>
    have here : Journal.reads (w.opening path) = [path] := by
      unfold opening
      cases w.fileSystem.read path <;> rfl
    unfold Journal.reads at ih here ⊢
    rw [List.flatMap_cons, List.filterMap_append, here, ih, List.singleton_append]

theorem analyses_flatMap_opening (files : List Path) :
    Journal.analyses (files.flatMap w.opening) = files.filterMap w.call? := by
  induction files with
  | nil => rfl
  | cons path rest ih =>
    have here : Journal.analyses (w.opening path) = (w.call? path).toList := by
      unfold opening call?
      cases w.fileSystem.read path <;> rfl
    unfold Journal.analyses at ih here ⊢
    rw [List.flatMap_cons, List.filterMap_append, here, ih, List.filterMap_cons]
    cases w.call? path <;> rfl

theorem Closed.content_of_file? {reference : Path} {assets : List Asset} {a : Asset} {path : Path}
    (closed : w.Closed reference assets) (member : a ∈ assets) (file : a.file? = some path) :
    a.path = path ∧ a.content = w.contentOf path := by
  obtain ⟨rfl, other⟩ := Asset.file?_eq_some_iff.mp file
  refine ⟨rfl, ?_⟩
  rcases closed.made member with ⟨_, content⟩ | ⟨b, _, specifier, _, key, content⟩
  · exact content
  · cases resolved : (w.resolution b.path.parent specifier).resolved with
    | ok path => rw [content, contentFor_ok resolved, key, Resolution.key_of_ok resolved]
    | error e => exact absurd (content.trans (contentFor_error resolved)) (other e)

theorem Closed.exists_call {reference : Path} {assets : List Asset} {a : Asset}
    (closed : w.Closed reference assets) (member : a ∈ assets) (solid : a.isPlaceholder = false) :
    a.file? = some a.path ∧ ∃ text, w.call? a.path = some (a.path, text) := by
  have file : a.file? = some a.path := by
    refine Asset.file?_eq_some_iff.mpr ⟨rfl, fun e missing => ?_⟩
    simp [Asset.isPlaceholder, Asset.failure?, missing] at solid
  have content := (closed.content_of_file? member file).2
  refine ⟨file, ?_⟩
  cases read : w.fileSystem.read a.path with
  | ok text => exact ⟨text, call?_eq_some_iff.mpr ⟨rfl, read⟩⟩
  | error e =>
    rw [contentOf, read] at content
    simp [Asset.isPlaceholder, Asset.failure?, content] at solid

end Workspace

theorem filter_eq_singleton {α β : Type} [DecidableEq β] {key : α → β} {values : List α}
    (apart : values.Pairwise fun a b => key a ≠ key b) {value : α} (member : value ∈ values) :
    values.filter (fun other => key other = key value) = [value] := by
  induction values with
  | nil => cases member
  | cons first rest ih =>
    obtain ⟨here, others⟩ := List.pairwise_cons.mp apart
    rcases List.mem_cons.mp member with rfl | member
    · rw [List.filter_cons_of_pos (by simp), List.filter_eq_nil_iff.mpr]
      intro other listed same
      exact here other listed (of_decide_eq_true same).symm
    · rw [List.filter_cons_of_neg (by simpa using here value member), ih others member]

namespace Build

/-- The files that a build read are those that it opened, and it had those analyzed that have a
text. -/
theorem exists_loaded (w : Workspace) (schedule : Schedule) (limit : Nat) (reference : Path) :
    ∃ files, (run w schedule limit reference).journal.reads.Perm files ∧
      (run w schedule limit reference).journal.analyses.Perm (files.filterMap w.call?) ∧
      w.Unseen ⟨[]⟩ files ∧ ∀ g, (run w schedule limit reference).outcome = .finished g →
        files.Perm (g.assets.filterMap Asset.file?) := by
  obtain ⟨files, told, unseen, finished⟩ := exists_opened w schedule limit reference
  refine ⟨files, ?_, ?_, unseen, finished⟩
  · rw [← Journal.reads_openings, ← w.reads_flatMap_opening files]
    exact told.filterMap _
  · rw [← Journal.analyses_openings, ← w.analyses_flatMap_opening files]
    exact told.filterMap _

/-- No build reads a file or has it analyzed twice. One that finishes has had the text of every
module with a text analyzed once, under the path of the module, and no other text. -/
theorem loads_each_file_once (w : Workspace) (schedule : Schedule) (limit : Nat) (reference : Path) :
    let build := run w schedule limit reference
    build.journal.reads.Pairwise (fun p q => p.same q = false) ∧
    build.journal.analyses.Pairwise (fun a b => a.1.same b.1 = false) ∧
    ∀ g, build.outcome = .finished g →
      (∀ a ∈ g.assets, a.isPlaceholder = false → ∃ text, w.fileSystem.read a.path = .ok text ∧
        build.journal.analyses.filter (fun call => call.1.same a.path) = [(a.path, text)]) ∧
      ∀ call ∈ build.journal.analyses, ∃ a ∈ g.assets, a.path = call.1 ∧
        a.content = w.contentOf call.1 ∧ w.fileSystem.read call.1 = .ok call.2 := by
  intro build
  obtain ⟨files, reads, analyses, unseen, finished⟩ := exists_loaded w schedule limit reference
  have apart : files.Pairwise fun p q => p.components ≠ q.components := unseen.apart
  -- a call has the path of its file, so calls are apart because the files are
  have calls : build.journal.analyses.Pairwise fun a b => a.1.components ≠ b.1.components := by
    refine List.Pairwise.perm ?_ analyses.symm Ne.symm
    refine apart.filterMap w.call? fun p q differ a first b second => ?_
    rwa [(Workspace.call?_eq_some_iff.mp first).1, (Workspace.call?_eq_some_iff.mp second).1]
  refine ⟨?_, ?_, fun g ended => ⟨?_, ?_⟩⟩
  · exact (apart.perm reads.symm Ne.symm).imp fun differ => (Path.same_eq_false_iff _ _).mpr differ
  · exact calls.imp fun differ => (Path.same_eq_false_iff _ _).mpr differ
  · intro a member solid
    have closed := (completes_of_finished ended).closed
    obtain ⟨file, text, called⟩ := closed.exists_call member solid
    have path : a.path ∈ files :=
      (finished g ended).mem_iff.mpr (List.mem_filterMap.mpr ⟨a, member, file⟩)
    have listed : (a.path, text) ∈ build.journal.analyses :=
      analyses.mem_iff.mpr (List.mem_filterMap.mpr ⟨a.path, path, called⟩)
    refine ⟨text, (Workspace.call?_eq_some_iff.mp called).2, ?_⟩
    exact filter_eq_singleton calls listed
  · intro call listed
    obtain ⟨path, file, called⟩ := List.mem_filterMap.mp (analyses.mem_iff.mp listed)
    obtain ⟨rfl, read⟩ := Workspace.call?_eq_some_iff.mp called
    obtain ⟨a, member, made⟩ := List.mem_filterMap.mp ((finished g ended).mem_iff.mp file)
    obtain ⟨placed, content⟩ :=
      (completes_of_finished ended).closed.content_of_file? member made
    exact ⟨a, member, placed, content, read⟩

example : (run Graph.sample .inTurn 3 ⟨"/main"⟩).journal.reads = [⟨"/main.js"⟩, ⟨"/a.js"⟩] := by
  decide +kernel

end Build

end ModuleBundle
