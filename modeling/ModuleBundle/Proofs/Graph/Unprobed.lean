import ModuleBundle.Proofs.Graph.Termination
import ModuleBundle.Proofs.Resolution.Added

/-!
Files that a build does not ask about. A build learns about files only by resolving references
and by reading what they lead to, so over a file system that agrees on the references it resolved
it takes the same steps again. A file that is added is therefore unseen by the builds that do not
probe it, unless it makes a directory of a reference that was none.
-/

set_option autoImplicit false

namespace ModuleBundle

open Session

def Event.reference? : Event → Option Path
  | .resolve reference => some reference
  | .read _ => none
  | .analyze _ _ => none

def Journal.references (journal : Journal) : List Path := journal.filterMap Event.reference?

/-- Another file system leads every reference that a journal tells of where the workspace's own
does. -/
def Journal.AgreesOver (w : Workspace) (fs : FileSystem) (journal : Journal) : Prop :=
  ∀ reference ∈ journal.references, w.fileSystem.AgreeOn fs w.extensions reference

theorem Journal.agreesOver_append {w : Workspace} {fs : FileSystem} {journal more : Journal} :
    AgreesOver w fs (journal ++ more) ↔ journal.AgreesOver w fs ∧ more.AgreesOver w fs := by
  unfold AgreesOver references
  rw [List.filterMap_append]
  exact List.forall_mem_append

/-- The file that a resolution leads to reads the same in another file system. -/
def Resolution.ReadsOver (w : Workspace) (fs : FileSystem) (r : Resolution) : Prop :=
  ∀ path, r.resolved = .ok path → fs.read path = w.fileSystem.read path

def ResolutionCache.ReadsOver (w : Workspace) (fs : FileSystem) (cache : ResolutionCache) : Prop :=
  ∀ entry ∈ cache.entries, entry.2.ReadsOver w fs

namespace Workspace

def withFiles (w : Workspace) (fs : FileSystem) : Workspace := { w with fileSystem := fs }

variable {w : Workspace} {fs : FileSystem} {α β : Type}

/-- Where the other file system agrees on what the steps resolve, they are taken again, and what
they give satisfies `holds`. -/
def Repeats (w : Workspace) (fs : FileSystem) (steps again : Session α) (holds : α → Prop) : Prop :=
  steps.events.AgreesOver w fs →
    again = steps ∧ ∀ value, steps.outcome = .ok value → holds value

namespace Repeats

variable {holds : α → Prop} {further : β → Prop}

theorem pure {value : α} (here : holds value) : w.Repeats fs (pure value) (pure value) holds :=
  fun _ => ⟨rfl, fun _ ended => Except.ok.inj ended ▸ here⟩

theorem of_eq {steps again : Session α} (same : again = steps) :
    w.Repeats fs steps again fun _ => True :=
  fun _ => ⟨same, fun _ _ => trivial⟩

theorem bind {first first' : Session α} {next next' : α → Session β} (here : first.Appends)
    (later : ∀ value, (next value).Appends) (begins : w.Repeats fs first first' holds)
    (continues : ∀ value, holds value → w.Repeats fs (next value) (next' value) further) :
    w.Repeats fs (first >>= next) (first' >>= next') further := by
  intro agrees
  rw [events_bind here later] at agrees
  obtain ⟨before, behind⟩ := Journal.agreesOver_append.mp agrees
  obtain ⟨rfl, held⟩ := begins before
  have each (value : α) (ended : first'.outcome = .ok value) :
      next' value = next value ∧ ∀ last, (next value).outcome = .ok last → further last := by
    rw [ended] at behind
    exact continues value (held value ended) behind
  refine ⟨bind_congr here fun value ended => (each value ended).1, fun last ended => ?_⟩
  rw [outcome_bind here later] at ended
  cases came : first'.outcome with
  | error e => cases (came ▸ ended :)
  | ok value =>
    rw [came] at ended
    exact (each value came).2 last ended

theorem record_bind {events : List Event} {next next' : Session β} (later : next.Appends)
    (continues : Journal.AgreesOver w fs events → w.Repeats fs next next' further) :
    w.Repeats fs (record events >>= fun _ => next) (record events >>= fun _ => next') further := by
  intro agrees
  have told := agrees
  rw [record_bind_events events later] at told
  have begins : w.Repeats fs (record events) (record events)
      fun _ => Journal.AgreesOver w fs events :=
    fun _ => ⟨rfl, fun _ _ => (Journal.agreesOver_append.mp told).1⟩
  exact bind (.record _) (fun _ => later) begins (fun _ => continues) agrees

end Repeats

section

variable {known : Knowledge} {cache : ResolutionCache} {importer : Path} {specifier : String}

theorem ofSpecifier_over
    (agrees : Resolution.isPath specifier = true →
      w.fileSystem.AgreeOn fs w.extensions (Resolution.candidateOf importer specifier)) :
    Resolution.ofSpecifier fs w.extensions importer specifier =
        Resolution.ofSpecifier w.fileSystem w.extensions importer specifier ∧
      (Resolution.ofSpecifier w.fileSystem w.extensions importer specifier).ReadsOver w fs := by
  unfold Resolution.ofSpecifier
  split_ifs with path
  · exact ⟨congrArg _ (agrees path).resolve, (agrees path).read⟩
  · exact ⟨rfl, nofun⟩

theorem resolveFrom_over (reads : cache.ReadsOver w fs)
    (agrees : Journal.AgreesOver w fs (resolutionEvents cache importer specifier)) :
    cache.resolveFrom fs w.extensions importer specifier =
        cache.resolveFrom w.fileSystem w.extensions importer specifier ∧
      (cache.resolveFrom w.fileSystem w.extensions importer specifier).1.ReadsOver w fs ∧
      (cache.resolveFrom w.fileSystem w.extensions importer specifier).2.ReadsOver w fs := by
  unfold ResolutionCache.resolveFrom
  cases remembered : cache.entries.lookup (.of importer specifier) with
  | some resolution =>
    obtain ⟨before, after, same, _⟩ := List.lookup_eq_some_iff.mp remembered
    have listed : (CacheKey.of importer specifier, resolution) ∈ cache.entries := by simp [same]
    exact ⟨rfl, reads _ listed, reads⟩
  | none =>
    -- nothing is remembered, so the journal tells of the reference
    have told (path : Resolution.isPath specifier = true) :
        w.fileSystem.AgreeOn fs w.extensions (Resolution.candidateOf importer specifier) := by
      refine agrees (Resolution.candidateOf importer specifier) ?_
      simp [resolutionEvents, path, ResolutionCache.remembers, remembered, Journal.references,
        Event.reference?]
    obtain ⟨same, alike⟩ := ofSpecifier_over told
    dsimp only
    rw [same]
    refine ⟨rfl, alike, fun entry listed => ?_⟩
    rcases List.mem_cons.mp listed with rfl | listed
    · exact alike
    · exact reads entry listed

theorem resolveFrom_repeats (reads : cache.ReadsOver w fs) :
    w.Repeats fs (w.resolveFrom cache importer specifier)
      ((w.withFiles fs).resolveFrom cache importer specifier)
      fun answer => answer.1.ReadsOver w fs ∧ answer.2.ReadsOver w fs := by
  refine .record_bind (.pure _) fun agrees => ?_
  obtain ⟨same, alike⟩ := resolveFrom_over reads agrees
  rw [withFiles, same]
  exact .pure alike

theorem load_over {p : Pending} (reads : p.resolution.ReadsOver w fs) :
    p.load (w.withFiles fs) = p.load w := by
  unfold Pending.load loadDependency
  cases resolved : p.resolution.resolved with
  | error e => rfl
  | ok path =>
    simp only [withFiles, reads path resolved]
    rfl

section

variable {take again : Pending → Session α} {holds : α → Prop}

theorem follow_repeats (appends : ∀ pending, (take pending).Appends)
    (repeats : ∀ pending, pending.resolution.ReadsOver w fs →
      w.Repeats fs (take pending) (again pending) holds)
    (reads : known.cache.ReadsOver w fs) (mapping : Mapping) (specifiers : List String) :
    w.Repeats fs (w.follow take importer known mapping specifiers)
      ((w.withFiles fs).follow again importer known mapping specifiers)
      fun following => following.known.cache.ReadsOver w fs ∧ ∀ x ∈ following.found, holds x := by
  -- on the specifiers: both builds resolve each alike, and so load the same
  induction specifiers generalizing known mapping with
  | nil => exact .pure ⟨reads, nofun⟩
  | cons specifier rest ih =>
    refine .bind (resolveFrom_appends _ _ _) (fun answer => ?_) (resolveFrom_repeats reads)
      fun answer alike => ?_
    · dsimp only
      split
      · exact follow_appends appends _ _ _ _
      · exact .bind (appends _) fun _ => .bind (follow_appends appends _ _ _ _) fun _ => .pure _
    · obtain ⟨resolution, cache⟩ := answer
      obtain ⟨file, kept⟩ := alike
      dsimp only
      cases known.seen.id? resolution.key with
      | some id => exact @ih ⟨known.seen, cache⟩ kept _
      | none =>
        refine .bind (appends _) (fun _ => .bind (follow_appends appends _ _ _ _) fun _ => .pure _)
          (repeats _ file) fun first here => ?_
        refine .bind (follow_appends appends _ _ _ _) (fun _ => .pure _)
          (@ih ⟨known.seen.push resolution.key, cache⟩ kept _) fun others ⟨reads, found⟩ => ?_
        exact .pure ⟨reads, List.forall_mem_cons.mpr ⟨here, found⟩⟩

theorem visit_repeats (appends : ∀ pending, (take pending).Appends)
    (repeats : ∀ pending, pending.resolution.ReadsOver w fs →
      w.Repeats fs (take pending) (again pending) holds)
    (reads : known.cache.ReadsOver w fs) (assets : List Asset) :
    w.Repeats fs (w.visit take known assets) ((w.withFiles fs).visit again known assets)
      fun visit => visit.known.cache.ReadsOver w fs ∧ ∀ x ∈ visit.found, holds x := by
  induction assets generalizing known with
  | nil => exact .pure ⟨reads, nofun⟩
  | cons asset rest ih =>
    refine .bind (follow_appends appends _ _ _ _)
      (fun _ => .bind (visit_appends appends _ _) fun _ => .pure _)
      (follow_repeats appends repeats reads _ _) fun first ⟨kept, found⟩ => ?_
    refine .bind (visit_appends appends _ _) (fun _ => .pure _) (ih kept) fun others ⟨reads, more⟩ => ?_
    exact .pure ⟨reads, fun x member => (List.mem_append.mp member).elim (found x) (more x)⟩

end

variable {p : Progress}

theorem turn_repeats (reads : p.known.cache.ReadsOver w fs) :
    w.Repeats fs (w.turn p) ((w.withFiles fs).turn p) fun later => later.known.cache.ReadsOver w fs := by
  unfold turn
  cases p.waiting with
  | nil => exact .pure reads
  | cons asset waiting =>
    refine .bind (visit_appends (Pending.load_appends w) _ _) (fun _ => .pure _)
      (visit_repeats (Pending.load_appends w) (fun _ file => .of_eq (load_over file)) reads _)
      fun visit ⟨kept, _⟩ => ?_
    exact .pure kept

theorem turns_repeats (n : Nat) (reads : p.known.cache.ReadsOver w fs) :
    w.Repeats fs (w.turns n p) ((w.withFiles fs).turns n p)
      fun later => later.known.cache.ReadsOver w fs := by
  induction n generalizing p with
  | zero => exact .pure reads
  | succ n ih =>
    exact .bind (turn_appends p) (turns_appends n) (turn_repeats reads) fun later kept => ih kept

theorem attempt_over {loads : List (Pending × Nat)}
    (reads : ∀ load ∈ loads, load.1.resolution.ReadsOver w fs) :
    (w.withFiles fs).attempt loads = w.attempt loads := by
  induction loads with
  | nil => rfl
  | cons load rest ih =>
    obtain ⟨here, later⟩ := List.forall_mem_cons.mp reads
    rw [attempt, attempt, load_over here, ih later]

theorem loadTogether_over (completion : Completion) {pending : List Pending}
    (reads : ∀ p ∈ pending, p.resolution.ReadsOver w fs) :
    (w.withFiles fs).loadTogether completion pending = w.loadTogether completion pending := by
  have each : ∀ load ∈ completion.order pending, load.1.resolution.ReadsOver w fs := by
    intro load listed
    have given := (completion.perm pending).mem_iff.mp listed
    exact reads load.1 (List.fst_mem_of_mem_zipIdx given)
  rw [loadTogether, loadTogether, attempt_over each]

theorem round_repeats (completion : Completion) (reads : p.known.cache.ReadsOver w fs) :
    w.Repeats fs (w.round completion p) ((w.withFiles fs).round completion p)
      fun later => later.known.cache.ReadsOver w fs := by
  refine .bind (visit_appends .pure _ _)
    (fun _ => .bind (loadTogether_appends _ _) fun _ => .pure _)
    (visit_repeats .pure (fun _ file => .pure file) reads _) fun visit ⟨kept, files⟩ => ?_
  refine .bind (loadTogether_appends _ _) (fun _ => .pure _)
    (.of_eq (loadTogether_over completion files)) fun waiting _ => ?_
  exact .pure kept

theorem advance_repeats (schedule : Schedule) (reads : p.known.cache.ReadsOver w fs) :
    w.Repeats fs (w.advance schedule p) ((w.withFiles fs).advance schedule p)
      fun later => later.known.cache.ReadsOver w fs := by
  cases schedule with
  | inTurn => exact turns_repeats _ reads
  | together completion => exact round_repeats completion reads

theorem traverse_repeats (schedule : Schedule) (limit : Nat) (reads : p.known.cache.ReadsOver w fs) :
    w.Repeats fs (w.traverse schedule limit p) ((w.withFiles fs).traverse schedule limit p)
      fun _ => True := by
  induction limit generalizing p with
  | zero => exact .of_eq rfl
  | succ limit ih =>
    by_cases waiting : p.waiting = []
    · rw [traverse_of_empty schedule _ waiting, traverse_of_empty schedule _ waiting]
      exact .of_eq rfl
    · rw [traverse_succ schedule limit waiting, traverse_succ schedule limit waiting]
      exact .bind (advance_appends schedule p) (traverse_appends schedule limit)
        (advance_repeats schedule reads) fun later kept => ih kept

theorem loadEntry_over {id : Nat} {reference : Path}
    (agrees : w.fileSystem.AgreeOn fs w.extensions reference) :
    (w.withFiles fs).loadEntry id reference = w.loadEntry id reference := by
  unfold loadEntry
  have same : resolve (w.withFiles fs).fileSystem (w.withFiles fs).extensions reference =
      resolve w.fileSystem w.extensions reference := agrees.resolve
  rw [same]
  cases resolved : resolve w.fileSystem w.extensions reference with
  | error e => rfl
  | ok path =>
    simp only [withFiles, agrees.read path resolved]
    rfl

theorem mem_references_loadEntry (id : Nat) (reference : Path) :
    reference ∈ (w.loadEntry id reference).events.references := by
  unfold loadEntry
  cases resolve w.fileSystem w.extensions reference with
  | error e => exact List.mem_cons_self
  | ok path =>
    dsimp only
    cases w.fileSystem.read path with
    | error e => exact List.mem_cons_self
    | ok text =>
      rw [record_bind_events _ (.bind (.record _) fun _ => analyze_appends text)]
      exact List.mem_cons_self

theorem loadEntry_repeats (id : Nat) (reference : Path) :
    w.Repeats fs (w.loadEntry id reference) ((w.withFiles fs).loadEntry id reference)
      fun _ => True :=
  fun agrees => ⟨loadEntry_over (agrees reference (mem_references_loadEntry id reference)),
    fun _ _ => trivial⟩

theorem graph_repeats (schedule : Schedule) (limit : Nat) (reference : Path) :
    w.Repeats fs (w.graph schedule limit reference) ((w.withFiles fs).graph schedule limit reference)
      fun _ => True := by
  refine .bind (loadEntry_appends reference)
    (fun _ => .bind (traverse_appends schedule limit _) fun _ => .pure _)
    (loadEntry_repeats 0 reference) fun entry _ => ?_
  exact .bind (traverse_appends schedule limit _) (fun _ => .pure _)
    (traverse_repeats schedule limit nofun) fun assets _ => .pure trivial

end

end Workspace

namespace Build

variable {w : Workspace} {fs : FileSystem}

/-- A build does the same over files that agree on every reference it resolved. -/
theorem run_over {schedule : Schedule} {limit : Nat} {reference : Path}
    (agrees : (run w schedule limit reference).journal.AgreesOver w fs) :
    run (w.withFiles fs) schedule limit reference = run w schedule limit reference := by
  unfold run
  rw [(Workspace.graph_repeats schedule limit reference agrees).1]

theorem run_settled (m : MemoryFiles) (w : Workspace) (schedule : Schedule) (entry : Path) :
    let build := run (w.withFiles m.fileSystem) schedule m.generationLimit entry
    build.outcome ≠ .unfinished ∧
      ∀ limit ≥ m.generationLimit, run (w.withFiles m.fileSystem) schedule limit entry = build := by
  intro build
  obtain ⟨ends, settled⟩ := MemoryFiles.graph_settled (w := w.withFiles m.fileSystem) rfl schedule entry
  refine ⟨fun unfinished => ends (Outcome.of_eq_unfinished_iff.mp unfinished), fun limit enough => ?_⟩
  obtain ⟨extra, rfl⟩ := Nat.exists_eq_add_of_le enough
  unfold build run
  rw [settled extra]

/-- A file that a build over files in memory does not look for, and that makes a directory of no
reference that it resolved, does not matter to it. With the file there, and as many generations
as the build needs, it takes the same steps to the same graph or the same error. -/
theorem run_insert_unprobed (m : MemoryFiles) (w : Workspace) (schedule : Schedule) (entry f : Path)
    (contents : String) :
    let build := run (w.withFiles m.fileSystem) schedule m.generationLimit entry
    (∀ reference ∈ build.journal.references,
      (∀ candidate ∈ probed m.fileSystem w.extensions reference, candidate.clean ≠ f.clean) ∧
      (reference.clean.Above f.clean → m.isDirectory reference = true)) →
    build.outcome ≠ .unfinished ∧
      ∀ limit ≥ m.generationLimit,
        run (w.withFiles (m.insert f contents).fileSystem) schedule limit entry = build := by
  intro build unasked
  obtain ⟨ends, settled⟩ := run_settled m w schedule entry
  refine ⟨ends, fun limit enough => ?_⟩
  have same := settled limit enough
  refine (run_over (w := w.withFiles m.fileSystem) fun reference told => ?_).trans same
  rw [same] at told
  obtain ⟨unprobed, above⟩ := unasked reference told
  exact MemoryFiles.agreeOn_insert unprobed above

def library : MemoryFiles :=
  .ofList [(⟨"/main.js"⟩, "require('./lib')"), (⟨"/lib/index.js"⟩, "")] []

theorem library_insert_unprobed :
    let w : Workspace := ⟨library.fileSystem, .default, Analysis.analyzer, .strict⟩
    let build := run w (.together .inOrder) library.generationLimit ⟨"/main"⟩
    let grown := library.insert ⟨"/lib/./extra.js"⟩ "("
    build.journal.references = [⟨"/main"⟩, ⟨"/lib"⟩] ∧
      run (w.withFiles grown.fileSystem) (.together .inOrder) grown.generationLimit ⟨"/main"⟩ = build := by
  intro w build grown
  refine ⟨by decide +kernel, ?_⟩
  exact (run_insert_unprobed library w _ _ _ _ (by decide +kernel)).2 _ (by decide +kernel)

example :
    let files : MemoryFiles := .ofList [(⟨"/main.js"⟩, "require('./lib')"), (⟨"/lib.js"⟩, "")] []
    let w : Workspace := ⟨files.fileSystem, .default, Analysis.analyzer, .strict⟩
    (run w .inTurn 4 ⟨"/main"⟩).outcome ≠
      (run (w.withFiles (files.insert ⟨"/lib/extra.js"⟩ "").fileSystem) .inTurn 4 ⟨"/main"⟩).outcome := by
  decide +kernel

end Build

end ModuleBundle
