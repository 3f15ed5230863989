import ModuleBundle.Proofs.Emission.Table
import ModuleBundle.Proofs.Graph.Openings

/-!
Broken modules. A lenient build takes a module that cannot be read or analyzed for an empty one:
next to a build for which it is empty, every stage has the same modules, numbers and mappings, and
only the module itself tells what is wrong with it. So the bundles differ in one comment.
-/

set_option autoImplicit false

namespace ModuleBundle

open Session

def Content.empty : Content := .script ⟨[], ""⟩

/-- The module, with a failure if it is empty and stands at `p`. -/
def Asset.breakAt (p : Path) (failure : Failure) (a : Asset) : Asset :=
  { a with content :=
      if a.path.same p = true ∧ a.content = .empty then .placeholder failure else a.content }

def Stage.breakAt (p : Path) (failure : Failure) (s : Stage) : Stage :=
  ⟨s.seen, s.visited.map (.breakAt p failure), s.waiting.map (.breakAt p failure)⟩

def Graph.breakAt (p : Path) (failure : Failure) (g : Graph) : Graph :=
  ⟨g.entry.breakAt p failure, g.others.map (.breakAt p failure)⟩

def Outcome.breakAt (p : Path) (failure : Failure) : Outcome → Outcome
  | .finished g => .finished (g.breakAt p failure)
  | .failed e => .failed e
  | .unfinished => .unfinished

section

variable {p : Path} {failure : Failure}

theorem Asset.specifiers_breakAt (a : Asset) : (a.breakAt p failure).specifiers = a.specifiers := by
  unfold breakAt specifiers
  split_ifs with broken
  · simp only [broken.2, Content.empty]
  · rfl

theorem Asset.body_breakAt (a : Asset) : (a.breakAt p failure).body = a.body := by
  unfold breakAt body
  split_ifs with broken
  · simp only [broken.2, Content.empty]
  · rfl

theorem Asset.breakAt_of_not {a : Asset} (other : ¬ (a.path.same p = true ∧ a.content = .empty)) :
    a.breakAt p failure = a := by
  rw [breakAt, if_neg other]

theorem Graph.assets_breakAt (g : Graph) :
    (g.breakAt p failure).assets = g.assets.map (.breakAt p failure) := rfl

end

namespace Workspace

/-- Two workspaces that differ in what they make of the file `p`: if it is empty for the second, it
is broken for the first. -/
structure Breaks (broken whole : Workspace) (p : Path) (failure : Failure) : Prop where
  resolve_eq : ∀ reference, resolve broken.fileSystem broken.extensions reference =
    resolve whole.fileSystem whole.extensions reference
  elsewhere : ∀ reference path, resolve whole.fileSystem whole.extensions reference = .ok path →
    path.same p = false → broken.contentOf path = whole.contentOf path
  there : ∀ reference path, resolve whole.fileSystem whole.extensions reference = .ok path →
    path.same p = true →
      broken.contentOf path = .placeholder failure ∧ whole.contentOf path = .empty ∨
      ∃ other, broken.contentOf path = .placeholder other ∧ whole.contentOf path = .placeholder other

variable {broken whole : Workspace} {p : Path} {failure : Failure}

namespace Breaks

theorem resolution_eq (breaks : broken.Breaks whole p failure) (importer : Path)
    (specifier : String) : broken.resolution importer specifier = whole.resolution importer specifier := by
  simp only [resolution, Resolution.ofSpecifier, breaks.resolve_eq]

theorem discover_eq (breaks : broken.Breaks whole p failure) (importer : Path) (seen : Seen)
    (mapping : Mapping) (specifiers : List String) :
    broken.discover importer seen mapping specifiers =
      whole.discover importer seen mapping specifiers := by
  induction specifiers generalizing seen mapping with
  | nil => rfl
  | cons specifier rest ih => simp only [discover, breaks.resolution_eq, ih]

theorem survey_eq (breaks : broken.Breaks whole p failure) (seen : Seen) (assets : List Asset) :
    broken.survey seen (assets.map (.breakAt p failure)) =
      let found := whole.survey seen assets
      ⟨found.visited.map (.breakAt p failure), found.seen, found.pending⟩ := by
  induction assets generalizing seen with
  | nil => rfl
  | cons asset rest ih =>
    have path : (asset.breakAt p failure).path = asset.path := rfl
    have mapping : (asset.breakAt p failure).mapping = asset.mapping := rfl
    simp only [List.map_cons, survey, ih, breaks.discover_eq, path, mapping,
      Asset.specifiers_breakAt]
    rfl

theorem content_eq (breaks : broken.Breaks whole p failure) {reference path : Path}
    (resolved : resolve whole.fileSystem whole.extensions reference = .ok path) :
    broken.contentOf path =
      if path.same p = true ∧ whole.contentOf path = .empty then .placeholder failure
      else whole.contentOf path := by
  cases same : path.same p with
  | true =>
    rcases breaks.there reference path resolved same with ⟨failed, empty⟩ | ⟨other, first, second⟩
    · rw [failed, if_pos ⟨rfl, empty⟩]
    · rw [first, second, if_neg (nomatch ·.2)]
  | false => rw [breaks.elsewhere reference path resolved same, if_neg (nomatch ·.1)]

theorem asset_eq (breaks : broken.Breaks whole p failure) {pending : Pending} {importer : Path}
    {specifier : String} (named : pending.resolution = whole.resolution importer specifier) :
    pending.asset broken = (pending.asset whole).breakAt p failure := by
  cases resolved : pending.resolution.resolved with
  | error e =>
    rw [Asset.breakAt_of_not]
    · simp only [Pending.asset, contentFor_error resolved]
    · rintro ⟨_, empty⟩
      cases (contentFor_error resolved).symm.trans empty
  | ok path =>
    have leads : (whole.resolution importer specifier).file? = some path := by
      rw [← named, Resolution.file?, resolved]
      rfl
    obtain ⟨reference, found⟩ := found_of_file? leads
    simp only [Pending.asset, Asset.breakAt, contentFor_ok resolved, Resolution.key_of_ok resolved,
      breaks.content_eq found]

variable {reference : Path} {s : Stage}

theorem next_eq (breaks : broken.Breaks whole p failure)
    (holds : (whole.under .lenient).Consistent reference s) :
    (broken.under .lenient).next (s.breakAt p failure) =
      (.breakAt p failure) <$> (whole.under .lenient).next s := by
  -- both discover the same modules, and what they make of each differs as the stages do
  have waiting : (whole.discovered s).map (Pending.asset broken) =
      ((whole.discovered s).map (Pending.asset whole)).map (.breakAt p failure) := by
    rw [List.map_map]
    refine List.map_congr_left fun pending listed => ?_
    rw [← discovered_under .lenient] at listed
    obtain ⟨_, _, _, _, named⟩ := holds.surveys.named pending listed
    exact breaks.asset_eq named
  have found : broken.discovered (s.breakAt p failure) = whole.discovered s := by
    simp only [discovered, Stage.breakAt, breaks.survey_eq]
  rw [next_lenient, next_lenient, found, waiting]
  simp only [Stage.breakAt, breaks.survey_eq, ← List.map_append]
  rfl

theorem complete_eq (breaks : broken.Breaks whole p failure) (limit : Nat)
    (holds : (whole.under .lenient).Consistent reference s) :
    (broken.under .lenient).complete limit (s.breakAt p failure) =
      Option.map (List.map (.breakAt p failure)) <$> (whole.under .lenient).complete limit s := by
  have waiting : (s.breakAt p failure).waiting = [] ↔ s.waiting = [] := List.map_eq_nil_iff
  induction limit generalizing s with
  | zero =>
    simp only [complete, waiting]
    split_ifs <;> rfl
  | succ limit ih =>
    by_cases empty : s.waiting = []
    · rw [complete_of_empty _ empty, complete_of_empty _ (waiting.mpr empty)]
      rfl
    · simp only [complete, if_neg empty, if_neg (mt waiting.mp empty), breaks.next_eq holds]
      cases advanced : (whole.under .lenient).next s with
      | error e => rfl
      | ok later => exact ih (holds.next advanced) List.map_eq_nil_iff

end Breaks

variable {w : Workspace}

theorem traverse_lenient (schedule : Schedule) (limit : Nat) {p : Progress}
    (sound : p.known.cache.Sound w.fileSystem w.extensions) :
    ((w.under .lenient).traverse schedule limit p).outcome =
      (w.under .lenient).complete limit p.stage := by
  induction limit generalizing p with
  | zero => rfl
  | succ limit ih =>
    by_cases empty : p.waiting = []
    · rw [traverse_of_empty schedule _ empty, complete_of_empty _ (s := p.stage) empty]
      rfl
    · obtain ⟨cache, settled, came⟩ := advance_outcome (w := w.under .lenient) schedule sound
      have waiting : p.stage.waiting ≠ [] := empty
      rw [next_lenient] at came
      rw [traverse_succ_outcome schedule empty, came, complete, if_neg waiting, next_lenient]
      exact ih (p := Stage.progress _ cache) settled

theorem run_lenient (w : Workspace) (schedule : Schedule) (limit : Nat) (reference : Path) :
    (Build.run (w.under .lenient) schedule limit reference).outcome =
      match ((w.under .lenient).loadEntry 0 reference).outcome with
      | .error e => .failed e
      | .ok entry => ended ((w.under .lenient).complete limit (Progress.start entry).stage) := by
  rw [Build.run_outcome, graph_outcome]
  cases ((w.under .lenient).loadEntry 0 reference).outcome with
  | error e => rfl
  | ok entry =>
    exact congrArg ended (traverse_lenient (p := .start entry) schedule limit
      ResolutionCache.empty_sound)

theorem ended_breakAt (result : Except BundleError (Option (List Asset))) :
    ended (Option.map (List.map (.breakAt p failure)) <$> result) =
      (ended result).breakAt p failure := by
  cases result with
  | error e => rfl
  | ok assets? =>
    cases assets? with
    | none => rfl
    | some assets => cases assets <;> rfl

theorem Breaks.run_eq (breaks : broken.Breaks whole p failure) {reference : Path}
    (entry : ((broken.under .lenient).loadEntry 0 reference).outcome =
      (.breakAt p failure) <$> ((whole.under .lenient).loadEntry 0 reference).outcome)
    (schedule other : Schedule) (limit : Nat) :
    (Build.run (broken.under .lenient) schedule limit reference).outcome =
      (Build.run (whole.under .lenient) other limit reference).outcome.breakAt p failure := by
  rw [run_lenient, run_lenient, entry]
  cases loaded : ((whole.under .lenient).loadEntry 0 reference).outcome with
  | error e => rfl
  | ok asset =>
    have start : (Progress.start (asset.breakAt p failure)).stage =
        (Progress.start asset).stage.breakAt p failure := rfl
    exact (congrArg ended (start ▸ breaks.complete_eq limit (consistent_entry loaded))).trans
      (ended_breakAt _)

end Workspace

end ModuleBundle
