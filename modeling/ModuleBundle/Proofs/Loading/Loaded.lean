import ModuleBundle.Graph.Discovery
import ModuleBundle.Proofs.Loading.Session

/-!
Loaded modules. What loading gives is settled by where the module was found: its path is the
key of the resolution, its content what the file there amounts to, or the reason why there
is no file. A strict build fails where the content would be a placeholder.
-/

set_option autoImplicit false

namespace ModuleBundle

open Session

def BundleError.ofFailure (specifier : String) (importer path : Path) : Failure → BundleError
  | .unresolved e => .unresolvedDependency specifier importer e
  | .unreadable e => .dependencyUnreadable path e
  | .refused message => .analysisFailed path message

namespace Workspace

def contentOf (w : Workspace) (path : Path) : Content :=
  match w.fileSystem.read path with
  | .error e => .placeholder (.unreadable e)
  | .ok text =>
    match w.analyzer path text with
    | .ok analysis => .script analysis
    | .error message => .placeholder (.refused message)

def contentFor (w : Workspace) (resolution : Resolution) : Content :=
  match resolution.resolved with
  | .ok path => w.contentOf path
  | .error e => .placeholder (.unresolved e)

/-- A module of some content, unless the build does not bear placeholders. -/
def settle (w : Workspace) (id : Nat) (path : Path) (error : Failure → BundleError) :
    Content → Except BundleError Asset
  | .script analysis => .ok ⟨id, path, .script analysis, []⟩
  | .placeholder failure =>
    match w.mode with
    | .strict => .error (error failure)
    | .lenient => .ok ⟨id, path, .placeholder failure, []⟩

variable {w : Workspace} {id : Nat} {path : Path}

theorem settle_ok {error : Failure → BundleError} {content : Content} {asset : Asset}
    (settled : w.settle id path error content = .ok asset) :
    asset = ⟨id, path, content, []⟩ ∧ (w.mode = .strict → asset.isPlaceholder = false) := by
  cases content with
  | script analysis =>
    obtain rfl := Except.ok.inj settled
    exact ⟨rfl, fun _ => rfl⟩
  | placeholder failure =>
    cases mode : w.mode with
    | strict => simp [settle, mode] at settled
    | lenient =>
      simp only [settle, mode, Except.ok.injEq] at settled
      exact ⟨settled.symm, nofun⟩

theorem excuse_appends (failure : Failure) (error : BundleError) :
    (w.excuse id path failure error).Appends := by
  unfold excuse
  cases w.mode with
  | strict => exact .throw error
  | lenient => exact .pure _

theorem excuse_outcome {failure : Failure} (error : Failure → BundleError) :
    (w.excuse id path failure (error failure)).outcome =
      w.settle id path error (.placeholder failure) := by
  unfold excuse settle
  cases w.mode <;> rfl

theorem analyze_appends (text : String) : (w.analyze id path text).Appends := by
  refine .bind (.record _) fun _ => ?_
  cases w.analyzer path text with
  | ok analysis => exact .pure _
  | error message => exact excuse_appends _ _

theorem analyze_outcome {text : String} (read : w.fileSystem.read path = .ok text)
    {error : Failure → BundleError}
    (refused : ∀ message, error (.refused message) = .analysisFailed path message) :
    (w.analyze id path text).outcome = w.settle id path error (w.contentOf path) := by
  unfold analyze
  cases analyzed : w.analyzer path text with
  | ok analysis =>
    simp only [contentOf, read, analyzed]
    exact outcome_record_bind _ (.pure _)
  | error message =>
    simp only [contentOf, read, analyzed, ← refused]
    rw [outcome_record_bind _ (excuse_appends _ _), excuse_outcome]

theorem loadEntry_appends (reference : Path) : (w.loadEntry id reference).Appends := by
  refine .bind (.record _) fun _ => ?_
  cases resolve w.fileSystem w.extensions reference with
  | error e => exact .throw _
  | ok path =>
    refine .bind (.record _) fun _ => ?_
    cases w.fileSystem.read path with
    | error e => exact .throw _
    | ok text => exact analyze_appends text

theorem loadEntry_outcome (reference : Path) :
    (w.loadEntry id reference).outcome =
      match resolve w.fileSystem w.extensions reference with
      | .error e => .error (.entryNotFound e)
      | .ok path =>
        match w.fileSystem.read path with
        | .error e => .error (.entryUnreadable path e)
        | .ok _ => w.settle id path (.ofFailure "" ⟨""⟩ path) (w.contentOf path) := by
  unfold loadEntry
  cases resolve w.fileSystem w.extensions reference with
  | error e =>
    rw [outcome_record_bind _ (.throw _)]
    rfl
  | ok path =>
    cases read : w.fileSystem.read path with
    | error e =>
      simp only [read]
      rw [outcome_record_bind _ (.bind (.record _) fun _ => .throw _),
        outcome_record_bind _ (.throw _)]
      rfl
    | ok text =>
      simp only [read]
      rw [outcome_record_bind _ (.bind (.record _) fun _ => analyze_appends text),
        outcome_record_bind _ (analyze_appends text)]
      -- An entry that is refused fails like a dependency; the specifier plays no part in it.
      exact analyze_outcome read fun _ => rfl

theorem loadEntry_ok {reference : Path} {asset : Asset}
    (loaded : (w.loadEntry id reference).outcome = .ok asset) :
    ∃ path, resolve w.fileSystem w.extensions reference = .ok path ∧
      asset = ⟨id, path, w.contentOf path, []⟩ ∧
      (w.mode = .strict → asset.isPlaceholder = false) := by
  rw [loadEntry_outcome] at loaded
  cases resolved : resolve w.fileSystem w.extensions reference with
  | error e => simp [resolved] at loaded
  | ok path =>
    cases read : w.fileSystem.read path with
    | error e => simp [resolved, read] at loaded
    | ok text =>
      simp only [resolved, read] at loaded
      exact ⟨path, rfl, settle_ok loaded⟩

theorem loadDependency_appends (specifier : String) (importer : Path) (resolution : Resolution) :
    (w.loadDependency id specifier importer resolution).Appends := by
  unfold loadDependency
  cases resolution.resolved with
  | error e => exact excuse_appends _ _
  | ok path =>
    refine .bind (.record _) fun _ => ?_
    cases w.fileSystem.read path with
    | error e => exact excuse_appends _ _
    | ok text => exact analyze_appends text

theorem loadDependency_outcome (specifier : String) (importer : Path) (resolution : Resolution) :
    (w.loadDependency id specifier importer resolution).outcome =
      w.settle id resolution.key (.ofFailure specifier importer resolution.key)
        (w.contentFor resolution) := by
  unfold loadDependency
  cases resolved : resolution.resolved with
  | error e =>
    simp only [contentFor, Resolution.key, resolved]
    exact excuse_outcome (.ofFailure specifier importer resolution.candidate)
  | ok path =>
    simp only [contentFor, Resolution.key, resolved]
    cases read : w.fileSystem.read path with
    | error e =>
      rw [outcome_record_bind _ (excuse_appends _ _)]
      simp only [contentOf, read]
      exact excuse_outcome (.ofFailure specifier importer path)
    | ok text =>
      rw [outcome_record_bind _ (analyze_appends text)]
      exact analyze_outcome read fun _ => rfl

end Workspace

namespace Pending

variable (w : Workspace)

def outcome (p : Pending) : Except BundleError Asset := (p.load w).outcome

theorem load_appends (p : Pending) : (p.load w).Appends := Workspace.loadDependency_appends _ _ _

variable {w} {p : Pending}

theorem outcome_ok {asset : Asset} (loaded : p.outcome w = .ok asset) :
    asset = ⟨p.id, p.resolution.key, w.contentFor p.resolution, []⟩ ∧
      (w.mode = .strict → asset.isPlaceholder = false) := by
  rw [outcome, load, Workspace.loadDependency_outcome] at loaded
  exact Workspace.settle_ok loaded

end Pending

end ModuleBundle
