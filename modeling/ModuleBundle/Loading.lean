import ModuleBundle.Asset

/-!
Loading single modules: reading the file and analyzing it. What cannot be loaded makes a
strict build fail; in a lenient one it becomes a placeholder, but for an entry that cannot
be found or read. Whatever a build asks the file system or the analyzer is written down in
its journal.
-/

set_option autoImplicit false

namespace ModuleBundle

inductive BundleError where
  | entryNotFound (source : Unresolved)
  | entryUnreadable (path : Path) (source : FileError)
  | unresolvedDependency (specifier : String) (importer : Path) (source : Unresolved)
  | dependencyUnreadable (path : Path) (source : FileError)
  | analysisFailed (path : Path) (source : String)
  deriving DecidableEq, Repr

namespace BundleError

def message : BundleError → String
  | entryNotFound source => "entry point not found: " ++ source.reference.text
  | entryUnreadable path _ => "failed to read " ++ path.text
  | unresolvedDependency specifier importer _ =>
    "'" ++ specifier ++ "' imported from " ++ importer.text ++ " does not resolve"
  | dependencyUnreadable path _ => "failed to read dependency " ++ path.text
  | analysisFailed path _ => "failed to analyze " ++ path.text

def cause : BundleError → String
  | entryNotFound source => source.message
  | entryUnreadable _ source => source.message
  | unresolvedDependency _ _ source => source.message
  | dependencyUnreadable _ source => source.message
  | analysisFailed _ source => source

end BundleError

inductive Mode where
  | lenient | strict
  deriving DecidableEq, Repr

inductive Event where
  | resolve (reference : Path)
  | read (path : Path)
  | analyze (path : Path) (text : String)
  deriving DecidableEq, Repr

abbrev Journal := List Event

/-- Steps of a build, which may fail. -/
abbrev Session := ExceptT BundleError (StateM Journal)

def record (events : List Event) : Session Unit := modify (· ++ events)

structure Workspace where
  fileSystem : FileSystem
  extensions : Extensions
  analyzer : Analyzer
  mode : Mode

namespace Workspace

/-- A placeholder, unless the build is strict. -/
def excuse (w : Workspace) (id : Nat) (path : Path) (failure : Failure) (error : BundleError) :
    Session Asset :=
  match w.mode with
  | .strict => throw error
  | .lenient => return ⟨id, path, .placeholder failure, []⟩

def analyze (w : Workspace) (id : Nat) (path : Path) (text : String) : Session Asset := do
  record [.analyze path text]
  match w.analyzer path text with
  | .ok analysis => return ⟨id, path, .script analysis, []⟩
  | .error message => w.excuse id path (.refused message) (.analysisFailed path message)

def loadEntry (w : Workspace) (id : Nat) (reference : Path) : Session Asset := do
  record [.resolve reference]
  match resolve w.fileSystem w.extensions reference with
  | .error e => throw (.entryNotFound e)
  | .ok path =>
    record [.read path]
    match w.fileSystem.read path with
    | .error e => throw (.entryUnreadable path e)
    | .ok text => w.analyze id path text

def loadDependency (w : Workspace) (id : Nat) (specifier : String) (importer : Path)
    (resolution : Resolution) : Session Asset := do
  match resolution.resolved with
  | .error e =>
    w.excuse id resolution.candidate (.unresolved e) (.unresolvedDependency specifier importer e)
  | .ok path =>
    record [.read path]
    match w.fileSystem.read path with
    | .error e => w.excuse id path (.unreadable e) (.dependencyUnreadable path e)
    | .ok text => w.analyze id path text

end Workspace

end ModuleBundle
