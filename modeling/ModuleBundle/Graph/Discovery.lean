import ModuleBundle.Loading
import ModuleBundle.Resolution.Cache

/-!
Discovery of modules. Following a module's specifiers gives a number to every module not
seen before, in the order of the specifiers. The number is given out, and the key written
down, before the module is loaded, so that a specifier that leads back to it finds it.
-/

set_option autoImplicit false

namespace ModuleBundle

/-- The keys of the modules seen so far, each at the position that is its number. -/
structure Seen where
  keys : List Path
  deriving DecidableEq, Repr

namespace Seen

def size (s : Seen) : Nat := s.keys.length

def id? (s : Seen) (key : Path) : Option Nat := s.keys.findIdx? (·.same key)

def push (s : Seen) (key : Path) : Seen := ⟨s.keys ++ [key]⟩

end Seen

/-- What a build knows while it goes on: the modules seen and the resolutions made. -/
structure Knowledge where
  seen : Seen
  cache : ResolutionCache

/-- A module that was seen for the first time and is still to be loaded. -/
structure Pending where
  id : Nat
  specifier : String
  /-- The directory of the module that names it. -/
  importer : Path
  resolution : Resolution

def Pending.load (w : Workspace) (p : Pending) : Session Asset :=
  w.loadDependency p.id p.specifier p.importer p.resolution

/-- What following some specifiers gave, with what was made of each module discovered. -/
structure Following (α : Type) where
  known : Knowledge
  mapping : Mapping
  found : List α

structure Visit (α : Type) where
  /-- The modules visited, with their mappings. -/
  visited : List Asset
  known : Knowledge
  found : List α

namespace Workspace

/-- What resolving a specifier asks the file system: nothing about a package, and nothing
where the resolution is remembered. -/
def resolutionEvents (cache : ResolutionCache) (importer : Path) (specifier : String) :
    List Event :=
  if Resolution.isPath specifier && !cache.remembers importer specifier then
    [.resolve (Resolution.candidateOf importer specifier)]
  else []

def resolveFrom (w : Workspace) (cache : ResolutionCache) (importer : Path)
    (specifier : String) : Session (Resolution × ResolutionCache) := do
  record (resolutionEvents cache importer specifier)
  return cache.resolveFrom w.fileSystem w.extensions importer specifier

variable {α : Type}

/-- Follows specifiers from the directory `importer`, and does with each module that is seen
for the first time what `take` says before it goes on. -/
def follow (w : Workspace) (take : Pending → Session α) (importer : Path) :
    Knowledge → Mapping → List String → Session (Following α)
  | known, mapping, [] => return ⟨known, mapping, []⟩
  | known, mapping, specifier :: rest => do
    let (resolution, cache) ← w.resolveFrom known.cache importer specifier
    match known.seen.id? resolution.key with
    | some id => w.follow take importer ⟨known.seen, cache⟩ (mapping.insert specifier id) rest
    | none =>
      let id := known.seen.size
      let first ← take ⟨id, specifier, importer, resolution⟩
      let others ← w.follow take importer ⟨known.seen.push resolution.key, cache⟩
        (mapping.insert specifier id) rest
      return { others with found := first :: others.found }

def visit (w : Workspace) (take : Pending → Session α) :
    Knowledge → List Asset → Session (Visit α)
  | known, [] => return ⟨[], known, []⟩
  | known, asset :: rest => do
    let first ← w.follow take asset.path.parent known asset.mapping asset.specifiers
    let others ← w.visit take first.known rest
    return ⟨{ asset with mapping := first.mapping } :: others.visited, others.known,
      first.found ++ others.found⟩

end Workspace

end ModuleBundle
