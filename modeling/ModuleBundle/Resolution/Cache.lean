import ModuleBundle.Resolution

/-!
Resolutions that are remembered. Once a specifier has been resolved from a directory, it
keeps that resolution, also when files are added later.
-/

set_option autoImplicit false

namespace ModuleBundle

/-- What a cached resolution is filed under: directories count as the same however they
are spelled. -/
structure CacheKey where
  directory : List Component
  specifier : String
  deriving DecidableEq, Repr

def CacheKey.of (directory : Path) (specifier : String) : CacheKey :=
  ⟨directory.components, specifier⟩

structure ResolutionCache where
  entries : List (CacheKey × Resolution)

namespace ResolutionCache

def empty : ResolutionCache := ⟨[]⟩

def remembers (cache : ResolutionCache) (directory : Path) (specifier : String) : Bool :=
  (cache.entries.lookup (.of directory specifier)).isSome

def resolveFrom (cache : ResolutionCache) (fs : FileSystem) (extensions : Extensions)
    (directory : Path) (specifier : String) : Resolution × ResolutionCache :=
  match cache.entries.lookup (.of directory specifier) with
  | some known => (known, cache)
  | none =>
    let found := Resolution.ofSpecifier fs extensions directory specifier
    (found, ⟨(.of directory specifier, found) :: cache.entries⟩)

end ResolutionCache

end ModuleBundle
