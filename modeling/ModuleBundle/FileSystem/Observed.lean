import ModuleBundle.FileSystem

/-!
File systems known by observation. Nothing is taken to lie where nobody has looked yet.
-/

set_option autoImplicit false

namespace ModuleBundle

structure Observation where
  isFile : Bool
  isDirectory : Bool
  contents : Except FileError String
  canonical : Path

namespace Observation

def missing (path : Path) (reason : FileError) : Observation :=
  ⟨false, false, .error reason, path.clean⟩

end Observation

structure Observations where
  list : List (Path × Observation)

namespace Observations

def empty : Observations := ⟨[]⟩

def about (o : Observations) (path : Path) : Observation :=
  (o.list.lookup path).getD (.missing path .noSuchFile)

def knows (o : Observations) (path : Path) : Bool := (o.list.lookup path).isSome

def insert (o : Observations) (path : Path) (observation : Observation) : Observations :=
  ⟨(path, observation) :: o.list⟩

def fileSystem (o : Observations) : FileSystem :=
  { isFile := fun path => (o.about path).isFile
    isDirectory := fun path => (o.about path).isDirectory
    read := fun path => (o.about path).contents
    canonical := fun path => (o.about path).canonical }

/-- No build has more generations: all but the last hold a file that the earlier ones do
not. -/
def generationLimit (o : Observations) : Nat := o.list.length + 2

end Observations

end ModuleBundle
