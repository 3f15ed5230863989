import ModuleBundle.FileSystem

/-!
Files kept in memory, under clean paths. Directories need no entry of their own: one
exists wherever a file lies below it.
-/

set_option autoImplicit false

namespace ModuleBundle

structure MemoryFiles where
  files : List (Path × String)
  /-- The files whose contents are withheld. -/
  locked : List Path
  deriving DecidableEq, Repr

namespace MemoryFiles

def empty : MemoryFiles := ⟨[], []⟩

/-- Keeps `contents` under `path`, which is one of the paths in the list or comes to stand
at its end. -/
def put (path : Path) (contents : String) : List (Path × String) → List (Path × String)
  | [] => [(path, contents)]
  | (known, old) :: rest =>
    if known = path then (path, contents) :: rest else (known, old) :: put path contents rest

def insert (m : MemoryFiles) (path : Path) (contents : String) : MemoryFiles :=
  { m with files := put path.clean contents m.files }

/-- Adds a file that exists but cannot be read, whatever is inserted under its path later. -/
def insertLocked (m : MemoryFiles) (path : Path) : MemoryFiles :=
  ⟨put path.clean "" m.files, path.clean :: m.locked⟩

def ofList (files : List (Path × String)) (locked : List Path) : MemoryFiles :=
  locked.foldl insertLocked (files.foldl (fun m file => m.insert file.1 file.2) empty)

def contents? (m : MemoryFiles) (path : Path) : Option String := m.files.lookup path.clean

def isFile (m : MemoryFiles) (path : Path) : Bool := (m.contents? path).isSome

def isDirectory (m : MemoryFiles) (path : Path) : Bool :=
  m.files.any fun file => file.1 ≠ path.clean && file.1.startsWith path.clean

def read (m : MemoryFiles) (path : Path) : Except FileError String :=
  if m.locked.contains path.clean then .error (.locked path.clean)
  else
    match m.contents? path with
    | some contents => .ok contents
    | none => .error (.absent path.clean)

def fileSystem (m : MemoryFiles) : FileSystem :=
  { isFile := m.isFile, isDirectory := m.isDirectory, read := m.read, canonical := Path.clean }

/-- No build has more generations: all but the last hold a file that the earlier ones do
not. -/
def generationLimit (m : MemoryFiles) : Nat := m.files.length + 2

end MemoryFiles

end ModuleBundle
