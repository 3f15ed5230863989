import ModuleBundle.FileSystem
import ModuleBundle.Text.Split

/-!
Disks held as values: a tree of directories, files and links, with a working directory. A
path is walked segment by segment from the root or the working directory. Links are
followed wherever they are met, and only a directory can be walked on from, be it to its
own parent.
-/

set_option autoImplicit false

namespace ModuleBundle

/-- Where something lies: the names from the root on. -/
abbrev Place := List String

inductive Entry where
  | directory
  | file (contents : String)
  /-- A file whose bytes are no text. -/
  | bytes
  | link (target : String)
  deriving DecidableEq, Repr

structure Disk where
  /-- What lies below the root, each place at most once. -/
  entries : List (Place × Entry)
  workingDirectory : Place
  deriving DecidableEq, Repr

namespace Disk

def entry? (d : Disk) : Place → Option Entry
  | [] => some .directory
  | place => d.entries.lookup place

inductive Goal where
  | found (place : Place)
  /-- Nothing lies there, but something can be put there. -/
  | free (place : Place)
  deriving DecidableEq, Repr

def segmentsOf (text : String) : List String := splitText '/' text

def startOf (place : Place) (text : String) : Place :=
  if text.toList.head? = some '/' then [] else place

def nameLimit : Nat := 255

def pathLimit : Nat := 4095

/-- Walks along segments from `place`; `follow` goes on where a link leads. A walk that is
to end at a place to write to may end where nothing lies, but does not take a slash after
its end. -/
def walkAlong (d : Disk) (writes : Bool) (follow : Place → List String → Except FileError Goal)
    (place : Place) : List String → Except FileError Goal
  | [] => .ok (.found place)
  | segment :: rest =>
    if d.entry? place ≠ some .directory then .error .notDirectory
    else if segment = "" ∨ segment = "." then d.walkAlong writes follow place rest
    else if segment = ".." then d.walkAlong writes follow place.dropLast rest
    else if writes ∧ rest ≠ [] ∧ rest.all (· = "") then .error .isDirectory
    else if nameLimit < segment.utf8ByteSize then .error .nameTooLong
    else
      let next := place ++ [segment]
      match d.entry? next with
      | none => if writes ∧ rest = [] then .ok (.free next) else .error .noSuchFile
      | some (.link target) => follow (startOf place target) (segmentsOf target ++ rest)
      | some _ => d.walkAlong writes follow next rest

def walk (d : Disk) (writes : Bool) : Nat → Place → List String → Except FileError Goal
  | 0 => d.walkAlong writes fun _ _ => .error .tooManyLinks
  | links + 1 => d.walkAlong writes (d.walk writes links)

def linkLimit : Nat := 40

def goal (d : Disk) (writes : Bool) (path : Path) : Except FileError Goal :=
  if path.text.contains '\x00' then .error .nameWithEnd
  else if path.text = "" then .error .noSuchFile
  else d.walk writes linkLimit (startOf d.workingDirectory path.text) (segmentsOf path.text)

/-- Where a path leads that is handed over as a whole, and so must not be too long. -/
def reach (d : Disk) (writes : Bool) (path : Path) : Except FileError Goal :=
  if !path.text.contains '\x00' && pathLimit < path.text.utf8ByteSize then .error .nameTooLong
  else d.goal writes path

def at? (d : Disk) (path : Path) : Option Entry :=
  match d.reach false path with
  | .ok (.found place) => d.entry? place
  | _ => none

def isFile (d : Disk) (path : Path) : Bool :=
  match d.at? path with
  | some (.file _) => true
  | some .bytes => true
  | _ => false

def isDirectory (d : Disk) (path : Path) : Bool := d.at? path = some .directory

def read (d : Disk) (path : Path) : Except FileError String :=
  match d.reach false path with
  | .error e => .error e
  | .ok (.free _) => .error .noSuchFile
  | .ok (.found place) =>
    match d.entry? place with
    | some (.file contents) => .ok contents
    | some .bytes => .error .notText
    | some .directory => .error .isDirectory
    | _ => .error .noSuchFile

def pathOf (place : Place) : Path := ⟨"/" ++ "/".intercalate place⟩

/-- The path from the root to what `path` leads to, or the clean path if that is nothing. It
is found name by name, however long `path` is. -/
def canonical (d : Disk) (path : Path) : Path :=
  match d.goal false path with
  | .ok (.found place) => pathOf place
  | _ => path.clean

def fileSystem (d : Disk) : FileSystem :=
  { isFile := d.isFile, isDirectory := d.isDirectory, read := d.read, canonical := d.canonical }

def put (d : Disk) (place : Place) (entry : Entry) : Disk :=
  { d with entries := (place, entry) :: d.entries.filter fun e => e.1 ≠ place }

/-- Writes a file that may be there already; its directory has to be. -/
def write (d : Disk) (path : Path) (contents : String) : Except FileError Disk :=
  match d.reach true path with
  | .error e => .error e
  | .ok (.free place) => .ok (d.put place (.file contents))
  | .ok (.found place) =>
    if d.entry? place = some .directory then .error .isDirectory
    else .ok (d.put place (.file contents))

def empty (workingDirectory : Place) : Disk :=
  { entries := (List.range workingDirectory.length).map fun n =>
      (workingDirectory.take (n + 1), .directory)
    workingDirectory }

def add (d : Disk) (path : String) (entry : Entry) : Disk :=
  let segments := (segmentsOf path).filter (· ≠ "")
  let parents := (List.range (segments.length - 1)).map fun n =>
    d.workingDirectory ++ segments.take (n + 1)
  let d := parents.foldl (fun d place =>
    if (d.entry? place).isSome then d else d.put place .directory) d
  d.put (d.workingDirectory ++ segments) entry

/-- No build has more generations: all but the last hold a file that the earlier ones do
not. -/
def generationLimit (d : Disk) : Nat := d.entries.length + 2

def pathOfWorkingDirectory (d : Disk) : Path := pathOf d.workingDirectory

end Disk

end ModuleBundle
