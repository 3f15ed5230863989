import ModuleBundle.FileSystem

/-!
From references to files. A reference to a directory stands for an index file in it; any
other stands for itself if it ends in an extension of a module, and else for the file with
one of these extensions appended. The first candidate that is a file is the answer.
-/

set_option autoImplicit false

namespace ModuleBundle

structure Unresolved where
  reference : Path
  tried : List Path
  deriving DecidableEq, Repr

def Unresolved.message (e : Unresolved) : String :=
  let tried :=
    match e.tried with
    | [] => "nothing"
    | paths => ", ".intercalate (paths.map Path.text)
  "cannot resolve '" ++ e.reference.text ++ "' (tried " ++ tried ++ ")"

/-- The extensions of modules, in the order in which they are looked for. -/
structure Extensions where
  list : List String
  deriving DecidableEq, Repr

namespace Extensions

/-- Extensions may be given with dots in front. -/
def ofList (given : List String) : Extensions :=
  ⟨given.map fun extension => String.ofList (extension.toList.dropWhile (· = '.'))⟩

def default : Extensions := ⟨["js", "jsx", "mjs", "cjs"]⟩

def recognizes (e : Extensions) (path : Path) : Bool :=
  match path.extension with
  | some extension => e.list.contains extension
  | none => false

end Extensions

def indexStem : String := "index"

def candidates (fs : FileSystem) (extensions : Extensions) (reference : Path) : List Path :=
  if fs.isDirectory reference then
    extensions.list.map fun extension => reference.join ⟨indexStem ++ "." ++ extension⟩
  else if extensions.recognizes reference then [reference]
  else extensions.list.map reference.appendExtension

def resolve (fs : FileSystem) (extensions : Extensions) (reference : Path) :
    Except Unresolved Path :=
  let paths := candidates fs extensions reference
  match paths.find? fs.isFile with
  | some path => .ok (fs.canonical path)
  | none => .error ⟨reference, paths⟩

structure Resolution where
  /-- The reference that the specifier amounts to. -/
  candidate : Path
  resolved : Except Unresolved Path

namespace Resolution

/-- What the module is known by: its file, or the reference if it has none. -/
def key (r : Resolution) : Path :=
  match r.resolved with
  | .ok path => path
  | .error _ => r.candidate

/-- Whether a specifier leads to a file. All others name packages, which are never looked
for. -/
def isPath (specifier : String) : Bool :=
  match specifier.toList with
  | ['.'] => true
  | ['.', '.'] => true
  | '.' :: '/' :: _ => true
  | '.' :: '.' :: '/' :: _ => true
  | '/' :: _ => true
  | _ => false

def candidateOf (directory : Path) (specifier : String) : Path :=
  if isPath specifier then (directory.join ⟨specifier⟩).clean else ⟨specifier⟩

def ofSpecifier (fs : FileSystem) (extensions : Extensions) (directory : Path)
    (specifier : String) : Resolution :=
  let candidate := candidateOf directory specifier
  if isPath specifier then ⟨candidate, resolve fs extensions candidate⟩
  else ⟨candidate, .error ⟨candidate, []⟩⟩

end Resolution

end ModuleBundle
