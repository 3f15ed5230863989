import ModuleBundle.Text.Split

/-!
Paths with `/` between their segments. A path keeps the text it was written with, which is
what messages show; paths are compared by the components that the text stands for.
-/

set_option autoImplicit false

namespace ModuleBundle

/-- A component of a path. A dot is one only at the front of a relative path. -/
inductive Component where
  | root
  | here
  | parent
  | name (text : List Char)
  deriving DecidableEq, Repr

structure Path where
  text : String
  deriving DecidableEq, Repr, Inhabited

namespace Path

def segmentsOf (text : List Char) : List (List Char) := stretches '/' text

def innerComponent? (segment : List Char) : Option Component :=
  if segment = [] ∨ segment = ['.'] then none
  else if segment = ['.', '.'] then some .parent
  else some (.name segment)

def componentsOf (text : List Char) : List Component :=
  match text, segmentsOf text with
  | '/' :: _, segments => .root :: segments.filterMap innerComponent?
  | _, [] => []
  | _, first :: rest =>
    if first = ['.'] then .here :: rest.filterMap innerComponent?
    else (first :: rest).filterMap innerComponent?

def components (p : Path) : List Component := componentsOf p.text.toList

def same (p q : Path) : Bool := p.components = q.components

def isAbsolute (p : Path) : Bool := p.text.toList.head? = some '/'

def Component.spell : Component → List Char
  | .root => []
  | .here => ['.']
  | .parent => ['.', '.']
  | .name text => text

def spell : List Component → List Char
  | [] => []
  | [.root] => ['/']
  | [c] => Component.spell c
  | c :: rest => Component.spell c ++ '/' :: spell rest

def ofComponents (components : List Component) : Path := ⟨String.ofList (spell components)⟩

/-- The components after one more step, from a reversed list without needless steps. -/
def cleanStep (done : List Component) : Component → List Component
  | .here => done
  | .parent =>
    match done with
    | .root :: _ => done
    | .name _ :: rest => rest
    | _ => .parent :: done
  | c => c :: done

def cleanComponents (components : List Component) : List Component :=
  (components.foldl cleanStep []).reverse

/-- The shortest text that leads to the same place, read without looking at any disk;
the empty way is written as a dot. -/
def clean (p : Path) : Path :=
  match cleanComponents p.components with
  | [] => ⟨"."⟩
  | components => ofComponents components

def join (p other : Path) : Path :=
  if other.isAbsolute then other
  else if p.text.toList.getLast?.all (· = '/') then ⟨p.text ++ other.text⟩
  else ⟨p.text ++ "/" ++ other.text⟩

/-- The path without its last component; nothing stands above a root or an empty path. -/
def parent (p : Path) : Path :=
  match p.components.reverse with
  | [] => ⟨""⟩
  | .root :: _ => ⟨""⟩
  | _ :: rest => ofComponents rest.reverse

/-- The part of a file name after its last dot, unless that dot is its first character. -/
def extensionOf (fileName : List Char) : Option (List Char) :=
  match fileName.reverse.span (· ≠ '.') with
  | (_, []) => none
  | (_, [_]) => none
  | (reversed, _ :: _ :: _) => some reversed.reverse

def extension (p : Path) : Option String :=
  match p.components.getLast? with
  | some (.name text) => (extensionOf text).map String.ofList
  | _ => none

def appendExtension (p : Path) (extension : String) : Path := ⟨p.text ++ "." ++ extension⟩

def startsWith (p directory : Path) : Bool := directory.components.isPrefixOf p.components

def strip (p directory : Path) : Option Path :=
  if p.startsWith directory then
    some (ofComponents (p.components.drop directory.components.length))
  else none

end Path

end ModuleBundle
