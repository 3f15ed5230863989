import ModuleBundle.Analysis
import ModuleBundle.Resolution

/-!
The modules of a bundle. Each is either a script that was analyzed or a placeholder, which
stands in for a module that could not be had and behaves like an empty one.
-/

set_option autoImplicit false

namespace ModuleBundle

/-- The number that each specifier of a module leads to, in the order of the specifiers'
code points. -/
abbrev Mapping := List (String × Nat)

namespace Mapping

def insert (specifier : String) (id : Nat) : Mapping → Mapping
  | [] => [(specifier, id)]
  | (known, other) :: rest =>
    if specifier = known then (specifier, id) :: rest
    else if specifier < known then (specifier, id) :: (known, other) :: rest
    else (known, other) :: insert specifier id rest

end Mapping

inductive Failure where
  | unresolved (error : Unresolved)
  | unreadable (error : FileError)
  | refused (message : String)
  deriving DecidableEq, Repr

def Failure.message : Failure → String
  | unresolved error => error.message
  | unreadable error => "failed to read: " ++ error.message
  | refused message => message

inductive Content where
  | script (analysis : Analysis)
  | placeholder (failure : Failure)
  deriving DecidableEq, Repr

structure Asset where
  id : Nat
  path : Path
  content : Content
  mapping : Mapping
  deriving DecidableEq, Repr

namespace Asset

def specifiers (a : Asset) : List String :=
  match a.content with
  | .script analysis => analysis.specifiers
  | .placeholder _ => []

def body (a : Asset) : String :=
  match a.content with
  | .script analysis => analysis.body
  | .placeholder _ => ""

def failure? (a : Asset) : Option String :=
  match a.content with
  | .script _ => none
  | .placeholder failure => some failure.message

def isPlaceholder (a : Asset) : Bool := a.failure?.isSome

end Asset

end ModuleBundle
