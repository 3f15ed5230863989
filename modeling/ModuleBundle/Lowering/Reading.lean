import ModuleBundle.Text.Quoted

/-!
The hidden names that a lowered module declares, and how it reads what another module
exports: from the record that `require` gave, or, for a default export, from a holder
that also stands in for modules without one.
-/

set_option autoImplicit false

namespace ModuleBundle

/-- The name that holds what the module's `n`-th import or re-export requires. -/
def recordName (n : Nat) : String := s!"__import{n}__"

def holderName (n : Nat) : String := s!"__import{n}_default__"

/-- The name that holds the value of a default export without a name of its own. -/
def defaultName : String := "__default__"

/-- Whether `name` may follow a dot in what is written. Letters beyond ASCII are written
in brackets. -/
def isPlainName (name : String) : Bool :=
  match name.toList with
  | [] => false
  | first :: rest =>
    (first.isAlpha || first = '_' || first = '$') &&
      rest.all fun c => c.isAlphanum || c = '_' || c = '$'

def memberText (object name : String) : String :=
  if isPlainName name then object ++ "." ++ name else object ++ "[" ++ quoted name ++ "]"

inductive Reading where
  | whole (record : Nat)
  | member (record : Nat) (name : String)
  | defaultExport (record : Nat)
  deriving DecidableEq, Repr

namespace Reading

def text : Reading → String
  | whole record => recordName record
  | member record name => memberText (recordName record) name
  | defaultExport record => holderName record ++ ".default"

/-- The reading as the function of a call. A member called directly would be handed its
object as `this`, so it is detached first. -/
def calleeText : Reading → String
  | whole record => recordName record
  | reading => "(0, " ++ reading.text ++ ")"

end Reading

end ModuleBundle
