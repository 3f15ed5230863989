import ModuleBundle.Script.Parse

/-!
Targets of assignments. An object or array on the left of `=` is read as an expression
before the `=` is seen, and turned into a target here; parentheses may stand around a
name or member, not around a pattern.
-/

set_option autoImplicit false

namespace ModuleBundle.Script.Expression

def simpleTarget? : Expression → Option Expression
  | name span text => some (name span text)
  | group .member parts => some (group .member parts)
  | group .index parts => some (group .index parts)
  | group .paren [inner] => inner.simpleTarget?
  | _ => none

def toSimpleTarget (e : Expression) : Parse Expression :=
  match e.simpleTarget? with
  | some target => pure target
  | none => Parse.reject

/-- The property `name = value` at `offset` has become part of a target. -/
def cover (offset : Nat) : Parse Unit :=
  modify fun state => { state with uncovered := state.uncovered.filter (· ≠ offset) }

mutual

/-- The target that `e` reads as; `defaults` says that a default value may follow it, which
has then been read as an assignment. -/
def targetOf (defaults : Bool) : Expression → Parse Expression
  | group (.array trailing) parts => return group (.array false) (← elementTargets trailing parts)
  | group (.object trailing) parts =>
    return group (.object false) (← propertyTargets trailing parts)
  | group .assign parts => if defaults then return group .assign parts else Parse.reject
  | e => e.toSimpleTarget

def elementTargets (trailing : Bool) : List Expression → Parse (List Expression)
  | [] => return []
  | group .hole parts :: rest => return group .hole parts :: (← elementTargets trailing rest)
  | group .spread [argument] :: rest => do
    if rest.isEmpty && !trailing then return [group .spread [← targetOf false argument]]
    else Parse.reject
  | e :: rest => do
    let target ← targetOf true e
    return target :: (← elementTargets trailing rest)

def propertyTargets (trailing : Bool) : List Expression → Parse (List Expression)
  | [] => return []
  | shorthand span text :: rest =>
    return group .property [name span text] :: (← propertyTargets trailing rest)
  | group .initialized parts :: rest => do
    match parts with
    | name span _ :: _ => cover span.start
    | _ => pure ()
    return group .initialized parts :: (← propertyTargets trailing rest)
  | group .property [value] :: rest => do
    let target ← targetOf true value
    return group .property [target] :: (← propertyTargets trailing rest)
  | group .computedProperty [key, value] :: rest => do
    let target ← targetOf true value
    return group .computedProperty [key, target] :: (← propertyTargets trailing rest)
  | group .spread [argument] :: rest => do
    if rest.isEmpty && !trailing then return [group .spread [← argument.toSimpleTarget]]
    else Parse.reject
  | _ :: _ => Parse.reject

end

def toTarget (e : Expression) : Parse Expression := e.targetOf false

end ModuleBundle.Script.Expression
