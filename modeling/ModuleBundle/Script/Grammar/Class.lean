import ModuleBundle.Script.Grammar.Binding

/-!
Classes, their members, and the modifiers that members share with the properties of
object literals. A modifier is one only where something that may follow it does.
-/

set_option autoImplicit false

namespace ModuleBundle.Script.Grammar

def followsModifier (tag : Tag) : Bool :=
  startsKey tag || tag = .mark .openBrace || tag = .mark .star || tag = .mark .ellipsis

def atModifier (word : String) (sameLine : Bool) : Parse Bool := do
  match (← Parse.token).tag with
  | .word text _ =>
    let next ← Parse.peek
    return text = word && followsModifier next.tag && !(sameLine && next.newline)
  | _ => return false

def eatModifier (word : String) (sameLine : Bool) : Parse Bool := do
  if ← atModifier word sameLine then
    Parse.expectWord word
    return true
  else return false

structure Modifiers where
  isStatic : Bool := false
  isAccessor : Bool := false
  isAsync : Bool := false
  deriving DecidableEq, Repr

def atStaticBlock : Parse Bool := do
  match (← Parse.token).tag with
  | .word "static" _ => return (← Parse.peek).tag = .mark .openBrace
  | _ => return false

/-- A second `static` is a name, and so is one before a static block's brace. -/
def eatStatic (found : Modifiers) : Parse Bool := do
  if found.isStatic || (← atStaticBlock) then return false else eatModifier "static" false

/-- No modifier stands twice, and none but `accessor` before `static`. -/
def modifiers : Parse Modifiers :=
  Parse.loop (fun found : Modifiers => do
    if ← eatStatic found then
      if found.isAsync then Parse.reject else return .inl { found with isStatic := true }
    else if ← eatModifier "accessor" true then
      if found.isAccessor then Parse.reject else return .inl { found with isAccessor := true }
    else if ← eatModifier "async" true then
      if found.isAsync then Parse.reject else return .inl { found with isAsync := true }
    else return .inr found) {}

/-- A constructor is a plain method, a static member is not named `prototype`, and a
private one never `constructor`. -/
def mayNameMethod (isStatic isPlain : Bool) : PropertyKey → Bool
  | .privateName text => text ≠ "constructor"
  | key =>
    if isStatic then key.text? ≠ some "prototype" else isPlain || key.text? ≠ some "constructor"

def mayNameField (isStatic : Bool) : PropertyKey → Bool
  | .privateName text => text ≠ "constructor"
  | key => key.text? ≠ some "constructor" && !(isStatic && key.text? = some "prototype")

def mayNameAccessor : PropertyKey → Bool
  | .privateName text => text ≠ "constructor"
  | _ => true

def fieldRest (g : Grammar) (decorators : List Expression) (modifiers : Modifiers)
    (key : PropertyKey) : Parse Member := do
  let mayName := if modifiers.isAccessor then mayNameAccessor key
    else mayNameField modifiers.isStatic key
  if modifiers.isAsync || !mayName then Parse.reject
  else
    let value ←
      if ← Parse.eatMark .assign then
        let value ← Parse.inContext (fun context =>
          { context with allowIn := true, allowYield := false, allowAwait := false }) g.expression
        pure [value]
      else pure []
    Parse.endStatement
    return .field decorators key.expressions value

def methodOrField (g : Grammar) (decorators : List Expression) (modifiers : Modifiers)
    (start : Nat) : Parse Member := do
  let isGenerator ← Parse.eatMark .star
  let key ← g.propertyKey
  if isGenerator || (← Parse.isMark .openParen) then
    let isPlain := !modifiers.isAsync && !modifiers.isAccessor && !isGenerator
    if mayNameMethod modifiers.isStatic isPlain key then
      return .method decorators key.expressions
        (← g.functionRest start none modifiers.isAsync isGenerator)
    else Parse.reject
  else g.fieldRest decorators modifiers key

def accessorMethod (g : Grammar) (decorators : List Expression) (modifiers : Modifiers)
    (isSetter : Bool) (start : Nat) : Parse Member := do
  let key ← g.propertyKey
  if !modifiers.isAsync && mayNameMethod modifiers.isStatic false key then
    return .method decorators key.expressions (← g.accessorRest start isSetter)
  else Parse.reject

def staticBlock (g : Grammar) : Parse Member := do
  Parse.expectWord "static"
  let body ← Parse.inContext (fun context =>
    { context with allowAwait := true, allowYield := false, allowReturn := false }) g.block
  return .staticBlock body

def classMember (g : Grammar) : Parse Member := do
  let start := (← Parse.token).start
  let decorators ← g.decorators
  let modifiers ← modifiers
  if ← atStaticBlock then
    if decorators.isEmpty && modifiers = {} then g.staticBlock else Parse.reject
  else if ← eatModifier "get" false then g.accessorMethod decorators modifiers false start
  else if ← eatModifier "set" false then g.accessorMethod decorators modifiers true start
  else g.methodOrField decorators modifiers start

def classBody (g : Grammar) : Parse (List Member) := do
  Parse.expectMark .openBrace
  let members ← Parse.loop (fun members : List Member => do
    if ← Parse.eatMark .closeBrace then return .inr members
    else if ← Parse.eatMark .semicolon then return .inl members
    else return .inl ((← g.classMember) :: members)) []
  return members.reverse

def implementedName : Parse (List Expression) := do
  let first ← Parse.token
  let text ← Parse.identifierName
  Parse.loop (fun _ : Unit => do
    if ← Parse.eatMark .dot then
      let _ ← Parse.identifierName
      return .inl ()
    else return .inr ()) ()
  return if text = "this" then [] else [.name ⟨first.start, first.stop⟩ text]

def implementedNames : Parse (List Expression) := do
  let first ← implementedName
  Parse.loop (fun found : List Expression => do
    if ← Parse.eatMark .comma then return .inl (found ++ (← implementedName))
    else return .inr found) first

def heritage (g : Grammar) : Parse (List Expression) := do
  let extended ← if ← Parse.eatWord "extends" then pure [← g.leftHand] else pure []
  let implemented ← if ← Parse.eatWord "implements" then implementedNames else pure []
  return extended ++ implemented

def className? : Parse (Option String) := do
  match (← Parse.token).tag with
  | .word text _ =>
    if isReserved text || text = "implements" then return none
    else return some (← Parse.bindingName)
  | _ => return none

def classRest (g : Grammar) (start : Nat) (decorators : List Expression) : Parse ClassNode := do
  let name ← className?
  let heritage ← g.heritage
  let members ← g.classBody
  return .mk ⟨start, ← Parse.lastStop⟩ name decorators heritage members

def classFrom (g : Grammar) (start : Nat) (decorators : List Expression) : Parse ClassNode := do
  Parse.expectWord "class"
  g.classRest start decorators

end ModuleBundle.Script.Grammar
