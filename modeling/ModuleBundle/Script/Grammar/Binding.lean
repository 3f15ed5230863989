import ModuleBundle.Script.Parse

/-!
What binds names: patterns, parameter lists and functions. Their productions take the
`Grammar` one nesting level below.
-/

set_option autoImplicit false

namespace ModuleBundle.Script

def Parse.sequence (assignment : Parse Expression) : Parse Expression := do
  let first ← assignment
  if ← isMark .comma then
    let parts ← loop (fun parts : List Expression => do
      if ← eatMark .comma then return .inl ((← assignment) :: parts)
      else return .inr parts) [first]
    return .group .sequence parts.reverse
  else return first

inductive PropertyKey where
  | word (span : Span) (text : String)
  | literal (text : Option String)
  | computed (key : Expression)
  | privateName (text : String)

namespace PropertyKey

def expressions : PropertyKey → List Expression
  | computed key => [key]
  | _ => []

def text? : PropertyKey → Option String
  | word _ text => some text
  | literal text => text
  | _ => none

end PropertyKey

namespace Grammar

def startsKey : Tag → Bool
  | .word .. | .privateName _ | .number | .string .. | .mark .openBracket => true
  | _ => false

def propertyKey (g : Grammar) : Parse PropertyKey := do
  let current ← Parse.token
  match current.tag with
  | .word text _ =>
    Parse.advance
    return .word ⟨current.start, current.stop⟩ text
  | .string value _ =>
    Parse.advance
    return .literal (some value)
  | .number =>
    Parse.advance
    return .literal none
  | .privateName text =>
    Parse.advance
    return .privateName text
  | .mark .openBracket =>
    Parse.advance
    let key ← Parse.allowingIn g.assignment
    Parse.expectMark .closeBracket
    return .computed key
  | _ => Parse.reject

/-- An expression with commas. A decorator's restrictions do not reach into it. -/
def expression (g : Grammar) : Parse Expression :=
  Parse.outsideDecorator (Parse.sequence g.assignment)

def withInitializer (g : Grammar) (pattern : Pattern) : Parse Pattern := do
  if ← Parse.eatMark .assign then
    return .withDefault pattern (← Parse.allowingIn g.assignment)
  else return pattern

/-- The parts of an array pattern, last first. Nothing follows a rest element. -/
def arrayPatternStep (g : Grammar) (parts : List Pattern) :
    Parse (List Pattern ⊕ List Pattern) := do
  if ← Parse.eatMark .closeBracket then return .inr parts
  else if ← Parse.eatMark .comma then return .inl parts
  else if ← Parse.eatMark .ellipsis then
    let rest ← g.pattern
    Parse.expectMark .closeBracket
    return .inr (rest :: parts)
  else
    let part ← g.withInitializer (← g.pattern)
    if ← Parse.eatMark .comma then return .inl (part :: parts)
    else
      Parse.expectMark .closeBracket
      return .inr (part :: parts)

/-- A name without a pattern of its own is bound, and any name may be that is not reserved. -/
def propertyPattern (g : Grammar) : Parse Pattern := do
  let current ← Parse.token
  let key ← g.propertyKey
  if ← Parse.eatMark .colon then
    let value ← g.withInitializer (← g.pattern)
    match key with
    | .computed key => return .keyed key value
    | .privateName _ => Parse.reject
    | _ => return value
  else
    match current.tag with
    | .word text _ =>
      if isReserved text then Parse.reject else g.withInitializer (.name text)
    | _ => Parse.reject

def objectPatternStep (g : Grammar) (parts : List Pattern) :
    Parse (List Pattern ⊕ List Pattern) := do
  if ← Parse.eatMark .closeBrace then return .inr parts
  else if ← Parse.eatMark .ellipsis then
    let rest ← Parse.bindingName
    Parse.expectMark .closeBrace
    return .inr (.name rest :: parts)
  else
    let part ← g.propertyPattern
    if ← Parse.eatMark .comma then return .inl (part :: parts)
    else
      Parse.expectMark .closeBrace
      return .inr (part :: parts)

def patternAt (g : Grammar) : Parse Pattern := do
  if ← Parse.eatMark .openBracket then
    return .nested (← Parse.loop g.arrayPatternStep []).reverse
  else if ← Parse.eatMark .openBrace then
    return .nested (← Parse.loop g.objectPatternStep []).reverse
  else return .name (← Parse.bindingName)

def decorators (g : Grammar) : Parse (List Expression) := do
  let found ← Parse.loop (fun found : List Expression => do
    if ← Parse.eatMark .atSign then
      let decorator ← Parse.inContext (fun context => { context with inDecorator := true })
        g.leftHand
      return .inl (decorator :: found)
    else return .inr found) []
  return found.reverse

def parametersStep (g : Grammar) (parts : List Pattern) :
    Parse (List Pattern ⊕ List Pattern) := do
  if ← Parse.eatMark .closeParen then return .inr parts
  else if ← Parse.eatMark .ellipsis then
    let rest ← g.pattern
    Parse.expectMark .closeParen
    return .inr (rest :: parts)
  else
    let decorators ← g.decorators
    let part := decorators.foldr .keyed (← g.withInitializer (← g.patternAt))
    if ← Parse.eatMark .comma then return .inl (part :: parts)
    else
      Parse.expectMark .closeParen
      return .inr (part :: parts)

def parameters (g : Grammar) : Parse (List Pattern) := do
  Parse.expectMark .openParen
  return (← Parse.loop g.parametersStep []).reverse

def statements (g : Grammar) : Parse (List Statement) := do
  let found ← Parse.loop (fun found : List Statement => do
    if ← Parse.eatMark .closeBrace then return .inr found
    else return .inl ((← g.statement .inBlock) :: found)) []
  return found.reverse

def block (g : Grammar) : Parse (List Statement) := do
  Parse.expectMark .openBrace
  g.statements

def functionBody (g : Grammar) : Parse (List Statement) :=
  Parse.inContext (fun context => { context with allowReturn := true }) g.block

def functionRest (g : Grammar) (start : Nat) (name : Option String)
    (isAsync isGenerator : Bool) : Parse FunctionNode :=
  Parse.inContext (fun context =>
    { context with allowIn := true, allowAwait := isAsync, allowYield := isGenerator }) do
    let parametersStart := (← Parse.token).start
    let parameters ← g.parameters
    let body ← g.functionBody
    return .mk ⟨start, ← Parse.lastStop⟩ name isAsync isGenerator parametersStart parameters body

def atAsyncFunction : Parse Bool := do
  if ← Parse.isWord "async" then
    let next ← Parse.peek
    return next.tag = .word "function" false && !next.newline
  else return false

def atFunction : Parse Bool := do
  if ← Parse.isWord "function" then return true else atAsyncFunction

/-- A function from its first keyword on. An expression's own name is bound inside it, a
declaration's around it, which decides whether `await` and `yield` may be that name. -/
def function (g : Grammar) (isExpression nameRequired : Bool) : Parse FunctionNode := do
  let start := (← Parse.token).start
  let isAsync ← Parse.eatWord "async"
  Parse.expectWord "function"
  let isGenerator ← Parse.eatMark .star
  let name ←
    if ← Parse.isMark .openParen then
      if nameRequired then Parse.reject else pure none
    else
      let found ← Parse.inContext (fun context =>
        if isExpression then
          { context with allowAwait := isAsync, allowYield := isGenerator }
        else context) Parse.bindingName
      pure (some found)
  g.functionRest start name isAsync isGenerator

/-- A getter takes nothing but a rest, a setter exactly one parameter, which is no rest. -/
def accessorRest (g : Grammar) (start : Nat) (isSetter : Bool) : Parse FunctionNode := do
  let first := (← Parse.peek).tag
  let startsRest := first = .mark .ellipsis
  let found ← g.functionRest start none false false
  let mayBe :=
    if isSetter then !startsRest && found.parameters.length = 1
    else startsRest || found.parameters.isEmpty
  if mayBe then return found else Parse.reject

end Grammar

end ModuleBundle.Script
