import ModuleBundle.Script.Grammar.Class
import ModuleBundle.Script.Grammar.Element
import ModuleBundle.Script.Grammar.Target

/-!
Expressions, from literals up to assignments. Whether an opening parenthesis starts the
parameters of an arrow function shows at the latest at the arrow, so where the first tokens
leave it open parameters are tried first, once at each place.
-/

set_option autoImplicit false

namespace ModuleBundle.Script

def Mark.binary? : Mark → Option (Nat × Form)
  | .coalesce => some (1, .coalesce)
  | .or => some (2, .logicalPair)
  | .and => some (3, .logicalPair)
  | .bitOr => some (4, .binary)
  | .bitXor => some (5, .binary)
  | .bitAnd => some (6, .binary)
  | .equality => some (7, .binary)
  | .less | .greater | .lessEqual | .greaterEqual => some (8, .binary)
  | .shift => some (9, .binary)
  | .plus | .minus => some (10, .binary)
  | .star | .slash | .percent => some (11, .binary)
  | .power => some (12, .power)
  | _ => none

def comparisonPrecedence : Nat := 8

/-- A power has no unary operator bare on its left, and `??` does not mix with `&&` and
`||`; `leftEnclosed` and `rightEnclosed` say which operand starts with a parenthesis, which
is taken for one around it. -/
def Form.mayJoin (leftEnclosed rightEnclosed : Bool) : Form → Expression → Expression → Bool
  | .power, .group .unary _, _ => false
  | .power, .await _, _ => false
  | .coalesce, _, .group .logicalPair _ => rightEnclosed
  | .coalesce, .group .logicalPair _, _ => leftEnclosed
  | _, _, _ => true

namespace Grammar

def spreadOr (g : Grammar) : Parse Expression := do
  if ← Parse.eatMark .ellipsis then return .group .spread [← g.assignment]
  else g.assignment

def arguments (g : Grammar) : Parse (List Expression) := do
  Parse.expectMark .openParen
  Parse.commaSeparated .closeParen g.spreadOr

def template (g : Grammar) (isTagged : Bool) : Parse (List Expression) := do
  let opening ← Parse.token
  let found ← Parse.loop (fun (entry : Nat × List Char × List Expression) => do
    let (offset, text, found) := entry
    match Chunk.scan? false true 0 text with
    | none => Parse.reject
    | some chunk =>
      if chunk.cooked || isTagged then
        Parse.resume (offset + chunk.width) chunk.rest
        if chunk.closed then return .inr found
        else
          let e ← Parse.allowingIn g.expression
          let closing ← Parse.token
          if closing.tag = .mark .closeBrace then
            return .inl (closing.stop, closing.rest, e :: found)
          else Parse.reject
      else Parse.reject) (opening.stop, opening.rest, [])
  return found.reverse

def regularExpression : Parse Expression := do
  let current ← Parse.token
  match regexTail (current.source.drop 1) with
  | some (width, rest) =>
    Parse.resume (current.start + 1 + width) rest
    return .group .regularExpression []
  | none => Parse.reject

def array (g : Grammar) : Parse Expression := do
  Parse.expectMark .openBracket
  let (elements, trailing) ← Parse.allowingIn <|
    Parse.loop (fun (entry : List Expression × Bool) => do
      let (elements, trailing) := entry
      if ← Parse.eatMark .closeBracket then return .inr (elements, trailing)
      else if ← Parse.eatMark .comma then return .inl (.group .hole [] :: elements, false)
      else
        let e ← g.spreadOr
        if ← Parse.eatMark .comma then return .inl (e :: elements, true)
        else
          Parse.expectMark .closeBracket
          return .inr (e :: elements, false)) ([], false)
  return .group (.array trailing) elements.reverse

def markUncovered (offset : Nat) : Parse Unit :=
  modify fun state => { state with uncovered := offset :: state.uncovered }

def methodProperty (key : PropertyKey) (value : FunctionNode) : Expression :=
  .group .method (key.expressions ++ [.function value])

def accessorProperty (g : Grammar) (start : Nat) (isSetter : Bool) : Parse Expression := do
  let key ← g.propertyKey
  match key with
  | .privateName _ => Parse.reject
  | key => return methodProperty key (← g.accessorRest start isSetter)

def plainProperty (g : Grammar) (start : Nat) : Parse Expression := do
  let isAsync ← eatModifier "async" true
  let isGenerator ← Parse.eatMark .star
  let key ← g.propertyKey
  match key with
  | .privateName _ => Parse.reject
  | key =>
    if isAsync || isGenerator || (← Parse.isMark .openParen) then
      return methodProperty key (← g.functionRest start none isAsync isGenerator)
    else if ← Parse.eatMark .colon then
      let value ← g.assignment
      match key with
      | .computed key => return .group .computedProperty [key, value]
      | _ => return .group .property [value]
    else
      match key with
      | .word span text =>
        if ← Parse.isIdentifier text then
          if ← Parse.eatMark .assign then
            let value ← g.assignment
            markUncovered span.start
            return .group .initialized [.name span text, value]
          else return .shorthand span text
        else Parse.reject
      | _ => Parse.reject

def property (g : Grammar) : Parse Expression := do
  let start := (← Parse.token).start
  if ← Parse.isMark .ellipsis then g.spreadOr
  else if ← eatModifier "get" false then g.accessorProperty start false
  else if ← eatModifier "set" false then g.accessorProperty start true
  else g.plainProperty start

def object (g : Grammar) : Parse Expression := do
  Parse.expectMark .openBrace
  let (properties, trailing) ← Parse.allowingIn <|
    Parse.loop (fun (entry : List Expression × Bool) => do
      let (properties, trailing) := entry
      if ← Parse.eatMark .closeBrace then return .inr (properties, trailing)
      else
        let next ← g.property
        if ← Parse.eatMark .comma then return .inl (next :: properties, true)
        else
          Parse.expectMark .closeBrace
          return .inr (next :: properties, false)) ([], false)
  return .group (.object trailing) properties.reverse

def dynamicImport (g : Grammar) (start : Nat) : Parse Expression := do
  Parse.expectMark .openParen
  let source ← Parse.allowingIn g.assignment
  let options ←
    if ← Parse.eatMark .comma then
      if ← Parse.isMark .closeParen then pure []
      else
        let options ← Parse.allowingIn g.assignment
        let _ ← Parse.eatMark .comma
        pure [options]
    else pure []
  Parse.expectMark .closeParen
  return .dynamicImport ⟨start, ← Parse.lastStop⟩ source options

def importExpression (g : Grammar) : Parse Expression := do
  let start := (← Parse.token).start
  Parse.expectWord "import"
  if ← Parse.eatMark .dot then
    if ← Parse.eatWord "meta" then return .group .metaProperty []
    else if ← Parse.eatWord "source" then g.dynamicImport start
    else if ← Parse.eatWord "defer" then g.dynamicImport start
    else Parse.reject
  else g.dynamicImport start

def construct (g : Grammar) : Parse Expression := do
  Parse.expectWord "new"
  if ← Parse.eatMark .dot then
    Parse.expectWord "target"
    return .group .metaProperty []
  else
    match ← g.member with
    | .dynamicImport .. => Parse.reject
    | callee =>
      if ← Parse.isMark .openParen then
        return .group .construct (callee :: (← Parse.allowingIn g.arguments))
      else if ← Parse.isMark .optionalDot then Parse.reject
      else return .group .construct [callee]

def superReference : Parse Expression := do
  Parse.expectWord "super"
  if (← Parse.isMark .dot) || (← Parse.isMark .openBracket) || (← Parse.isMark .openParen) then
    return .group .super []
  else Parse.reject

def classExpression (g : Grammar) : Parse Expression := do
  let start := (← Parse.token).start
  let decorators ← g.decorators
  return .classNode (← g.classFrom start decorators)

def keywordLiteral (form : Form) : Parse Expression := do
  Parse.advance
  return .group form []

def wordExpression (g : Grammar) (word : String) : Parse Expression := do
  if word = "function" || (← atAsyncFunction) then return .function (← g.function true false)
  else if word = "class" then g.classExpression
  else if word = "this" then keywordLiteral .this
  else if word = "null" || word = "true" || word = "false" then keywordLiteral .literal
  else if word = "new" then g.construct
  else if word = "super" then superReference
  else if word = "import" then g.importExpression
  else
    let (span, text) ← Parse.identifier
    return .name span text

def primary (g : Grammar) : Parse Expression := do
  let current ← Parse.token
  match current.tag with
  | .word text false => g.wordExpression text
  | .word _ true =>
    let (span, text) ← Parse.identifier
    return .name span text
  | .number => keywordLiteral .literal
  | .string .. =>
    let (span, value) ← Parse.string
    return .string span value
  | .mark .openParen =>
    Parse.advance
    let inner ← Parse.enclosed g.expression
    Parse.expectMark .closeParen
    return .group .paren [inner]
  | .mark .openBracket => g.array
  | .mark .openBrace => g.object
  | .mark .backtick => return .group .template (← g.template false)
  | .mark .slash => regularExpression
  | .mark .slashAssign => regularExpression
  | .mark .atSign => g.classExpression
  | _ => Parse.reject

def memberName : Parse Unit := do
  match (← Parse.token).tag with
  | .word .. => Parse.advance
  | .privateName _ => Parse.advance
  | _ => Parse.reject

def indexed (g : Grammar) (e : Expression) : Parse Expression := do
  Parse.expectMark .openBracket
  let key ← Parse.allowingIn g.expression
  Parse.expectMark .closeBracket
  return .group .index [e, key]

/-- Members and templates after `e`; `inChain` says that a `?.` stands before, after
which no template may follow. A decorator ends before an index and before a `?.`. -/
def memberStep (g : Grammar) (entry : Expression × Bool) :
    Parse ((Expression × Bool) ⊕ (Expression × Bool)) := do
  let (e, inChain) := entry
  let inDecorator := (← Parse.context).inDecorator
  if ← Parse.eatMark .dot then
    memberName
    return .inl (.group .member [e], inChain)
  else if !inDecorator && (← Parse.isMark .openBracket) then
    return .inl (← g.indexed e, inChain)
  else if ← Parse.isMark .backtick then
    if inChain then Parse.reject
    else return .inl (.group .tagged (e :: (← g.template true)), inChain)
  else if !inDecorator && (← Parse.isMark .optionalDot) then
    match (← Parse.peek).tag with
    | .mark .openBracket =>
      Parse.advance
      return .inl (← g.indexed e, true)
    | .mark .openParen => return .inr (e, inChain)
    | _ =>
      Parse.advance
      memberName
      return .inl (.group .member [e], true)
  else return .inr (e, inChain)

def memberAt (g : Grammar) : Parse Expression := do
  let head ← g.primary
  match ← Parse.loop g.memberStep (head, false) with
  | (e, false) => return e
  | (_, true) => Parse.reject

def callStep (g : Grammar) (start : Nat) (entry : Expression × Bool) :
    Parse ((Expression × Bool) ⊕ (Expression × Bool)) := do
  let (e, inChain) ← Parse.loop g.memberStep entry
  let mayBeOptional := !(← Parse.context).inDecorator
  if mayBeOptional && (← Parse.isMark .optionalDot) then
    Parse.advance
    let found ← Parse.enclosed g.arguments
    return .inl (.call ⟨start, ← Parse.lastStop⟩ e found, true)
  else if ← Parse.isMark .openParen then
    let found ← Parse.enclosed g.arguments
    return .inl (.call ⟨start, ← Parse.lastStop⟩ e found, inChain)
  else return .inr (e, inChain)

def leftHandAt (g : Grammar) : Parse Expression := do
  let start := (← Parse.token).start
  let head ← g.primary
  match ← Parse.loop (g.callStep start) (head, false) with
  | (e, false) => return e
  | (e, true) => return .group .chain [e]

def update (g : Grammar) : Parse Expression := do
  let e ← g.leftHandAt
  let current ← Parse.token
  if !current.newline && (current.tag = .mark .plusPlus || current.tag = .mark .minusMinus) then
    let target ← e.toSimpleTarget
    Parse.advance
    return .group .update [target]
  else return e

def startsOperand (current : Token) : Bool :=
  !current.newline &&
    match current.tag with
    | .word text _ => text ≠ "in" && text ≠ "instanceof"
    | .number | .string .. => true
    | _ => false

/-- Whether `word` stands here as an operator. Where it is not allowed it is a name, unless
an operand follows that nothing else could be. -/
def isOperatorWord (word : String) (allowed : Bool) : Parse Bool := do
  if ← Parse.isWord word then
    if allowed then return true
    else if startsOperand (← Parse.peek) then Parse.reject
    else return false
  else return false

def unaryAt (g : Grammar) : Parse Expression := do
  match (← Parse.token).tag with
  | .mark .plusPlus | .mark .minusMinus =>
    Parse.advance
    return .group .update [← (← g.unary).toSimpleTarget]
  | .mark .plus | .mark .minus | .mark .bang | .mark .tilde =>
    Parse.advance
    return .group .unary [← g.unary]
  | .mark .less => if (← Parse.context).goal = .module then g.elementAt else Parse.reject
  | .word text false =>
    if text = "typeof" || text = "void" || text = "delete" then
      Parse.advance
      return .group .unary [← g.unary]
    else if ← isOperatorWord "await" (← Parse.context).allowAwait then
      Parse.advance
      return .await (← g.unary)
    else g.update
  | _ => g.update

def binaryOperator? : Parse (Option (Nat × Form)) := do
  match (← Parse.token).tag with
  | .mark value => return value.binary?
  | .word "instanceof" false => return some (comparisonPrecedence, .binary)
  | .word "in" false =>
    return if (← Parse.context).allowIn then some (comparisonPrecedence, .binary) else none
  | _ => return none

def binaryRest (g : Grammar) (least : Nat) (enclosed : Bool) (e : Expression) :
    Parse Expression :=
  Parse.loop (fun left : Expression => do
    match ← binaryOperator? with
    | none => return .inr left
    | some (precedence, form) =>
      if precedence < least ∨ (precedence = least ∧ form ≠ .power) then return .inr left
      else
        Parse.advance
        let rightEnclosed ← Parse.isMark .openParen
        let right ← g.binary precedence
        if form.mayJoin enclosed rightEnclosed left right then
          return .inl (.group form [left, right])
        else Parse.reject) e

/-- A private name is an operand only before `in`. What is tested for it is no such test
itself. -/
def privateTest (g : Grammar) (least : Nat) : Parse Expression := do
  Parse.advance
  Parse.expectWord "in"
  match ← g.binary least with
  | .group .privateIn _ => Parse.reject
  | subject => return .group .privateIn [subject]

def binaryAt (g : Grammar) (least : Nat) : Parse Expression := do
  match (← Parse.token).tag with
  | .privateName _ =>
    if (← Parse.context).allowIn then g.binaryRest least false (← g.privateTest least)
    else Parse.reject
  | tag => g.binaryRest least (tag = .mark .openParen) (← g.unaryAt)

def endsYield (current : Token) : Bool :=
  current.newline ||
    match current.tag with
    | .finish => true
    | .word "in" false => true
    | .mark value =>
      value = .semicolon || value = .closeBrace || value = .closeParen || value = .closeBracket ||
        value = .colon || value = .comma
    | _ => false

def yieldExpression (g : Grammar) : Parse Expression := do
  Parse.advance
  let current ← Parse.token
  if !current.newline && current.tag = .mark .star then
    Parse.advance
    return .group .yield [← g.assignment]
  else if endsYield current then return .group .yield []
  else return .group .yield [← g.assignment]

def expectArrow : Parse Unit := do
  if (← Parse.token).newline then Parse.reject else Parse.expectMark .arrow

def arrowParameters (g : Grammar) (isAsync : Bool) : Parse (Bool × List Pattern) := do
  if isAsync then Parse.expectWord "async"
  let found ← Parse.inContext (fun context =>
    { context with allowAwait := context.allowAwait || isAsync }) g.parameters
  expectArrow
  return (isAsync, found)

def asyncArrowParameter : Parse (Bool × List Pattern) := do
  Parse.expectWord "async"
  let name ← Parse.bindingName
  expectArrow
  return (true, [.name name])

inductive ArrowChance where
  | none | possible | certain
  deriving DecidableEq, Repr

/-- An arrow's parameters begin with a name that something may follow or with a bracket; a
rest element, or nothing before what only an arrow stands in front of, begins nothing else. -/
def arrowChance : Parse ArrowChance := do
  Parse.expectMark .openParen
  match (← Parse.token).tag with
  | .mark .closeParen =>
    match (← Parse.peek).tag with
    | .mark .arrow | .mark .colon | .mark .openBrace => return .certain
    | _ => return .none
  | .mark .ellipsis => return .certain
  | .mark .openBracket | .mark .openBrace => return .possible
  | .word text _ =>
    match (← Parse.peek).tag with
    | .mark .comma | .mark .assign | .mark .closeParen =>
      return if isReserved text then .none else .possible
    | _ => return .none
  | _ => return .none

/-- The parameters of an arrow function, if `chance` and trying them let there be one. What
has failed at a place is not tried there again. -/
def arrowHeadBy? (g : Grammar) (isAsync : Bool) (chance : ArrowChance) :
    Parse (Option (Bool × List Pattern)) := do
  match chance with
  | .none => return none
  | .certain => return some (← g.arrowParameters isAsync)
  | .possible =>
    let start := (← Parse.token).start
    if (← get).notArrows.contains start then return none
    else
      let found ← Parse.attempt (g.arrowParameters isAsync)
      if found.isNone then
        modify fun state => { state with notArrows := state.notArrows.insert start }
      return found

def arrowHead? (g : Grammar) : Parse (Option (Bool × List Pattern)) := do
  match (← Parse.token).tag with
  | .mark .openParen =>
    g.arrowHeadBy? false ((← Parse.lookahead arrowChance).getD .none)
  | .word "async" _ =>
    let next ← Parse.peek
    if next.newline then return none
    else
      match next.tag with
      | .mark .openParen =>
        g.arrowHeadBy? true ((← Parse.lookahead do
          Parse.advance
          arrowChance).getD .none)
      | .word .. => Parse.attempt asyncArrowParameter
      | _ => return none
  | _ => return none

/-- Whether an element here, by what follows `extends` after its name, is taken for type
parameters, which there are none of. -/
def isMisreadElement : Parse Bool := do
  if (← Parse.context).goal = .module && (← Parse.isMark .less) then
    Parse.foresees do
      Parse.advance
      let name ← Parse.identifierName
      match (← Parse.token).tag with
      | .word "extends" _ =>
        let next ← Parse.peek
        let mayFollow :=
          match next.tag with
          | .mark .assign | .mark .slash => true
          | .word text _ => !isReserved text
          | _ => next.source.head? = some '>'
        return !mayFollow && !isReserved name
      | _ => return false
  else return false

def arrowRest (g : Grammar) (isAsync : Bool) (parameters : List Pattern) : Parse Expression := do
  let body ← Parse.inContext (fun context =>
    { context with allowAwait := isAsync, allowYield := false }) do
      if ← Parse.isMark .openBrace then g.functionBody
      else
        let bodyStart := (← Parse.token).start
        let e ← g.assignment
        pure [.expression ⟨bodyStart, ← Parse.lastStop⟩ e]
  return .arrow parameters body

def conditionalRest (g : Grammar) (e : Expression) : Parse Expression := do
  if ← Parse.eatMark .question then
    let whenTrue ← Parse.allowingIn g.assignment
    Parse.expectMark .colon
    return .group .conditional [e, whenTrue, ← g.assignment]
  else return e

def assignmentRest (g : Grammar) (e : Expression) : Parse Expression := do
  match (← Parse.token).tag, e with
  | .mark .arrow, .name _ text =>
    expectArrow
    g.arrowRest false [.name text]
  | .mark .assign, _ =>
    let target ← e.toTarget
    Parse.advance
    return .group .assign [target, ← g.assignment]
  | .mark .compoundAssign, _ | .mark .slashAssign, _ =>
    let target ← e.toTarget
    Parse.advance
    return .group .compoundAssign [target, ← g.assignment]
  | _, _ => g.conditionalRest e

def assignmentAt (g : Grammar) : Parse Expression := do
  if ← isOperatorWord "yield" (← Parse.context).allowYield then g.yieldExpression
  else
    match ← g.arrowHead? with
    | some (isAsync, parameters) => g.arrowRest isAsync parameters
    | none =>
      if ← isMisreadElement then Parse.reject else g.assignmentRest (← g.binaryAt 0)

end Grammar

end ModuleBundle.Script
