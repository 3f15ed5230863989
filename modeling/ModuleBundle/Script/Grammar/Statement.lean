import ModuleBundle.Script.Grammar.Expression

/-!
Statements other than imports and exports.
-/

set_option autoImplicit false

namespace ModuleBundle.Script

namespace DeclarationKind

def isLexical : DeclarationKind → Bool
  | hoisted => false
  | _ => true

def isResource : DeclarationKind → Bool
  | resource | awaitedResource => true
  | _ => false

/-- Whether a declaration that stands as a statement may bind `pattern`: a constant, a
resource and whatever is taken apart need a value, and resources have plain names. -/
def mayBind (kind : DeclarationKind) : Pattern → Bool
  | .name _ => kind ≠ constant && !kind.isResource
  | .withDefault (.name _) _ => true
  | .withDefault _ _ => !kind.isResource
  | _ => false

def mayStart (kind : DeclarationKind) : Pattern → Bool
  | .name text => kind.isResource || kind.mayBind (.name text)
  | pattern => kind.mayBind pattern

def mayIterate (kind : DeclarationKind) : Pattern → Bool
  | .name _ => true
  | .withDefault (.name _) _ => true
  | _ => !kind.isResource

/-- Whether a statement standing there may declare: what holds for a block only does not
stand alone, and a resource neither among the statements of a case nor, in a script, outside
of everything. -/
def mayStand (kind : DeclarationKind) (goal : Goal) : Standing → Bool
  | .alone => !kind.isLexical
  | .inClause => !kind.isResource
  | .outermost => !(kind.isResource && goal = .script)
  | .inBlock => true

end DeclarationKind

namespace Grammar

def parenthesized (g : Grammar) : Parse Expression := do
  Parse.expectMark .openParen
  let e ← g.expression
  Parse.expectMark .closeParen
  return e

def bindings (g : Grammar) : Parse (List Pattern) := do
  let found ← Parse.loop (fun found : List Pattern => do
    let pattern ← g.patternAt
    let next ←
      if ← Parse.eatMark .assign then pure (.withDefault pattern (← g.assignment))
      else pure pattern
    if ← Parse.eatMark .comma then return .inl (next :: found)
    else return .inr (next :: found)) []
  return found.reverse

def declarationRest (g : Grammar) (start : Nat) (kind : DeclarationKind) (standing : Standing) :
    Parse Statement := do
  let found ← g.bindings
  if found.all kind.mayBind && kind.mayStand (← Parse.context).goal standing then
    Parse.endStatement
    return .declaration ⟨start, ← Parse.lastStop⟩ kind found
  else Parse.reject

def continuesLet : Tag → Bool
  | .mark .openBrace | .mark .openBracket => true
  | .word text _ => text ≠ "in"
  | _ => false

def atResourceName : Parse Bool := do
  let current ← Parse.token
  match current.tag with
  | .word text _ => return !current.newline && !isReserved text && text ≠ "await"
  | _ => return false

def resourceKeyword? : Parse (Option DeclarationKind) := do
  let plain : Parse DeclarationKind := do
    Parse.expectWord "using"
    if ← atResourceName then return .resource else Parse.reject
  let awaited : Parse DeclarationKind := do
    Parse.expectWord "await"
    Parse.expectWord "using"
    if ← atResourceName then return .awaitedResource else Parse.reject
  if ← Parse.isWord "using" then Parse.attempt plain
  else if ← Parse.isWord "await" then Parse.attempt awaited
  else return none

def expressionStatement (g : Grammar) : Parse Statement := do
  let start := (← Parse.token).start
  let e ← Parse.outsideDecorator (Parse.sequence g.assignmentAt)
  match e, (← Parse.token).tag with
  | .name .., .mark .colon =>
    Parse.advance
    return .group .labeled [] [← g.statement .alone]
  | _, _ =>
    Parse.endStatement
    return .expression ⟨start, ← Parse.lastStop⟩ e

def conditional (g : Grammar) : Parse Statement := do
  Parse.expectWord "if"
  let test ← g.parenthesized
  let whenTrue ← g.statement .alone
  if ← Parse.eatWord "else" then
    return .group .conditional [test] [whenTrue, ← g.statement .alone]
  else return .group .conditional [test] [whenTrue]

/-- The semicolon after the condition of a `do` loop is never needed. -/
def doLoop (g : Grammar) : Parse Statement := do
  Parse.expectWord "do"
  let body ← g.statement .alone
  Parse.expectWord "while"
  let test ← g.parenthesized
  let _ ← Parse.eatMark .semicolon
  return .group .doLoop [test] [body]

def keywordLoop (g : Grammar) (keyword : String) (form : StatementForm) : Parse Statement := do
  Parse.expectWord keyword
  let test ← g.parenthesized
  return .group form [test] [← g.statement .alone]

def loopRest (g : Grammar) (awaits : Bool) (head : List Statement) : Parse Statement := do
  Parse.expectMark .semicolon
  let test ←
    if ← Parse.isMark .semicolon then pure [] else pure [← Parse.allowingIn g.expression]
  Parse.expectMark .semicolon
  let step ←
    if ← Parse.isMark .closeParen then pure [] else pure [← Parse.allowingIn g.expression]
  Parse.expectMark .closeParen
  let body ← g.statement .alone
  if awaits then Parse.reject else return .loop head (test ++ step) body

def eachRest (g : Grammar) (awaits : Bool) (head : Statement) : Parse Statement := do
  let overKeys ← Parse.eatWord "in"
  let subject ←
    if overKeys then g.expression
    else
      Parse.expectWord "of"
      g.assignment
  Parse.expectMark .closeParen
  let body ← g.statement .alone
  if awaits && overKeys then Parse.reject else return .each awaits head subject body

def atEach : Parse Bool := do
  if ← Parse.isWord "in" then return true else Parse.isWord "of"

def declaredLoopRest (g : Grammar) (awaits : Bool) (kind : DeclarationKind) (start : Nat)
    (found : List Pattern) : Parse Statement := do
  let head := Statement.declaration ⟨start, ← Parse.lastStop⟩ kind found
  if ← atEach then
    let overKeys ← Parse.isWord "in"
    if found.all kind.mayIterate && !(overKeys && kind.isResource) then g.eachRest awaits head
    else Parse.reject
  else if found.all kind.mayStart then g.loopRest awaits [head]
  else Parse.reject

def headed {α : Type} (parse : Parse α) : Parse α :=
  Parse.inContext (fun context => { context with allowIn := false }) parse

def loopOverDeclaration (g : Grammar) (awaits : Bool) (kind : DeclarationKind) :
    Parse Statement := do
  let start := (← Parse.token).start
  Parse.advance
  let found ← headed g.bindings
  g.declaredLoopRest awaits kind start found

/-- Nothing that begins with `let` and, but for `for await`, not `async` can stand before
`of`. -/
def loopOverExpression (g : Grammar) (awaits : Bool) : Parse Statement := do
  let first ← Parse.token
  let beforeOf := (← Parse.peek).tag = .word "of" false
  let misread :=
    match first.tag with
    | .word "let" _ => true
    | .word "async" false => beforeOf && !awaits
    | _ => false
  let e ← headed g.expression
  if ← atEach then
    if misread && (← Parse.isWord "of") then Parse.reject
    else
      let target ← e.toTarget
      g.eachRest awaits (.expression ⟨first.start, ← Parse.lastStop⟩ target)
  else g.loopRest awaits [.expression ⟨first.start, ← Parse.lastStop⟩ e]

/-- The head of a loop that begins with `using` or `await`. A resource is named `of` only
where its value or the end of the declaration shows it. -/
def loopOverResource (g : Grammar) (awaits : Bool) : Parse Statement := do
  let start := (← Parse.token).start
  let isLoopOf ← Parse.foresees do
    Parse.expectWord "using"
    Parse.expectWord "of"
    match (← Parse.token).tag with
    | .mark .assign | .mark .semicolon | .mark .colon => return false
    | _ => return true
  if isLoopOf then g.loopOverExpression awaits
  else
    match ← resourceKeyword? with
    | some kind => g.declaredLoopRest awaits kind start (← g.bindings)
    | none => g.loopOverExpression awaits

def forLoop (g : Grammar) : Parse Statement := do
  Parse.expectWord "for"
  let awaits ← Parse.isWord "await"
  if awaits then
    if (← Parse.context).allowAwait then Parse.advance else Parse.reject
  Parse.expectMark .openParen
  match (← Parse.token).tag with
  | .mark .semicolon => g.loopRest awaits []
  | .word "var" false => g.loopOverDeclaration awaits .hoisted
  | .word "const" false => g.loopOverDeclaration awaits .constant
  | .word "let" escaped =>
    if !continuesLet (← Parse.peek).tag then g.loopOverExpression awaits
    else if escaped then Parse.reject
    else g.loopOverDeclaration awaits .letBinding
  | .word "using" false | .word "await" false => g.loopOverResource awaits
  | _ => g.loopOverExpression awaits

def clauseBody (g : Grammar) : Parse (List Statement) := do
  let found ← Parse.loop (fun found : List Statement => do
    if (← Parse.isMark .closeBrace) || (← Parse.isWord "case") || (← Parse.isWord "default") then
      return .inr found
    else return .inl ((← g.statement .inClause) :: found)) []
  return found.reverse

def clause (g : Grammar) : Parse Statement := do
  let tests ←
    if ← Parse.eatWord "default" then pure []
    else
      Parse.expectWord "case"
      pure [← g.expression]
  Parse.expectMark .colon
  return .clause tests (← g.clauseBody)

def switch (g : Grammar) : Parse Statement := do
  Parse.expectWord "switch"
  let subject ← g.parenthesized
  Parse.expectMark .openBrace
  let clauses ← Parse.loop (fun found : List Statement => do
    if ← Parse.eatMark .closeBrace then return .inr found
    else return .inl ((← g.clause) :: found)) []
  return .switch subject clauses.reverse

def handler (g : Grammar) : Parse Statement := do
  Parse.expectWord "catch"
  let parameter ←
    if ← Parse.eatMark .openParen then
      let pattern ← g.patternAt
      Parse.expectMark .closeParen
      pure [pattern]
    else pure []
  return .handler parameter (← g.block)

def tryBlock (g : Grammar) : Parse Statement := do
  Parse.expectWord "try"
  let body ← g.block
  let handlers ← if ← Parse.isWord "catch" then pure [← g.handler] else pure []
  let finalizer ←
    if ← Parse.eatWord "finally" then pure [Statement.block (← g.block)] else pure []
  if handlers.isEmpty && finalizer.isEmpty then Parse.reject
  else return .group .tryBlock [] (.block body :: (handlers ++ finalizer))

def jump : Parse Statement := do
  Parse.advance
  if !(← Parse.atStatementEnd) then
    let _ ← Parse.identifier
  Parse.endStatement
  return .group .jump [] []

def throws (g : Grammar) : Parse Statement := do
  Parse.expectWord "throw"
  if (← Parse.token).newline then Parse.reject
  else
    let e ← g.expression
    Parse.endStatement
    return .group .throws [e] []

def returns (g : Grammar) : Parse Statement := do
  Parse.expectWord "return"
  if !(← Parse.context).allowReturn then Parse.reject
  else
    let value ←
      if ← Parse.atStatementEnd then pure [] else pure [← Parse.allowingIn g.expression]
    Parse.endStatement
    return .group .returns value []

def functionDeclaration (g : Grammar) (standing : Standing) : Parse Statement := do
  match ← g.function false true with
  | .mk span name isAsync isGenerator start parameters body =>
    if standing = .alone && (isAsync || isGenerator) then Parse.reject
    else return .function (.mk span name isAsync isGenerator start parameters body)

def classDeclaration (g : Grammar) (standing : Standing) (start : Nat)
    (decorators : List Expression) : Parse Statement := do
  if standing = .alone then Parse.reject
  else return .classNode (← g.classFrom start decorators)

def operatesOnLet : Tag → Bool
  | .mark .assign | .mark .slashAssign | .mark .compoundAssign => true
  | .mark value =>
    match value.binary? with
    | some (_, .binary) | some (_, .power) => true
    | _ => false
  | .word "in" _ | .word "instanceof" _ => true
  | _ => false

/-- A statement that begins with `let`. Where `let` is a name, what follows decides how much
of an expression the statement holds and whether it has an end of its own. -/
def letStatement (g : Grammar) (standing : Standing) : Parse Statement := do
  let start := (← Parse.token).start
  let next := (← Parse.peek).tag
  if operatesOnLet next then
    let e ← g.assignmentAt
    Parse.endStatement
    return .expression ⟨start, ← Parse.lastStop⟩ e
  else if next = .mark .dot || next = .mark .openParen then
    let e ← Parse.sequence g.assignmentAt
    return .expression ⟨start, ← Parse.lastStop⟩ e
  else if next = .mark .semicolon || (standing = .alone && next ≠ .mark .openBracket) then
    let (span, text) ← Parse.identifier
    Parse.endStatement
    return .expression span (.name span text)
  else
    Parse.advance
    g.declarationRest start .letBinding standing

def keywordStatement (g : Grammar) (standing : Standing) (word : String) :
    Parse Statement := do
  let start := (← Parse.token).start
  if word = "if" then g.conditional
  else if word = "do" then g.doLoop
  else if word = "while" then g.keywordLoop "while" .whileLoop
  else if word = "with" then g.keywordLoop "with" .withScope
  else if word = "for" then g.forLoop
  else if word = "switch" then g.switch
  else if word = "try" then g.tryBlock
  else if word = "throw" then g.throws
  else if word = "return" then g.returns
  else if word = "break" || word = "continue" then jump
  else if word = "debugger" then
    Parse.advance
    Parse.endStatement
    return .group .debugger [] []
  else if word = "var" then
    Parse.advance
    g.declarationRest start .hoisted standing
  else if word = "const" then
    Parse.advance
    g.declarationRest start .constant standing
  else if word = "let" then g.letStatement standing
  else if word = "class" then g.classDeclaration standing start []
  else if ← atFunction then g.functionDeclaration standing
  else
    match ← resourceKeyword? with
    | some kind => g.declarationRest start kind standing
    | none => g.expressionStatement

end Grammar

end ModuleBundle.Script
