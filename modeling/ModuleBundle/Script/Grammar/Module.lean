import ModuleBundle.Script.Grammar.Interface
import ModuleBundle.Script.Grammar.Statement

/-!
Imports, exports, and the choice among all statements.
-/

set_option autoImplicit false

namespace ModuleBundle.Script

namespace Grammar

def exportName : Parse (Span × String) := do
  let current ← Parse.token
  match current.tag with
  | .word text _ =>
    Parse.advance
    return (⟨current.start, current.stop⟩, text)
  | .string _ true => Parse.reject
  | _ => Parse.string

def moduleRequest : Parse Request := do
  let (span, specifier) ← Parse.string
  return ⟨span.start, specifier⟩

def importAttribute : Parse String := do
  let (_, key) ← if (← Parse.token).tag matches .string .. then Parse.string else exportName
  Parse.expectMark .colon
  let _ ← Parse.string
  return key

def importAttributes : Parse Unit := do
  let current ← Parse.token
  if current.tag = .word "with" false ∨ (current.tag = .word "assert" false ∧ !current.newline) then
    Parse.advance
    Parse.expectMark .openBrace
    let keys ← Parse.commaSeparated .closeBrace importAttribute
    if keys.Nodup then return () else Parse.reject
  else return ()

def fromClause : Parse Request := do
  Parse.expectWord "from"
  let source ← moduleRequest
  importAttributes
  return source

/-- The name that an import of an export binds, which is never `await` or `yield`. -/
def importedBinding (name : String) : Parse String :=
  if isReserved name || name = "await" || name = "yield" then Parse.reject else pure name

def importSpecifier : Parse ImportSpecifier := do
  let current ← Parse.token
  let (_, imported) ← exportName
  if ← Parse.eatWord "as" then
    return .named imported (← importedBinding (← Parse.identifierName))
  else
    match current.tag with
    | .word text _ => return .named imported (← importedBinding text)
    | _ => Parse.reject

def importSpecifiers : Parse (List ImportSpecifier) := do
  Parse.expectMark .openBrace
  Parse.commaSeparated .closeBrace importSpecifier

def wholeSpecifier : Parse ImportSpecifier := do
  Parse.expectMark .star
  Parse.expectWord "as"
  return .whole (← Parse.bindingName)

def importClause (name : Option String) : Parse (List ImportSpecifier) := do
  let default := (name.map ImportSpecifier.default).toList
  let goesOn ← if name.isSome then Parse.eatMark .comma else pure true
  if !goesOn then return default
  else if ← Parse.isMark .star then return default ++ [← wholeSpecifier]
  else return default ++ (← importSpecifiers)

/-- The name that an import begins with. After the phase `source` it is the next word, if that
is no `from` before the module; after the phase `defer` there is none. -/
def importName? : Parse (Option String) := do
  match (← Parse.token).tag with
  | .word text _ =>
    if isReserved text then return none
    else
      let first ← Parse.bindingName
      let next ← Parse.peek
      match first, (← Parse.token).tag with
      | "source", .word "from" _ =>
        if next.tag matches .string .. then return some first else return some (← Parse.bindingName)
      | "source", .word text _ =>
        if !isReserved text && next.tag = .word "from" false then
          return some (← Parse.bindingName)
        else return some first
      | "defer", .mark .star => return none
      | _, _ => return some first
  | _ => return none

/-- An import that names its module next lists nothing, whatever name it begins with. -/
def importDeclaration : Parse Statement := do
  let start := (← Parse.token).start
  Parse.expectWord "import"
  let name ← importName?
  if (← Parse.token).tag matches .string .. then
    let source ← moduleRequest
    importAttributes
    Parse.endStatement
    return .importDeclaration ⟨⟨start, ← Parse.lastStop⟩, none, source⟩
  else
    let specifiers ← importClause name
    let source ← fromClause
    Parse.endStatement
    return .importDeclaration ⟨⟨start, ← Parse.lastStop⟩, some specifiers, source⟩

def exportSpecifier : Parse (ExportSpecifier × Bool) := do
  let current ← Parse.token
  let (span, source) ← exportName
  let mayBeLocal :=
    match current.tag with
    | .word text _ => text = "let" || !(isReserved text || strictReservedWords.contains text)
    | _ => false
  let exported ← if ← Parse.eatWord "as" then pure (← exportName).2 else pure source
  return (⟨span, source, exported⟩, mayBeLocal)

def exportSource? : Parse (Option Request) := do
  if ← Parse.eatWord "from" then
    match (← Parse.token).tag with
    | .string .. =>
      let source ← moduleRequest
      importAttributes
      return some source
    | .number | .word "null" _ | .word "true" _ | .word "false" _ => Parse.reject
    | _ => return none
  else return none

def exportList (start : Nat) : Parse Statement := do
  Parse.expectMark .openBrace
  let found ← Parse.commaSeparated .closeBrace exportSpecifier
  let source ← exportSource?
  if source.isSome || found.all fun entry => entry.2 then
    Parse.endStatement
    return .exportList ⟨start, ← Parse.lastStop⟩ (found.map fun entry => entry.1) source
  else Parse.reject

def exportAll (start : Nat) : Parse Statement := do
  Parse.expectMark .star
  let name ← if ← Parse.eatWord "as" then pure (some (← exportName).2) else pure none
  let source ← fromClause
  Parse.endStatement
  return .exportAll ⟨start, ← Parse.lastStop⟩ name source

def atInterface : Parse Bool := do
  if ← Parse.isWord "interface" then return !(← Parse.peek).newline else return false

/-- A class after `export`, with the decorators from before it. Where decorators stand after
`export` instead, whatever token follows them counts as the keyword. -/
def exportedClass (g : Grammar) (decorators : List Expression) : Parse ClassNode := do
  let start := (← Parse.token).start
  let own ← g.decorators
  if !own.isEmpty && !decorators.isEmpty then Parse.reject
  else
    Parse.advance
    g.classRest start (decorators ++ own)

def atExportedClass : Parse Bool := do
  if ← Parse.isMark .atSign then return true else Parse.isWord "class"

def atAbstractClass : Parse Bool := do
  let next ← Parse.peek
  return (← Parse.isWord "abstract") && next.tag = .word "class" false && !next.newline

def defaultDeclaration (g : Grammar) (decorators : List Expression) : Parse Statement := do
  let start := (← Parse.token).start
  if ← atExportedClass then return .classNode (← g.exportedClass decorators)
  else if ← atAbstractClass then
    Parse.advance
    return .classNode (← g.classFrom start decorators)
  else if !decorators.isEmpty then Parse.reject
  else if ← atFunction then return .function (← g.function false false)
  else if ← atInterface then g.interface
  else
    let e ← g.assignment
    let span : Span := ⟨start, ← Parse.lastStop⟩
    Parse.endStatement
    return .expression span e

def exportedDeclaration (g : Grammar) (decorators : List Expression) : Parse Statement := do
  let start := (← Parse.token).start
  if ← atExportedClass then return .classNode (← g.exportedClass decorators)
  else if !decorators.isEmpty then Parse.reject
  else if ← Parse.eatWord "var" then g.declarationRest start .hoisted .outermost
  else if ← Parse.eatWord "const" then g.declarationRest start .constant .outermost
  else if ← Parse.eatWord "let" then g.declarationRest start .letBinding .outermost
  else if ← atFunction then g.functionDeclaration .outermost
  else Parse.reject

/-- Decorators before the export of a list have no effect. -/
def exportStatement (g : Grammar) (decorators : List Expression) : Parse Statement := do
  let start := (← Parse.token).start
  Parse.expectWord "export"
  if ← Parse.isMark .star then exportAll start
  else if ← Parse.isMark .openBrace then exportList start
  else if ← Parse.eatWord "default" then
    let declaration ← g.defaultDeclaration decorators
    return .exportDefault ⟨start, ← Parse.lastStop⟩ declaration
  else
    let declarationStart := (← Parse.token).start
    let declaration ← g.exportedDeclaration decorators
    return .exportDeclaration ⟨start, ← Parse.lastStop⟩ declarationStart declaration

def decorated (g : Grammar) (standing : Standing) : Parse Statement := do
  let start := (← Parse.token).start
  let decorators ← g.decorators
  if ← Parse.isWord "export" then g.exportStatement decorators
  else g.classDeclaration standing start decorators

def statementAt (g : Grammar) (standing : Standing) : Parse Statement := do
  match (← Parse.token).tag with
  | .mark .openBrace => return .block (← g.block)
  | .mark .semicolon =>
    Parse.advance
    return .group .empty [] []
  | .mark .atSign => g.decorated standing
  | .word word false =>
    if word = "export" then g.exportStatement []
    else if word = "import" then
      match (← Parse.peek).tag with
      | .mark .dot | .mark .openParen => g.expressionStatement
      | _ => importDeclaration
    else g.keywordStatement standing word
  | _ => g.expressionStatement

def next (g : Grammar) : Grammar where
  assignment := g.assignmentAt
  binary := g.binaryAt
  unary := g.unaryAt
  member := g.memberAt
  leftHand := g.leftHandAt
  element := g.elementAt
  pattern := g.patternAt
  statement := g.statementAt

/-- The parsers that nest at most `depth` deep. -/
def nested : Nat → Grammar
  | 0 => bottom
  | depth + 1 => (nested depth).next

end Grammar

end ModuleBundle.Script
