import Std.Data.TreeSet
import ModuleBundle.Script.Token
import ModuleBundle.Script.Tree

/-!
Reading tokens one at a time. A `Parse` either consumes tokens and answers, or rejects
the text; no more than that is told about a rejection. The context carries what the
grammar's productions are indexed by, the state one token of lookahead and the text
after the last token, from which the grammar may also scan by other rules. A rejection
hands its state on, so that what has been found out about the text outlives a failed
attempt.
-/

set_option autoImplicit false

namespace ModuleBundle.Script

/-- By which goal a text is read: a script has HTML comments and no elements, and `await`
is an identifier outside of its asynchronous functions. -/
inductive Goal where
  | script | module
  deriving DecidableEq, Repr

structure Context where
  goal : Goal
  /-- How many characters the text has. -/
  size : Nat
  allowIn : Bool := true
  allowYield : Bool := false
  allowAwait : Bool := false
  allowReturn : Bool := false
  inDecorator : Bool := false

structure State where
  token : Token
  /-- Where the token before ended, and the text from there on. -/
  lastStop : Nat
  lastRest : List Char
  /-- Where properties `name = value` stand in object literals that no destructuring
  has yet taken for its target. -/
  uncovered : List Nat
  /-- Where the parameters of an arrow function have been looked for in vain. -/
  notArrows : Std.TreeSet Nat

abbrev Parse := ReaderT Context (OptionT (StateM State))

namespace Parse

variable {α β γ : Type}

def reject : Parse α := failure

def token : Parse Token := return (← get).token

def lastStop : Parse Nat := return (← get).lastStop

def context : Parse Context := read

def resume (offset : Nat) (rest : List Char) : Parse Unit := do
  let goal := (← context).goal
  modify fun state => { state with
    token := Token.scan (goal = .script) false offset rest
    lastStop := offset
    lastRest := rest }

def advance : Parse Unit := do
  let current ← token
  resume current.stop current.rest

def peek : Parse Token := do
  let current ← token
  return Token.scan ((← context).goal = .script) false current.stop current.rest

def attempt (parse : Parse α) : Parse (Option α) := fun context => OptionT.mk do
  let state ← get
  match ← (parse context).run with
  | some value => return some (some value)
  | none =>
    modify fun failed => { state with notArrows := failed.notArrows }
    return some none

def lookahead (parse : Parse α) : Parse (Option α) := fun context => OptionT.mk do
  let state ← get
  let answer ← (parse context).run
  modify fun after => { state with notArrows := after.notArrows }
  return some answer

def foresees (parse : Parse Bool) : Parse Bool := return (← lookahead parse).getD false

def inContext (change : Context → Context) (parse : Parse α) : Parse α := withReader change parse

def iterate (step : β → Parse (β ⊕ γ)) : Nat → β → Parse γ
  | 0, _ => reject
  | bound + 1, start => do
    match ← step start with
    | .inl next => iterate step bound next
    | .inr result => return result

/-- Repeats `step` until it answers on the right. A step that answers on the left
consumes a token, so there are no more steps than characters left. -/
def loop (step : β → Parse (β ⊕ γ)) (start : β) : Parse γ := do
  iterate step ((← context).size + 1 - (← lastStop)) start

def isMark (mark : Mark) : Parse Bool := do
  return (← token).tag = .mark mark

def eatMark (mark : Mark) : Parse Bool := do
  if ← isMark mark then
    advance
    return true
  else return false

def expectMark (mark : Mark) : Parse Unit := do
  if ← eatMark mark then return () else reject

def isWord (word : String) : Parse Bool := do
  return (← token).tag = .word word false

def eatWord (word : String) : Parse Bool := do
  if ← isWord word then
    advance
    return true
  else return false

def expectWord (word : String) : Parse Unit := do
  if ← eatWord word then return () else reject

def isFinish : Parse Bool := do
  return (← token).tag = .finish

/-- A statement ends at a semicolon, or where one is inserted: before a closing brace,
at the end of the text, or where a line ends. -/
def endStatement : Parse Unit := do
  if ← eatMark .semicolon then return ()
  else
    let current ← token
    if current.newline ∨ current.tag = .mark .closeBrace ∨ current.tag = .finish then return ()
    else reject

def atStatementEnd : Parse Bool := do
  let current ← token
  return current.newline || current.tag = .mark .semicolon ||
    current.tag = .mark .closeBrace || current.tag = .finish

def commaSeparated (close : Mark) (element : Parse α) : Parse (List α) := do
  let elements ← loop (fun elements : List α => do
    if ← eatMark close then return .inr elements
    else
      let next ← element
      if ← eatMark .comma then return .inl (next :: elements)
      else
        expectMark close
        return .inr (next :: elements)) []
  return elements.reverse

end Parse

def reservedWords : List String :=
  ["break", "case", "catch", "class", "const", "continue", "debugger", "default", "delete",
   "do", "else", "enum", "export", "extends", "false", "finally", "for", "function", "if",
   "import", "in", "instanceof", "new", "null", "return", "super", "switch", "this", "throw",
   "true", "try", "typeof", "var", "void", "while", "with"]

def strictReservedWords : List String :=
  ["implements", "interface", "let", "package", "private", "protected", "public", "static",
   "await", "yield"]

def isReserved (word : String) : Bool := reservedWords.contains word

def contextualWords : List String :=
  ["abstract", "accessor", "any", "as", "assert", "asserts", "async", "bigint", "boolean",
   "constructor", "declare", "defer", "from", "get", "global", "infer", "intrinsic", "is",
   "keyof", "meta", "module", "namespace", "never", "number", "object", "of", "out",
   "override", "readonly", "require", "satisfies", "set", "source", "string", "symbol",
   "target", "type", "undefined", "unique", "unknown", "using"]

def isKeyword (word : String) : Bool :=
  isReserved word || strictReservedWords.contains word || contextualWords.contains word

namespace Parse

variable {α : Type}

def isIdentifier (word : String) : Parse Bool := do
  let context ← context
  return !isReserved word && !(word = "await" && context.allowAwait) &&
    !(word = "yield" && context.allowYield)

def identifier : Parse (Span × String) := do
  let current ← token
  match current.tag with
  | .word text _ =>
    if ← isIdentifier text then
      advance
      return (⟨current.start, current.stop⟩, text)
    else reject
  | _ => reject

def bindingName : Parse String := do
  return (← identifier).2

def identifierName : Parse String := do
  match (← token).tag with
  | .word text _ =>
    advance
    return text
  | _ => reject

def string : Parse (Span × String) := do
  let current ← token
  match current.tag with
  | .string value _ =>
    advance
    return (⟨current.start, current.stop⟩, value)
  | _ => reject

def allowingIn (parse : Parse α) : Parse α :=
  inContext (fun context => { context with allowIn := true }) parse

def outsideDecorator (parse : Parse α) : Parse α :=
  inContext (fun context => { context with inDecorator := false }) parse

def enclosed (parse : Parse α) : Parse α := allowingIn (outsideDecorator parse)

end Parse

inductive Standing where
  /-- Among the statements of the whole text. -/
  | outermost
  | inBlock
  | inClause
  /-- As the body of another statement. -/
  | alone
  deriving DecidableEq, Repr

/-- The parsers that nest in each other. Each is called only after a token is consumed,
so nesting is no deeper than the text is long. -/
structure Grammar where
  assignment : Parse Expression
  /-- Operators that bind more tightly than the given precedence. -/
  binary : Nat → Parse Expression
  unary : Parse Expression
  /-- What `new` applies to. -/
  member : Parse Expression
  leftHand : Parse Expression
  element : Parse Expression
  pattern : Parse Pattern
  statement : Standing → Parse Statement

def Grammar.bottom : Grammar :=
  ⟨.reject, fun _ => .reject, .reject, .reject, .reject, .reject, .reject, fun _ => .reject⟩

end ModuleBundle.Script
