import ModuleBundle.Script.Grammar.Binding

/-!
Elements in angle brackets. Names in them may hold dashes, their strings have no escapes,
and the text between tags is not made of tokens at all, so they are scanned by rules of
their own from where the last token ended.
-/

set_option autoImplicit false

namespace ModuleBundle.Script

namespace Grammar

/-- Letters of an identifier, with more letters and dashes after a dash. The name is its
source text, in which an escape is no letter; a keyword has none. -/
def elementName : Parse (Span × String) := do
  let current ← Parse.token
  match current.tag with
  | .word text escaped =>
    if escaped && isKeyword text then Parse.reject
    else
      let isPart (c : Char) : Bool := isIdentifierPart c || c = '-'
      let tail := if current.rest.head? = some '-' then current.rest.takeWhile isPart else []
      let stop := current.stop + tail.length
      let letters := current.source.take (stop - current.start)
      Parse.resume stop (current.rest.drop tail.length)
      return (⟨current.start, stop⟩, String.ofList letters)
  | _ => Parse.reject

/-- Whether an element's simple name refers to a variable rather than to a kind of element
the page knows. -/
def isComponentName (name : String) : Bool :=
  match name.toList with
  | [] => false
  | first :: rest => !first.isLower && !rest.contains '-'

def elementMember : Parse String := do
  let (_, name) ← elementName
  if name.toList.contains '-' then Parse.reject else return name

def tagName : Parse (String × List Expression) := do
  let (span, name) ← elementName
  if ← Parse.eatMark .colon then
    let (_, property) ← elementName
    return (name ++ ":" ++ property, [])
  else if ← Parse.isMark .dot then
    let text ← Parse.loop (fun text : String => do
      if ← Parse.eatMark .dot then return .inl (text ++ "." ++ (← elementMember))
      else return .inr text) name
    return (text, if name = "this" then [] else [.name span name])
  else
    return (name, if isComponentName name then [.name span name] else [])

def expectAngle : Parse Unit := do
  let current ← Parse.token
  match current.source with
  | '>' :: rest => Parse.resume (current.start + 1) rest
  | _ => Parse.reject

def bracedExpression (g : Grammar) : Parse (List Expression) := do
  Parse.expectMark .openBrace
  if ← Parse.eatMark .closeBrace then return []
  else
    let e ← Parse.outsideDecorator g.assignment
    Parse.expectMark .closeBrace
    return [e]

def plainString (offset : Nat) : List Char → Parse Unit
  | quote :: cs =>
    let inside := cs.takeWhile (· ≠ quote)
    match cs.drop inside.length with
    | _ :: rest => Parse.resume (offset + inside.length + 2) rest
    | [] => Parse.reject
  | [] => Parse.reject

def attributeValue (g : Grammar) : Parse (List Expression) := do
  let current ← Parse.token
  let gap := Trivia.skip false .space false current.stop current.rest
  match gap.rest with
  | c :: _ =>
    if c = '"' ∨ c = '\'' then
      plainString gap.offset gap.rest
      return []
    else
      Parse.advance
      if ← Parse.isMark .openBrace then g.bracedExpression else return [← g.element]
  | [] => Parse.reject

def spreadInBraces (g : Grammar) : Parse (List Expression) := do
  Parse.expectMark .openBrace
  Parse.expectMark .ellipsis
  let e ← g.expression
  Parse.expectMark .closeBrace
  return [e]

def oneAttribute (g : Grammar) : Parse (List Expression) := do
  if ← Parse.isMark .openBrace then g.spreadInBraces
  else
    let _ ← elementName
    if ← Parse.eatMark .colon then
      let _ ← elementName
    if ← Parse.isMark .assign then g.attributeValue else return []

def attributes (g : Grammar) : Parse (List Expression) :=
  Parse.loop (fun found : List Expression => do
    let current ← Parse.token
    match current.source with
    | '>' :: _ => return .inr found
    | '/' :: _ => return .inr found
    | _ => return .inl (found ++ (← g.oneAttribute))) []

def children (g : Grammar) : Parse (List Expression) :=
  Parse.loop (fun found : List Expression => do
    let state ← get
    let offset := state.lastStop
    let text := state.lastRest
    let plain := text.takeWhile fun c => c ≠ '<' && c ≠ '>' && c ≠ '{' && c ≠ '}'
    match text.drop plain.length with
    | '{' :: rest => do
      Parse.resume (offset + plain.length) ('{' :: rest)
      if (← Parse.peek).tag = .mark .ellipsis then return .inl (found ++ (← g.spreadInBraces))
      else return .inl (found ++ (← g.bracedExpression))
    | '<' :: rest => do
      Parse.resume (offset + plain.length) ('<' :: rest)
      if (← Parse.peek).source.head? = some '/' then return .inr found
      else return .inl (found ++ [← g.element])
    | _ => Parse.reject) []

def elementAt (g : Grammar) : Parse Expression := do
  Parse.expectMark .less
  if (← Parse.token).source.head? = some '>' then
    expectAngle
    let found ← g.children
    Parse.expectMark .less
    Parse.expectMark .slash
    expectAngle
    return .group .element found
  else
    let (opening, reference) ← tagName
    let attributes ← g.attributes
    if ← Parse.eatMark .slash then
      expectAngle
      return .group .element (reference ++ attributes)
    else
      expectAngle
      let found ← g.children
      Parse.expectMark .less
      Parse.expectMark .slash
      let (closing, closingReference) ← tagName
      if closing = opening then
        expectAngle
        return .group .element (reference ++ attributes ++ found ++ closingReference)
      else Parse.reject

end Grammar

end ModuleBundle.Script
