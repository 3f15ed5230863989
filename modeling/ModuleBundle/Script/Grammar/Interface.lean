import ModuleBundle.Script.Grammar.Class

/-!
Interfaces, which a default export may declare and which nothing is kept of but what their
keys, parameters and heritage evaluate. No part of one has a type.
-/

set_option autoImplicit false

namespace ModuleBundle.Script.Grammar

structure Signature where
  keys : List Expression := []
  parameters : List Pattern := []

def endSignature : Parse Unit := do
  if ← Parse.eatMark .comma then return () else Parse.endStatement

def parameterSignature (g : Grammar) (keys : List Expression) : Parse Signature := do
  let parameters ← g.parameters
  endSignature
  return ⟨keys, parameters⟩

def signatureKey (g : Grammar) : Parse (List Expression) := do
  match ← g.propertyKey with
  | .privateName _ => Parse.reject
  | key => return key.expressions

def namedSignature (g : Grammar) : Parse Signature := do
  if ← atModifier "static" false then Parse.reject
  let _ ← eatModifier "readonly" true
  if ← eatModifier "get" false then g.parameterSignature (← g.signatureKey)
  else if ← eatModifier "set" false then g.parameterSignature (← g.signatureKey)
  else
    let keys ← g.signatureKey
    let _ ← Parse.eatMark .question
    if ← Parse.isMark .openParen then g.parameterSignature keys
    else
      endSignature
      return { keys }

def signature (g : Grammar) : Parse Signature := do
  if ← Parse.isMark .openParen then g.parameterSignature []
  else if (← Parse.isWord "new") && (← Parse.peek).tag = .mark .openParen then
    Parse.advance
    g.parameterSignature []
  else g.namedSignature

def interfaceHeritage (g : Grammar) : Parse (List Expression) := do
  if ← Parse.eatWord "extends" then
    let first ← g.leftHand
    Parse.loop (fun found : List Expression => do
      if ← Parse.eatMark .comma then return .inl (found ++ [← g.leftHand])
      else return .inr found) [first]
  else return []

def interface (g : Grammar) : Parse Statement := do
  let start := (← Parse.token).start
  Parse.expectWord "interface"
  let _ ← Parse.bindingName
  let extended ← g.interfaceHeritage
  Parse.expectMark .openBrace
  let members ← Parse.loop (fun found : List Signature => do
    if ← Parse.eatMark .closeBrace then return .inr found.reverse
    else return .inl ((← g.signature) :: found)) []
  let span : Span := ⟨start, ← Parse.lastStop⟩
  return .group .interface (extended ++ members.flatMap Signature.keys)
    [.declaration span .letBinding (members.flatMap Signature.parameters)]

end ModuleBundle.Script.Grammar
