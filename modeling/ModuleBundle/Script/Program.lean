import ModuleBundle.Script.Grammar.Module
import ModuleBundle.Script.Scope

/-!
Whole source texts. Reading one gives its syntax tree or nothing; besides what the
grammar's productions demand, every exported name is exported once, and no property
`name = value` is left that a destructuring would have to give a meaning.
-/

set_option autoImplicit false

namespace ModuleBundle.Script

namespace Statement

def exportedNames : Statement → List String
  | .exportList _ specifiers _ => specifiers.map ExportSpecifier.exported
  | .exportAll _ name _ => name.toList
  | .exportDeclaration _ _ inner => inner.declaredNames
  | .exportDefault _ _ => ["default"]
  | _ => []

/-- Where a directive ends, if the statement is one: a string and nothing else. -/
def directive? : Statement → Option Span
  | .expression span (.string _ _) => some span
  | _ => none

end Statement

namespace Program

def splitDirectives : List Statement → List Span × List Statement
  | [] => ([], [])
  | statement :: rest =>
    match statement.directive? with
    | some span =>
      let (directives, body) := splitDirectives rest
      (span :: directives, body)
    | none => ([], statement :: rest)

def splitHashbang (text : List Char) : Option Span × List Char :=
  match text with
  | '#' :: '!' :: rest =>
    let line := rest.takeWhile fun c => !isLineTerminator c
    (some ⟨0, line.length + 2⟩, rest.dropWhile fun c => !isLineTerminator c)
  | _ => (none, text)

def topLevel (g : Grammar) : Parse (List Statement) := do
  let found ← Parse.loop (fun found : List Statement => do
    if ← Parse.isFinish then return .inr found
    else return .inl ((← g.statement .outermost) :: found)) []
  return found.reverse

def parse? (goal : Goal) (text : List Char) : Option Program := do
  let (hashbang, rest) := splitHashbang text
  let offset := (hashbang.map Span.stop).getD 0
  let size := text.length
  let context : Context := { goal, size, allowAwait := goal = .module }
  let start : State := ⟨Token.scan (goal = .script) true offset rest, offset, rest, [], ∅⟩
  let (found, state) := ((topLevel (Grammar.nested (size + 2))) context).run start
  let statements ← found
  let exported := statements.flatMap Statement.exportedNames
  if state.uncovered.isEmpty ∧ exported.Nodup then
    let (directives, body) := splitDirectives statements
    some ⟨hashbang, directives, body⟩
  else none

end Program

end ModuleBundle.Script
