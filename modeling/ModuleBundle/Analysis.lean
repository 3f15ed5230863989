import ModuleBundle.Lowering.Linkage
import ModuleBundle.Lowering.ModuleCalls
import ModuleBundle.Lowering.References
import ModuleBundle.Path
import ModuleBundle.Script.Awaiting
import ModuleBundle.Script.Program

/-!
Analysis of one module: which other modules it requests, and its body, written so that it
runs inside a function of `require`, `module` and `exports`. Only what imports or exports
is written anew; the rest of the text stays as it is.
-/

set_option autoImplicit false

namespace ModuleBundle

open Script

structure Analysis where
  /-- The modules requested, each once, in the order of their first requests. -/
  specifiers : List String
  body : String
  deriving DecidableEq, Repr, Inhabited

/-- How a build reads the text of the module at a path, or why it cannot. -/
abbrev Analyzer := Path → String → Except String Analysis

inductive Refusal where
  | notGrammatical
  /-- It waits outside of functions, which the function around its body has no place for. -/
  | awaitsAtTopLevel
  deriving DecidableEq, Repr

def Refusal.message (path : Path) : Refusal → String
  | notGrammatical => path.text ++ ": syntax error"
  | awaitsAtTopLevel => path.text ++ ": top-level await cannot be bundled"

namespace Script

def Request.insertSorted (request : Request) : List Request → List Request
  | [] => [request]
  | first :: rest =>
    if request.offset ≤ first.offset then request :: first :: rest
    else first :: Request.insertSorted request rest

def Request.sort (requests : List Request) : List Request :=
  requests.foldr Request.insertSorted []

def firstOccurrences (seen : List String) : List String → List String
  | [] => []
  | text :: rest =>
    if seen.contains text then firstOccurrences seen rest
    else text :: firstOccurrences (text :: seen) rest

namespace Program

def linkage (p : Program) : Linkage := Statement.linkageOfList 0 p.body

def isModule (p : Program) : Bool := p.body.any Statement.isLink

def moduleCalls (p : Program) : List ModuleCall := Statement.moduleCallsOfList p.body

def requests (p : Program) : List Request :=
  p.linkage.requests ++ p.moduleCalls.map ModuleCall.request

def specifiers (p : Program) : List String :=
  firstOccurrences [] ((Request.sort p.requests).map Request.specifier)

/-- Where the prologue is inserted: behind the last directive, or else at the start. -/
def prologueOffset (p : Program) : Nat := (p.directives.getLast?.map Span.stop).getD 0

def prologueLines (p : Program) : List String :=
  let linkage := p.linkage
  Prologue.lines p.isModule linkage.readings linkage.exports linkage.requires

def prologue (p : Program) : List Edit :=
  match p.prologueLines with
  | [] => []
  | lines => [.insert p.prologueOffset (Prologue.text p.prologueOffset lines)]

def dynamicImportEdit? : ModuleCall → Option Edit
  | .require _ => none
  | .dynamicImport span specifier =>
    some ⟨span, "Promise.resolve().then(function () \x7b return require(" ++ quoted specifier ++
      "); \x7d)"⟩

def edits (p : Program) : List Edit :=
  p.hashbang.toList.map Edit.remove ++ p.linkage.edits ++
    Statement.referenceEditsOfList p.linkage.readings p.body ++
    p.moduleCalls.filterMap dynamicImportEdit? ++ p.prologue

end Program

end Script

namespace Analysis

def ofProgram (text : List Char) (p : Program) : Analysis :=
  ⟨p.specifiers, String.ofList (Edit.apply p.edits text)⟩

def ofText (goal : Goal) (text : List Char) : Except Refusal Analysis :=
  match Program.parse? goal text with
  | none => .error .notGrammatical
  | some p =>
    if Statement.anyAwaits p.body then .error .awaitsAtTopLevel else .ok (ofProgram text p)

def goalOf (path : Path) : Goal := if path.extension = some "cjs" then .script else .module

def analyzer : Analyzer := fun path text =>
  (ofText (goalOf path) text.toList).mapError (Refusal.message path)

end Analysis

end ModuleBundle
