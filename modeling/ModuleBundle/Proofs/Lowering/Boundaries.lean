import ModuleBundle.Proofs.Lowering.Rewriting

/-!
Statements of a text and of its body. A body keeps the boundaries of statements if reading it
finds, behind what the prologue adds, one statement for each of the text's, of the kind that
the text has or that it is lowered to. A text without anything to lower is its own body. In
others the boundaries can get lost, for a line that ends without a semicolon goes on where
the next one now starts with a parenthesis.
-/

set_option autoImplicit false

namespace ModuleBundle

open Script

namespace Script

inductive Statement.Kind where
  | expression | function | classNode | block | switch | loop | each
  | declaration (kind : DeclarationKind)
  | group (form : StatementForm)
  /-- A part of another statement, or a declaration that links modules. -/
  | inner
  deriving DecidableEq

namespace Statement

def kind : Statement → Kind
  | .expression _ _ => .expression
  | .declaration _ kind _ => .declaration kind
  | .function _ => .function
  | .classNode _ => .classNode
  | .block _ => .block
  | .switch _ _ => .switch
  | .loop _ _ _ => .loop
  | .each _ _ _ _ => .each
  | .group form _ _ => .group form
  | _ => .inner

/-- What a statement outside of functions is in the body, if it is kept there: an exported
declaration stays, a value exported as default is assigned to a variable, and of what imports
and exports only nothing is left. Empty statements do not count. -/
def keptKind? : Statement → Option Kind
  | .importDeclaration _ => none
  | .exportList _ _ _ => none
  | .exportAll _ _ _ => none
  | .exportDeclaration _ _ inner => some inner.kind
  | .exportDefault _ (.function _) => some .function
  | .exportDefault _ (.classNode (.mk _ (some _) _ _ _)) => some .classNode
  | .exportDefault _ (.classNode _) => some (.declaration .hoisted)
  | .exportDefault _ (.expression _ _) => some (.declaration .hoisted)
  | .exportDefault _ _ => none
  | .group .empty _ _ => none
  | statement => some statement.kind

end Statement

namespace Program

def keptKinds (p : Program) : List Statement.Kind := p.body.filterMap Statement.keptKind?

/-- Whether reading a body finds the directives of its text, one directive or statement for
each line of the prologue, and then one statement for each that is kept. -/
def KeptIn (p : Program) (goal : Goal) (body : List Char) : Prop :=
  ∃ q lead, parse? goal body = some q ∧ q.keptKinds = lead ++ p.keptKinds ∧
    q.directives.length + lead.length = p.directives.length + p.prologueLines.length

end Program

end Script

def KeepsBoundaries (goal : Goal) (text : List Char) : Prop :=
  ∀ p analysis, Program.parse? goal text = some p → Analysis.ofText goal text = .ok analysis →
    p.KeptIn goal analysis.body.toList

/-! Texts without anything to lower. -/

namespace Script

/-- Nothing to lower: no `#!` line, no import or export, no dynamic import of a string. -/
structure Program.Plain (p : Program) : Prop where
  hashbang : p.hashbang = none
  unlinked : ∀ statement ∈ p.body, statement.isLink = false
  calls : ∀ call ∈ p.moduleCalls, Program.dynamicImportEdit? call = none

instance (p : Program) : Decidable p.Plain :=
  decidable_of_iff
    (p.hashbang = none ∧ (∀ statement ∈ p.body, statement.isLink = false) ∧
      ∀ call ∈ p.moduleCalls, Program.dynamicImportEdit? call = none)
    ⟨fun ⟨hashbang, unlinked, calls⟩ => ⟨hashbang, unlinked, calls⟩,
      fun plain => ⟨plain.hashbang, plain.unlinked, plain.calls⟩⟩

namespace Statement

theorem linkage_of_not_isLink {statement : Statement} (unlinked : statement.isLink = false)
    (n : Nat) : statement.linkage n = .empty := by
  cases statement with
  | importDeclaration | exportList | exportAll | exportDeclaration | exportDefault =>
    cases unlinked
  | _ => rfl

theorem linkageOfList_of_not_isLink {body : List Statement}
    (unlinked : ∀ statement ∈ body, statement.isLink = false) (n : Nat) :
    linkageOfList n body = .empty := by
  induction body generalizing n with
  | nil => rfl
  | cons statement rest ih =>
    obtain ⟨here, rest⟩ := List.forall_mem_cons.mp unlinked
    rw [linkageOfList, linkage_of_not_isLink here, ih rest]
    rfl

end Statement

namespace Program.Plain

variable {p : Program}

theorem linkage (plain : p.Plain) : p.linkage = .empty :=
  Statement.linkageOfList_of_not_isLink plain.unlinked 0

theorem isModule (plain : p.Plain) : p.isModule = false := by
  rw [Program.isModule, List.any_eq_false]
  exact fun statement listed => by simp [plain.unlinked statement listed]

theorem prologueLines (plain : p.Plain) : p.prologueLines = [] := by
  rw [Program.prologueLines, plain.isModule, plain.linkage]
  rfl

theorem referenceEdits (plain : p.Plain) :
    Statement.referenceEditsOfList p.linkage.readings p.body = [] := by
  rw [Program.referenceEdits_eq, plain.linkage, List.filterMap_eq_nil_iff]
  intro reference _
  rfl

theorem edits (plain : p.Plain) : p.edits = [] := by
  have calls : p.moduleCalls.filterMap Program.dynamicImportEdit? = [] :=
    List.filterMap_eq_nil_iff.mpr plain.calls
  have prologue : p.prologue = [] := by rw [Program.prologue, plain.prologueLines]
  rw [Program.edits, plain.referenceEdits, calls, prologue, plain.hashbang, plain.linkage]
  rfl

end Program.Plain

end Script

/-- Two statements that only the end of a line tells apart, the second of which calls an import: in
the body it starts with a parenthesis, and the first one goes on with it. -/
def calledImport : List Char := "import { f } from './b';\nconst y = 1\nf()".toList

theorem calledImport_loses_boundary : ¬ KeepsBoundaries .module calledImport := by
  intro keeps
  have known : ∃ p ∈ Program.parse? .module calledImport, Statement.anyAwaits p.body = false ∧
      ∀ q ∈ Program.parse? .module (Edit.apply p.edits calledImport),
        q.directives.length + q.keptKinds.length <
          p.directives.length + p.prologueLines.length + p.keptKinds.length := by
    decide +kernel
  obtain ⟨p, parsed, awaits, fewer⟩ := known
  obtain ⟨q, lead, reread, kinds, count⟩ :=
    keeps p _ parsed (Analysis.accepted_of_parsed parsed awaits)
  -- a body that keeps them all would have as many statements as the text and the prologue
  have short := fewer q (by rwa [Analysis.ofProgram, String.toList_ofList] at reread)
  rw [kinds, List.length_append] at short
  omega

end ModuleBundle
