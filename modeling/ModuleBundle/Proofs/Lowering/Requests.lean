import Mathlib.Data.List.Sort
import ModuleBundle.Proofs.Lowering.HiddenNames
import ModuleBundle.Proofs.Lowering.Rewriting
import ModuleBundle.Proofs.Script.Outlines

/-!
Which modules a text requests. Declarations are filed under the place of their literal and calls
under their own, and both are gathered separately; that this orders them all by their literals
follows from how the spans of a syntax tree nest. The specifiers are the texts of these literals,
in the order in which each of them comes first.
-/

set_option autoImplicit false

namespace ModuleBundle

open Script

namespace Script

/-! Sorting requests. -/

section

variable {α : Type} {text : α → String} {before : α → α → Prop} {entries : List α}

end

/-! Where modules are named. -/

/-- A literal that names a module, at its place, and the request that is made of it. -/
structure Mention where
  position : Nat
  request : Request

namespace Mention

def reach (m : Mention) : Span := ⟨m.request.offset, m.position + 1⟩

def sort (mentions : List Mention) : List Mention :=
  mentions.insertionSort fun a b => a.request.offset ≤ b.request.offset

end Mention

namespace Statement

def source? : Statement → Option Request
  | .importDeclaration d => some d.source
  | .exportList _ _ source => source
  | .exportAll _ _ source => some source
  | _ => none

def exportsAllNames : Statement → Bool
  | .exportAll _ none _ => true
  | _ => false

def requireLines (n : Nat) (statement : Statement) : List RequireLine :=
  match statement.source? with
  | none => []
  | some source =>
    (if statement.bindsRecord then .bind n source.specifier else .run source.specifier) ::
      (List.replicate statement.defaultImports (.hold n) ++
        if statement.exportsAllNames then [.copy n] else [])

theorem requires_eq (n : Nat) (statement : Statement) :
    (statement.linkage n).requires = statement.requireLines n := by
  cases statement with
  | importDeclaration d =>
    obtain ⟨span, specifiers, source⟩ := d
    cases specifiers with
    | none => rfl
    | some list =>
      have holds := requiresOf_eq n list
      simp [linkage, ImportDeclaration.linkage, requireLines, source?, bindsRecord,
        exportsAllNames, defaultImports, holds]
  | exportList span specifiers source => cases source <;> rfl
  | exportAll span name source => cases name <;> rfl
  | exportDefault span inner =>
    rw [linkage_exportDefault, (defaultLinkage_plain span inner).1]
    rfl
  | _ => rfl

theorem requires_specifiers (n : Nat) (statement : Statement) :
    (statement.linkage n).requires.filterMap RequireLine.specifier? =
      statement.source?.toList.map Request.specifier := by
  rw [requires_eq, requireLines]
  cases statement.source? with
  | none => rfl
  | some source =>
    have holds : (List.replicate statement.defaultImports (RequireLine.hold n)).filterMap
        RequireLine.specifier? = [] := List.filterMap_replicate_of_none rfl
    have copies : (if statement.exportsAllNames then [RequireLine.copy n] else []).filterMap
        RequireLine.specifier? = [] := by
      split <;> rfl
    have requests : (if statement.bindsRecord then RequireLine.bind n source.specifier
        else .run source.specifier).specifier? = some source.specifier := by
      split <;> rfl
    dsimp only
    rw [List.filterMap_cons_some requests, List.filterMap_append, holds, copies]
    rfl

end Statement

namespace Node

def linkMention? : Node → Option Mention
  | .statement value => value.source?.map fun source => ⟨source.offset, source⟩
  | _ => none

def callMention? : Node → Option Mention
  | .expression (.call span callee arguments) =>
    match callee, arguments with
    | .name _ "require", [.string literal specifier] =>
      some ⟨literal.start, ⟨span.start, specifier⟩⟩
    | _, _ => none
  | .expression (.dynamicImport span (.string literal specifier) _) =>
    some ⟨literal.start, ⟨span.start, specifier⟩⟩
  | _ => none

def mentions (node : Node) : List Mention := node.linkMention?.toList ++ node.callMention?.toList

section

variable {node : Node} {space span literal : Span} {specifier : String}

end

end Node

namespace Program

variable {p : Program} {text : List Char}

/-- Where a program names modules, declarations first. -/
def mentions (p : Program) : List Mention :=
  (p.body.flatMap fun statement => (Node.statement statement).linkMention?.toList) ++
    p.collect fun node => node.callMention?.toList

/-- Whether the literal that starts at `position` names a module in a program: the source of an
outermost import or export, the only argument of a `require`, or the source of an `import()`. -/
inductive Requests (p : Program) : Nat → String → Prop
  | declaration {statement : Statement} {source : Request} (listed : statement ∈ p.body)
      (names : statement.source? = some source) : Requests p source.offset source.specifier
  | require {place : Place} {span callee literal : Span} {specifier : String} (held : p.Holds place)
      (calls : place.node =
        .expression (.call span (.name callee "require") [.string literal specifier])) :
      Requests p literal.start specifier
  | dynamicImport {place : Place} {span literal : Span} {specifier : String}
      {options : List Expression} (held : p.Holds place)
      (imports : place.node =
        .expression (.dynamicImport span (.string literal specifier) options)) :
      Requests p literal.start specifier

end Program

end Script

end ModuleBundle
