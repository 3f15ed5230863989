import ModuleBundle.Proofs.Lowering.Untouched
import ModuleBundle.Proofs.Text.Occurs

/-!
What only a module may hold, and what becomes of it. Nothing that waits outside of functions
is accepted, and the outermost imports and exports are written anew; what is written for them
has neither keyword. That the body is grammatical in the function that a bundle puts around it
does not follow: a name that is read of a record may stand where the grammar has only a name.
-/

set_option autoImplicit false

namespace ModuleBundle

open Script

namespace Script

def LacksModuleWords (text : String) : Prop :=
  ∀ word ∈ ["import", "export"], ¬ Occurs word text

instance : DecidablePred LacksModuleWords := fun text =>
  inferInstanceAs (Decidable (∀ word ∈ ["import", "export"], ¬ Occurs word text))

namespace Statement

theorem header_lacksModuleWords (isAsync isGenerator : Bool) :
    LacksModuleWords ((if isAsync then "async " else "") ++ "function" ++
      (if isGenerator then "*" else "") ++ " " ++ defaultName) := by
  cases isAsync <;> cases isGenerator <;> decide +kernel

theorem exists_edit_of_moduleSyntax {statement : Statement} {span : Span}
    (found : statement.moduleSyntax? = some span) (n : Nat) :
    ∃ written, ⟨span, written⟩ ∈ (statement.linkage n).edits ∧ LacksModuleWords written := by
  have removed : LacksModuleWords "" := by decide +kernel
  have assigned : LacksModuleWords ("var " ++ defaultName ++ " = ") := by decide +kernel
  cases statement with
  | importDeclaration d =>
    obtain ⟨span, specifiers, source⟩ := d
    cases found
    refine ⟨"", ?_, removed⟩
    cases specifiers <;> exact List.mem_singleton_self _
  | exportList span specifiers source =>
    cases found
    refine ⟨"", ?_, removed⟩
    cases source <;> exact List.mem_singleton_self _
  | exportAll span name source =>
    cases found
    refine ⟨"", ?_, removed⟩
    cases name <;> exact List.mem_singleton_self _
  | exportDeclaration span declarationStart inner =>
    cases found
    exact ⟨"", List.mem_singleton_self _, removed⟩
  | exportDefault span inner =>
    cases inner with
    | function value =>
      obtain ⟨own, name, isAsync, isGenerator, start, parameters, body⟩ := value
      cases name with
      | none =>
        cases found
        exact ⟨_, List.mem_singleton_self _, header_lacksModuleWords isAsync isGenerator⟩
      | some name =>
        cases found
        exact ⟨"", List.mem_singleton_self _, removed⟩
    | classNode value =>
      obtain ⟨own, name, decorators, heritage, members⟩ := value
      cases found
      cases name with
      | none => exact ⟨_, List.mem_cons_self, assigned⟩
      | some name => exact ⟨"", List.mem_singleton_self _, removed⟩
    | expression own value =>
      cases found
      exact ⟨_, List.mem_cons_self, assigned⟩
    | _ =>
      cases found
      exact ⟨"", List.mem_singleton_self _, removed⟩
  | _ => cases found

theorem moduleSyntax_cases {statement : Statement} {span : Span}
    (found : statement.moduleSyntax? = some span) :
    (Node.statement statement).extent? = some span ∧
        span.keyword ∈ (Node.statement statement).words ∨
      (Node.statement statement).extent? = none ∧
        .word span ∈ (Node.statement statement).words := by
  cases statement with
  | importDeclaration d =>
    cases found
    exact .inl ⟨rfl, List.mem_cons_self⟩
  | exportList own specifiers source =>
    cases found
    exact .inl ⟨rfl, List.mem_cons_self⟩
  | exportAll own name source =>
    cases found
    exact .inl ⟨rfl, List.mem_cons_self⟩
  | exportDeclaration own start inner =>
    cases found
    exact .inr ⟨rfl, List.mem_cons_self⟩
  | exportDefault outer inner =>
    cases inner with
    | function value =>
      obtain ⟨own, name, isAsync, isGenerator, start, parameters, body⟩ := value
      cases name <;> cases found <;> exact .inr ⟨rfl, List.mem_cons_self⟩
    | classNode value =>
      obtain ⟨own, name, decorators, heritage, members⟩ := value
      cases name <;> cases found <;> exact .inr ⟨rfl, List.mem_cons_self⟩
    | expression own value =>
      cases found
      exact .inr ⟨rfl, List.mem_cons_self⟩
    | _ =>
      cases found
      exact .inl ⟨rfl, List.mem_cons_self⟩
  | _ => cases found

theorem moduleSyntax_outline {statement : Statement} {span space : Span}
    (found : statement.moduleSyntax? = some span)
    (nested : Outline.AllNested space (Node.statement statement).outlines) :
    span.start < span.stop ∧ ∃ outline ∈ (Node.statement statement).outlines, outline.span = span := by
  have each := (Outline.allNested_iff.mp (Node.allNested_content nested)).1
  rcases moduleSyntax_cases found with ⟨extent, keyword⟩ | ⟨extent, word⟩
  · obtain ⟨nonempty, within⟩ := each _ (List.mem_append_left _ keyword)
    rw [extent] at within
    refine ⟨Nat.lt_of_lt_of_le nonempty within.2, ?_⟩
    rw [Node.outlines_of_extent extent]
    exact ⟨_, List.mem_singleton_self _, rfl⟩
  · refine ⟨(each _ (List.mem_append_left _ word)).1, .word span, ?_, rfl⟩
    rw [Node.outlines_eq, Node.frame, extent]
    exact List.mem_append_left _ word

end Statement

namespace Program

/-- How the edits of a program lie: each stops where it starts or later, and one of module syntax
is not empty, with all others ending in front of it or starting behind its start. -/
structure Layered (p : Program) : Prop where
  ordered : ∀ edit ∈ p.edits, edit.span.start ≤ edit.span.stop
  nonempty : ∀ span ∈ p.moduleSyntax, span.start < span.stop
  outermost : ∀ edit ∈ p.edits, edit.span ∈ p.moduleSyntax → ∀ other ∈ p.edits,
    other = edit ∨ other.span.stop ≤ edit.span.start ∨ edit.span.start < other.span.start

instance (p : Program) : Decidable p.Layered :=
  decidable_of_iff
    ((∀ edit ∈ p.edits, edit.span.start ≤ edit.span.stop) ∧
      (∀ span ∈ p.moduleSyntax, span.start < span.stop) ∧
      ∀ edit ∈ p.edits, edit.span ∈ p.moduleSyntax → ∀ other ∈ p.edits,
        other = edit ∨ other.span.stop ≤ edit.span.start ∨ edit.span.start < other.span.start)
    ⟨fun ⟨ordered, nonempty, outermost⟩ => ⟨ordered, nonempty, outermost⟩,
      fun layered => ⟨layered.ordered, layered.nonempty, layered.outermost⟩⟩

variable {p : Program}

theorem exists_edit_of_mem_moduleSyntax {span : Span} (listed : span ∈ p.moduleSyntax) :
    ∃ written, ⟨span, written⟩ ∈ p.edits ∧ LacksModuleWords written := by
  obtain ⟨statement, member, found⟩ := List.mem_filterMap.mp listed
  obtain ⟨n, numbered⟩ := Statement.exists_number (n := 0) member
  obtain ⟨written, edited, lacks⟩ := Statement.exists_edit_of_moduleSyntax found n
  have linked : ⟨span, written⟩ ∈ p.linkage.edits := by
    rw [linkage_edits]
    exact List.mem_flatMap_of_mem numbered edited
  refine ⟨written, ?_, lacks⟩
  simp only [edits, List.mem_append]
  exact .inl (.inl (.inl (.inr linked)))

namespace Nested

variable {text : List Char} (nested : p.Nested text)
include nested

theorem outlines_apart : (p.body.flatMap fun statement => (Node.statement statement).outlines).Pairwise
    fun first second => first.span.Apart second.span := by
  refine List.pairwise_flatMap.mpr ⟨fun statement listed => ?_, nested.follows.2.2.imp ?_⟩
  · exact (Outline.allNested_iff.mp (nested.of_statement listed)).2
  · intro front back behind first one second other
    exact .inl (behind first one second other)

theorem outermost_of_moduleSyntax {span : Span} (listed : span ∈ p.moduleSyntax) :
    span.start < span.stop ∧ ∀ edit ∈ p.edits, ¬ span.Inside edit.span := by
  obtain ⟨statement, member, found⟩ := List.mem_filterMap.mp listed
  obtain ⟨nonempty, own, placed, rfl⟩ :=
    Statement.moduleSyntax_outline found (nested.of_statement member)
  refine ⟨nonempty, fun edit edited inside => ?_⟩
  have place := p.edits_spans.subset (List.mem_map_of_mem edited)
  simp only [List.mem_append, Option.mem_toList, List.mem_singleton] at place
  -- it is apart from a `#!` line, and nothing lies inside of an insertion
  rcases place with (first | site) | offset
  · have := nested.follows.2.1 _ (.inl first) statement member own placed
    exact absurd inside.2.1 (by omega)
  · obtain ⟨statement', member', outline, placed', within⟩ := nested.exists_outline site
    -- the outline that the edit lies in is the one of the module syntax, or apart from it
    by_cases same : own = outline
    · subst same
      exact absurd inside.1 (by have := within.1; omega)
    · have symm : Std.Symm fun first second : Outline => first.span.Apart second.span :=
        ⟨fun _ _ => Span.Apart.symm⟩
      have apart := nested.outlines_apart.forall (List.mem_flatMap_of_mem member placed)
        (List.mem_flatMap_of_mem member' placed') same
      have := apart.mono ⟨Nat.le_refl _, Nat.le_refl _⟩ within
      unfold Span.Inside at inside
      unfold Span.Apart at this
      omega
  · rw [offset] at inside
    exact absurd (Nat.lt_trans inside.1 inside.2.1) (Nat.lt_irrefl _)

/-- Where spans nest, the edits are in layers as far as module syntax goes. -/
theorem layered : p.Layered where
  ordered edit listed := (nested.edits_layered.1 edit listed).1
  nonempty span listed := (nested.outermost_of_moduleSyntax listed).1
  outermost edit edited listed other among := by
    obtain ⟨nonempty, outside⟩ := nested.outermost_of_moduleSyntax listed
    by_cases same : other = edit
    · exact .inl same
    have symm : Std.Symm fun first second : Edit => first.span.Layered second.span :=
      ⟨fun _ _ => Span.Layered.symm⟩
    right
    rcases nested.edits_layered.2.forall edited among (Ne.symm same) with apart | inside | inside
    · rcases apart with ahead | behind
      · exact .inr (Nat.lt_of_lt_of_le nonempty ahead)
      · exact .inl behind
    · exact absurd inside (outside other among)
    · exact .inr inside.1

end Nested

theorem Layered.replaces (layered : p.Layered) {span : Span} (listed : span ∈ p.moduleSyntax)
    (text : List Char) :
    ∃ written, Edit.Replaces p.edits text ⟨span, written⟩ ∧ LacksModuleWords written := by
  obtain ⟨written, edited, lacks⟩ := exists_edit_of_mem_moduleSyntax listed
  refine ⟨written, ?_, lacks⟩
  exact Edit.replaces_of_outermost edited (layered.nonempty span listed) layered.ordered
    (layered.outermost _ edited listed)

theorem not_anyAwaits_of_accepted {goal : Goal} {text : List Char} {analysis : Analysis}
    (parsed : parse? goal text = some p) (accepted : Analysis.ofText goal text = .ok analysis) :
    Statement.anyAwaits p.body = false := by
  simp only [Analysis.ofText, parsed] at accepted
  split at accepted
  · cases accepted
  next quiet => exact Bool.eq_false_iff.mpr quiet

/-- In an accepted text nothing waits outside of functions. For all that only a module may hold,
where it stands outermost, there is an edit that writes a text without either keyword, which the
body has in its place if the edits are in layers, as they are where the spans of the tree nest. -/
theorem moduleSyntax_replaced {goal : Goal} {text : List Char} {analysis : Analysis}
    (parsed : parse? goal text = some p) (accepted : Analysis.ofText goal text = .ok analysis) :
    (∀ place, p.Holds place → place.node.waits = true →
      ∃ enclosure ∈ place.around, enclosure.construct.isFunction = true) ∧
    analysis.body = String.ofList (Edit.apply p.edits text) ∧
    (∀ span ∈ p.moduleSyntax, ∃ written, ⟨span, written⟩ ∈ p.edits ∧ LacksModuleWords written) ∧
    (p.Layered → ∀ span ∈ p.moduleSyntax,
      ∃ written, Edit.Replaces p.edits text ⟨span, written⟩ ∧ LacksModuleWords written) ∧
    (p.Nested text → p.Layered) := by
  refine ⟨fun place held waits => ?_, Analysis.body_of_accepted parsed accepted,
    fun span => exists_edit_of_mem_moduleSyntax, fun layered span listed => layered.replaces listed text,
    fun nested => nested.layered⟩
  by_contra none
  push Not at none
  -- with no function around it, the place would make the whole program wait
  have outside : place.outsideFunctions = true := by
    rw [Place.outsideFunctions, List.all_eq_true]
    intro enclosure around
    simpa using none enclosure around
  have awaits : place.node.awaits = true := by rw [Node.awaits_eq, waits, Bool.true_or]
  have := held.anyAwaits outside awaits
  rw [not_anyAwaits_of_accepted parsed accepted] at this
  cases this

end Program

def linkedText : List Char :=
  ("import d, { x } from './b';\nimport './c';\nexport { x };\nexport * from './d';\n" ++
    "export const y = x;\nexport default async function () { await d; }").toList

theorem linkedText_moduleSyntax_replaced :
    ∃ p analysis, Program.parse? .module linkedText = some p ∧
      Analysis.ofText .module linkedText = .ok analysis ∧ p.Layered ∧ p.moduleSyntax.length = 6 ∧
      ∀ span ∈ p.moduleSyntax, ∃ written,
        Edit.Replaces p.edits linkedText ⟨span, written⟩ ∧ LacksModuleWords written := by
  have known : ∃ p ∈ Program.parse? .module linkedText, Statement.anyAwaits p.body = false ∧
      p.Layered ∧ p.moduleSyntax.length = 6 := by
    decide +kernel
  obtain ⟨p, parsed, awaits, layered, six⟩ := known
  have accepted := Analysis.accepted_of_parsed parsed awaits
  obtain ⟨_, _, _, replaced, _⟩ := Program.moduleSyntax_replaced parsed accepted
  exact ⟨p, _, parsed, accepted, layered, six, replaced layered⟩

end Script

def wrapped (body : List Char) : List Char :=
  "(function (require, module, exports) \x7b\n".toList ++ body ++ "\n\x7d)".toList

/-- Whether the body of an accepted text is grammatical where a bundle puts it. -/
def FitsItsFunction (goal : Goal) (text : List Char) : Prop :=
  ∀ analysis, Analysis.ofText goal text = .ok analysis →
    (Program.parse? .script (wrapped analysis.body.toList)).isSome

def shorthandTarget : List Char := "import { x } from './b';\n({ x = 1 } = {});".toList

theorem shorthandTarget_does_not_fit : ¬ FitsItsFunction .module shorthandTarget := by
  intro fits
  have known : ∃ p ∈ Program.parse? .module shorthandTarget, Statement.anyAwaits p.body = false ∧
      (Program.parse? .script (wrapped (Edit.apply p.edits shorthandTarget))).isNone := by
    decide +kernel
  obtain ⟨p, parsed, awaits, fails⟩ := known
  have reread := fits _ (Analysis.accepted_of_parsed parsed awaits)
  rw [Analysis.ofProgram, String.toList_ofList] at reread
  rw [Option.isNone_iff_eq_none] at fails
  rw [fails] at reread
  cases reread

end ModuleBundle
