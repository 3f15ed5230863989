import ModuleBundle.Proofs.Script.TreePositions

/-!
Positions of what binds names: patterns, functions and classes. Where the parsers of one nesting
level below answer only what lies behind an offset, each production of the grammar does.
-/

set_option autoImplicit false

namespace ModuleBundle.Script

structure Grammar.AllKeep (g : Grammar) : Prop where
  assignment : ∀ {offset}, Parse.Keeps offset g.assignment
  binary : ∀ {offset} least, Parse.Keeps offset (g.binary least)
  unary : ∀ {offset}, Parse.Keeps offset g.unary
  member : ∀ {offset}, Parse.Keeps offset g.member
  leftHand : ∀ {offset}, Parse.Keeps offset g.leftHand
  element : ∀ {offset}, Parse.Keeps offset g.element
  pattern : ∀ {offset}, Parse.Keeps offset g.pattern
  statement : ∀ {offset} standing, Parse.Keeps offset (g.statement standing)

attribute [grind ←] Grammar.AllKeep.assignment Grammar.AllKeep.binary Grammar.AllKeep.unary
  Grammar.AllKeep.member Grammar.AllKeep.leftHand Grammar.AllKeep.element
  Grammar.AllKeep.pattern Grammar.AllKeep.statement

theorem Grammar.bottom_keeps : bottom.AllKeep :=
  ⟨.reject, fun _ => .reject, .reject, .reject, .reject, .reject, .reject, fun _ => .reject⟩

variable {offset : Nat} {g : Grammar}

@[grind ←]
theorem Parse.sequence_keeps {assignment : Parse Expression} (keeps : Keeps offset assignment) :
    Keeps offset (sequence assignment) := by
  unfold sequence
  grind

/-! Names and patterns. -/

namespace PropertyKey

@[grind =]
theorem behind_word {span : Span} {text : String} :
    Behind offset (word span text) ↔ Behind offset span := Iff.rfl

@[grind =]
theorem behind_computed {key : Expression} :
    Behind offset (computed key) ↔ Behind offset key := Iff.rfl

@[grind =]
theorem behind_literal {text : Option String} : Behind offset (literal text) ↔ True := Iff.rfl

@[grind =]
theorem behind_privateName {text : String} : Behind offset (privateName text) ↔ True := Iff.rfl

@[grind ←]
theorem behind_expressions {key : PropertyKey} (here : Behind offset key) :
    Behind offset key.expressions := by
  cases key with
  | computed key => exact behind_singleton here
  | _ => exact nofun

end PropertyKey

namespace Grammar

open Parse (Keeps)

variable (keeps : g.AllKeep)

section
include keeps

@[grind ←]
theorem propertyKey_keeps : Keeps offset g.propertyKey := by
  unfold propertyKey
  grind

@[grind ←]
theorem expression_keeps : Keeps offset g.expression := by
  unfold expression
  grind

@[grind ←]
theorem withInitializer_keeps {pattern : Pattern} (here : Behind offset pattern) :
    Keeps offset (g.withInitializer pattern) := by
  unfold withInitializer
  grind

@[grind ←]
theorem arrayPatternStep_keeps {parts : List Pattern} (here : Behind offset parts) :
    Keeps offset (g.arrayPatternStep parts) := by
  unfold arrayPatternStep
  grind

@[grind ←]
theorem propertyPattern_keeps : Keeps offset g.propertyPattern := by
  unfold propertyPattern
  refine .bind Parse.token_keeps fun current _ => .bind (propertyKey_keeps keeps) fun key named => ?_
  cases key <;> grind

@[grind ←]
theorem objectPatternStep_keeps {parts : List Pattern} (here : Behind offset parts) :
    Keeps offset (g.objectPatternStep parts) := by
  unfold objectPatternStep
  grind

@[grind ←]
theorem patternAt_keeps : Keeps offset g.patternAt := by
  unfold patternAt
  grind

@[grind ←]
theorem decorators_keeps : Keeps offset g.decorators := by
  unfold decorators
  grind

theorem decorators_leads :
    Parse.Leads offset offset (Behind (offset + 1)) g.decorators := by
  unfold decorators
  refine Parse.Leads.andThen (P := Behind (offset + 1)) ?_ fun found behind => by grind
  refine Parse.Leads.loop (P := Behind (offset + 1)) (by simp) fun found behind => ?_
  refine Parse.Leads.ifMark ?_ (.pure (Nat.le_refl _) behind)
  refine .bind (Parse.inContext_leads keeps.leftHand) fun decorator here => ?_
  exact .pure (Nat.le_succ offset) ((behind_cons _).mpr ⟨here, behind⟩)

@[grind ←]
theorem parametersStep_keeps {parts : List Pattern} (here : Behind offset parts) :
    Keeps offset (g.parametersStep parts) := by
  unfold parametersStep
  refine .bind (Parse.eatMark_keeps _) fun closed _ => .ite (.pure (Nat.le_refl _) here) ?_
  grind [Pattern.behind_foldr]

@[grind ←]
theorem parameters_keeps : Keeps offset g.parameters := by
  unfold parameters
  grind

/-! Functions. -/

@[grind ←]
theorem statements_keeps : Keeps offset g.statements := by
  unfold statements
  grind

@[grind ←]
theorem block_keeps : Keeps offset g.block := by
  unfold block
  grind

@[grind ←]
theorem functionBody_keeps : Keeps offset g.functionBody := by
  unfold functionBody
  grind

@[grind ←]
theorem functionRest_keeps {start : Nat} (starts : offset ≤ start) (name : Option String)
    (isAsync isGenerator : Bool) :
    Keeps offset (g.functionRest start name isAsync isGenerator) := by
  unfold functionRest
  refine Parse.inContext_leads ?_
  grind

omit keeps in
@[grind ←]
theorem atAsyncFunction_keeps : Keeps offset atAsyncFunction := by
  unfold atAsyncFunction
  grind

omit keeps in
@[grind ←]
theorem atFunction_keeps : Keeps offset atFunction := by
  unfold atFunction
  grind

@[grind ←]
theorem function_keeps (isExpression nameRequired : Bool) :
    Keeps offset (g.function isExpression nameRequired) := by
  unfold function
  refine .bind Parse.token_keeps fun first opens => ?_
  grind

@[grind ←]
theorem accessorRest_keeps {start : Nat} (starts : offset ≤ start) (isSetter : Bool) :
    Keeps offset (g.accessorRest start isSetter) := by
  unfold accessorRest
  grind

/-! Classes. -/

omit keeps in
@[grind ←]
theorem atModifier_keeps (word : String) (sameLine : Bool) :
    Keeps offset (atModifier word sameLine) := by
  unfold atModifier
  grind

omit keeps in
@[grind ←]
theorem eatModifier_keeps (word : String) (sameLine : Bool) :
    Keeps offset (eatModifier word sameLine) := by
  unfold eatModifier
  grind

omit keeps in
@[grind ←]
theorem atStaticBlock_keeps : Keeps offset atStaticBlock := by
  unfold atStaticBlock
  grind

omit keeps in
@[grind ←]
theorem modifiers_keeps : Keeps offset modifiers := by
  unfold modifiers eatStatic
  grind

@[grind ←]
theorem fieldRest_keeps {decorators : List Expression} (modifiers : Modifiers) {key : PropertyKey}
    (decorated : Behind offset decorators) (named : Behind offset key) :
    Keeps offset (g.fieldRest decorators modifiers key) := by
  unfold fieldRest
  grind

@[grind ←]
theorem methodOrField_keeps {decorators : List Expression} (modifiers : Modifiers) {start : Nat}
    (starts : offset ≤ start) (decorated : Behind offset decorators) :
    Keeps offset (g.methodOrField decorators modifiers start) := by
  unfold methodOrField
  grind

@[grind ←]
theorem accessorMethod_keeps {decorators : List Expression} (modifiers : Modifiers)
    (isSetter : Bool) {start : Nat} (starts : offset ≤ start)
    (decorated : Behind offset decorators) :
    Keeps offset (g.accessorMethod decorators modifiers isSetter start) := by
  unfold accessorMethod
  grind

@[grind ←]
theorem staticBlock_keeps : Keeps offset g.staticBlock := by
  unfold staticBlock
  grind

@[grind ←]
theorem classMember_keeps : Keeps offset g.classMember := by
  unfold classMember
  refine .bind Parse.token_keeps fun first opens => ?_
  grind

@[grind ←]
theorem classBody_keeps : Keeps offset g.classBody := by
  unfold classBody
  grind

omit keeps in
@[grind ←]
theorem implementedName_keeps : Keeps offset implementedName := by
  unfold implementedName
  refine Keeps.named fun first text here => .bind (Parse.loop_keeps trivial fun _ _ => ?_) ?_
  · grind
  · grind

omit keeps in
@[grind ←]
theorem implementedNames_keeps : Keeps offset implementedNames := by
  unfold implementedNames
  grind

@[grind ←]
theorem heritage_keeps : Keeps offset g.heritage := by
  unfold heritage
  grind

omit keeps in
@[grind ←]
theorem className?_keeps : Keeps offset className? := by
  unfold className?
  grind

@[grind ←]
theorem classRest_keeps {start : Nat} {decorators : List Expression} (starts : offset ≤ start)
    (decorated : Behind offset decorators) : Keeps offset (g.classRest start decorators) := by
  unfold classRest
  grind

@[grind ←]
theorem classFrom_keeps {start : Nat} {decorators : List Expression} (starts : offset ≤ start)
    (decorated : Behind offset decorators) : Keeps offset (g.classFrom start decorators) := by
  unfold classFrom
  grind

end

end Grammar

end ModuleBundle.Script
