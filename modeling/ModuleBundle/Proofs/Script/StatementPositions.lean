import ModuleBundle.Proofs.Script.ExpressionPositions
import ModuleBundle.Script.Grammar.Module

/-!
Positions of what statements are read as. An import or export takes up text behind its beginning,
as it starts with a keyword. The grammar of every depth of nesting keeps to what lies behind.
-/

set_option autoImplicit false

namespace ModuleBundle.Script

variable {offset : Nat} {g : Grammar}

namespace Grammar

open Parse (Keeps Leads)

variable (keeps : g.AllKeep)

section
include keeps

/-! Declarations. -/

@[grind ←]
theorem parenthesized_keeps : Keeps offset g.parenthesized := by
  unfold parenthesized
  grind

@[grind ←]
theorem bindings_keeps : Keeps offset g.bindings := by
  unfold bindings
  refine .bind (Parse.loop_keeps (by simp) fun found behind => ?_) fun found behind => by grind
  refine .bind (patternAt_keeps keeps) fun pattern here => ?_
  extract_lets rest
  have onward (next : Pattern) (bound : Behind offset next) : Keeps offset (rest next) := by
    refine .bind (Parse.eatMark_keeps _) fun comma _ => ?_
    grind
  clear_value rest
  grind

@[grind ←]
theorem declarationRest_keeps (start : Nat) (kind : DeclarationKind) (standing : Standing) :
    Keeps offset (g.declarationRest start kind standing) := by
  unfold declarationRest
  grind

omit keeps in
@[grind ←]
theorem atResourceName_keeps : Keeps offset atResourceName := by
  unfold atResourceName
  grind

omit keeps in
@[grind ←]
theorem resourceKeyword?_keeps : Keeps offset resourceKeyword? := by
  unfold resourceKeyword?
  grind

@[grind ←]
theorem expressionStatement_keeps : Keeps offset g.expressionStatement := by
  unfold expressionStatement
  refine .bind Parse.token_keeps fun first opens => ?_
  refine .bind (Parse.outsideDecorator_leads (Parse.sequence_keeps (assignmentAt_keeps keeps))) ?_
  refine fun e here => .bind Parse.token_keeps fun next _ => ?_
  split <;> grind

/-! Loops and choices. -/

@[grind ←]
theorem conditional_keeps : Keeps offset g.conditional := by
  unfold conditional
  grind

@[grind ←]
theorem doLoop_keeps : Keeps offset g.doLoop := by
  unfold doLoop
  grind

@[grind ←]
theorem keywordLoop_keeps (keyword : String) (form : StatementForm) :
    Keeps offset (g.keywordLoop keyword form) := by
  unfold keywordLoop
  grind

@[grind ←]
theorem loopRest_keeps (awaits : Bool) {head : List Statement} (here : Behind offset head) :
    Keeps offset (g.loopRest awaits head) := by
  unfold loopRest
  refine .bind (Parse.expectMark_keeps _) fun _ _ => .bind (Parse.isMark_keeps _) fun _ _ => ?_
  extract_lets afterTest
  have tested (test : List Expression) (behind : Behind offset test) :
      Keeps offset (afterTest test) := by
    refine .bind (Parse.expectMark_keeps _) fun _ _ => .bind (Parse.isMark_keeps _) fun _ _ => ?_
    extract_lets afterStep
    have stepped (step : List Expression) (further : Behind offset step) :
        Keeps offset (afterStep step) := by
      refine .bind (Parse.expectMark_keeps _) fun _ _ => ?_
      grind
    clear_value afterStep
    grind
  clear_value afterTest
  grind

@[grind ←]
theorem eachRest_keeps (awaits : Bool) {head : Statement} (here : Behind offset head) :
    Keeps offset (g.eachRest awaits head) := by
  unfold eachRest
  grind

omit keeps in
@[grind ←]
theorem atEach_keeps : Keeps offset atEach := by
  unfold atEach
  grind

@[grind ←]
theorem declaredLoopRest_keeps (awaits : Bool) (kind : DeclarationKind) (start : Nat)
    {found : List Pattern} (here : Behind offset found) :
    Keeps offset (g.declaredLoopRest awaits kind start found) := by
  unfold declaredLoopRest
  grind

omit keeps in
@[grind ←]
theorem headed_keeps {α : Type} [Positioned α] {parse : Parse α} (each : Keeps offset parse) :
    Keeps offset (headed parse) :=
  Parse.inContext_leads each

@[grind ←]
theorem loopOverDeclaration_keeps (awaits : Bool) (kind : DeclarationKind) :
    Keeps offset (g.loopOverDeclaration awaits kind) := by
  unfold loopOverDeclaration
  grind

@[grind ←]
theorem loopOverExpression_keeps (awaits : Bool) : Keeps offset (g.loopOverExpression awaits) := by
  unfold loopOverExpression
  refine .bind Parse.token_keeps fun first opens => .bind Parse.peek_keeps fun next _ => ?_
  extract_lets beforeOf misread
  clear_value misread
  refine .bind (headed_keeps (expression_keeps keeps)) fun e here => ?_
  refine .bind atEach_keeps fun each _ => .ite ?_ ?_ <;> grind

@[grind ←]
theorem loopOverResource_keeps (awaits : Bool) : Keeps offset (g.loopOverResource awaits) := by
  unfold loopOverResource
  refine .bind Parse.token_keeps fun first _ => .bind (Parse.foresees_keeps _) fun isLoopOf _ => ?_
  grind

@[grind ←]
theorem forLoop_keeps : Keeps offset g.forLoop := by
  unfold forLoop
  refine .bind (Parse.expectWord_keeps _) fun _ _ => .bind (Parse.isWord_keeps _) fun awaits _ => ?_
  extract_lets rest
  have onward (u : Unit) : Keeps offset (rest u) := by
    refine .bind (Parse.expectMark_keeps _) fun _ _ => .bind Parse.token_keeps fun next _ => ?_
    split <;> grind
  clear_value rest
  grind

@[grind ←]
theorem clauseBody_keeps : Keeps offset g.clauseBody := by
  unfold clauseBody
  grind

@[grind ←]
theorem clause_keeps : Keeps offset g.clause := by
  unfold clause
  refine .bind (Parse.eatWord_keeps _) fun isDefault _ => ?_
  extract_lets rest
  have onward (tests : List Expression) (behind : Behind offset tests) :
      Keeps offset (rest tests) := by
    refine .bind (Parse.expectMark_keeps _) fun _ _ => ?_
    grind
  clear_value rest
  grind

@[grind ←]
theorem switch_keeps : Keeps offset g.switch := by
  unfold switch
  refine .bind (Parse.expectWord_keeps _) fun _ _ => ?_
  refine .bind (parenthesized_keeps keeps) fun subject here => ?_
  grind

@[grind ←]
theorem handler_keeps : Keeps offset g.handler := by
  unfold handler
  refine .bind (Parse.expectWord_keeps _) fun _ _ => .bind (Parse.eatMark_keeps _) fun _ _ => ?_
  extract_lets rest
  have onward (parameter : List Pattern) (bound : Behind offset parameter) :
      Keeps offset (rest parameter) := by
    refine .bind (block_keeps keeps) fun body inside => ?_
    grind
  clear_value rest
  grind

@[grind ←]
theorem tryBlock_keeps : Keeps offset g.tryBlock := by
  unfold tryBlock
  refine .bind (Parse.expectWord_keeps _) fun _ _ => .bind (block_keeps keeps) fun body inside => ?_
  refine .bind (Parse.isWord_keeps _) fun _ _ => ?_
  extract_lets afterHandlers
  have handled (handlers : List Statement) (behind : Behind offset handlers) :
      Keeps offset (afterHandlers handlers) := by
    refine .bind (Parse.eatWord_keeps _) fun _ _ => ?_
    extract_lets afterFinalizer
    have finished (finalizer : List Statement) (further : Behind offset finalizer) :
        Keeps offset (afterFinalizer finalizer) := by
      refine .ite .reject ?_
      grind
    clear_value afterFinalizer
    grind
  clear_value afterHandlers
  grind

/-! Jumps and declarations among statements. -/

omit keeps in
@[grind ←]
theorem jump_keeps : Keeps offset jump := by
  unfold jump
  grind

@[grind ←]
theorem throws_keeps : Keeps offset g.throws := by
  unfold throws
  grind

@[grind ←]
theorem returns_keeps : Keeps offset g.returns := by
  unfold returns
  grind

@[grind ←]
theorem functionDeclaration_keeps (standing : Standing) :
    Keeps offset (g.functionDeclaration standing) := by
  unfold functionDeclaration
  grind

@[grind ←]
theorem classDeclaration_keeps (standing : Standing) {start : Nat} {decorators : List Expression}
    (starts : offset ≤ start) (decorated : Behind offset decorators) :
    Keeps offset (g.classDeclaration standing start decorators) := by
  unfold classDeclaration
  grind

@[grind ←]
theorem letStatement_keeps (standing : Standing) : Keeps offset (g.letStatement standing) := by
  unfold letStatement
  refine .bind Parse.token_keeps fun first opens => .bind Parse.peek_keeps fun next _ => ?_
  refine .ite ?_ (.ite ?_ (.ite ?_ ?_)) <;> grind

@[grind ←]
theorem keywordStatement_keeps (standing : Standing) (word : String) :
    Keeps offset (g.keywordStatement standing word) := by
  unfold keywordStatement
  refine .bind Parse.token_keeps fun first opens => ?_
  extract_lets start
  have starts : offset ≤ start := opens.starts
  clear_value start
  -- one case for each keyword
  refine .ite (conditional_keeps keeps) <| .ite (doLoop_keeps keeps) <|
    .ite (keywordLoop_keeps keeps _ _) <| .ite (keywordLoop_keeps keeps _ _) <|
    .ite (forLoop_keeps keeps) <| .ite (switch_keeps keeps) <| .ite (tryBlock_keeps keeps) <|
    .ite (throws_keeps keeps) <| .ite (returns_keeps keeps) <| .ite jump_keeps ?_
  grind

/-! Interfaces. -/

omit keeps in
@[grind ←]
theorem endSignature_keeps : Keeps offset endSignature := by
  unfold endSignature
  grind

@[grind ←]
theorem parameterSignature_keeps {keys : List Expression} (named : Behind offset keys) :
    Keeps offset (g.parameterSignature keys) := by
  unfold parameterSignature
  grind

@[grind ←]
theorem signatureKey_keeps : Keeps offset g.signatureKey := by
  unfold signatureKey
  grind

@[grind ←]
theorem namedSignature_keeps : Keeps offset g.namedSignature := by
  unfold namedSignature
  refine .bind (atModifier_keeps _ _) fun isStatic _ => ?_
  extract_lets rest
  have onward (u : Unit) : Keeps offset (rest u) := by
    refine .bind (eatModifier_keeps _ _) fun _ _ => .bind (eatModifier_keeps _ _) fun getter _ => ?_
    refine .ite (by grind) (.bind (eatModifier_keeps _ _) fun setter _ => .ite (by grind) ?_)
    refine .bind (signatureKey_keeps keeps) fun keys named => ?_
    grind
  clear_value rest
  grind

@[grind ←]
theorem signature_keeps : Keeps offset g.signature := by
  unfold signature
  grind

@[grind ←]
theorem interfaceHeritage_keeps : Keeps offset g.interfaceHeritage := by
  unfold interfaceHeritage
  grind

@[grind ←]
theorem interface_keeps : Keeps offset g.interface := by
  unfold interface
  refine .bind Parse.token_keeps fun first _ => .bind (Parse.expectWord_keeps _) fun _ _ => ?_
  refine .bind Parse.bindingName_keeps fun name _ => .bind (interfaceHeritage_keeps keeps) ?_
  refine fun extended inherited => .bind (Parse.expectMark_keeps _) fun _ _ => ?_
  refine .bind (Parse.loop_keeps (by simp) fun found behind => ?_) fun members behind => ?_
  · grind
  · have keys : Behind offset (members.flatMap Signature.keys) :=
      (behind_flatMap _ _).mpr fun member listed => (behind member listed).1
    have parameters : Behind offset (members.flatMap Signature.parameters) :=
      (behind_flatMap _ _).mpr fun member listed => (behind member listed).2
    grind

/-! Imports. -/

omit keeps

@[grind ←]
theorem exportName_keeps : Keeps offset exportName := by
  unfold exportName
  grind

@[grind ←]
theorem moduleRequest_keeps : Keeps offset moduleRequest := by
  unfold moduleRequest
  grind

@[grind ←]
theorem importAttribute_keeps : Keeps offset importAttribute := by
  unfold importAttribute
  grind

@[grind ←]
theorem importAttributes_keeps : Keeps offset importAttributes := by
  unfold importAttributes
  grind

@[grind ←]
theorem fromClause_keeps : Keeps offset fromClause := by
  unfold fromClause
  grind

@[grind ←]
theorem importedBinding_keeps (name : String) : Keeps offset (importedBinding name) := by
  unfold importedBinding
  grind

@[grind ←]
theorem importSpecifier_keeps : Keeps offset importSpecifier := by
  unfold importSpecifier
  grind

@[grind ←]
theorem importSpecifiers_keeps : Keeps offset importSpecifiers := by
  unfold importSpecifiers
  grind

@[grind ←]
theorem wholeSpecifier_keeps : Keeps offset wholeSpecifier := by
  unfold wholeSpecifier
  grind

@[grind ←]
theorem importClause_keeps (name : Option String) : Keeps offset (importClause name) := by
  have anywhere (list : List ImportSpecifier) : Behind offset list := fun _ _ => trivial
  unfold importClause
  grind

@[grind ←]
theorem importName?_keeps : Keeps offset importName? := by
  unfold importName?
  refine .bind Parse.token_keeps fun current _ => ?_
  split
  · refine .ite (by grind) (.bind Parse.bindingName_keeps fun first _ => ?_)
    refine .bind Parse.peek_keeps fun next _ => .bind Parse.token_keeps fun after _ => ?_
    split <;> grind
  · grind

@[grind ←]
theorem importDeclaration_keeps : Keeps offset importDeclaration := by
  unfold importDeclaration
  refine Leads.keyword fun first starts => .bind importName?_keeps fun name _ => ?_
  refine .bind Parse.token_keeps fun next _ => .ite ?_ ?_
  · refine .bind moduleRequest_keeps fun source _ => ?_
    grind
  · refine .bind (importClause_keeps name) fun specifiers _ => .bind fromClause_keeps fun source _ => ?_
    grind

/-! Exports. -/

@[grind ←]
theorem exportSpecifier_keeps : Keeps offset exportSpecifier := by
  unfold exportSpecifier
  grind

@[grind ←]
theorem exportSource?_keeps : Keeps offset exportSource? := by
  unfold exportSource?
  grind

theorem exportList_leads {start : Nat} (starts : offset ≤ start) :
    Leads (offset + 1) offset (Behind offset) (exportList start) := by
  unfold exportList
  refine .bind (Parse.expectMark_keeps _) fun _ _ => ?_
  refine .bind (Parse.commaSeparated_keeps exportSpecifier_keeps) fun found listed => ?_
  have specifiers : Behind offset (found.map fun entry => entry.1) :=
    List.forall_mem_map.mpr fun entry member =>
      Positioned.mono (Nat.le_succ offset) (listed entry member).1
  refine .bind exportSource?_keeps fun source _ => .ite ?_ .reject
  grind

theorem exportAll_leads {start : Nat} (starts : offset ≤ start) :
    Leads (offset + 1) offset (Behind offset) (exportAll start) := by
  unfold exportAll
  refine .bind (Parse.expectMark_keeps _) fun _ _ => .bind (Parse.eatWord_keeps _) fun _ _ => ?_
  extract_lets rest
  have onward (name : Option String) : Leads (offset + 1) offset (Behind offset) (rest name) := by
    refine .bind fromClause_keeps fun source _ => ?_
    grind
  clear_value rest
  grind

@[grind ←]
theorem atInterface_keeps : Keeps offset atInterface := by
  unfold atInterface
  grind

@[grind ←]
theorem atExportedClass_keeps : Keeps offset atExportedClass := by
  unfold atExportedClass
  grind

@[grind ←]
theorem atAbstractClass_keeps : Keeps offset atAbstractClass := by
  unfold atAbstractClass
  grind

include keeps

@[grind ←]
theorem exportedClass_keeps {decorators : List Expression} (decorated : Behind offset decorators) :
    Keeps offset (g.exportedClass decorators) := by
  unfold exportedClass
  grind

@[grind ←]
theorem defaultDeclaration_keeps {decorators : List Expression}
    (decorated : Behind offset decorators) : Keeps offset (g.defaultDeclaration decorators) := by
  unfold defaultDeclaration
  refine .bind Parse.token_keeps fun first opens => .bind atExportedClass_keeps fun _ _ => ?_
  refine .ite (by grind) (.bind atAbstractClass_keeps fun _ _ => .ite (by grind) ?_)
  refine .ite .reject (.bind atFunction_keeps fun _ _ => .ite (by grind) ?_)
  grind

@[grind ←]
theorem exportedDeclaration_keeps {decorators : List Expression}
    (decorated : Behind offset decorators) : Keeps offset (g.exportedDeclaration decorators) := by
  unfold exportedDeclaration
  grind

@[grind ←]
theorem exportStatement_keeps {decorators : List Expression}
    (decorated : Behind (offset + 1) decorators) : Keeps offset (g.exportStatement decorators) := by
  unfold exportStatement
  refine Leads.keyword fun first starts => .bind (Parse.isMark_keeps _) fun _ _ => ?_
  refine .ite (exportAll_leads starts) (.bind (Parse.isMark_keeps _) fun _ _ => ?_)
  refine .ite (exportList_leads starts) (.bind (Parse.eatWord_keeps _) fun _ _ => .ite ?_ ?_)
  · refine .bind (defaultDeclaration_keeps keeps decorated) fun declaration inside => ?_
    grind
  · refine .bind Parse.token_keeps fun next opens => ?_
    refine .bind (exportedDeclaration_keeps keeps decorated) fun declaration inside => ?_
    have below := Positioned.mono (Nat.le_succ offset) inside
    grind

@[grind ←]
theorem decorated_keeps (standing : Standing) : Keeps offset (g.decorated standing) := by
  unfold decorated
  refine .bind Parse.token_keeps fun first opens => .andThen (decorators_leads keeps) ?_
  intro decorators ahead
  have decorated := Positioned.mono (Nat.le_succ offset) ahead
  grind

@[grind ←]
theorem statementAt_keeps (standing : Standing) : Keeps offset (g.statementAt standing) := by
  unfold statementAt
  grind

theorem next_keeps : g.next.AllKeep where
  assignment := assignmentAt_keeps keeps
  binary := binaryAt_keeps keeps
  unary := unaryAt_keeps keeps
  member := memberAt_keeps keeps
  leftHand := leftHandAt_keeps keeps
  element := elementAt_keeps keeps
  pattern := patternAt_keeps keeps
  statement := statementAt_keeps keeps

omit keeps in
/-- However deep parsers nest, what they answer lies behind where they started. -/
theorem nested_keeps (depth : Nat) : (nested depth).AllKeep := by
  induction depth with
  | zero => exact bottom_keeps
  | succ depth ih => exact next_keeps ih

end

end Grammar

end ModuleBundle.Script
