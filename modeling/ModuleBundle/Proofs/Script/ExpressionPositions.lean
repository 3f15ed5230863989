import ModuleBundle.Proofs.Script.BindingPositions
import ModuleBundle.Script.Grammar.Expression

/-!
Positions of what expressions are read as, from elements in angle brackets up to assignments.
-/

set_option autoImplicit false

namespace ModuleBundle.Script

variable {offset : Nat} {g : Grammar}

/-! Targets of assignments. -/

namespace Expression

open Parse (Keeps)

theorem behind_simpleTarget {e target : Expression} (here : Behind offset e)
    (found : e.simpleTarget? = some target) : Behind offset target := by
  fun_induction simpleTarget? e with
  | case4 inner ih => grind
  | case5 => cases found
  | _ =>
    cases found
    exact here

@[grind ←]
theorem toSimpleTarget_keeps {e : Expression} (here : Behind offset e) :
    Keeps offset e.toSimpleTarget := by
  unfold toSimpleTarget
  split
  next found => exact .pure (Nat.le_refl _) (behind_simpleTarget here found)
  next => exact .reject

@[grind ←]
theorem cover_keeps (place : Nat) : Keeps offset (cover place) :=
  Parse.modify_keeps (fun _ => rfl) fun _ => rfl

mutual

theorem targetOf_keeps (defaults : Bool) (e : Expression) (here : Behind offset e) :
    Keeps offset (targetOf defaults e) := by
  fun_cases targetOf defaults e with
  | case1 trailing parts =>
    have parts := elementTargets_keeps trailing parts (behind_group.mp here)
    grind
  | case2 trailing parts =>
    have parts := propertyTargets_keeps trailing parts (behind_group.mp here)
    grind
  | _ => grind

theorem elementTargets_keeps (trailing : Bool) (list : List Expression)
    (here : Behind offset list) : Keeps offset (elementTargets trailing list) := by
  fun_cases elementTargets trailing list with
  | case1 => grind
  | case2 parts rest =>
    have rest := elementTargets_keeps trailing rest
    grind
  | case3 argument rest alone =>
    have argument := targetOf_keeps false argument
    grind
  | case4 => grind
  | case5 e rest =>
    have target := targetOf_keeps true e
    have rest := elementTargets_keeps trailing rest
    grind

theorem propertyTargets_keeps (trailing : Bool) (list : List Expression)
    (here : Behind offset list) : Keeps offset (propertyTargets trailing list) := by
  fun_cases propertyTargets trailing list with
  | case1 => grind
  | case2 span text rest | case4 parts rest =>
    have others := propertyTargets_keeps trailing rest
    grind
  | case3 rest span text tail =>
    have others := propertyTargets_keeps trailing rest
    grind
  | case5 value rest =>
    have target := targetOf_keeps true value
    have others := propertyTargets_keeps trailing rest
    grind
  | case6 key value rest =>
    have target := targetOf_keeps true value
    have others := propertyTargets_keeps trailing rest
    grind
  | case7 | case8 | case9 => grind

end

@[grind ←]
theorem toTarget_keeps {e : Expression} (here : Behind offset e) : Keeps offset e.toTarget :=
  targetOf_keeps false e here

end Expression

/-! Elements. -/

namespace Grammar

open Parse (Keeps)

@[grind ←]
theorem elementName_keeps : Keeps offset elementName := by
  unfold elementName
  refine .bind Parse.token_keeps fun current here => ?_
  split
  next text escaped word =>
    have place := Token.behind_of_word here word
    refine .ite .reject ?_
    extract_lets isPart tail stop letters
    -- more letters may follow, so that the name ends where its token does or behind
    have further : current.stop ≤ stop := Nat.le_add_right _ _
    have named : Behind offset (Span.mk current.start stop) :=
      ⟨place.1, Nat.lt_of_lt_of_le place.2 further⟩
    clear_value stop
    grind
  next => exact .reject

@[grind ←]
theorem elementMember_keeps : Keeps offset elementMember := by
  unfold elementMember
  grind

@[grind ←]
theorem tagName_keeps : Keeps offset tagName := by
  unfold tagName
  refine .bind elementName_keeps fun (span, name) named => ?_
  refine .bind (Parse.eatMark_keeps _) fun colon _ => .ite ?_ ?_
  · grind
  · refine .bind (Parse.isMark_keeps _) fun dot _ => .ite ?_ ?_ <;> grind

@[grind ←]
theorem expectAngle_keeps : Keeps offset expectAngle := by
  unfold expectAngle
  grind

@[grind ←]
theorem plainString_keeps {place : Nat} (behind : offset ≤ place) (text : List Char) :
    Keeps offset (plainString place text) := by
  unfold plainString
  grind

variable (keeps : g.AllKeep)

section
include keeps

@[grind ←]
theorem bracedExpression_keeps : Keeps offset g.bracedExpression := by
  unfold bracedExpression
  grind

@[grind ←]
theorem attributeValue_keeps : Keeps offset g.attributeValue := by
  unfold attributeValue
  grind [Trivia.le_skip]

@[grind ←]
theorem spreadInBraces_keeps : Keeps offset g.spreadInBraces := by
  unfold spreadInBraces
  grind

@[grind ←]
theorem oneAttribute_keeps : Keeps offset g.oneAttribute := by
  unfold oneAttribute
  grind

@[grind ←]
theorem attributes_keeps : Keeps offset g.attributes := by
  unfold attributes
  grind

@[grind ←]
theorem children_keeps : Keeps offset g.children := by
  unfold children
  refine Parse.loop_keeps (by simp) fun found behind => ?_
  refine .bind Parse.get_keeps fun state here => ?_
  extract_lets start text plain
  have below : offset ≤ start := here.1
  clear_value start
  split <;> grind

@[grind ←]
theorem elementAt_keeps : Keeps offset g.elementAt := by
  unfold elementAt
  refine .bind (Parse.expectMark_keeps _) fun _ _ => .bind Parse.token_keeps fun first _ => ?_
  refine .ite ?_ ?_
  · grind
  · refine .bind tagName_keeps fun (opening, reference) named => ?_
    refine .bind (attributes_keeps keeps) fun attributes attributed => ?_
    refine .bind (Parse.eatMark_keeps _) fun closed _ => .ite ?_ ?_
    · grind
    · grind

/-! Literals and operands. -/

@[grind ←]
theorem spreadOr_keeps : Keeps offset g.spreadOr := by
  unfold spreadOr
  grind

@[grind ←]
theorem arguments_keeps : Keeps offset g.arguments := by
  unfold arguments
  grind

@[grind ←]
theorem template_keeps (isTagged : Bool) : Keeps offset (g.template isTagged) := by
  unfold template
  refine .bind Parse.token_keeps fun opening here => ?_
  refine Parse.Leads.andThen (P := Behind offset) ?_ fun found behind => by grind
  refine Parse.Leads.loop (P := fun entry => offset ≤ entry.1 ∧ Behind offset entry.2.2)
    ⟨by grind, behind_nil.mpr trivial⟩ fun (place, text, found) ⟨below, behind⟩ => ?_
  dsimp only at below behind ⊢
  split
  · exact .reject
  · refine .ite (.bind (Parse.resume_keeps (by omega) _) fun _ _ => .ite ?_ ?_) .reject
    · exact .pure (Nat.le_refl _) behind
    · refine .bind (Parse.allowingIn_leads (expression_keeps keeps)) fun e inside => ?_
      refine .bind Parse.token_keeps fun closing there => .ite (.pure (Nat.le_refl _) ?_) .reject
      exact ⟨by grind, (behind_cons _).mpr ⟨inside, behind⟩⟩

omit keeps in
@[grind ←]
theorem regularExpression_keeps : Keeps offset regularExpression := by
  unfold regularExpression
  grind

@[grind ←]
theorem array_keeps : Keeps offset g.array := by
  unfold array
  refine .bind (Parse.expectMark_keeps _) fun _ _ => .bind (Parse.allowingIn_leads ?_) ?_
  · refine Parse.loop_keeps (by simp) fun (elements, trailing) behind => ?_
    refine .bind (Parse.eatMark_keeps _) fun closed _ => .ite ?_ ?_ <;> grind
  · grind

omit keeps in
@[grind ←]
theorem markUncovered_keeps (place : Nat) : Keeps offset (markUncovered place) :=
  Parse.modify_keeps (fun _ => rfl) fun _ => rfl

omit keeps in
@[grind ←]
theorem behind_methodProperty {key : PropertyKey} {value : FunctionNode}
    (named : Behind offset key) (inside : Behind offset value) :
    Behind offset (methodProperty key value) := by
  unfold methodProperty
  grind

@[grind ←]
theorem accessorProperty_keeps {start : Nat} (starts : offset ≤ start) (isSetter : Bool) :
    Keeps offset (g.accessorProperty start isSetter) := by
  unfold accessorProperty
  grind

@[grind ←]
theorem plainProperty_keeps {start : Nat} (starts : offset ≤ start) :
    Keeps offset (g.plainProperty start) := by
  unfold plainProperty
  refine .bind (eatModifier_keeps _ _) fun isAsync _ => .bind (Parse.eatMark_keeps _) ?_
  refine fun isGenerator _ => .bind (propertyKey_keeps keeps) fun key named => ?_
  split
  · exact .reject
  · refine .bind (Parse.isMark_keeps _) fun opens _ => .ite ?_ ?_
    · grind
    · refine .bind (Parse.eatMark_keeps _) fun colon _ => .ite ?_ ?_ <;> grind

@[grind ←]
theorem property_keeps : Keeps offset g.property := by
  unfold property
  grind

@[grind ←]
theorem object_keeps : Keeps offset g.object := by
  unfold object
  refine .bind (Parse.expectMark_keeps _) fun _ _ => .bind (Parse.allowingIn_leads ?_) ?_
  · refine Parse.loop_keeps (by simp) fun (properties, trailing) behind => ?_
    refine .bind (Parse.eatMark_keeps _) fun closed _ => .ite ?_ ?_ <;> grind
  · grind

theorem dynamicImport_leads {start : Nat} (starts : offset ≤ start) :
    Parse.Leads (offset + 1) offset (Behind offset) (g.dynamicImport start) := by
  unfold dynamicImport
  refine .bind (Parse.expectMark_keeps _) fun _ _ => ?_
  refine .bind (Parse.allowingIn_leads keeps.assignment) fun source named => ?_
  extract_lets rest
  have onward (options : List Expression) (behind : Behind (offset + 1) options) :
      Parse.Leads (offset + 1) offset (Behind offset) (rest options) := by
    refine .bind (Parse.expectMark_keeps _) fun _ _ => .lastStop fun stop further => ?_
    have source := Positioned.mono (Nat.le_succ offset) named
    have options := Positioned.mono (Nat.le_succ offset) behind
    grind
  clear_value rest
  grind

@[grind ←]
theorem importExpression_keeps : Keeps offset g.importExpression := by
  unfold importExpression
  refine Parse.Leads.keyword fun first starts => ?_
  have called := dynamicImport_leads keeps starts
  grind

@[grind ←]
theorem construct_keeps : Keeps offset g.construct := by
  unfold construct
  grind

omit keeps in
@[grind ←]
theorem superReference_keeps : Keeps offset superReference := by
  unfold superReference
  grind

@[grind ←]
theorem classExpression_keeps : Keeps offset g.classExpression := by
  unfold classExpression
  grind

omit keeps in
@[grind ←]
theorem keywordLiteral_keeps (form : Form) : Keeps offset (keywordLiteral form) := by
  unfold keywordLiteral
  grind

@[grind ←]
theorem wordExpression_keeps (word : String) : Keeps offset (g.wordExpression word) := by
  unfold wordExpression
  grind

@[grind ←]
theorem primary_keeps : Keeps offset g.primary := by
  unfold primary
  grind

/-! Members and calls. -/

omit keeps in
@[grind ←]
theorem memberName_keeps : Keeps offset memberName := by
  unfold memberName
  grind

@[grind ←]
theorem indexed_keeps {e : Expression} (here : Behind offset e) : Keeps offset (g.indexed e) := by
  unfold indexed
  grind

@[grind ←]
theorem memberStep_keeps {entry : Expression × Bool} (here : Behind offset entry) :
    Keeps offset (g.memberStep entry) := by
  obtain ⟨e, inChain⟩ := entry
  unfold memberStep
  refine .bind Parse.context_keeps fun context _ => .bind (Parse.eatMark_keeps _) fun dot _ => ?_
  refine .ite (by grind) (.bind (Parse.isMark_keeps _) fun bracket _ => .ite (by grind) ?_)
  refine .bind (Parse.isMark_keeps _) fun backtick _ => .ite (by grind) ?_
  grind

@[grind ←]
theorem memberAt_keeps : Keeps offset g.memberAt := by
  unfold memberAt
  grind

@[grind ←]
theorem callStep_keeps (start : Nat) {entry : Expression × Bool} (here : Behind offset entry) :
    Keeps offset (g.callStep start entry) := by
  unfold callStep
  grind

@[grind ←]
theorem leftHandAt_keeps : Keeps offset g.leftHandAt := by
  unfold leftHandAt
  grind

/-! Operators. -/

@[grind ←]
theorem update_keeps : Keeps offset g.update := by
  unfold update
  grind

omit keeps in
@[grind ←]
theorem isOperatorWord_keeps (word : String) (allowed : Bool) :
    Keeps offset (isOperatorWord word allowed) := by
  unfold isOperatorWord
  grind

@[grind ←]
theorem unaryAt_keeps : Keeps offset g.unaryAt := by
  unfold unaryAt
  grind

omit keeps in
@[grind ←]
theorem binaryOperator?_keeps : Keeps offset binaryOperator? := by
  have anywhere (found : Option (Nat × Form)) : Behind offset found :=
    fun _ _ => ⟨trivial, trivial⟩
  unfold binaryOperator?
  grind

@[grind ←]
theorem binaryRest_keeps (least : Nat) (enclosed : Bool) {e : Expression}
    (here : Behind offset e) : Keeps offset (g.binaryRest least enclosed e) := by
  unfold binaryRest
  grind

@[grind ←]
theorem privateTest_keeps (least : Nat) : Keeps offset (g.privateTest least) := by
  unfold privateTest
  grind

@[grind ←]
theorem binaryAt_keeps (least : Nat) : Keeps offset (g.binaryAt least) := by
  unfold binaryAt
  grind

@[grind ←]
theorem yieldExpression_keeps : Keeps offset g.yieldExpression := by
  unfold yieldExpression
  grind

/-! Arrow functions and assignments. -/

omit keeps in
@[grind ←]
theorem expectArrow_keeps : Keeps offset expectArrow := by
  unfold expectArrow
  grind

@[grind ←]
theorem arrowParameters_keeps (isAsync : Bool) : Keeps offset (g.arrowParameters isAsync) := by
  unfold arrowParameters
  grind

omit keeps in
@[grind ←]
theorem asyncArrowParameter_keeps : Keeps offset asyncArrowParameter := by
  unfold asyncArrowParameter
  grind

omit keeps in
@[grind ←]
theorem arrowChance_keeps : Keeps offset arrowChance := by
  unfold arrowChance
  grind

@[grind ←]
theorem arrowHeadBy?_keeps (isAsync : Bool) (chance : ArrowChance) :
    Keeps offset (g.arrowHeadBy? isAsync chance) := by
  unfold arrowHeadBy?
  split
  · grind
  · grind
  · refine .bind Parse.token_keeps fun first _ => .bind Parse.get_keeps fun state _ => ?_
    refine .ite (by grind) ?_
    refine .bind (Parse.attempt_keeps (arrowParameters_keeps keeps isAsync)) fun found behind => ?_
    refine .ite ?_ (.pure (Nat.le_refl _) behind)
    exact .bind (Parse.modify_keeps (fun _ => rfl) fun _ => rfl) fun _ _ => by grind

@[grind ←]
theorem arrowHead?_keeps : Keeps offset g.arrowHead? := by
  unfold arrowHead?
  refine .bind Parse.token_keeps fun first _ => ?_
  split
  · grind
  · refine .bind Parse.peek_keeps fun next _ => .ite (by grind) ?_
    split
    · exact .bind (Parse.lookahead_keeps (by grind)) fun chance _ => by grind
    · grind
    · grind
  · grind

omit keeps in
@[grind ←]
theorem isMisreadElement_keeps : Keeps offset isMisreadElement := by
  unfold isMisreadElement
  grind

@[grind ←]
theorem arrowRest_keeps (isAsync : Bool) {parameters : List Pattern}
    (bound : Behind offset parameters) : Keeps offset (g.arrowRest isAsync parameters) := by
  unfold arrowRest
  refine .bind (Parse.inContext_leads ?_) fun body inside => ?_
  · refine .bind (Parse.isMark_keeps _) fun opens _ => .ite ?_ ?_ <;> grind
  · grind

@[grind ←]
theorem conditionalRest_keeps {e : Expression} (here : Behind offset e) :
    Keeps offset (g.conditionalRest e) := by
  unfold conditionalRest
  grind

@[grind ←]
theorem assignmentRest_keeps {e : Expression} (here : Behind offset e) :
    Keeps offset (g.assignmentRest e) := by
  unfold assignmentRest
  grind

@[grind ←]
theorem assignmentAt_keeps : Keeps offset g.assignmentAt := by
  unfold assignmentAt
  refine .bind Parse.context_keeps fun context _ => .bind (isOperatorWord_keeps _ _) ?_
  refine fun yields _ => .ite (yieldExpression_keeps keeps) ?_
  refine .bind (arrowHead?_keeps keeps) fun found behind => ?_
  rcases found with _ | ⟨isAsync, parameters⟩ <;> grind

end

end Grammar

end ModuleBundle.Script
