import ModuleBundle.Proofs.Lowering.Occurrences

/-!
The walk over references with a stack of scopes: every construct pushes the imported names
it shadows, walks what it contains and pops them. It comes to the edits of the walk that
hands the visible readings down, and leaves the stack as it found it.
-/

set_option autoImplicit false

namespace ModuleBundle

open Script

/-- What a walk carries: the scopes around it, the innermost first, each with the imported
names that it shadows; and the edits so far. -/
structure Walk where
  scopes : List (List String)
  edits : List Edit

namespace Walk

def start : Walk := ⟨[], []⟩

def visible (imports : Readings) (w : Walk) : Readings := fun name =>
  if w.scopes.any (·.contains name) then none else imports name

def refer (imports : Readings) (span : Span) (name : String) (write : Reading → String)
    (w : Walk) : Walk :=
  { w with edits := w.edits ++ Edit.ofReading (w.visible imports) span name write }

def push (imports : Readings) (construct : Construct) (w : Walk) : Walk :=
  { w with scopes := construct.names.filter (fun name => (imports name).isSome) :: w.scopes }

def pop (w : Walk) : Walk := { w with scopes := w.scopes.tail }

end Walk

namespace Script

mutual

def Expression.walk (imports : Readings) : Expression → Walk → Walk
  | .name span text, w => w.refer imports span text Reading.text
  | .shorthand span text, w =>
    w.refer imports span text fun reading => text ++ ": " ++ reading.text
  | .string _ _, w => w
  | .call _ (.name span text) arguments, w =>
    Expression.walkOfList imports arguments (w.refer imports span text Reading.calleeText)
  | .call _ callee arguments, w =>
    Expression.walkOfList imports arguments (callee.walk imports w)
  | .dynamicImport _ source options, w =>
    Expression.walkOfList imports options (source.walk imports w)
  | .function value, w => value.walk imports w
  | .arrow parameters body, w =>
    (Statement.walkOfList imports body (Pattern.walkOfList imports parameters
      (w.push imports (.function none parameters body)))).pop
  | .classNode value, w => value.walk imports w
  | .await argument, w => argument.walk imports w
  | .group _ parts, w => Expression.walkOfList imports parts w

def Expression.walkOfList (imports : Readings) : List Expression → Walk → Walk
  | [], w => w
  | e :: rest, w => Expression.walkOfList imports rest (e.walk imports w)

def Pattern.walk (imports : Readings) : Pattern → Walk → Walk
  | .name _, w => w
  | .nested parts, w => Pattern.walkOfList imports parts w
  | .keyed key pattern, w => pattern.walk imports (key.walk imports w)
  | .withDefault pattern value, w => value.walk imports (pattern.walk imports w)

def Pattern.walkOfList (imports : Readings) : List Pattern → Walk → Walk
  | [], w => w
  | pattern :: rest, w => Pattern.walkOfList imports rest (pattern.walk imports w)

def FunctionNode.walk (imports : Readings) : FunctionNode → Walk → Walk
  | .mk _ name _ _ _ parameters body, w =>
    (Statement.walkOfList imports body (Pattern.walkOfList imports parameters
      (w.push imports (.function name parameters body)))).pop

def ClassNode.walk (imports : Readings) : ClassNode → Walk → Walk
  | .mk _ name decorators heritage members, w =>
    (Member.walkOfList imports members (Expression.walkOfList imports heritage
      (Expression.walkOfList imports decorators (w.push imports (.classNode name))))).pop

def Member.walk (imports : Readings) : Member → Walk → Walk
  | .method decorators key value, w =>
    value.walk imports (Expression.walkOfList imports key
      (Expression.walkOfList imports decorators w))
  | .field decorators key value, w =>
    Expression.walkOfList imports value (Expression.walkOfList imports key
      (Expression.walkOfList imports decorators w))
  | .staticBlock body, w =>
    (Statement.walkOfList imports body (w.push imports (.staticBlock body))).pop

def Member.walkOfList (imports : Readings) : List Member → Walk → Walk
  | [], w => w
  | member :: rest, w => Member.walkOfList imports rest (member.walk imports w)

def Statement.walk (imports : Readings) : Statement → Walk → Walk
  | .expression _ value, w => value.walk imports w
  | .declaration _ _ bindings, w => Pattern.walkOfList imports bindings w
  | .function value, w => value.walk imports w
  | .classNode value, w => value.walk imports w
  | .block body, w => (Statement.walkOfList imports body (w.push imports (.block body))).pop
  | .switch subject cases, w =>
    (Statement.walkOfList imports cases
      (subject.walk imports (w.push imports (.switch cases)))).pop
  | .clause tests body, w =>
    Statement.walkOfList imports body (Expression.walkOfList imports tests w)
  | .handler parameter body, w =>
    let inner := Pattern.walkOfList imports parameter (w.push imports (.handler parameter))
    (Statement.walkOfList imports body (inner.push imports (.block body))).pop.pop
  | .loop head controls body, w =>
    (body.walk imports (Expression.walkOfList imports controls
      (Statement.walkOfList imports head (w.push imports (.loop head))))).pop
  | .each _ head subject body, w =>
    (body.walk imports (subject.walk imports
      (head.walk imports (w.push imports (.loop [head]))))).pop
  | .group _ parts body, w =>
    Statement.walkOfList imports body (Expression.walkOfList imports parts w)
  | .importDeclaration _, w => w
  | .exportList _ specifiers none, w =>
    specifiers.foldl (fun w specifier =>
      w.refer imports specifier.span specifier.source Reading.text) w
  | .exportList _ _ (some _), w => w
  | .exportAll _ _ _, w => w
  | .exportDeclaration _ _ inner, w => inner.walk imports w
  | .exportDefault _ inner, w => inner.walk imports w

def Statement.walkOfList (imports : Readings) : List Statement → Walk → Walk
  | [], w => w
  | statement :: rest, w => Statement.walkOfList imports rest (statement.walk imports w)

end

end Script

namespace Walk

variable {imports : Readings}

def emit (edits : List Edit) (w : Walk) : Walk := { w with edits := w.edits ++ edits }

theorem emit_nil (w : Walk) : w.emit [] = w := by
  simp [emit]

theorem emit_emit (w : Walk) (first second : List Edit) :
    (w.emit first).emit second = w.emit (first ++ second) := by
  simp [emit, List.append_assoc]

theorem visible_emit (w : Walk) (edits : List Edit) :
    (w.emit edits).visible imports = w.visible imports :=
  rfl

theorem refer_eq_emit (w : Walk) (span : Span) (name : String) (write : Reading → String) :
    w.refer imports span name write =
      w.emit (Edit.ofReading (w.visible imports) span name write) :=
  rfl

/-- What is emitted under a scope is emitted beside it once the scope is popped. -/
theorem pop_emit_push (w : Walk) (construct : Construct) (edits : List Edit) :
    ((w.push imports construct).emit edits).pop = w.emit edits :=
  rfl

theorem visible_push (w : Walk) (construct : Construct) :
    (w.push imports construct).visible imports = (w.visible imports).hide construct.names := by
  funext name
  by_cases known : (imports name).isSome
  · by_cases here : name ∈ construct.names <;> simp [visible, push, Readings.hide, known, here]
  · have unknown : imports name = none := by simpa using known
    simp [visible, push, Readings.hide, unknown]

theorem refer_foldl {α : Type} (span : α → Span) (name : α → String) (write : Reading → String)
    (items : List α) (w : Walk) :
    items.foldl (fun w item => w.refer imports (span item) (name item) write) w =
      w.emit (items.flatMap fun item =>
        Edit.ofReading (w.visible imports) (span item) (name item) write) := by
  induction items generalizing w with
  | nil => simp [emit_nil]
  | cons item rest ih =>
    rw [List.foldl_cons, ih, refer_eq_emit, visible_emit, emit_emit, List.flatMap_cons]

end Walk

namespace Script

/-! A walk emits the edits under the readings visible at its start, by induction on what is
walked: under a pushed scope the visible readings are those left by hiding its names. -/

section
variable (imports : Readings)

theorem Expression.walk_call {callee : Expression}
    (indirect : ¬ ∃ span name, callee = .name span name) (span : Span)
    (arguments : List Expression) (w : Walk) :
    (Expression.call span callee arguments).walk imports w =
      Expression.walkOfList imports arguments (callee.walk imports w) := by
  cases callee with
  | name span name => exact absurd ⟨span, name, rfl⟩ indirect
  | _ => rfl

mutual

theorem Expression.walk_eq : (e : Expression) → (w : Walk) →
    e.walk imports w = w.emit (e.referenceEdits (w.visible imports))
  | .name _ _, _ => rfl
  | .shorthand _ _, _ => rfl
  | .string _ _, w => w.emit_nil.symm
  | .call span callee arguments, w => by
    -- a direct callee is written in a form of its own
    have inCallee := Expression.walk_eq callee w
    have inArguments := Expression.walkOfList_eq arguments
    by_cases direct : ∃ span name, callee = .name span name
    · obtain ⟨span, name, rfl⟩ := direct
      simp only [Expression.walk, Expression.referenceEdits, Walk.refer_eq_emit, inArguments,
        Walk.visible_emit, Walk.emit_emit]
    · rw [Expression.walk_call imports direct, Expression.referenceEdits_call direct, inCallee,
        inArguments, Walk.visible_emit, Walk.emit_emit]
  | .dynamicImport _ source options, w => by
    simp only [Expression.walk, Expression.referenceEdits, Expression.walk_eq source,
      Expression.walkOfList_eq options, Walk.visible_emit, Walk.emit_emit]
  | .function value, w => FunctionNode.walk_eq value w
  | .arrow parameters body, w => by
    simp only [Expression.walk, Expression.referenceEdits, Pattern.walkOfList_eq parameters,
      Statement.walkOfList_eq body, Walk.visible_emit, Walk.emit_emit, Walk.pop_emit_push,
      Walk.visible_push, Construct.names, Option.toList_none, List.append_nil]
  | .classNode value, w => ClassNode.walk_eq value w
  | .await argument, w => Expression.walk_eq argument w
  | .group _ parts, w => Expression.walkOfList_eq parts w

theorem Expression.walkOfList_eq : (es : List Expression) → (w : Walk) →
    Expression.walkOfList imports es w =
      w.emit (Expression.referenceEditsOfList (w.visible imports) es)
  | [], w => w.emit_nil.symm
  | e :: rest, w => by
    simp only [Expression.walkOfList, Expression.referenceEditsOfList, Expression.walk_eq e,
      Expression.walkOfList_eq rest, Walk.visible_emit, Walk.emit_emit]

theorem Pattern.walk_eq : (pattern : Pattern) → (w : Walk) →
    pattern.walk imports w = w.emit (pattern.referenceEdits (w.visible imports))
  | .name _, w => w.emit_nil.symm
  | .nested parts, w => Pattern.walkOfList_eq parts w
  | .keyed key pattern, w => by
    simp only [Pattern.walk, Pattern.referenceEdits, Expression.walk_eq key,
      Pattern.walk_eq pattern, Walk.visible_emit, Walk.emit_emit]
  | .withDefault pattern value, w => by
    simp only [Pattern.walk, Pattern.referenceEdits, Expression.walk_eq value,
      Pattern.walk_eq pattern, Walk.visible_emit, Walk.emit_emit]

theorem Pattern.walkOfList_eq : (patterns : List Pattern) → (w : Walk) →
    Pattern.walkOfList imports patterns w =
      w.emit (Pattern.referenceEditsOfList (w.visible imports) patterns)
  | [], w => w.emit_nil.symm
  | pattern :: rest, w => by
    simp only [Pattern.walkOfList, Pattern.referenceEditsOfList, Pattern.walk_eq pattern,
      Pattern.walkOfList_eq rest, Walk.visible_emit, Walk.emit_emit]

theorem FunctionNode.walk_eq : (f : FunctionNode) → (w : Walk) →
    f.walk imports w = w.emit (f.referenceEdits (w.visible imports))
  | .mk _ name _ _ _ parameters body, w => by
    simp only [FunctionNode.walk, FunctionNode.referenceEdits, Pattern.walkOfList_eq parameters,
      Statement.walkOfList_eq body, Walk.visible_emit, Walk.emit_emit, Walk.pop_emit_push,
      Walk.visible_push, Construct.names]

theorem ClassNode.walk_eq : (c : ClassNode) → (w : Walk) →
    c.walk imports w = w.emit (c.referenceEdits (w.visible imports))
  | .mk _ name decorators heritage members, w => by
    simp only [ClassNode.walk, ClassNode.referenceEdits, Expression.walkOfList_eq decorators,
      Expression.walkOfList_eq heritage, Member.walkOfList_eq members, Walk.visible_emit,
      Walk.emit_emit, Walk.pop_emit_push, Walk.visible_push, Construct.names]

theorem Member.walk_eq : (member : Member) → (w : Walk) →
    member.walk imports w = w.emit (member.referenceEdits (w.visible imports))
  | .method decorators key value, w => by
    simp only [Member.walk, Member.referenceEdits, Expression.walkOfList_eq decorators,
      Expression.walkOfList_eq key, FunctionNode.walk_eq value, Walk.visible_emit, Walk.emit_emit]
  | .field decorators key value, w => by
    simp only [Member.walk, Member.referenceEdits, Expression.walkOfList_eq decorators,
      Expression.walkOfList_eq key, Expression.walkOfList_eq value, Walk.visible_emit,
      Walk.emit_emit]
  | .staticBlock body, w => by
    simp only [Member.walk, Member.referenceEdits, Statement.walkOfList_eq body,
      Walk.pop_emit_push, Walk.visible_push, Construct.names]

theorem Member.walkOfList_eq : (members : List Member) → (w : Walk) →
    Member.walkOfList imports members w =
      w.emit (Member.referenceEditsOfList (w.visible imports) members)
  | [], w => w.emit_nil.symm
  | member :: rest, w => by
    simp only [Member.walkOfList, Member.referenceEditsOfList, Member.walk_eq member,
      Member.walkOfList_eq rest, Walk.visible_emit, Walk.emit_emit]

theorem Statement.walk_eq : (statement : Statement) → (w : Walk) →
    statement.walk imports w = w.emit (statement.referenceEdits (w.visible imports))
  | .expression _ value, w => Expression.walk_eq value w
  | .declaration _ _ bindings, w => Pattern.walkOfList_eq bindings w
  | .function value, w => FunctionNode.walk_eq value w
  | .classNode value, w => ClassNode.walk_eq value w
  | .block body, w => by
    simp only [Statement.walk, Statement.referenceEdits, Statement.walkOfList_eq body,
      Walk.pop_emit_push, Walk.visible_push, Construct.names]
  | .switch subject cases, w => by
    simp only [Statement.walk, Statement.referenceEdits, Expression.walk_eq subject,
      Statement.walkOfList_eq cases, Walk.visible_emit, Walk.emit_emit, Walk.pop_emit_push,
      Walk.visible_push, Construct.names]
  | .clause tests body, w => by
    simp only [Statement.walk, Statement.referenceEdits, Expression.walkOfList_eq tests,
      Statement.walkOfList_eq body, Walk.visible_emit, Walk.emit_emit]
  | .handler parameter body, w => by
    simp only [Statement.walk, Statement.referenceEdits, Pattern.walkOfList_eq parameter,
      Statement.walkOfList_eq body, Walk.visible_emit, Walk.emit_emit, Walk.pop_emit_push,
      Walk.visible_push, Construct.names]
  | .loop head controls body, w => by
    simp only [Statement.walk, Statement.referenceEdits, Statement.walkOfList_eq head,
      Expression.walkOfList_eq controls, Statement.walk_eq body, Walk.visible_emit,
      Walk.emit_emit, Walk.pop_emit_push, Walk.visible_push, Construct.names]
  | .each _ head subject body, w => by
    simp only [Statement.walk, Statement.referenceEdits, Statement.walk_eq head,
      Expression.walk_eq subject, Statement.walk_eq body, Walk.visible_emit, Walk.emit_emit,
      Walk.pop_emit_push, Walk.visible_push, Construct.names, List.flatMap_singleton]
  | .group _ parts body, w => by
    simp only [Statement.walk, Statement.referenceEdits, Expression.walkOfList_eq parts,
      Statement.walkOfList_eq body, Walk.visible_emit, Walk.emit_emit]
  | .importDeclaration _, w => w.emit_nil.symm
  | .exportList _ specifiers none, w => Walk.refer_foldl _ _ _ specifiers w
  | .exportList _ _ (some _), w => w.emit_nil.symm
  | .exportAll _ _ _, w => w.emit_nil.symm
  | .exportDeclaration _ _ inner, w => Statement.walk_eq inner w
  | .exportDefault _ inner, w => Statement.walk_eq inner w

theorem Statement.walkOfList_eq : (body : List Statement) → (w : Walk) →
    Statement.walkOfList imports body w =
      w.emit (Statement.referenceEditsOfList (w.visible imports) body)
  | [], w => w.emit_nil.symm
  | statement :: rest, w => by
    simp only [Statement.walkOfList, Statement.referenceEditsOfList, Statement.walk_eq statement,
      Statement.walkOfList_eq rest, Walk.visible_emit, Walk.emit_emit]

end

end

end Script

end ModuleBundle
