import ModuleBundle.Analysis
import ModuleBundle.Proofs.Script.Binders

/-!
Where names are referred to. Every reference of a program is listed with the constructs
around it that declare names; the edits of references are then a matter of each alone.
-/

set_option autoImplicit false

namespace ModuleBundle.Script

variable {name : String}

/-- A construct that declares names for what stands inside of it. An arrow function is a
`function` without a name. -/
inductive Construct where
  | function (name : Option String) (parameters : List Pattern) (body : List Statement)
  | classNode (name : Option String)
  | staticBlock (body : List Statement)
  | block (body : List Statement)
  | switch (cases : List Statement)
  | handler (parameter : List Pattern)
  | loop (head : List Statement)

namespace Construct

def names : Construct → List String
  | .function name parameters body =>
    Pattern.namesOfList parameters ++ Statement.hoistedNamesOfList body ++
      Statement.lexicalNamesOfList body ++ name.toList
  | .classNode name => name.toList
  | .staticBlock body => Statement.hoistedNamesOfList body ++ Statement.lexicalNamesOfList body
  | .block body => Statement.lexicalNamesOfList body
  | .switch cases => Statement.lexicalNamesOfCases cases
  | .handler parameter => Pattern.namesOfList parameter
  | .loop head => head.flatMap Statement.declaredNames

/-- What it is that a construct binds: a function its parameters, every `var` of its body,
what stands declared directly in the body, and its own name; a `switch` what stands declared
directly in any of its cases. -/
def Binds (name : String) : Construct → Prop
  | .function own parameters body =>
    (∃ pattern ∈ parameters, pattern.Binds name) ∨ (∃ statement ∈ body, statement.Hoists name) ∨
      (∃ statement ∈ body, statement.Introduces name) ∨ own = some name
  | .classNode own => own = some name
  | .staticBlock body =>
    (∃ statement ∈ body, statement.Hoists name) ∨ ∃ statement ∈ body, statement.Introduces name
  | .block body => ∃ statement ∈ body, statement.Introduces name
  | .switch cases =>
    ∃ tests body, .clause tests body ∈ cases ∧ ∃ statement ∈ body, statement.Introduces name
  | .handler parameter => ∃ pattern ∈ parameter, pattern.Binds name
  | .loop head => ∃ statement ∈ head, statement.Declares name

theorem mem_names_iff {construct : Construct} : name ∈ construct.names ↔ construct.Binds name := by
  cases construct with
  | function own parameters body =>
    simp only [names, Binds, List.mem_append, or_assoc, Pattern.mem_namesOfList_iff,
      Statement.mem_hoistedNamesOfList_iff, Statement.mem_lexicalNamesOfList_iff,
      Option.mem_toList]
  | classNode own => simp only [names, Binds, Option.mem_toList]
  | staticBlock body =>
    simp only [names, Binds, List.mem_append, Statement.mem_hoistedNamesOfList_iff,
      Statement.mem_lexicalNamesOfList_iff]
  | block body => exact Statement.mem_lexicalNamesOfList_iff
  | «switch» cases => exact Statement.mem_lexicalNamesOfCases_iff
  | handler parameter => exact Pattern.mem_namesOfList_iff
  | loop head =>
    simp only [names, Binds, List.mem_flatMap, Statement.mem_declaredNames_iff]

instance (construct : Construct) : Decidable (construct.Binds name) :=
  decidable_of_iff _ mem_names_iff

end Construct

/-- The parts of a construct that the language tells apart: the head is where a function has
its parameters, a class its decorators and a `switch` its subject. -/
inductive Part where
  | head | body
  deriving DecidableEq, Repr

structure Enclosure where
  construct : Construct
  part : Part

inductive Reference.Form where
  | plain | callee | shorthand
  deriving DecidableEq, Repr

/-- A use of a name, and the constructs around it, the innermost first. -/
structure Reference where
  span : Span
  name : String
  form : Reference.Form
  around : List Enclosure

def Reference.written (reading : Reading) (reference : Reference) : String :=
  match reference.form with
  | .plain => reading.text
  | .callee => reading.calleeText
  | .shorthand => reference.name ++ ": " ++ reading.text

mutual

def Expression.references (around : List Enclosure) : Expression → List Reference
  | .name span text => [⟨span, text, .plain, around⟩]
  | .shorthand span text => [⟨span, text, .shorthand, around⟩]
  | .string _ _ => []
  | .call _ (.name span text) arguments =>
    ⟨span, text, .callee, around⟩ :: Expression.referencesOfList around arguments
  | .call _ callee arguments =>
    callee.references around ++ Expression.referencesOfList around arguments
  | .dynamicImport _ source options =>
    source.references around ++ Expression.referencesOfList around options
  | .function value => value.references around
  | .arrow parameters body =>
    let construct := .function none parameters body
    Pattern.referencesOfList (⟨construct, .head⟩ :: around) parameters ++
      Statement.referencesOfList (⟨construct, .body⟩ :: around) body
  | .classNode value => value.references around
  | .await argument => argument.references around
  | .group _ parts => Expression.referencesOfList around parts

def Expression.referencesOfList (around : List Enclosure) : List Expression → List Reference
  | [] => []
  | e :: rest => e.references around ++ Expression.referencesOfList around rest

def Pattern.references (around : List Enclosure) : Pattern → List Reference
  | .name _ => []
  | .nested parts => Pattern.referencesOfList around parts
  | .keyed key pattern => key.references around ++ pattern.references around
  | .withDefault pattern value => pattern.references around ++ value.references around

def Pattern.referencesOfList (around : List Enclosure) : List Pattern → List Reference
  | [] => []
  | pattern :: rest => pattern.references around ++ Pattern.referencesOfList around rest

def FunctionNode.references (around : List Enclosure) : FunctionNode → List Reference
  | .mk _ name _ _ _ parameters body =>
    let construct := .function name parameters body
    Pattern.referencesOfList (⟨construct, .head⟩ :: around) parameters ++
      Statement.referencesOfList (⟨construct, .body⟩ :: around) body

def ClassNode.references (around : List Enclosure) : ClassNode → List Reference
  | .mk _ name decorators heritage members =>
    let construct := .classNode name
    Expression.referencesOfList (⟨construct, .head⟩ :: around) decorators ++
      Expression.referencesOfList (⟨construct, .body⟩ :: around) heritage ++
      Member.referencesOfList (⟨construct, .body⟩ :: around) members

def Member.references (around : List Enclosure) : Member → List Reference
  | .method decorators key value =>
    Expression.referencesOfList around decorators ++ Expression.referencesOfList around key ++
      value.references around
  | .field decorators key value =>
    Expression.referencesOfList around decorators ++ Expression.referencesOfList around key ++
      Expression.referencesOfList around value
  | .staticBlock body => Statement.referencesOfList (⟨.staticBlock body, .body⟩ :: around) body

def Member.referencesOfList (around : List Enclosure) : List Member → List Reference
  | [] => []
  | member :: rest => member.references around ++ Member.referencesOfList around rest

def Statement.references (around : List Enclosure) : Statement → List Reference
  | .expression _ value => value.references around
  | .declaration _ _ bindings => Pattern.referencesOfList around bindings
  | .function value => value.references around
  | .classNode value => value.references around
  | .block body => Statement.referencesOfList (⟨.block body, .body⟩ :: around) body
  | .switch subject cases =>
    subject.references (⟨.switch cases, .head⟩ :: around) ++
      Statement.referencesOfList (⟨.switch cases, .body⟩ :: around) cases
  | .clause tests body =>
    Expression.referencesOfList around tests ++ Statement.referencesOfList around body
  | .handler parameter body =>
    let inner := ⟨.handler parameter, .body⟩ :: around
    Pattern.referencesOfList inner parameter ++
      Statement.referencesOfList (⟨.block body, .body⟩ :: inner) body
  | .loop head controls body =>
    let inner := ⟨.loop head, .body⟩ :: around
    Statement.referencesOfList inner head ++ Expression.referencesOfList inner controls ++
      body.references inner
  | .each _ head subject body =>
    let inner := ⟨.loop [head], .body⟩ :: around
    head.references inner ++ subject.references inner ++ body.references inner
  | .group _ parts body =>
    Expression.referencesOfList around parts ++ Statement.referencesOfList around body
  | .importDeclaration _ => []
  | .exportList _ specifiers none =>
    specifiers.map fun specifier => ⟨specifier.span, specifier.source, .plain, around⟩
  | .exportList _ _ (some _) => []
  | .exportAll _ _ _ => []
  | .exportDeclaration _ _ inner => inner.references around
  | .exportDefault _ inner => inner.references around

def Statement.referencesOfList (around : List Enclosure) : List Statement → List Reference
  | [] => []
  | statement :: rest =>
    statement.references around ++ Statement.referencesOfList around rest

end

def Program.references (p : Program) : List Reference := Statement.referencesOfList [] p.body

end Script

open Script

namespace Readings

def within (imports : Readings) (around : List Enclosure) : Readings :=
  around.foldr (fun enclosure readings => readings.hide enclosure.construct.names) imports

theorem within_cons (imports : Readings) (construct : Construct) (part : Part)
    (around : List Enclosure) :
    imports.within (⟨construct, part⟩ :: around) =
      (imports.within around).hide construct.names :=
  rfl

theorem hide_eq_some {imports : Readings} {names : List String} {name : String}
    {reading : Reading} :
    imports.hide names name = some reading ↔ name ∉ names ∧ imports name = some reading := by
  simp [hide]

theorem within_eq_some {imports : Readings} {around : List Enclosure} {name : String}
    {reading : Reading} :
    imports.within around name = some reading ↔
      (∀ enclosure ∈ around, ¬ enclosure.construct.Binds name) ∧ imports name = some reading := by
  induction around with
  | nil => simp [within]
  | cons enclosure around ih =>
    -- the innermost construct hides its names from what the others leave
    rw [within_cons, hide_eq_some, ih, Construct.mem_names_iff, List.forall_mem_cons, and_assoc]

end Readings

namespace Script

def Reference.edits (imports : Readings) (reference : Reference) : List Edit :=
  Edit.ofReading (imports.within reference.around) reference.span reference.name
    fun reading => reference.written reading

/-! The edits of a construct are those of its references, one by one: by induction on the
construct, for all lists of constructs around it. -/

section
variable (imports : Readings)

theorem Expression.referenceEdits_call {callee : Expression}
    (indirect : ¬ ∃ span name, callee = .name span name) (readings : Readings) (span : Span)
    (arguments : List Expression) :
    (Expression.call span callee arguments).referenceEdits readings =
      callee.referenceEdits readings ++ Expression.referenceEditsOfList readings arguments := by
  cases callee with
  | name span name => exact absurd ⟨span, name, rfl⟩ indirect
  | _ => rfl

theorem Expression.references_call {callee : Expression}
    (indirect : ¬ ∃ span name, callee = .name span name) (around : List Enclosure) (span : Span)
    (arguments : List Expression) :
    (Expression.call span callee arguments).references around =
      callee.references around ++ Expression.referencesOfList around arguments := by
  cases callee with
  | name span name => exact absurd ⟨span, name, rfl⟩ indirect
  | _ => rfl

mutual

theorem Expression.referenceEdits_within (around : List Enclosure) : (e : Expression) →
    e.referenceEdits (imports.within around) =
      (e.references around).flatMap (Reference.edits imports)
  | .name span text => by
    simp [Expression.referenceEdits, Expression.references, Reference.edits, Reference.written]
  | .shorthand span text => by
    simp [Expression.referenceEdits, Expression.references, Reference.edits, Reference.written]
  | .string _ _ => rfl
  | .call span callee arguments => by
    have inArguments := Expression.referenceEditsOfList_within around arguments
    have inCallee := Expression.referenceEdits_within around callee
    by_cases direct : ∃ span name, callee = .name span name
    · obtain ⟨span, name, rfl⟩ := direct
      simp [Expression.referenceEdits, Expression.references, Reference.edits, Reference.written,
        inArguments]
    · rw [Expression.referenceEdits_call direct, Expression.references_call direct, inCallee,
        inArguments, List.flatMap_append]
  | .dynamicImport _ source options => by
    simp only [Expression.referenceEdits, Expression.references, List.flatMap_append,
      Expression.referenceEdits_within around source,
      Expression.referenceEditsOfList_within around options]
  | .function value => FunctionNode.referenceEdits_within around value
  | .arrow parameters body => by
    simp only [Expression.referenceEdits, Expression.references, List.flatMap_append,
      ← Pattern.referenceEditsOfList_within, ← Statement.referenceEditsOfList_within,
      Readings.within_cons, Construct.names, Option.toList_none, List.append_nil]
  | .classNode value => ClassNode.referenceEdits_within around value
  | .await argument => Expression.referenceEdits_within around argument
  | .group _ parts => Expression.referenceEditsOfList_within around parts

theorem Expression.referenceEditsOfList_within (around : List Enclosure) :
    (es : List Expression) → Expression.referenceEditsOfList (imports.within around) es =
      (Expression.referencesOfList around es).flatMap (Reference.edits imports)
  | [] => rfl
  | e :: rest => by
    simp only [Expression.referenceEditsOfList, Expression.referencesOfList, List.flatMap_append,
      Expression.referenceEdits_within around e, Expression.referenceEditsOfList_within around rest]

theorem Pattern.referenceEdits_within (around : List Enclosure) : (pattern : Pattern) →
    pattern.referenceEdits (imports.within around) =
      (pattern.references around).flatMap (Reference.edits imports)
  | .name _ => rfl
  | .nested parts => Pattern.referenceEditsOfList_within around parts
  | .keyed key pattern => by
    simp only [Pattern.referenceEdits, Pattern.references, List.flatMap_append,
      Expression.referenceEdits_within around key, Pattern.referenceEdits_within around pattern]
  | .withDefault pattern value => by
    simp only [Pattern.referenceEdits, Pattern.references, List.flatMap_append,
      Expression.referenceEdits_within around value, Pattern.referenceEdits_within around pattern]

theorem Pattern.referenceEditsOfList_within (around : List Enclosure) :
    (patterns : List Pattern) → Pattern.referenceEditsOfList (imports.within around) patterns =
      (Pattern.referencesOfList around patterns).flatMap (Reference.edits imports)
  | [] => rfl
  | pattern :: rest => by
    simp only [Pattern.referenceEditsOfList, Pattern.referencesOfList, List.flatMap_append,
      Pattern.referenceEdits_within around pattern, Pattern.referenceEditsOfList_within around rest]

theorem FunctionNode.referenceEdits_within (around : List Enclosure) : (f : FunctionNode) →
    f.referenceEdits (imports.within around) =
      (f.references around).flatMap (Reference.edits imports)
  | .mk _ name _ _ _ parameters body => by
    simp only [FunctionNode.referenceEdits, FunctionNode.references, List.flatMap_append,
      ← Pattern.referenceEditsOfList_within, ← Statement.referenceEditsOfList_within,
      Readings.within_cons, Construct.names]

theorem ClassNode.referenceEdits_within (around : List Enclosure) : (c : ClassNode) →
    c.referenceEdits (imports.within around) =
      (c.references around).flatMap (Reference.edits imports)
  | .mk _ name decorators heritage members => by
    simp only [ClassNode.referenceEdits, ClassNode.references, List.flatMap_append,
      ← Expression.referenceEditsOfList_within, ← Member.referenceEditsOfList_within,
      Readings.within_cons, Construct.names]

theorem Member.referenceEdits_within (around : List Enclosure) : (member : Member) →
    member.referenceEdits (imports.within around) =
      (member.references around).flatMap (Reference.edits imports)
  | .method decorators key value => by
    simp only [Member.referenceEdits, Member.references, List.flatMap_append,
      ← Expression.referenceEditsOfList_within, ← FunctionNode.referenceEdits_within]
  | .field decorators key value => by
    simp only [Member.referenceEdits, Member.references, List.flatMap_append,
      ← Expression.referenceEditsOfList_within]
  | .staticBlock body => by
    simp only [Member.referenceEdits, Member.references, ← Statement.referenceEditsOfList_within,
      Readings.within_cons, Construct.names]

theorem Member.referenceEditsOfList_within (around : List Enclosure) :
    (members : List Member) → Member.referenceEditsOfList (imports.within around) members =
      (Member.referencesOfList around members).flatMap (Reference.edits imports)
  | [] => rfl
  | member :: rest => by
    simp only [Member.referenceEditsOfList, Member.referencesOfList, List.flatMap_append,
      Member.referenceEdits_within around member, Member.referenceEditsOfList_within around rest]

theorem Statement.referenceEdits_within (around : List Enclosure) : (statement : Statement) →
    statement.referenceEdits (imports.within around) =
      (statement.references around).flatMap (Reference.edits imports)
  | .expression _ value => Expression.referenceEdits_within around value
  | .declaration _ _ bindings => Pattern.referenceEditsOfList_within around bindings
  | .function value => FunctionNode.referenceEdits_within around value
  | .classNode value => ClassNode.referenceEdits_within around value
  | .block body => Statement.referenceEditsOfList_within (⟨.block body, .body⟩ :: around) body
  | .switch subject cases => by
    simp only [Statement.referenceEdits, Statement.references, List.flatMap_append,
      ← Expression.referenceEdits_within, ← Statement.referenceEditsOfList_within,
      Readings.within_cons, Construct.names]
  | .clause tests body => by
    simp only [Statement.referenceEdits, Statement.references, List.flatMap_append,
      ← Expression.referenceEditsOfList_within, ← Statement.referenceEditsOfList_within]
  | .handler parameter body => by
    simp only [Statement.referenceEdits, Statement.references, List.flatMap_append,
      ← Pattern.referenceEditsOfList_within, ← Statement.referenceEditsOfList_within,
      Readings.within_cons, Construct.names]
  | .loop head controls body => by
    simp only [Statement.referenceEdits, Statement.references, List.flatMap_append,
      ← Expression.referenceEditsOfList_within, ← Statement.referenceEditsOfList_within,
      ← Statement.referenceEdits_within, Readings.within_cons, Construct.names]
  | .each _ head subject body => by
    simp only [Statement.referenceEdits, Statement.references, List.flatMap_append,
      ← Expression.referenceEdits_within, ← Statement.referenceEdits_within,
      Readings.within_cons, Construct.names, List.flatMap_singleton]
  | .group _ parts body => by
    simp only [Statement.referenceEdits, Statement.references, List.flatMap_append,
      ← Expression.referenceEditsOfList_within, ← Statement.referenceEditsOfList_within]
  | .importDeclaration _ => rfl
  | .exportList _ specifiers none => by
    simp only [Statement.referenceEdits, Statement.references, List.flatMap_map]
    rfl
  | .exportList _ _ (some _) => rfl
  | .exportAll _ _ _ => rfl
  | .exportDeclaration _ _ inner => Statement.referenceEdits_within around inner
  | .exportDefault _ inner => Statement.referenceEdits_within around inner

theorem Statement.referenceEditsOfList_within (around : List Enclosure) :
    (body : List Statement) → Statement.referenceEditsOfList (imports.within around) body =
      (Statement.referencesOfList around body).flatMap (Reference.edits imports)
  | [] => rfl
  | statement :: rest => by
    simp only [Statement.referenceEditsOfList, Statement.referencesOfList, List.flatMap_append,
      Statement.referenceEdits_within around statement,
      Statement.referenceEditsOfList_within around rest]

end

end

end Script

end ModuleBundle
