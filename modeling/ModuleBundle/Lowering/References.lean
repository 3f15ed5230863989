import ModuleBundle.Lowering.Edit
import ModuleBundle.Lowering.Reading
import ModuleBundle.Script.Scope

/-!
References to imported names. Every walk takes the readings that are visible where it
starts; a construct that declares names hides their readings from what it contains, so
nothing has to be restored on the way out.
-/

set_option autoImplicit false

namespace ModuleBundle

open Script

abbrev Readings := String → Option Reading

/-- The readings that remain where `names` are declared. -/
def Readings.hide (names : List String) (readings : Readings) : Readings := fun name =>
  if names.contains name then none else readings name

def Edit.ofReading (readings : Readings) (span : Span) (name : String)
    (write : Reading → String) : List Edit :=
  match readings name with
  | some reading => [⟨span, write reading⟩]
  | none => []

namespace Script

mutual

def Expression.referenceEdits (readings : Readings) : Expression → List Edit
  | .name span text => Edit.ofReading readings span text Reading.text
  | .shorthand span text =>
    Edit.ofReading readings span text fun reading => text ++ ": " ++ reading.text
  | .string _ _ => []
  | .call _ (.name span text) arguments =>
    Edit.ofReading readings span text Reading.calleeText ++
      Expression.referenceEditsOfList readings arguments
  | .call _ callee arguments =>
    callee.referenceEdits readings ++ Expression.referenceEditsOfList readings arguments
  | .dynamicImport _ source options =>
    source.referenceEdits readings ++ Expression.referenceEditsOfList readings options
  | .function value => value.referenceEdits readings
  | .arrow parameters body =>
    let inner := readings.hide (Pattern.namesOfList parameters ++
      Statement.hoistedNamesOfList body ++ Statement.lexicalNamesOfList body)
    Pattern.referenceEditsOfList inner parameters ++ Statement.referenceEditsOfList inner body
  | .classNode value => value.referenceEdits readings
  | .await argument => argument.referenceEdits readings
  | .group _ parts => Expression.referenceEditsOfList readings parts

def Expression.referenceEditsOfList (readings : Readings) : List Expression → List Edit
  | [] => []
  | e :: rest => e.referenceEdits readings ++ Expression.referenceEditsOfList readings rest

def Pattern.referenceEdits (readings : Readings) : Pattern → List Edit
  | .name _ => []
  | .nested parts => Pattern.referenceEditsOfList readings parts
  | .keyed key pattern => key.referenceEdits readings ++ pattern.referenceEdits readings
  | .withDefault pattern value => pattern.referenceEdits readings ++ value.referenceEdits readings

def Pattern.referenceEditsOfList (readings : Readings) : List Pattern → List Edit
  | [] => []
  | pattern :: rest => pattern.referenceEdits readings ++ Pattern.referenceEditsOfList readings rest

/-- One scope holds a function's name, its parameters and what its body declares. -/
def FunctionNode.referenceEdits (readings : Readings) : FunctionNode → List Edit
  | .mk _ name _ _ _ parameters body =>
    let inner := readings.hide (Pattern.namesOfList parameters ++
      Statement.hoistedNamesOfList body ++ Statement.lexicalNamesOfList body ++ name.toList)
    Pattern.referenceEditsOfList inner parameters ++ Statement.referenceEditsOfList inner body

/-- A class's own name is declared in its heritage and decorators too. -/
def ClassNode.referenceEdits (readings : Readings) : ClassNode → List Edit
  | .mk _ name decorators heritage members =>
    let inner := readings.hide name.toList
    Expression.referenceEditsOfList inner decorators ++
      Expression.referenceEditsOfList inner heritage ++
      Member.referenceEditsOfList inner members

def Member.referenceEdits (readings : Readings) : Member → List Edit
  | .method decorators key value =>
    Expression.referenceEditsOfList readings decorators ++
      Expression.referenceEditsOfList readings key ++ value.referenceEdits readings
  | .field decorators key value =>
    Expression.referenceEditsOfList readings decorators ++
      Expression.referenceEditsOfList readings key ++
      Expression.referenceEditsOfList readings value
  | .staticBlock body =>
    Statement.referenceEditsOfList
      (readings.hide (Statement.hoistedNamesOfList body ++ Statement.lexicalNamesOfList body)) body

def Member.referenceEditsOfList (readings : Readings) : List Member → List Edit
  | [] => []
  | member :: rest => member.referenceEdits readings ++ Member.referenceEditsOfList readings rest

def Statement.referenceEdits (readings : Readings) : Statement → List Edit
  | .expression _ value => value.referenceEdits readings
  | .declaration _ _ bindings => Pattern.referenceEditsOfList readings bindings
  | .function value => value.referenceEdits readings
  | .classNode value => value.referenceEdits readings
  | .block body =>
    Statement.referenceEditsOfList (readings.hide (Statement.lexicalNamesOfList body)) body
  | .switch subject cases =>
    let inner := readings.hide (Statement.lexicalNamesOfCases cases)
    subject.referenceEdits inner ++ Statement.referenceEditsOfList inner cases
  | .clause tests body =>
    Expression.referenceEditsOfList readings tests ++ Statement.referenceEditsOfList readings body
  | .handler parameter body =>
    let inner := readings.hide (Pattern.namesOfList parameter)
    Pattern.referenceEditsOfList inner parameter ++
      Statement.referenceEditsOfList (inner.hide (Statement.lexicalNamesOfList body)) body
  | .loop head controls body =>
    let inner := readings.hide (head.flatMap Statement.declaredNames)
    Statement.referenceEditsOfList inner head ++ Expression.referenceEditsOfList inner controls ++
      body.referenceEdits inner
  | .each _ head subject body =>
    let inner := readings.hide head.declaredNames
    head.referenceEdits inner ++ subject.referenceEdits inner ++ body.referenceEdits inner
  | .group _ parts body =>
    Expression.referenceEditsOfList readings parts ++ Statement.referenceEditsOfList readings body
  | .importDeclaration _ => []
  | .exportList _ specifiers none =>
    specifiers.flatMap fun specifier =>
      Edit.ofReading readings specifier.span specifier.source Reading.text
  | .exportList _ _ (some _) => []
  | .exportAll _ _ _ => []
  | .exportDeclaration _ _ inner => inner.referenceEdits readings
  | .exportDefault _ inner => inner.referenceEdits readings

def Statement.referenceEditsOfList (readings : Readings) : List Statement → List Edit
  | [] => []
  | statement :: rest =>
    statement.referenceEdits readings ++ Statement.referenceEditsOfList readings rest

end

end Script

end ModuleBundle
