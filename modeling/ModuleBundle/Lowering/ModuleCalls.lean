import ModuleBundle.Script.Tree

/-!
Requests for modules in expressions, anywhere in a script: `require` of one string and
`import` of a string.
-/

set_option autoImplicit false

namespace ModuleBundle

open Script (Span Request)

inductive ModuleCall where
  | require (request : Request)
  /-- `import(…)` at `span`. -/
  | dynamicImport (span : Span) (specifier : String)
  deriving DecidableEq, Repr

def ModuleCall.request : ModuleCall → Request
  | require request => request
  | dynamicImport span specifier => ⟨span.start, specifier⟩

namespace Script

mutual

def Expression.moduleCalls : Expression → List ModuleCall
  | .name _ _ => []
  | .shorthand _ _ => []
  | .string _ _ => []
  | .call span callee arguments =>
    (match callee, arguments with
      | .name _ "require", [.string _ specifier] => [ModuleCall.require ⟨span.start, specifier⟩]
      | _, _ => []) ++
      callee.moduleCalls ++ Expression.moduleCallsOfList arguments
  | .dynamicImport span source options =>
    (match source with
      | .string _ specifier => [ModuleCall.dynamicImport span specifier]
      | _ => []) ++
      source.moduleCalls ++ Expression.moduleCallsOfList options
  | .function value => value.moduleCalls
  | .arrow parameters body =>
    Pattern.moduleCallsOfList parameters ++ Statement.moduleCallsOfList body
  | .classNode value => value.moduleCalls
  | .await argument => argument.moduleCalls
  | .group _ parts => Expression.moduleCallsOfList parts

def Expression.moduleCallsOfList : List Expression → List ModuleCall
  | [] => []
  | e :: rest => e.moduleCalls ++ Expression.moduleCallsOfList rest

def Pattern.moduleCalls : Pattern → List ModuleCall
  | .name _ => []
  | .nested parts => Pattern.moduleCallsOfList parts
  | .keyed key pattern => key.moduleCalls ++ pattern.moduleCalls
  | .withDefault pattern value => pattern.moduleCalls ++ value.moduleCalls

def Pattern.moduleCallsOfList : List Pattern → List ModuleCall
  | [] => []
  | pattern :: rest => pattern.moduleCalls ++ Pattern.moduleCallsOfList rest

def FunctionNode.moduleCalls : FunctionNode → List ModuleCall
  | .mk _ _ _ _ _ parameters body =>
    Pattern.moduleCallsOfList parameters ++ Statement.moduleCallsOfList body

def ClassNode.moduleCalls : ClassNode → List ModuleCall
  | .mk _ _ decorators heritage members =>
    Expression.moduleCallsOfList decorators ++ Expression.moduleCallsOfList heritage ++
      Member.moduleCallsOfList members

def Member.moduleCalls : Member → List ModuleCall
  | .method decorators key value =>
    Expression.moduleCallsOfList decorators ++ Expression.moduleCallsOfList key ++
      value.moduleCalls
  | .field decorators key value =>
    Expression.moduleCallsOfList decorators ++ Expression.moduleCallsOfList key ++
      Expression.moduleCallsOfList value
  | .staticBlock body => Statement.moduleCallsOfList body

def Member.moduleCallsOfList : List Member → List ModuleCall
  | [] => []
  | member :: rest => member.moduleCalls ++ Member.moduleCallsOfList rest

def Statement.moduleCalls : Statement → List ModuleCall
  | .expression _ value => value.moduleCalls
  | .declaration _ _ bindings => Pattern.moduleCallsOfList bindings
  | .function value => value.moduleCalls
  | .classNode value => value.moduleCalls
  | .block body => Statement.moduleCallsOfList body
  | .switch subject cases => subject.moduleCalls ++ Statement.moduleCallsOfList cases
  | .clause tests body =>
    Expression.moduleCallsOfList tests ++ Statement.moduleCallsOfList body
  | .handler parameter body =>
    Pattern.moduleCallsOfList parameter ++ Statement.moduleCallsOfList body
  | .loop head controls body =>
    Statement.moduleCallsOfList head ++ Expression.moduleCallsOfList controls ++ body.moduleCalls
  | .each _ head subject body => head.moduleCalls ++ subject.moduleCalls ++ body.moduleCalls
  | .group _ parts body =>
    Expression.moduleCallsOfList parts ++ Statement.moduleCallsOfList body
  | .importDeclaration _ => []
  | .exportList _ _ _ => []
  | .exportAll _ _ _ => []
  | .exportDeclaration _ _ inner => inner.moduleCalls
  | .exportDefault _ inner => inner.moduleCalls

def Statement.moduleCallsOfList : List Statement → List ModuleCall
  | [] => []
  | statement :: rest => statement.moduleCalls ++ Statement.moduleCallsOfList rest

end

end Script

end ModuleBundle
