import ModuleBundle.Script.Tree

/-!
Waiting outside of functions: `await`, `for await` and `await using` where no function or
arrow function stands around them. A class is no function, only its methods are.
-/

set_option autoImplicit false

namespace ModuleBundle.Script

mutual

def Expression.awaits : Expression → Bool
  | .name _ _ => false
  | .shorthand _ _ => false
  | .string _ _ => false
  | .call _ callee arguments => callee.awaits || Expression.anyAwaits arguments
  | .dynamicImport _ source options => source.awaits || Expression.anyAwaits options
  | .function _ => false
  | .arrow _ _ => false
  | .classNode value => value.awaits
  | .await _ => true
  | .group _ parts => Expression.anyAwaits parts

def Expression.anyAwaits : List Expression → Bool
  | [] => false
  | e :: rest => e.awaits || Expression.anyAwaits rest

def Pattern.awaits : Pattern → Bool
  | .name _ => false
  | .nested parts => Pattern.anyAwaits parts
  | .keyed key pattern => key.awaits || pattern.awaits
  | .withDefault pattern value => pattern.awaits || value.awaits

def Pattern.anyAwaits : List Pattern → Bool
  | [] => false
  | pattern :: rest => pattern.awaits || Pattern.anyAwaits rest

def ClassNode.awaits : ClassNode → Bool
  | .mk _ _ decorators heritage members =>
    Expression.anyAwaits decorators || Expression.anyAwaits heritage || Member.anyAwaits members

def Member.awaits : Member → Bool
  | .method decorators key _ => Expression.anyAwaits decorators || Expression.anyAwaits key
  | .field decorators key value =>
    Expression.anyAwaits decorators || Expression.anyAwaits key || Expression.anyAwaits value
  | .staticBlock body => Statement.anyAwaits body

def Member.anyAwaits : List Member → Bool
  | [] => false
  | member :: rest => member.awaits || Member.anyAwaits rest

def Statement.awaits : Statement → Bool
  | .expression _ value => value.awaits
  | .declaration _ kind bindings => kind = .awaitedResource || Pattern.anyAwaits bindings
  | .function _ => false
  | .classNode value => value.awaits
  | .block body => Statement.anyAwaits body
  | .switch subject cases => subject.awaits || Statement.anyAwaits cases
  | .clause tests body => Expression.anyAwaits tests || Statement.anyAwaits body
  | .handler parameter body => Pattern.anyAwaits parameter || Statement.anyAwaits body
  | .loop head controls body =>
    Statement.anyAwaits head || Expression.anyAwaits controls || body.awaits
  | .each awaits head subject body => awaits || head.awaits || subject.awaits || body.awaits
  | .group _ parts body => Expression.anyAwaits parts || Statement.anyAwaits body
  | .importDeclaration _ => false
  | .exportList _ _ _ => false
  | .exportAll _ _ _ => false
  | .exportDeclaration _ _ inner => inner.awaits
  | .exportDefault _ inner => inner.awaits

def Statement.anyAwaits : List Statement → Bool
  | [] => false
  | statement :: rest => statement.awaits || Statement.anyAwaits rest

end

end ModuleBundle.Script
