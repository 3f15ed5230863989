import ModuleBundle.Script.Tree

/-!
Which names a scope declares: those hoisted to a function from anywhere below it, and
those declared directly in a list of statements.
-/

set_option autoImplicit false

namespace ModuleBundle.Script

mutual

def Pattern.names : Pattern → List String
  | .name text => [text]
  | .nested parts => Pattern.namesOfList parts
  | .keyed _ pattern => pattern.names
  | .withDefault pattern _ => pattern.names

def Pattern.namesOfList : List Pattern → List String
  | [] => []
  | pattern :: rest => pattern.names ++ Pattern.namesOfList rest

end

namespace Statement

def declaredNames : Statement → List String
  | .declaration _ _ bindings => Pattern.namesOfList bindings
  | .function value => value.name.toList
  | .classNode value => value.name.toList
  | _ => []

def lexicalNames : Statement → List String
  | .declaration _ .hoisted _ => []
  | statement => statement.declaredNames

def lexicalNamesOfList (body : List Statement) : List String := body.flatMap lexicalNames

def lexicalNamesOfCases (cases : List Statement) : List String :=
  cases.flatMap fun
    | .clause _ body => lexicalNamesOfList body
    | _ => []

mutual

/-- The names declared by `var` in a statement, but for the functions and classes in it. -/
def hoistedNames : Statement → List String
  | .declaration _ .hoisted bindings => Pattern.namesOfList bindings
  | .block body => hoistedNamesOfList body
  | .switch _ cases => hoistedNamesOfList cases
  | .clause _ body => hoistedNamesOfList body
  | .handler _ body => hoistedNamesOfList body
  | .loop head _ body => hoistedNamesOfList head ++ body.hoistedNames
  | .each _ head _ body => head.hoistedNames ++ body.hoistedNames
  | .group _ _ body => hoistedNamesOfList body
  | .exportDeclaration _ _ inner => inner.hoistedNames
  | .exportDefault _ inner => inner.hoistedNames
  | _ => []

def hoistedNamesOfList : List Statement → List String
  | [] => []
  | statement :: rest => statement.hoistedNames ++ hoistedNamesOfList rest

end

end Statement

end ModuleBundle.Script
