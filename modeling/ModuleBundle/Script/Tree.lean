import ModuleBundle.Script.Letters

/-!
Syntax trees of scripts, kept to what a bundler has to tell apart: what binds names,
what refers to them, what requests a module, and where a function begins. All else is
a `group` of parts that are evaluated in the scope around them.
-/

set_option autoImplicit false

namespace ModuleBundle.Script

/-- Characters of the source text from `start` up to `stop`. -/
structure Span where
  start : Nat
  stop : Nat
  deriving DecidableEq, Repr, Inhabited

/-- A module named by a string literal that starts at `offset`. -/
structure Request where
  offset : Nat
  specifier : String
  deriving DecidableEq, Repr, Inhabited

inductive DeclarationKind where
  | hoisted | letBinding | constant | resource | awaitedResource
  deriving DecidableEq, Repr

inductive ImportSpecifier where
  | default (name : String)
  | whole (name : String)
  | named (imported : String) (name : String)
  deriving DecidableEq, Repr

/-- `import` of the names listed; `none` lists nothing and only runs the module. -/
structure ImportDeclaration where
  span : Span
  specifiers : Option (List ImportSpecifier)
  source : Request
  deriving DecidableEq, Repr

structure ExportSpecifier where
  span : Span
  source : String
  exported : String
  deriving DecidableEq, Repr

inductive Form where
  | literal | this | super | metaProperty | regularExpression
  | template | tagged
  | paren | sequence | conditional | unary | update | power | logicalPair | coalesce | binary
  | privateIn | assign | compoundAssign | yield
  | member | index | chain | construct | spread
  /-- An array; whether a comma stands after its last element. -/
  | array (trailingComma : Bool)
  | hole
  /-- An object; whether a comma stands after its last property. -/
  | object (trailingComma : Bool)
  | property | computedProperty | method
  /-- A property `name = value`, which only a destructuring assignment may hold. -/
  | initialized
  | element
  deriving DecidableEq, Repr

inductive StatementForm where
  | empty | debugger | conditional | whileLoop | doLoop | withScope | labeled
  | returns | throws | jump | tryBlock | interface
  deriving DecidableEq, Repr

mutual

inductive Expression where
  | name (span : Span) (text : String)
  /-- The property `text` of an object literal, written without a value. -/
  | shorthand (span : Span) (text : String)
  | string (span : Span) (value : String)
  | call (span : Span) (callee : Expression) (arguments : List Expression)
  /-- `import(source, options)`. -/
  | dynamicImport (span : Span) (source : Expression) (options : List Expression)
  | function (value : FunctionNode)
  | arrow (parameters : List Pattern) (body : List Statement)
  | classNode (value : ClassNode)
  | await (argument : Expression)
  | group (form : Form) (parts : List Expression)

/-- What a declaration, a parameter or a catch clause binds. -/
inductive Pattern where
  | name (text : String)
  | nested (parts : List Pattern)
  /-- A pattern after an expression: the key it stands at, or a decorator. -/
  | keyed (key : Expression) (pattern : Pattern)
  | withDefault (pattern : Pattern) (value : Expression)

/-- `parametersStart` is where the parameter list opens. -/
inductive FunctionNode where
  | mk (span : Span) (name : Option String) (isAsync isGenerator : Bool) (parametersStart : Nat)
      (parameters : List Pattern) (body : List Statement)

inductive ClassNode where
  | mk (span : Span) (name : Option String) (decorators heritage : List Expression)
      (members : List Member)

/-- A key is listed only if it is computed, and a field's value only if it has one. -/
inductive Member where
  | method (decorators key : List Expression) (value : FunctionNode)
  | field (decorators key value : List Expression)
  | staticBlock (body : List Statement)

inductive Statement where
  | expression (span : Span) (value : Expression)
  | declaration (span : Span) (kind : DeclarationKind) (bindings : List Pattern)
  | function (value : FunctionNode)
  | classNode (value : ClassNode)
  | block (body : List Statement)
  /-- The cases are `clause`s. -/
  | switch (subject : Expression) (cases : List Statement)
  /-- One case of a `switch`; `default` tests nothing. -/
  | clause (tests : List Expression) (body : List Statement)
  /-- The handler of a `try`, with at most one pattern. -/
  | handler (parameter : List Pattern) (body : List Statement)
  /-- `for (head; …; …)` with at most one statement as its head. -/
  | loop (head : List Statement) (controls : List Expression) (body : Statement)
  /-- `for (head in subject)` and `for (head of subject)`. -/
  | each (awaits : Bool) (head : Statement) (subject : Expression) (body : Statement)
  | group (form : StatementForm) (parts : List Expression) (body : List Statement)
  | importDeclaration (value : ImportDeclaration)
  /-- `export { … }`, of names of this module or of another one. -/
  | exportList (span : Span) (specifiers : List ExportSpecifier) (source : Option Request)
  /-- `export *`, under a name of its own or not. -/
  | exportAll (span : Span) (name : Option String) (source : Request)
  | exportDeclaration (span : Span) (declarationStart : Nat) (declaration : Statement)
  /-- A function, class, expression or dropped interface as the default export. -/
  | exportDefault (span : Span) (declaration : Statement)

end

instance : Inhabited Expression := ⟨.group .literal []⟩

instance : Inhabited Statement := ⟨.group .empty [] []⟩

namespace FunctionNode

def span : FunctionNode → Span
  | mk span .. => span

def name : FunctionNode → Option String
  | mk _ name .. => name

def parameters : FunctionNode → List Pattern
  | mk _ _ _ _ _ parameters _ => parameters

end FunctionNode

namespace ClassNode

def span : ClassNode → Span
  | mk span .. => span

def name : ClassNode → Option String
  | mk _ name .. => name

end ClassNode

/-- A whole source text: its `#!` line, the directives it opens with, and its other
statements. -/
structure Program where
  hashbang : Option Span
  directives : List Span
  body : List Statement

end ModuleBundle.Script
