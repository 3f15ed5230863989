import ModuleBundle.Lowering.Edit
import ModuleBundle.Lowering.Prologue
import ModuleBundle.Script.Scope

/-!
What the import and export declarations of a module link it to. Every declaration makes
its own contribution, given the number of its record; a module's linkage is all of them
together, in the order of its text.
-/

set_option autoImplicit false

namespace ModuleBundle

open Script

structure Linkage where
  edits : List Edit
  requests : List Request
  exports : List Export
  requires : List RequireLine
  /-- Imported names, the later ones with precedence. -/
  imports : List (String × Reading)

namespace Linkage

def empty : Linkage := ⟨[], [], [], [], []⟩

def append (a b : Linkage) : Linkage :=
  ⟨a.edits ++ b.edits, a.requests ++ b.requests, a.exports ++ b.exports,
    a.requires ++ b.requires, a.imports ++ b.imports⟩

instance : Append Linkage := ⟨append⟩

def readingsOf : List (String × Reading) → String → Option Reading
  | [], _ => none
  | (name, reading) :: rest, sought =>
    match readingsOf rest sought with
    | some later => some later
    | none => if name = sought then some reading else none

def readings (l : Linkage) : String → Option Reading := readingsOf l.imports

end Linkage

namespace Script

namespace ImportSpecifier

def importOf (n : Nat) : ImportSpecifier → String × Reading
  | .default name => (name, .defaultExport n)
  | .whole name => (name, .whole n)
  | .named imported name => (name, .member n imported)

def requiresOf (n : Nat) : ImportSpecifier → List RequireLine
  | .default _ => [.hold n]
  | _ => []

end ImportSpecifier

namespace ImportDeclaration

def linkage (n : Nat) (d : ImportDeclaration) : Linkage :=
  match d.specifiers with
  | none => ⟨[.remove d.span], [d.source], [], [.run d.source.specifier], []⟩
  | some specifiers =>
    { edits := [.remove d.span]
      requests := [d.source]
      exports := []
      requires := .bind n d.source.specifier ::
        specifiers.flatMap (ImportSpecifier.requiresOf n)
      imports := specifiers.map (ImportSpecifier.importOf n) }

end ImportDeclaration

namespace Statement

/-- The linkage of `export default`: a function or class with a name keeps its declaration;
a function without one is given a name, to be hoisted like any other; all else becomes the
value of a variable, and an interface nothing at all. -/
def defaultLinkage (span : Span) (inner : Statement) : Linkage :=
  let exports (name : String) : List Export := [⟨"default", .name name⟩]
  match inner with
  | .function (.mk own (some name) _ _ _ _ _) =>
    { Linkage.empty with edits := [.remove ⟨span.start, own.start⟩], exports := exports name }
  | .function (.mk _ none isAsync isGenerator parametersStart _ _) =>
    let header := (if isAsync then "async " else "") ++ "function" ++
      (if isGenerator then "*" else "") ++ " " ++ defaultName
    { Linkage.empty with
      edits := [⟨⟨span.start, parametersStart⟩, header⟩], exports := exports defaultName }
  | .classNode (.mk own (some name) _ _ _) =>
    { Linkage.empty with edits := [.remove ⟨span.start, own.start⟩], exports := exports name }
  | .classNode (.mk own none _ _ _) => ofValue own
  | .expression own _ => ofValue own
  | _ => { Linkage.empty with edits := [.remove span] }
where
  ofValue (own : Span) : Linkage :=
    { Linkage.empty with
      edits := [⟨⟨span.start, own.start⟩, "var " ++ defaultName ++ " = "⟩, .insert own.stop ";"]
      exports := [⟨"default", .name defaultName⟩] }

def isLink : Statement → Bool
  | .importDeclaration _ => true
  | .exportList _ _ _ => true
  | .exportAll _ _ _ => true
  | .exportDeclaration _ _ _ => true
  | .exportDefault _ _ => true
  | _ => false

def bindsRecord : Statement → Bool
  | .importDeclaration d => d.specifiers.isSome
  | .exportList _ _ source => source.isSome
  | .exportAll _ _ _ => true
  | _ => false

/-- What a statement contributes, with `n` as the number of its record. -/
def linkage (n : Nat) : Statement → Linkage
  | .importDeclaration d => d.linkage n
  | .exportList span specifiers (some source) =>
    { edits := [.remove span]
      requests := [source]
      exports := specifiers.map fun s => ⟨s.exported, .reading (.member n s.source)⟩
      requires := [.bind n source.specifier]
      imports := [] }
  | .exportList span specifiers none =>
    { Linkage.empty with
      edits := [.remove span], exports := specifiers.map fun s => ⟨s.exported, .name s.source⟩ }
  | .exportAll span (some name) source =>
    { edits := [.remove span]
      requests := [source]
      exports := [⟨name, .name (recordName n)⟩]
      requires := [.bind n source.specifier]
      imports := [] }
  | .exportAll span none source =>
    { edits := [.remove span]
      requests := [source]
      exports := []
      requires := [.bind n source.specifier, .copy n]
      imports := [] }
  | .exportDeclaration span declarationStart inner =>
    { Linkage.empty with
      edits := [.remove ⟨span.start, declarationStart⟩]
      exports := inner.declaredNames.map fun name => ⟨name, .name name⟩ }
  | .exportDefault span inner => inner.defaultLinkage span
  | _ => .empty

def linkageOfList (n : Nat) : List Statement → Linkage
  | [] => .empty
  | statement :: rest =>
    statement.linkage n ++ linkageOfList (if statement.bindsRecord then n + 1 else n) rest

end Statement

end Script

end ModuleBundle
