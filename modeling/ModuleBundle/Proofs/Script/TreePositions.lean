import ModuleBundle.Proofs.Lowering.Untouched
import ModuleBundle.Proofs.Script.Positions
import ModuleBundle.Script.Grammar.Interface

/-!
Positions of syntax trees. A tree lies behind an offset if all places in it that an edit may touch
do. That is decided by the places of each node on its own and by its parts, so what a constructor
puts together lies behind an offset if its arguments do.
-/

set_option autoImplicit false

namespace ModuleBundle.Script

variable {offset : Nat}

instance : Positioned Node where
  Behind offset node := ∀ site ∈ node.collect Node.sites, Behind offset site
  mono below behind site listed := Positioned.mono below (behind site listed)

theorem Node.behind_iff {node : Node} : Behind offset node ↔
    Behind offset node.sites ∧ Behind offset (node.parts.map Place.node) := by
  change (∀ site ∈ node.collect sites, _) ↔
    (∀ site ∈ node.sites, Behind offset site) ∧
      ∀ part ∈ node.parts.map Place.node, ∀ site ∈ part.collect sites, Behind offset site
  rw [collect_eq, List.forall_mem_append, List.forall_mem_flatMap, List.forall_mem_map]

theorem Node.behind_iff_parts {node : Node} (none : node.sites = []) :
    Behind offset node ↔ Behind offset (node.parts.map Place.node) := by
  simp [behind_iff, none]

instance : Positioned Expression where
  Behind offset e := Behind offset (Node.expression e)
  mono := Positioned.mono (α := Node)

instance : Positioned Pattern where
  Behind offset pattern := Behind offset (Node.pattern pattern)
  mono := Positioned.mono (α := Node)

instance : Positioned Member where
  Behind offset member := Behind offset (Node.member member)
  mono := Positioned.mono (α := Node)

def FunctionNode.parametersStart : FunctionNode → Nat
  | mk _ _ _ _ start _ _ => start

structure FunctionNode.LiesBehind (offset : Nat) (value : FunctionNode) : Prop where
  inside : Behind offset (Node.function value)
  starts : offset ≤ value.span.start
  parameters : offset ≤ value.parametersStart

instance : Positioned FunctionNode where
  Behind := FunctionNode.LiesBehind
  mono below := fun ⟨inside, starts, parameters⟩ =>
    ⟨Positioned.mono below inside, Nat.le_trans below starts, Nat.le_trans below parameters⟩

structure ClassNode.LiesBehind (offset : Nat) (value : ClassNode) : Prop where
  inside : Behind offset (Node.classNode value)
  starts : offset ≤ value.span.start
  stops : offset ≤ value.span.stop

instance : Positioned ClassNode where
  Behind := ClassNode.LiesBehind
  mono below := fun ⟨inside, starts, stops⟩ =>
    ⟨Positioned.mono below inside, Nat.le_trans below starts, Nat.le_trans below stops⟩

def Statement.OwnBehind (offset : Nat) : Statement → Prop
  | .function value => Behind offset value
  | .classNode value => Behind offset value
  | .expression span _ => offset ≤ span.start ∧ offset ≤ span.stop
  | _ => True

instance : Positioned Statement where
  Behind offset statement := Behind offset (Node.statement statement) ∧ statement.OwnBehind offset
  mono {_ _ statement} below := by
    refine And.imp (Positioned.mono below) fun own => ?_
    cases statement with
    | function value => exact Positioned.mono (α := FunctionNode) below own
    | classNode value => exact Positioned.mono (α := ClassNode) below own
    | expression span value => exact own.imp (Nat.le_trans below) (Nat.le_trans below)
    | _ => trivial

instance : Positioned PropertyKey where
  Behind offset key :=
    match key with
    | .word span _ => Behind offset span
    | .computed key => Behind offset key
    | _ => True
  mono {_ _ key} below behind := by
    cases key with
    | word span text => exact Positioned.mono (α := Span) below behind
    | computed key => exact Positioned.mono (α := Expression) below behind
    | _ => trivial

instance : Positioned Grammar.Signature where
  Behind offset signature := Behind offset signature.keys ∧ Behind offset signature.parameters
  mono below := And.imp (Positioned.mono below) (Positioned.mono below)

@[grind =, grind norm]
theorem Grammar.Signature.behind_mk {keys : List Expression} {parameters : List Pattern} :
    Behind offset (mk keys parameters) ↔ Behind offset keys ∧ Behind offset parameters := Iff.rfl

instance : Positioned ExportSpecifier where
  Behind offset specifier := Behind offset specifier.span
  mono := Positioned.mono (α := Span)

@[grind =, grind norm]
theorem ExportSpecifier.behind_mk {span : Span} {source exported : String} :
    Behind offset (mk span source exported) ↔ Behind offset span := Iff.rfl

/-! Parts of a tree. -/

@[simp]
theorem Node.map_within (around : List Enclosure) (nodes : List Node) :
    (within around nodes).map Place.node = nodes := by
  simp [within, Function.comp_def]

@[simp]
theorem Node.map_ofFunction (name : Option String) (parameters : List Pattern)
    (body : List Statement) : (ofFunction name parameters body).map Place.node =
      parameters.map .pattern ++ body.map .statement := by
  simp [ofFunction]

@[simp]
theorem Node.behind_expression {e : Expression} : Behind offset (expression e) ↔ Behind offset e :=
  Iff.rfl

@[simp]
theorem Node.behind_pattern {bound : Pattern} :
    Behind offset (pattern bound) ↔ Behind offset bound := Iff.rfl

@[simp]
theorem Node.behind_expressions {list : List Expression} :
    Behind offset (list.map expression) ↔ Behind offset list := List.forall_mem_map

@[simp]
theorem Node.behind_patterns {list : List Pattern} :
    Behind offset (list.map pattern) ↔ Behind offset list := List.forall_mem_map

theorem Node.behind_members {list : List Member} :
    Behind offset (list.map member) ↔ Behind offset list := List.forall_mem_map

theorem Node.behind_statements {list : List Statement} (inside : Behind offset list) :
    Behind offset (list.map statement) :=
  List.forall_mem_map.mpr fun each listed => (inside each listed).1

section

variable {span : Span} {text : String} {e : Expression} {list parts : List Expression}
  {pattern : Pattern} {patterns : List Pattern} {body : List Statement} {inner : Statement}

/-! Expressions. -/

namespace Expression

@[grind =, grind norm]
theorem behind_name : Behind offset (name span text) ↔ Behind offset span := by
  refine Node.behind_iff.trans ?_
  simp [Node.parts, Node.sites, Node.linkSites, Node.nameSites, Node.importSites, Node.moduleCall?]

@[grind =, grind norm]
theorem behind_shorthand : Behind offset (shorthand span text) ↔ Behind offset span := by
  refine Node.behind_iff.trans ?_
  simp [Node.parts, Node.sites, Node.linkSites, Node.nameSites, Node.importSites, Node.moduleCall?]

@[grind =, grind norm]
theorem behind_string : Behind offset (string span text) ↔ True := by
  refine (Node.behind_iff_parts rfl).trans ?_
  simp [Node.parts]

@[grind =, grind norm]
theorem behind_call :
    Behind offset (call span e parts) ↔ Behind offset e ∧ Behind offset parts := by
  -- a call of `require` is no site
  have none : (Node.expression (call span e parts)).sites = [] := by
    simp only [Node.sites, Node.linkSites, Node.nameSites, Node.importSites, Node.moduleCall?]
    split <;> rfl
  refine (Node.behind_iff_parts none).trans ?_
  simp [Node.parts]

@[grind ←]
theorem behind_dynamicImport (here : Behind offset span) (source : Behind offset e)
    (options : Behind offset parts) : Behind offset (dynamicImport span e parts) := by
  apply Node.behind_iff.mpr
  constructor
  · cases e with
    | string literal specifier =>
      simpa [Node.sites, Node.linkSites, Node.nameSites, Node.importSites, Node.moduleCall?,
        ModuleCall.site?] using here
    | _ => exact List.forall_mem_nil _
  · simpa [Node.parts] using And.intro source options

@[grind ←]
theorem behind_function {value : FunctionNode} (inside : Behind offset value) :
    Behind offset (function value) := by
  apply (Node.behind_iff_parts rfl).mpr
  simpa [Node.parts] using inside.inside

@[grind ←]
theorem behind_arrow (parameters : Behind offset patterns) (inside : Behind offset body) :
    Behind offset (arrow patterns body) := by
  apply (Node.behind_iff_parts rfl).mpr
  simpa [Node.parts] using And.intro parameters (Node.behind_statements inside)

@[grind ←]
theorem behind_classNode {value : ClassNode} (inside : Behind offset value) :
    Behind offset (classNode value) := by
  apply (Node.behind_iff_parts rfl).mpr
  simpa [Node.parts] using inside.inside

@[grind =, grind norm]
theorem behind_await : Behind offset (await e) ↔ Behind offset e := by
  refine (Node.behind_iff_parts rfl).trans ?_
  simp [Node.parts]

@[grind =, grind norm]
theorem behind_group {form : Form} : Behind offset (group form parts) ↔ Behind offset parts := by
  refine (Node.behind_iff_parts rfl).trans ?_
  simp [Node.parts]

end Expression

/-! Patterns. -/

namespace Pattern

@[grind =, grind norm]
theorem behind_name : Behind offset (name text) ↔ True := by
  refine (Node.behind_iff_parts rfl).trans ?_
  simp [Node.parts]

@[grind =, grind norm]
theorem behind_nested : Behind offset (nested patterns) ↔ Behind offset patterns := by
  refine (Node.behind_iff_parts rfl).trans ?_
  simp [Node.parts]

@[grind =, grind norm]
theorem behind_keyed :
    Behind offset (keyed e pattern) ↔ Behind offset e ∧ Behind offset pattern := by
  refine (Node.behind_iff_parts rfl).trans ?_
  simp [Node.parts]

@[grind =, grind norm]
theorem behind_withDefault :
    Behind offset (withDefault pattern e) ↔ Behind offset pattern ∧ Behind offset e := by
  refine (Node.behind_iff_parts rfl).trans ?_
  simp [Node.parts]

theorem behind_foldr (decorators : Behind offset list) (here : Behind offset pattern) :
    Behind offset (list.foldr keyed pattern) := by
  induction list with
  | nil => exact here
  | cons first rest ih =>
    obtain ⟨first, rest⟩ := (behind_cons _).mp decorators
    exact behind_keyed.mpr ⟨first, ih rest⟩

end Pattern

/-! Functions, classes and their members. -/

@[grind ←]
theorem FunctionNode.behind_mk {name : Option String} {isAsync isGenerator : Bool}
    {parametersStart : Nat} (starts : offset ≤ span.start) (opens : offset ≤ parametersStart)
    (parameters : Behind offset patterns) (inside : Behind offset body) :
    Behind offset (mk span name isAsync isGenerator parametersStart patterns body) := by
  refine ⟨(Node.behind_iff_parts rfl).mpr ?_, starts, opens⟩
  simpa [Node.parts] using And.intro parameters (Node.behind_statements inside)

namespace Member

@[grind ←]
theorem behind_method {decorators key : List Expression} {value : FunctionNode}
    (decorated : Behind offset decorators) (named : Behind offset key)
    (inside : Behind offset value) : Behind offset (method decorators key value) := by
  apply (Node.behind_iff_parts rfl).mpr
  simpa [Node.parts, and_assoc] using And.intro decorated (And.intro named inside.inside)

@[grind ←]
theorem behind_field {decorators key value : List Expression}
    (decorated : Behind offset decorators) (named : Behind offset key)
    (inside : Behind offset value) : Behind offset (field decorators key value) := by
  apply (Node.behind_iff_parts rfl).mpr
  simpa [Node.parts, and_assoc] using And.intro decorated (And.intro named inside)

@[grind ←]
theorem behind_staticBlock (inside : Behind offset body) : Behind offset (staticBlock body) := by
  apply (Node.behind_iff_parts rfl).mpr
  simpa [Node.parts] using Node.behind_statements inside

end Member

@[grind ←]
theorem ClassNode.behind_mk {name : Option String} {decorators heritage : List Expression}
    {members : List Member} (starts : offset ≤ span.start) (stops : offset ≤ span.stop)
    (decorated : Behind offset decorators) (extended : Behind offset heritage)
    (inside : Behind offset members) :
    Behind offset (mk span name decorators heritage members) := by
  refine ⟨(Node.behind_iff_parts rfl).mpr ?_, starts, stops⟩
  simpa [Node.parts, and_assoc] using
    And.intro decorated (And.intro extended (Node.behind_members.mpr inside))

/-! Statements. -/

namespace Statement

@[grind ←]
theorem behind_expression (starts : offset ≤ span.start) (stops : offset ≤ span.stop)
    (value : Behind offset e) : Behind offset (expression span e) := by
  refine ⟨(Node.behind_iff_parts rfl).mpr ?_, starts, stops⟩
  simpa [Node.parts] using value

@[grind ←]
theorem behind_declaration {kind : DeclarationKind} (bound : Behind offset patterns) :
    Behind offset (declaration span kind patterns) := by
  refine ⟨(Node.behind_iff_parts rfl).mpr ?_, trivial⟩
  simpa [Node.parts] using bound

@[grind ←]
theorem behind_function {value : FunctionNode} (inside : Behind offset value) :
    Behind offset (function value) := by
  refine ⟨(Node.behind_iff_parts rfl).mpr ?_, inside⟩
  simpa [Node.parts] using inside.inside

@[grind ←]
theorem behind_classNode {value : ClassNode} (inside : Behind offset value) :
    Behind offset (classNode value) := by
  refine ⟨(Node.behind_iff_parts rfl).mpr ?_, inside⟩
  simpa [Node.parts] using inside.inside

@[grind ←]
theorem behind_block (inside : Behind offset body) : Behind offset (block body) := by
  refine ⟨(Node.behind_iff_parts rfl).mpr ?_, trivial⟩
  simpa [Node.parts] using Node.behind_statements inside

@[grind ←]
theorem behind_switch (subject : Behind offset e) (cases : Behind offset body) :
    Behind offset (switch e body) := by
  refine ⟨(Node.behind_iff_parts rfl).mpr ?_, trivial⟩
  simpa [Node.parts] using And.intro subject (Node.behind_statements cases)

@[grind ←]
theorem behind_clause (tests : Behind offset parts) (inside : Behind offset body) :
    Behind offset (clause parts body) := by
  refine ⟨(Node.behind_iff_parts rfl).mpr ?_, trivial⟩
  simpa [Node.parts] using And.intro tests (Node.behind_statements inside)

@[grind ←]
theorem behind_handler (parameter : Behind offset patterns) (inside : Behind offset body) :
    Behind offset (handler patterns body) := by
  refine ⟨(Node.behind_iff_parts rfl).mpr ?_, trivial⟩
  simpa [Node.parts] using And.intro parameter (Node.behind_statements inside)

@[grind ←]
theorem behind_loop {head : List Statement} (first : Behind offset head)
    (controls : Behind offset parts) (inside : Behind offset inner) :
    Behind offset (loop head parts inner) := by
  refine ⟨(Node.behind_iff_parts rfl).mpr ?_, trivial⟩
  have all := And.intro (Node.behind_statements first) (And.intro controls inside.1)
  simpa [Node.parts, and_assoc] using all

@[grind ←]
theorem behind_each {awaits : Bool} {head : Statement} (first : Behind offset head)
    (subject : Behind offset e) (inside : Behind offset inner) :
    Behind offset (each awaits head e inner) := by
  refine ⟨(Node.behind_iff_parts rfl).mpr ?_, trivial⟩
  simpa [Node.parts] using And.intro first.1 (And.intro subject inside.1)

@[grind ←]
theorem behind_group {form : StatementForm} (here : Behind offset parts)
    (inside : Behind offset body) : Behind offset (group form parts body) := by
  refine ⟨(Node.behind_iff_parts rfl).mpr ?_, trivial⟩
  simpa [Node.parts] using And.intro here (Node.behind_statements inside)

/-! Imports and exports. -/

@[grind ←]
theorem behind_importDeclaration {d : ImportDeclaration} (here : Behind offset d.span) :
    Behind offset (importDeclaration d) := by
  refine ⟨Node.behind_iff.mpr ?_, trivial⟩
  obtain ⟨own, specifiers, source⟩ := d
  cases specifiers <;> exact ⟨behind_singleton here, nofun⟩

@[grind ←]
theorem behind_exportList {specifiers : List ExportSpecifier} {source : Option Request}
    (here : Behind offset span) (listed : Behind offset specifiers) :
    Behind offset (exportList span specifiers source) := by
  refine ⟨Node.behind_iff.mpr ⟨?_, nofun⟩, trivial⟩
  cases source with
  | none =>
    have spans : Behind offset (specifiers.map ExportSpecifier.span) :=
      List.forall_mem_map.mpr listed
    change Behind offset ([span] ++ (specifiers.map ExportSpecifier.span ++ []))
    simpa using And.intro here spans
  | some source => exact behind_singleton here

@[grind ←]
theorem behind_exportAll {name : Option String} {source : Request} (here : Behind offset span) :
    Behind offset (exportAll span name source) := by
  refine ⟨Node.behind_iff.mpr ?_, trivial⟩
  cases name <;> exact ⟨behind_singleton here, nofun⟩

@[grind ←]
theorem behind_exportDeclaration {declarationStart : Nat}
    (keyword : Behind offset (Span.mk span.start declarationStart))
    (inside : Behind offset inner) :
    Behind offset (exportDeclaration span declarationStart inner) := by
  refine ⟨Node.behind_iff.mpr ⟨?_, ?_⟩, trivial⟩
  · exact behind_singleton keyword
  · simpa [Node.parts] using inside.1

/-- A default export takes its keywords away, so that what it exports has to begin behind them. -/
@[grind ←]
theorem behind_exportDefault (here : Behind offset span) (inside : Behind (offset + 1) inner) :
    Behind offset (exportDefault span inner) := by
  have below := Positioned.mono (Nat.le_succ offset) inside
  refine ⟨Node.behind_iff.mpr ⟨?_, ?_⟩, trivial⟩
  · have keywords {stop : Nat} (behind : offset + 1 ≤ stop) :
        Behind offset (Span.mk span.start stop) := ⟨here.1, behind⟩
    have value {own : Span} (starts : offset + 1 ≤ own.start) (stops : offset + 1 ≤ own.stop) :
        Behind offset [Span.mk span.start own.start, Span.mk own.stop own.stop] := by
      have semicolon : Behind offset (Span.mk own.stop own.stop) := ⟨Nat.le_of_lt stops, stops⟩
      simpa using And.intro (keywords starts) semicolon
    cases inner with
    | function value =>
      obtain ⟨own, name, isAsync, isGenerator, start, parameters, body⟩ := value
      cases name with
      | none => exact behind_singleton (keywords inside.2.parameters)
      | some name => exact behind_singleton (keywords inside.2.starts)
    | classNode value =>
      obtain ⟨own, name, decorators, heritage, members⟩ := value
      cases name with
      | none => exact value inside.2.starts inside.2.stops
      | some name => exact behind_singleton (keywords inside.2.starts)
    | expression own e => exact value inside.2.1 inside.2.2
    | _ => exact behind_singleton here
  · simpa [Node.parts] using below.1

end Statement

end

end ModuleBundle.Script
