import ModuleBundle.Proofs.Lowering.Occurrences

/-!
Places in a syntax tree: what stands there, and the constructs around it that declare names.
A part of what stands at a place has a place of its own, inside of the constructs that open
between the two. What a program does at any depth is what it does at one of its places.
-/

set_option autoImplicit false

namespace ModuleBundle.Script

inductive Node where
  | expression (value : Expression)
  | pattern (value : Pattern)
  | function (value : FunctionNode)
  | classNode (value : ClassNode)
  | member (value : Member)
  | statement (value : Statement)

structure Place where
  node : Node
  /-- The constructs around, the innermost first. -/
  around : List Enclosure

def Construct.isFunction : Construct → Bool
  | .function _ _ _ => true
  | _ => false

def Place.outsideFunctions (place : Place) : Bool :=
  place.around.all fun enclosure => !enclosure.construct.isFunction

namespace Node

def within (around : List Enclosure) (nodes : List Node) : List Place := nodes.map (⟨·, around⟩)

def ofFunction (name : Option String) (parameters : List Pattern) (body : List Statement) :
    List Place :=
  within [⟨.function name parameters body, .head⟩] (parameters.map .pattern) ++
    within [⟨.function name parameters body, .body⟩] (body.map .statement)

/-- The parts of a node, each with the constructs that open between the node and the part. -/
def parts : Node → List Place
  | .expression (.name _ _) => []
  | .expression (.shorthand _ _) => []
  | .expression (.string _ _) => []
  | .expression (.call _ callee arguments) => within [] ((callee :: arguments).map .expression)
  | .expression (.dynamicImport _ source options) =>
    within [] ((source :: options).map .expression)
  | .expression (.function value) => within [] [.function value]
  | .expression (.arrow parameters body) => ofFunction none parameters body
  | .expression (.classNode value) => within [] [.classNode value]
  | .expression (.await argument) => within [] [.expression argument]
  | .expression (.group _ parts) => within [] (parts.map .expression)
  | .pattern (.name _) => []
  | .pattern (.nested parts) => within [] (parts.map .pattern)
  | .pattern (.keyed key bound) => within [] [.expression key, .pattern bound]
  | .pattern (.withDefault bound value) => within [] [.pattern bound, .expression value]
  | .function (.mk _ name _ _ _ parameters body) => ofFunction name parameters body
  | .classNode (.mk _ name decorators heritage members) =>
    within [⟨.classNode name, .head⟩] (decorators.map .expression) ++
      within [⟨.classNode name, .body⟩] (heritage.map .expression ++ members.map .member)
  | .member (.method decorators key value) =>
    within [] ((decorators ++ key).map .expression ++ [.function value])
  | .member (.field decorators key value) =>
    within [] ((decorators ++ key ++ value).map .expression)
  | .member (.staticBlock body) => within [⟨.staticBlock body, .body⟩] (body.map .statement)
  | .statement (.expression _ value) => within [] [.expression value]
  | .statement (.declaration _ _ bindings) => within [] (bindings.map .pattern)
  | .statement (.function value) => within [] [.function value]
  | .statement (.classNode value) => within [] [.classNode value]
  | .statement (.block body) => within [⟨.block body, .body⟩] (body.map .statement)
  | .statement (.switch subject cases) =>
    within [⟨.switch cases, .head⟩] [.expression subject] ++
      within [⟨.switch cases, .body⟩] (cases.map .statement)
  | .statement (.clause tests body) =>
    within [] (tests.map .expression ++ body.map .statement)
  | .statement (.handler parameter body) =>
    within [⟨.handler parameter, .body⟩] (parameter.map .pattern) ++
      within [⟨.block body, .body⟩, ⟨.handler parameter, .body⟩] (body.map .statement)
  | .statement (.loop head controls body) =>
    within [⟨.loop head, .body⟩]
      (head.map .statement ++ controls.map .expression ++ [.statement body])
  | .statement (.each _ head subject body) =>
    within [⟨.loop [head], .body⟩] [.statement head, .expression subject, .statement body]
  | .statement (.group _ parts body) =>
    within [] (parts.map .expression ++ body.map .statement)
  | .statement (.importDeclaration _) => []
  | .statement (.exportList _ _ _) => []
  | .statement (.exportAll _ _ _) => []
  | .statement (.exportDeclaration _ _ inner) => within [] [.statement inner]
  | .statement (.exportDefault _ inner) => within [] [.statement inner]

theorem mem_within {around : List Enclosure} {nodes : List Node} {place : Place} :
    place ∈ within around nodes ↔ place.node ∈ nodes ∧ place.around = around := by
  simp only [within, List.mem_map]
  constructor
  · rintro ⟨node, listed, rfl⟩
    exact ⟨listed, rfl⟩
  · rintro ⟨listed, rfl⟩
    exact ⟨place.node, listed, rfl⟩

theorem mem_ofFunction {name : Option String} {parameters : List Pattern} {body : List Statement}
    {place : Place} :
    place ∈ ofFunction name parameters body ↔
      (place.node ∈ parameters.map Node.pattern ∧
        place.around = [⟨.function name parameters body, .head⟩]) ∨
      (place.node ∈ body.map Node.statement ∧
        place.around = [⟨.function name parameters body, .body⟩]) := by
  simp only [ofFunction, List.mem_append, mem_within]

theorem sizeOf_lt_of_mem_parts {node : Node} {part : Place} (listed : part ∈ node.parts) :
    sizeOf part.node < sizeOf node := by
  have smaller {α : Type} [SizeOf α] {list : List α} {a : α} (member : a ∈ list) :
      sizeOf a < sizeOf list := List.sizeOf_lt_of_mem member
  revert listed
  fun_cases parts node <;>
    simp only [mem_ofFunction, mem_within, List.mem_append, List.mem_map, List.mem_cons,
      List.not_mem_nil, or_false, List.map_cons, List.map_append] <;>
    grind

/-! Waiting. -/

def awaits : Node → Bool
  | .expression value => value.awaits
  | .pattern value => value.awaits
  | .function _ => false
  | .classNode value => value.awaits
  | .member value => value.awaits
  | .statement value => value.awaits

/-- Whether a node waits itself: `await`, `await using` or `for await`. -/
def waits : Node → Bool
  | .expression (.await _) => true
  | .statement (.declaration _ kind _) => kind = .awaitedResource
  | .statement (.each awaits _ _ _) => awaits
  | _ => false

/-! Requests for modules. -/

def moduleCalls : Node → List ModuleCall
  | .expression value => value.moduleCalls
  | .pattern value => value.moduleCalls
  | .function value => value.moduleCalls
  | .classNode value => value.moduleCalls
  | .member value => value.moduleCalls
  | .statement value => value.moduleCalls

def moduleCall? : Node → Option ModuleCall
  | .expression (.call span callee arguments) =>
    match callee, arguments with
    | .name _ "require", [.string _ specifier] => some (.require ⟨span.start, specifier⟩)
    | _, _ => none
  | .expression (.dynamicImport span source _) =>
    match source with
    | .string _ specifier => some (.dynamicImport span specifier)
    | _ => none
  | _ => none

end Node

/-! Lists of nodes of one kind. -/

section

variable {α β : Type}

theorem flatMap_of_walk {each : α → List β} {walk : List α → List β} (empty : walk [] = [])
    (step : ∀ first rest, walk (first :: rest) = each first ++ walk rest) (list : List α) :
    walk list = list.flatMap each := by
  induction list with
  | nil => exact empty
  | cons first rest ih => rw [step, ih, List.flatMap_cons]

theorem any_of_walk {each : α → Bool} {walk : List α → Bool} (empty : walk [] = false)
    (step : ∀ first rest, walk (first :: rest) = (each first || walk rest)) (list : List α) :
    walk list = list.any each := by
  induction list with
  | nil => exact empty
  | cons first rest ih => rw [step, ih, List.any_cons]

end

namespace Expression

theorem anyAwaits_eq (list : List Expression) : anyAwaits list = list.any awaits :=
  any_of_walk rfl (fun _ _ => rfl) list

theorem moduleCallsOfList_eq (list : List Expression) :
    moduleCallsOfList list = list.flatMap moduleCalls :=
  flatMap_of_walk rfl (fun _ _ => rfl) list

end Expression

namespace Pattern

theorem anyAwaits_eq (list : List Pattern) : anyAwaits list = list.any awaits :=
  any_of_walk rfl (fun _ _ => rfl) list

theorem moduleCallsOfList_eq (list : List Pattern) :
    moduleCallsOfList list = list.flatMap moduleCalls :=
  flatMap_of_walk rfl (fun _ _ => rfl) list

end Pattern

namespace Member

theorem anyAwaits_eq (list : List Member) : anyAwaits list = list.any awaits :=
  any_of_walk rfl (fun _ _ => rfl) list

theorem moduleCallsOfList_eq (list : List Member) :
    moduleCallsOfList list = list.flatMap moduleCalls :=
  flatMap_of_walk rfl (fun _ _ => rfl) list

end Member

namespace Statement

theorem anyAwaits_eq (list : List Statement) : anyAwaits list = list.any awaits :=
  any_of_walk rfl (fun _ _ => rfl) list

theorem moduleCallsOfList_eq (list : List Statement) :
    moduleCallsOfList list = list.flatMap moduleCalls :=
  flatMap_of_walk rfl (fun _ _ => rfl) list

end Statement

namespace Node

theorem awaits_eq (node : Node) :
    node.awaits = (node.waits ||
      node.parts.any fun part => part.outsideFunctions && part.node.awaits) := by
  fun_cases parts node <;>
    simp [awaits, waits, within, ofFunction, Place.outsideFunctions, Construct.isFunction,
      Expression.awaits, Pattern.awaits, ClassNode.awaits, Member.awaits, Statement.awaits,
      Expression.anyAwaits_eq, Pattern.anyAwaits_eq, Member.anyAwaits_eq, Statement.anyAwaits_eq,
      Function.comp_def, Bool.or_assoc]

theorem moduleCalls_eq (node : Node) :
    node.moduleCalls = node.moduleCall?.toList ++
      node.parts.flatMap fun part => part.node.moduleCalls := by
  fun_cases parts node
  case case4 span callee arguments =>
    simp only [moduleCalls, Expression.moduleCalls, moduleCall?, within, List.append_assoc,
      Expression.moduleCallsOfList_eq, List.map_cons, List.flatMap_cons, List.flatMap_map]
    split
    · rfl
    next other => grind
  case case5 span source options =>
    simp only [moduleCalls, Expression.moduleCalls, moduleCall?, within, List.append_assoc,
      Expression.moduleCallsOfList_eq, List.map_cons, List.flatMap_cons, List.flatMap_map]
    cases source <;> rfl
  all_goals
    simp [moduleCalls, moduleCall?, within, ofFunction, List.flatMap_map,
      Expression.moduleCalls, Pattern.moduleCalls, FunctionNode.moduleCalls,
      ClassNode.moduleCalls, Member.moduleCalls, Statement.moduleCalls,
      Expression.moduleCallsOfList_eq, Pattern.moduleCallsOfList_eq, Member.moduleCallsOfList_eq,
      Statement.moduleCallsOfList_eq]

end Node

namespace Program

/-- The places of a program: those of its statements, and the parts of what stands at one. -/
inductive Holds (p : Program) : Place → Prop
  | outermost {statement : Statement} (listed : statement ∈ p.body) :
      Holds p ⟨.statement statement, []⟩
  | part {place part : Place} (held : Holds p place) (listed : part ∈ place.node.parts) :
      Holds p ⟨part.node, part.around ++ place.around⟩

variable {p : Program} {place : Place}

theorem Holds.anyAwaits (held : p.Holds place) (outside : place.outsideFunctions = true)
    (awaits : place.node.awaits = true) : Statement.anyAwaits p.body = true := by
  induction held with
  | outermost listed =>
    rw [Statement.anyAwaits_eq]
    exact List.any_eq_true.mpr ⟨_, listed, awaits⟩
  | @part place part held listed ih =>
    simp only [Place.outsideFunctions, List.all_append, Bool.and_eq_true] at outside
    refine ih outside.2 ?_
    rw [Node.awaits_eq, Bool.or_eq_true, List.any_eq_true]
    exact .inr ⟨part, listed, Bool.and_eq_true_iff.mpr ⟨outside.1, awaits⟩⟩

theorem Holds.mem_moduleCalls {call : ModuleCall} (held : p.Holds place)
    (requests : call ∈ place.node.moduleCalls) : call ∈ p.moduleCalls := by
  induction held with
  | outermost listed =>
    rw [moduleCalls, Statement.moduleCallsOfList_eq]
    exact List.mem_flatMap_of_mem listed requests
  | @part place part held listed ih =>
    refine ih ?_
    rw [Node.moduleCalls_eq]
    exact List.mem_append_right _ (List.mem_flatMap_of_mem listed requests)

theorem Holds.exists_moduleCall {call : ModuleCall} {place : Place} (held : p.Holds place)
    (requests : call ∈ place.node.moduleCalls) :
    ∃ inner, p.Holds inner ∧ inner.node.moduleCall? = some call := by
  -- down to the part that lists the request, until the request is the node's own
  rw [Node.moduleCalls_eq] at requests
  rcases List.mem_append.mp requests with own | inside
  · exact ⟨place, held, Option.mem_toList.mp own⟩
  · obtain ⟨part, listed, inPart⟩ := List.mem_flatMap.mp inside
    have smaller := Node.sizeOf_lt_of_mem_parts listed
    exact (held.part listed).exists_moduleCall inPart
termination_by sizeOf place.node

theorem mem_moduleCalls_iff {call : ModuleCall} :
    call ∈ p.moduleCalls ↔ ∃ place, p.Holds place ∧ place.node.moduleCall? = some call := by
  constructor
  · intro requests
    rw [moduleCalls, Statement.moduleCallsOfList_eq] at requests
    obtain ⟨statement, listed, inside⟩ := List.mem_flatMap.mp requests
    exact (Holds.outermost listed).exists_moduleCall inside
  · rintro ⟨place, held, own⟩
    refine held.mem_moduleCalls ?_
    rw [Node.moduleCalls_eq, own]
    exact List.mem_append_left _ List.mem_cons_self

end Program

end ModuleBundle.Script
