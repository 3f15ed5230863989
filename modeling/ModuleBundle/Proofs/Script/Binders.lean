import ModuleBundle.Script.Scope

/-!
What it means to bind a name, said of patterns and statements one step at a time. The lists
of names that a scope hides hold the names so bound and no other.
-/

set_option autoImplicit false

namespace ModuleBundle.Script

variable {name : String}

/-- A pattern binds the names it stands for or that a part of it binds: the value at a key,
what has a default value, an element or the rest of them. -/
inductive Pattern.Binds (name : String) : Pattern → Prop
  | here : Binds name (.name name)
  | part {parts : List Pattern} {pattern : Pattern} (listed : pattern ∈ parts)
      (binds : Binds name pattern) : Binds name (.nested parts)
  | value {key : Expression} {pattern : Pattern} (binds : Binds name pattern) :
      Binds name (.keyed key pattern)
  | target {pattern : Pattern} {value : Expression} (binds : Binds name pattern) :
      Binds name (.withDefault pattern value)

namespace Statement

inductive Declares (name : String) : Statement → Prop
  | binding {span : Span} {kind : DeclarationKind} {bindings : List Pattern} {pattern : Pattern}
      (listed : pattern ∈ bindings) (binds : pattern.Binds name) :
      Declares name (.declaration span kind bindings)
  | function {value : FunctionNode} (named : value.name = some name) :
      Declares name (.function value)
  | classNode {value : ClassNode} (named : value.name = some name) :
      Declares name (.classNode value)

def IsVar : Statement → Prop
  | .declaration _ .hoisted _ => True
  | _ => False

def Introduces (name : String) (statement : Statement) : Prop :=
  statement.Declares name ∧ ¬ statement.IsVar

/-- The statements directly inside of a statement; functions and classes have a scope of
their own for theirs. -/
def parts : Statement → List Statement
  | .block body => body
  | .switch _ cases => cases
  | .clause _ body => body
  | .handler _ body => body
  | .loop head _ body => head ++ [body]
  | .each _ head _ body => [head, body]
  | .group _ _ body => body
  | .exportDeclaration _ _ inner => [inner]
  | .exportDefault _ inner => [inner]
  | _ => []

inductive Hoists (name : String) : Statement → Prop
  | here {statement : Statement} (isVar : statement.IsVar) (declares : statement.Declares name) :
      Hoists name statement
  | inside {statement part : Statement} (listed : part ∈ statement.parts)
      (hoists : Hoists name part) : Hoists name statement

end Statement

/-! Patterns. -/

namespace Pattern

theorem mem_namesOfList {patterns : List Pattern} :
    name ∈ namesOfList patterns ↔ ∃ pattern ∈ patterns, name ∈ pattern.names := by
  induction patterns with
  | nil => simp [namesOfList]
  | cons first rest ih => simp [namesOfList, ih]

theorem Binds.mem_names {pattern : Pattern} (binds : pattern.Binds name) :
    name ∈ pattern.names := by
  induction binds with
  | here => exact List.mem_singleton_self name
  | part listed _ ih => exact mem_namesOfList.mpr ⟨_, listed, ih⟩
  | value _ ih => exact ih
  | target _ ih => exact ih

mutual

theorem binds_of_mem_names : (pattern : Pattern) → name ∈ pattern.names → pattern.Binds name
  | .name text, named => by
    cases List.mem_singleton.mp named
    exact .here
  | .nested parts, named => by
    obtain ⟨pattern, listed, binds⟩ := exists_binds_of_mem_namesOfList parts named
    exact .part listed binds
  | .keyed _ pattern, named => .value (binds_of_mem_names pattern named)
  | .withDefault pattern _, named => .target (binds_of_mem_names pattern named)

theorem exists_binds_of_mem_namesOfList :
    (patterns : List Pattern) → name ∈ namesOfList patterns → ∃ p ∈ patterns, p.Binds name
  | [], named => nomatch named
  | first :: rest, named => by
    rcases List.mem_append.mp named with inFirst | inRest
    · exact ⟨first, List.mem_cons_self, binds_of_mem_names first inFirst⟩
    · obtain ⟨pattern, listed, binds⟩ := exists_binds_of_mem_namesOfList rest inRest
      exact ⟨pattern, List.mem_cons_of_mem _ listed, binds⟩

end

theorem mem_names_iff {pattern : Pattern} : name ∈ pattern.names ↔ pattern.Binds name :=
  ⟨binds_of_mem_names pattern, Binds.mem_names⟩

theorem mem_namesOfList_iff {patterns : List Pattern} :
    name ∈ namesOfList patterns ↔ ∃ pattern ∈ patterns, pattern.Binds name := by
  simp only [mem_namesOfList, mem_names_iff]

end Pattern

/-! Statements. -/

namespace Statement

theorem mem_declaredNames_iff {statement : Statement} :
    name ∈ statement.declaredNames ↔ statement.Declares name := by
  constructor
  · intro named
    cases statement with
    | declaration span kind bindings =>
      obtain ⟨pattern, listed, binds⟩ := Pattern.mem_namesOfList_iff.mp named
      exact .binding listed binds
    | function value => exact .function (Option.mem_toList.mp named)
    | classNode value => exact .classNode (Option.mem_toList.mp named)
    | _ => cases named
  · intro declares
    cases declares with
    | binding listed binds => exact Pattern.mem_namesOfList_iff.mpr ⟨_, listed, binds⟩
    | function named => exact Option.mem_toList.mpr named
    | classNode named => exact Option.mem_toList.mpr named

theorem mem_lexicalNames_iff {statement : Statement} :
    name ∈ statement.lexicalNames ↔ statement.Introduces name := by
  cases statement with
  | declaration span kind bindings =>
    cases kind <;> simp [lexicalNames, Introduces, IsVar, mem_declaredNames_iff]
  | _ => simp [lexicalNames, Introduces, IsVar, mem_declaredNames_iff]

theorem mem_lexicalNamesOfList_iff {body : List Statement} :
    name ∈ lexicalNamesOfList body ↔ ∃ statement ∈ body, statement.Introduces name := by
  simp only [lexicalNamesOfList, List.mem_flatMap, mem_lexicalNames_iff]

theorem mem_lexicalNamesOfCases_iff {cases : List Statement} :
    name ∈ lexicalNamesOfCases cases ↔
      ∃ tests body, .clause tests body ∈ cases ∧ ∃ s ∈ body, s.Introduces name := by
  simp only [lexicalNamesOfCases, List.mem_flatMap]
  constructor
  · rintro ⟨case, listed, named⟩
    cases case with
    | clause tests body => exact ⟨tests, body, listed, mem_lexicalNamesOfList_iff.mp named⟩
    | _ => cases named
  · rintro ⟨tests, body, listed, introduced⟩
    exact ⟨.clause tests body, listed, mem_lexicalNamesOfList_iff.mpr introduced⟩

theorem mem_hoistedNamesOfList {body : List Statement} :
    name ∈ hoistedNamesOfList body ↔ ∃ statement ∈ body, name ∈ statement.hoistedNames := by
  induction body with
  | nil => simp [hoistedNamesOfList]
  | cons first rest ih => simp [hoistedNamesOfList, ih]

theorem mem_hoistedNames {statement : Statement} :
    name ∈ statement.hoistedNames ↔
      (statement.IsVar ∧ statement.Declares name) ∨
        ∃ part ∈ statement.parts, name ∈ part.hoistedNames := by
  cases statement with
  | declaration span kind bindings =>
    cases kind <;> simp [hoistedNames, IsVar, parts, ← mem_declaredNames_iff, declaredNames]
  | loop head controls body =>
    -- the statements of the head and the body are parts alike
    simp [hoistedNames, IsVar, parts, mem_hoistedNamesOfList, or_and_right, exists_or]
  | _ => simp [hoistedNames, IsVar, parts, mem_hoistedNamesOfList]

theorem Hoists.mem_hoistedNames {statement : Statement} (hoists : statement.Hoists name) :
    name ∈ statement.hoistedNames := by
  induction hoists with
  | here isVar declares => exact Statement.mem_hoistedNames.mpr (.inl ⟨isVar, declares⟩)
  | inside listed _ ih => exact Statement.mem_hoistedNames.mpr (.inr ⟨_, listed, ih⟩)

theorem sizeOf_lt_of_mem_parts {statement part : Statement} (listed : part ∈ statement.parts) :
    sizeOf part < sizeOf statement := by
  cases statement with
  | block body | switch subject body | clause tests body | handler parameter body
  | group form parts body =>
    have : sizeOf part < sizeOf body := List.sizeOf_lt_of_mem listed
    simp only [block.sizeOf_spec, switch.sizeOf_spec, clause.sizeOf_spec, handler.sizeOf_spec,
      group.sizeOf_spec]
    omega
  | loop head controls body =>
    rcases List.mem_append.mp listed with inHead | isBody
    · have := List.sizeOf_lt_of_mem inHead
      simp only [loop.sizeOf_spec]
      omega
    · cases List.mem_singleton.mp isBody
      simp only [loop.sizeOf_spec]
      omega
  | each awaits head subject body =>
    simp only [parts, List.mem_cons, List.not_mem_nil, or_false] at listed
    rcases listed with rfl | rfl <;> simp only [each.sizeOf_spec] <;> omega
  | exportDeclaration span start inner =>
    cases List.mem_singleton.mp listed
    simp only [exportDeclaration.sizeOf_spec]
    omega
  | exportDefault span inner =>
    cases List.mem_singleton.mp listed
    simp only [exportDefault.sizeOf_spec]
    omega
  | _ => cases listed

theorem hoists_of_mem_hoistedNames (statement : Statement)
    (named : name ∈ statement.hoistedNames) : statement.Hoists name := by
  -- the list says which part to go down into, and parts are smaller
  rcases mem_hoistedNames.mp named with ⟨isVar, declares⟩ | ⟨part, listed, inside⟩
  · exact .here isVar declares
  · exact .inside listed (hoists_of_mem_hoistedNames part inside)
termination_by sizeOf statement
decreasing_by exact sizeOf_lt_of_mem_parts listed

theorem mem_hoistedNamesOfList_iff {body : List Statement} :
    name ∈ hoistedNamesOfList body ↔ ∃ statement ∈ body, statement.Hoists name := by
  have alike (statement : Statement) :
      name ∈ statement.hoistedNames ↔ statement.Hoists name :=
    ⟨hoists_of_mem_hoistedNames statement, Hoists.mem_hoistedNames⟩
  simp only [mem_hoistedNamesOfList, alike]

end Statement

end ModuleBundle.Script
