import Mathlib.Data.List.Perm.Subperm
import ModuleBundle.Proofs.Lowering.Boundaries
import ModuleBundle.Proofs.Lowering.Layers
import ModuleBundle.Proofs.Lowering.Records
import ModuleBundle.Proofs.Lowering.Rewriting
import ModuleBundle.Proofs.Script.Outlines

/-!
What the body keeps of a text. The edits come from walks that know nothing of each other; that
they never overlap without nesting follows from how the spans of a syntax tree nest. Text is only
touched where something is linked, an import is named or a module is imported on demand.
-/

set_option autoImplicit false

namespace ModuleBundle

open Script

def ModuleCall.site? : ModuleCall → Option Span
  | .require _ => none
  | .dynamicImport span _ => some span

theorem filterMap_sublist_map {α β : Type} {pick : α → Option β} {value : α → β}
    (picks : ∀ a b, pick a = some b → b = value a) {list : List α} :
    (list.filterMap pick).Sublist (list.map value) := by
  induction list with
  | nil => exact .slnil
  | cons a rest ih =>
    cases picked : pick a with
    | none =>
      rw [List.filterMap_cons_none picked]
      exact ih.cons _
    | some b =>
      rw [List.filterMap_cons_some picked, picks a b picked]
      exact ih.cons_cons _

namespace Script

/-! References, one node at a time. -/

namespace Expression

theorem referencesOfList_eq (around : List Enclosure) (list : List Expression) :
    referencesOfList around list = list.flatMap (references around) :=
  flatMap_of_walk rfl (fun _ _ => rfl) list

end Expression

namespace Pattern

theorem referencesOfList_eq (around : List Enclosure) (list : List Pattern) :
    referencesOfList around list = list.flatMap (references around) :=
  flatMap_of_walk rfl (fun _ _ => rfl) list

end Pattern

namespace Member

theorem referencesOfList_eq (around : List Enclosure) (list : List Member) :
    referencesOfList around list = list.flatMap (references around) :=
  flatMap_of_walk rfl (fun _ _ => rfl) list

end Member

namespace Statement

theorem referencesOfList_eq (around : List Enclosure) (list : List Statement) :
    referencesOfList around list = list.flatMap (references around) :=
  flatMap_of_walk rfl (fun _ _ => rfl) list

end Statement

namespace Node

def references (around : List Enclosure) : Node → List Reference
  | .expression value => value.references around
  | .pattern value => value.references around
  | .function value => value.references around
  | .classNode value => value.references around
  | .member value => value.references around
  | .statement value => value.references around

def nameSites : Node → List Span
  | .expression (.name span _) => [span]
  | .expression (.shorthand span _) => [span]
  | .statement (.exportList _ specifiers none) => specifiers.map ExportSpecifier.span
  | _ => []

def importSites (node : Node) : List Span := node.moduleCall?.toList.filterMap ModuleCall.site?

def linkSites : Node → List Span
  | .statement value => (value.linkage 0).edits.map Edit.span
  | _ => []

/-- The spans that the edits of a node itself may have. -/
def sites (node : Node) : List Span := node.linkSites ++ (node.nameSites ++ node.importSites)

theorem references_eq (node : Node) (around : List Enclosure) :
    (node.references around).map Reference.span = node.nameSites ++
      node.parts.flatMap fun part =>
        (part.node.references (part.around ++ around)).map Reference.span := by
  fun_cases parts node
  case case4 span callee arguments =>
    by_cases direct : ∃ own name, callee = .name own name
    · obtain ⟨own, name, rfl⟩ := direct
      simp [references, nameSites, within, List.map_flatMap, List.flatMap_map,
        Expression.references, Expression.referencesOfList_eq]
    · simp [references, nameSites, within, List.map_flatMap, List.flatMap_map,
        Expression.references_call direct, Expression.referencesOfList_eq]
  case case32 span specifiers source =>
    cases source with
    | none => simp [references, nameSites, Statement.references]
    | some source => rfl
  all_goals
    simp [references, nameSites, within, ofFunction, List.flatMap_map, List.map_flatMap,
      Expression.references, Pattern.references, FunctionNode.references,
      ClassNode.references, Member.references, Statement.references,
      Expression.referencesOfList_eq, Pattern.referencesOfList_eq, Member.referencesOfList_eq,
      Statement.referencesOfList_eq]

theorem nameSites_collect (node : Node) (around : List Enclosure) :
    (node.references around).map Reference.span = node.collect nameSites := by
  rw [references_eq, collect_eq]
  refine congrArg (node.nameSites ++ ·) (List.flatMap_congr fun part listed => ?_)
  exact nameSites_collect part.node _
termination_by sizeOf node
decreasing_by exact sizeOf_lt_of_mem_parts listed

theorem importSites_collect (node : Node) :
    node.moduleCalls.filterMap ModuleCall.site? = node.collect importSites := by
  rw [moduleCalls_eq, collect_eq, List.filterMap_append, List.filterMap_flatMap]
  refine congrArg (node.importSites ++ ·) (List.flatMap_congr fun part listed => ?_)
  exact importSites_collect part.node
termination_by sizeOf node
decreasing_by exact sizeOf_lt_of_mem_parts listed

theorem sites_cases (node : Node) :
    match node.extent? with
    | none => node.sites.Sublist (node.words.map Outline.span)
    | some span => node.sites = [] ∨ ∃ stop rest, node.words = span.upTo stop :: rest ∧
        node.sites.Sublist (span :: rest.map Outline.span) := by
  -- where a whole node is edited, the span that it is edited in leads its words
  have own {span : Span} {stop : Nat} {words rest : List Outline} {sites : List Span}
      (same : words = span.upTo stop :: rest) (within : sites.Sublist (span :: rest.map Outline.span)) :
      sites = [] ∨ ∃ stop rest, words = span.upTo stop :: rest ∧
        sites.Sublist (span :: rest.map Outline.span) :=
    .inr ⟨stop, rest, same, within⟩
  cases node with
  | expression value =>
    cases value with
    | dynamicImport span source options =>
      cases source with
      | string literal specifier => exact own rfl (.refl _)
      | _ => exact .inl rfl
    | call span callee arguments =>
      left
      simp only [sites, linkSites, nameSites, importSites, moduleCall?, List.nil_append]
      split <;> rfl
    | _ => simp [sites, linkSites, nameSites, importSites, moduleCall?, extent?, words, Outline.span]
  | statement value =>
    cases value with
    | importDeclaration d =>
      obtain ⟨span, specifiers, source⟩ := d
      cases specifiers <;> exact own rfl (.cons_cons _ (List.nil_sublist _))
    | exportList span specifiers source =>
      cases source with
      | none =>
        refine own rfl ?_
        simp [sites, linkSites, nameSites, importSites, moduleCall?, Statement.linkage, Edit.remove,
          Linkage.empty, Function.comp_def, Outline.span]
      | some source => exact own rfl (.cons_cons _ (List.nil_sublist _))
    | exportAll span name source =>
      cases name <;> exact own rfl (.cons_cons _ (List.nil_sublist _))
    | exportDeclaration span start inner => exact .refl _
    | exportDefault span inner =>
      cases inner with
      | function value =>
        obtain ⟨own, name, isAsync, isGenerator, start, parameters, body⟩ := value
        cases name <;> exact .refl _
      | classNode value =>
        obtain ⟨own, name, decorators, heritage, members⟩ := value
        cases name <;> exact .refl _
      | expression => exact .refl _
      | _ => exact own rfl (.cons_cons _ (List.nil_sublist _))
    | _ => exact .refl _
  | _ => exact .refl _

theorem mem_sites {node : Node} {a : Span} (site : a ∈ node.sites) :
    a ∈ node.words.map Outline.span ∨ node.extent? = some a := by
  have shape := sites_cases node
  cases extent : node.extent? with
  | none =>
    rw [extent] at shape
    exact .inl (shape.subset site)
  | some span =>
    rw [extent] at shape
    rcases shape with none | ⟨stop, rest, words, sites⟩
    · rw [none] at site
      cases site
    rcases List.mem_cons.mp (sites.subset site) with rfl | site
    · exact .inr rfl
    · exact .inl (words ▸ List.mem_cons_of_mem _ site)

/-- Behind the word that a span begins with, all that lies in the span lies inside of it. -/
theorem layered_of_leading {span place a : Span} {stop : Nat} (leads : (span.upTo stop).Nested)
    (apart : (span.upTo stop).span.Apart place) (within : place.Within span)
    (inside : a.Within place) : span.Layered a := by
  simp only [Span.upTo, Outline.Nested, Outline.span, Span.Apart, Span.Within] at *
  unfold Span.Layered Span.Apart Span.Inside
  omega

theorem sites_within {node : Node} {space : Span} (nested : Outline.AllNested space node.outlines) :
    ∀ a ∈ node.sites, ∃ outer ∈ node.outlines, a.Within outer.span := by
  intro a site
  rcases mem_sites site with site | extent
  · obtain ⟨outline, listed, rfl⟩ := List.mem_map.mp site
    exact exists_within_outlines nested (List.mem_append_left _ listed)
  · rw [outlines_of_extent extent]
    exact ⟨_, List.mem_singleton_self _, Nat.le_refl _, Nat.le_refl _⟩

theorem sites_ordered {node : Node} {space : Span} (nested : Outline.AllNested space node.outlines) :
    ∀ a ∈ node.sites, a.start ≤ a.stop := by
  intro a site
  rcases mem_sites site with site | extent
  · obtain ⟨outline, listed, rfl⟩ := List.mem_map.mp site
    exact ((Outline.allNested_iff.mp (allNested_content nested)).1 outline
      (List.mem_append_left _ listed)).1.ordered
  · rw [outlines_of_extent extent] at nested
    exact nested.1.ordered

theorem sites_layered {node : Node} {space : Span} (nested : Outline.AllNested space node.outlines) :
    node.sites.Pairwise Span.Layered ∧
    ∀ a ∈ node.sites, ∀ outline ∈ node.inner, ∀ b : Span, b.Within outline.span → a.Layered b := by
  obtain ⟨each, apart⟩ := Outline.allNested_iff.mp (allNested_content nested)
  obtain ⟨ownApart, _, across⟩ := List.pairwise_append.mp apart
  have shape := sites_cases node
  have word {a : Span} (site : a ∈ node.words.map Outline.span) (other : Outline)
      (there : other ∈ node.inner) (b : Span) (inside : b.Within other.span) : a.Layered b := by
    obtain ⟨outline, listed, rfl⟩ := List.mem_map.mp site
    exact .inl ((across outline listed other there).mono ⟨Nat.le_refl _, Nat.le_refl _⟩ inside)
  cases extent : node.extent? with
  | none =>
    rw [extent] at shape
    refine ⟨?_, fun a site => word (shape.subset site)⟩
    exact .sublist shape (List.pairwise_map.mpr (ownApart.imp .inl))
  | some span =>
    rw [extent] at shape
    rcases shape with none | ⟨stop, rest, words, sites⟩
    · rw [none]
      exact ⟨.nil, nofun⟩
    rw [words, extent, List.cons_append] at each
    rw [words, List.cons_append] at apart
    -- the whole node is in layers with all that comes behind its first word
    have whole (outline : Outline) (listed : outline ∈ rest ++ node.inner) (b : Span)
        (inside : b.Within outline.span) : span.Layered b :=
      layered_of_leading (each _ List.mem_cons_self).1 ((List.pairwise_cons.mp apart).1 outline listed)
        (each outline (List.mem_cons_of_mem _ listed)).2 inside
    refine ⟨.sublist sites (List.pairwise_cons.mpr ⟨fun b site => ?_, ?_⟩),
      fun a site outline listed b inside => ?_⟩
    · obtain ⟨outline, listed, rfl⟩ := List.mem_map.mp site
      exact whole outline (List.mem_append_left _ listed) _ ⟨Nat.le_refl _, Nat.le_refl _⟩
    · rw [words] at ownApart
      exact List.pairwise_map.mpr ((List.pairwise_cons.mp ownApart).2.imp .inl)
    · rcases List.mem_cons.mp (sites.subset site) with rfl | site
      · exact whole outline (List.mem_append_right _ listed) b inside
      · refine word ?_ outline listed b inside
        rw [words]
        exact List.mem_cons_of_mem _ site

theorem sites_keepsApart : KeepsApart sites id Span.Layered where
  symm _ _ := Span.Layered.symm
  apart _ _ := .inl
  within := sites_within
  alone nested := (sites_layered nested).1
  across nested a site _ listed b _ outline placed inside :=
    (sites_layered nested).2 a site outline (List.mem_flatMap_of_mem listed placed) b inside

end Node

namespace Statement

/-- The part of an outermost statement that only a module may hold: an import or export, but
for the declaration or value exported. A function without a name is declared nowhere else, so
its header counts too. -/
def moduleSyntax? : Statement → Option Span
  | .importDeclaration d => some d.span
  | .exportList span _ _ => some span
  | .exportAll span _ _ => some span
  | .exportDeclaration span declarationStart _ => some ⟨span.start, declarationStart⟩
  | .exportDefault span (.function (.mk own (some _) _ _ _ _ _)) =>
    some ⟨span.start, own.start⟩
  | .exportDefault span (.function (.mk _ none _ _ parametersStart _ _)) =>
    some ⟨span.start, parametersStart⟩
  | .exportDefault span (.classNode value) => some ⟨span.start, value.span.start⟩
  | .exportDefault span (.expression own _) => some ⟨span.start, own.start⟩
  | .exportDefault span _ => some span
  | _ => none

theorem linkSites_eq (n : Nat) (statement : Statement) :
    (statement.linkage n).edits.map Edit.span = (Node.statement statement).linkSites := by
  cases statement with
  | importDeclaration d =>
    obtain ⟨span, specifiers, source⟩ := d
    cases specifiers <;> rfl
  | exportList span specifiers source => cases source <;> rfl
  | exportAll span name source => cases name <;> rfl
  | _ => rfl

end Statement

namespace Program

variable {p : Program} {text : List Char}

def sites (p : Program) : List Span := p.collect Node.sites

theorem linkage_spans (p : Program) :
    p.linkage.edits.map Edit.span =
      p.body.flatMap fun statement => (Node.statement statement).linkSites := by
  rw [linkage_edits, List.map_flatMap]
  simp only [Statement.linkSites_eq]
  exact p.flatMap_numbered fun statement => (Node.statement statement).linkSites

theorem reference_spans (p : Program) :
    ((Statement.referenceEditsOfList p.linkage.readings p.body).map Edit.span).Sublist
      (p.collect Node.nameSites) := by
  have spans : p.references.map Reference.span = p.collect Node.nameSites := by
    rw [references, Statement.referencesOfList_eq, List.map_flatMap]
    exact List.flatMap_congr fun statement _ => (Node.statement statement).nameSites_collect []
  rw [referenceEdits_eq, ← spans, List.map_filterMap]
  refine (filterMap_sublist_map fun reference span made => ?_).trans
    (List.filter_sublist.map Reference.span)
  obtain ⟨edit, edited, rfl⟩ := Option.map_eq_some_iff.mp made
  obtain ⟨reading, _, rfl⟩ := Option.map_eq_some_iff.mp edited
  rfl

theorem import_spans (p : Program) :
    (p.moduleCalls.filterMap dynamicImportEdit?).map Edit.span = p.collect Node.importSites := by
  have site (call : ModuleCall) : (dynamicImportEdit? call).map Edit.span = call.site? := by
    cases call <;> rfl
  rw [List.map_filterMap]
  simp only [site]
  rw [moduleCalls, Statement.moduleCallsOfList_eq, List.filterMap_flatMap]
  exact List.flatMap_congr fun statement _ => (Node.statement statement).importSites_collect

theorem prologue_spans (p : Program) :
    (p.prologue.map Edit.span).Sublist [⟨p.prologueOffset, p.prologueOffset⟩] := by
  unfold prologue
  split
  · exact List.nil_sublist _
  · exact .refl _

def bodyEdits (p : Program) : List Edit :=
  p.linkage.edits ++ Statement.referenceEditsOfList p.linkage.readings p.body ++
    p.moduleCalls.filterMap dynamicImportEdit?

theorem edits_eq (p : Program) :
    p.edits = p.hashbang.toList.map Edit.remove ++ p.bodyEdits ++ p.prologue := by
  simp only [edits, bodyEdits, List.append_assoc]

theorem bodyEdits_spans (p : Program) : (p.bodyEdits.map Edit.span).Subperm p.sites := by
  have linked : (p.linkage.edits.map Edit.span).Sublist (p.collect Node.linkSites) := by
    rw [linkage_spans]
    exact p.sublist_collect Node.linkSites
  have together : (p.collect Node.linkSites ++
      (p.collect Node.nameSites ++ p.collect Node.importSites)).Perm p.sites :=
    ((p.collect_append_perm _ _).append_left _).trans (p.collect_append_perm _ _)
  have inner := (linked.append (p.reference_spans.append (List.Sublist.refl _))).subperm.trans
    together.subperm
  rw [← import_spans] at inner
  simpa only [bodyEdits, List.map_append, List.append_assoc] using inner

theorem edits_spans (p : Program) :
    (p.edits.map Edit.span).Subperm
      (p.hashbang.toList ++ p.sites ++ [⟨p.prologueOffset, p.prologueOffset⟩]) := by
  have first : (p.hashbang.toList.map Edit.remove).map Edit.span = p.hashbang.toList := by
    rw [List.map_map]
    exact List.map_id _
  have all := ((List.Subperm.refl p.hashbang.toList).append p.bodyEdits_spans).append
    p.prologue_spans.subperm
  simpa only [edits_eq, List.map_append, first] using all

namespace Nested

variable (nested : p.Nested text)
include nested

theorem exists_outline {a : Span} (site : a ∈ p.sites) :
    ∃ statement ∈ p.body, ∃ outline ∈ (Node.statement statement).outlines, a.Within outline.span :=
  (nested.collect Node.sites_keepsApart).2 a site

theorem sites_fit {a : Span} (site : a ∈ p.sites) : a.start ≤ a.stop ∧ a.stop ≤ text.length := by
  obtain ⟨statement, listed, outline, member, within⟩ := nested.exists_outline site
  have placed := ((Outline.allNested_iff.mp (nested.of_statement listed)).1 outline member).2
  exact ⟨nested.forall_mem_collect Node.sites_ordered a site, Nat.le_trans within.2 placed.2⟩

theorem prologueOffset_le :
    p.prologueOffset ≤ text.length ∧
    (∀ line ∈ p.hashbang, p.prologueOffset ≤ line.start ∨ line.stop ≤ p.prologueOffset) ∧
    ∀ a ∈ p.sites, p.prologueOffset ≤ a.start := by
  unfold prologueOffset
  cases last : p.directives.getLast? with
  | none => simp
  | some directive =>
    have listed : directive ∈ p.directives := List.mem_of_getLast? last
    obtain ⟨inOrder, opens, _⟩ := nested.follows
    obtain ⟨nonempty, inText⟩ := nested.of_directive listed
    refine ⟨inText, fun line first => .inr ?_, fun a site => ?_⟩
    · exact Nat.le_trans (inOrder line first directive listed) (Nat.le_of_lt nonempty)
    · obtain ⟨statement, member, outline, there, within⟩ := nested.exists_outline site
      exact Nat.le_trans (opens directive (.inr listed) statement member outline there) within.1

theorem edits_layered :
    (∀ edit ∈ p.edits, edit.span.start ≤ edit.span.stop ∧ edit.span.stop ≤ text.length) ∧
      p.edits.Pairwise fun a b => a.span.Layered b.span := by
  obtain ⟨inText, besides, behind⟩ := nested.prologueOffset_le
  let offset : Span := ⟨p.prologueOffset, p.prologueOffset⟩
  have fits : ∀ a ∈ p.hashbang.toList ++ p.sites ++ [offset],
      a.start ≤ a.stop ∧ a.stop ≤ text.length := by
    simp only [List.mem_append, Option.mem_toList, List.mem_singleton]
    rintro a ((first | site) | rfl)
    · obtain ⟨nonempty, fits⟩ := nested.of_hashbang first
      exact ⟨Nat.le_of_lt nonempty, fits⟩
    · exact nested.sites_fit site
    · exact ⟨Nat.le_refl _, inText⟩
  have layered : (p.hashbang.toList ++ p.sites ++ [offset]).Pairwise Span.Layered := by
    refine List.pairwise_append.mpr ⟨List.pairwise_append.mpr
      ⟨?_, (nested.collect Node.sites_keepsApart).1, ?_⟩,
      List.pairwise_singleton _ _, ?_⟩
    · cases p.hashbang with
      | none => exact .nil
      | some line => exact List.pairwise_singleton _ _
    · intro line first a site
      obtain ⟨statement, listed, outline, member, within⟩ := nested.exists_outline site
      have opens := nested.follows.2.1 line (.inl (Option.mem_toList.mp first)) statement listed
      exact .inl (.inl (Nat.le_trans (opens outline member) within.1))
    · simp only [List.mem_append, Option.mem_toList, List.mem_singleton]
      rintro a (first | site) _ rfl
      · exact .inl (besides a first).symm
      · exact .inl (.inr (behind a site))
  -- the edits are in another order, and not at every site
  obtain ⟨spans, perm, among⟩ := p.edits_spans
  constructor
  · intro edit listed
    exact fits edit.span (among.subset (perm.mem_iff.mpr (List.mem_map_of_mem listed)))
  · exact List.pairwise_map.mp ((layered.sublist among).perm perm Span.Layered.symm)

end Nested

def moduleSyntax (p : Program) : List Span := p.body.filterMap Statement.moduleSyntax?

/-- Where the edits of a program may lie. -/
inductive Site (p : Program) : Span → Prop
  /-- Its `#!` line. -/
  | hashbang {line : Span} (first : p.hashbang = some line) : Site p line
  /-- An import or export declaration, or what stands in front of the declaration or value that
  it exports. -/
  | moduleSyntax {span : Span} (listed : span ∈ p.moduleSyntax) : Site p span
  /-- The end of a value that is the default export. -/
  | valueEnd {span own : Span} {value : Expression}
      (listed : .exportDefault span (.expression own value) ∈ p.body) : Site p ⟨own.stop, own.stop⟩
  /-- The end of a class without a name that is the default export. -/
  | classEnd {span own : Span} {decorators heritage : List Expression} {members : List Member}
      (listed : .exportDefault span (.classNode (.mk own none decorators heritage members)) ∈ p.body) :
      Site p ⟨own.stop, own.stop⟩
  /-- A reference, or a property without a value, that names an import. -/
  | reference {reference : Reference} {reading : Reading} (listed : reference ∈ p.references)
      (unbound : reference.Unbound) (imported : p.linkage.readings reference.name = some reading) :
      Site p reference.span
  /-- An `import()` of a string, at whatever depth. -/
  | dynamicImport {place : Place} {span : Span} {specifier : String} (held : p.Holds place)
      (imports : place.node.moduleCall? = some (.dynamicImport span specifier)) : Site p span
  /-- The start of a text without directives. -/
  | start (none : p.directives = []) : Site p ⟨0, 0⟩
  /-- The end of the last directive. -/
  | directives {last : Span} (ends : p.directives.getLast? = some last) : Site p ⟨last.stop, last.stop⟩

theorem site_of_linkSites {statement : Statement} (listed : statement ∈ p.body) {span : Span}
    (linked : span ∈ (Node.statement statement).linkSites) : p.Site span := by
  have whole {found : Span} (only : statement.moduleSyntax? = some found)
      (same : span ∈ [found]) : p.Site span := by
    obtain rfl := List.mem_singleton.mp same
    exact .moduleSyntax (List.mem_filterMap.mpr ⟨statement, listed, only⟩)
  cases statement with
  | importDeclaration d =>
    obtain ⟨own, specifiers, source⟩ := d
    cases specifiers <;> exact whole rfl linked
  | exportList own specifiers source => cases source <;> exact whole rfl linked
  | exportAll own name source => cases name <;> exact whole rfl linked
  | exportDeclaration own start inner => exact whole rfl linked
  | exportDefault outer inner =>
    cases inner with
    | function value =>
      obtain ⟨own, name, isAsync, isGenerator, start, parameters, body⟩ := value
      cases name <;> exact whole rfl linked
    | classNode value =>
      obtain ⟨own, name, decorators, heritage, members⟩ := value
      cases name with
      | some name => exact whole rfl linked
      | none =>
        rcases List.mem_cons.mp linked with same | linked
        · exact whole rfl (List.mem_singleton.mpr same)
        · obtain rfl := List.mem_singleton.mp linked
          exact .classEnd listed
    | expression own value =>
      rcases List.mem_cons.mp linked with same | linked
      · exact whole rfl (List.mem_singleton.mpr same)
      · obtain rfl := List.mem_singleton.mp linked
        exact .valueEnd listed
    | _ => exact whole rfl linked
  | _ => cases linked

theorem site_of_prologue {edit : Edit} (listed : edit ∈ p.prologue) : p.Site edit.span := by
  have place := p.prologue_spans.subset (List.mem_map_of_mem listed)
  rw [List.mem_singleton.mp place, prologueOffset]
  cases last : p.directives.getLast? with
  | none => exact .start (List.getLast?_eq_none_iff.mp last)
  | some directive => exact .directives last

theorem site_of_mem_edits {edit : Edit} (listed : edit ∈ p.edits) : p.Site edit.span := by
  rcases mem_edits.mp listed with replacement | ⟨reference, known, unbound, made⟩
  · simp only [replacements, List.mem_append] at replacement
    rcases replacement with ((first | linked) | called) | inserted
    · obtain ⟨line, opens, rfl⟩ := List.mem_map.mp first
      exact .hashbang (Option.mem_toList.mp opens)
    · have span : edit.span ∈ p.linkage.edits.map Edit.span := List.mem_map_of_mem linked
      rw [linkage_spans] at span
      obtain ⟨statement, member, linked⟩ := List.mem_flatMap.mp span
      exact site_of_linkSites member linked
    · obtain ⟨call, member, made⟩ := List.mem_filterMap.mp called
      cases call with
      | require request => cases made
      | dynamicImport span specifier =>
        cases made
        obtain ⟨place, held, own⟩ := mem_moduleCalls_iff.mp member
        exact .dynamicImport held own
    · exact site_of_prologue inserted
  · obtain ⟨reading, imported, rfl⟩ := Option.map_eq_some_iff.mp made
    exact .reference known unbound imported

end Program

/-- The body of an accepted text is the text with the outermost spans that are edited replaced,
each by its edit, and all other characters kept once and in order; of two edits that overlap, one
lies inside of the other. What is edited are links, names of imports, imports on demand, the `#!`
line and the place of the prologue. Where there is none of them, the body is the text. -/
theorem body_rewritten_outermost {goal : Goal} {text : List Char} {p : Program}
    {analysis : Analysis} (parsed : Program.parse? goal text = some p)
    (accepted : Analysis.ofText goal text = .ok analysis) :
    (p.Nested text →
      Edit.Rewritten 0 ((Edit.sort p.edits).filter (Edit.Outermost p.edits)) text
        analysis.body.toList ∧
      p.edits.Pairwise fun a b => a.span.Layered b.span) ∧
    (∀ edit ∈ p.edits, p.Site edit.span) ∧
    (p.Plain → analysis.body.toList = text) := by
  have body : analysis.body.toList = Edit.apply p.edits text := by
    rw [Analysis.body_of_accepted parsed accepted, String.toList_ofList]
  refine ⟨fun nested => ?_, fun edit => Program.site_of_mem_edits, fun plain => ?_⟩
  · obtain ⟨fits, layered⟩ := nested.edits_layered
    exact ⟨body ▸ Edit.rewritten_apply fits layered, layered⟩
  · rw [body, plain.edits]
    rfl

def manySites : List Char :=
  ("#!node\n'use strict';\nimport { x, y } from './b';\nexport { y };\n" ++
    "export default x + 1;\nimport('./c', [x]);").toList

theorem manySites_rewritten :
    ∃ p analysis, Program.parse? .module manySites = some p ∧
      Analysis.ofText .module manySites = .ok analysis ∧ p.Nested manySites ∧
      p.edits.length = 10 ∧ ((Edit.sort p.edits).filter (Edit.Outermost p.edits)).length = 8 ∧
      Edit.Rewritten 0 ((Edit.sort p.edits).filter (Edit.Outermost p.edits)) manySites
        analysis.body.toList := by
  have known : ∃ p ∈ Program.parse? .module manySites, Statement.anyAwaits p.body = false ∧
      p.Nested manySites ∧ p.edits.length = 10 ∧
      ((Edit.sort p.edits).filter (Edit.Outermost p.edits)).length = 8 := by
    decide +kernel
  obtain ⟨p, parsed, awaits, nested, ten, eight⟩ := known
  have accepted := Analysis.accepted_of_parsed parsed awaits
  exact ⟨p, _, parsed, accepted, nested, ten, eight,
    ((body_rewritten_outermost parsed accepted).1 nested).1⟩

end Script

end ModuleBundle
