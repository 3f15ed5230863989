import Mathlib.Data.List.Flatten
import Mathlib.Data.List.Perm.Basic
import ModuleBundle.Proofs.Lowering.Splicing
import ModuleBundle.Proofs.Script.Places

/-!
Outlines of syntax trees: where in the text the pieces lie that a tree keeps spans of. The spans
of a tree nest if the pieces of every outline lie in their place without touching each other.
What nodes have to themselves, each within its own place, is then kept apart all over the tree.
-/

set_option autoImplicit false

namespace ModuleBundle.Script

/-- A piece of text: a word, or a region with pieces in it. -/
inductive Outline where
  | word (span : Span)
  | region (span : Span) (inner : List Outline)

namespace Outline

def span : Outline → Span
  | word span => span
  | region span _ => span

mutual

/-- Words are not empty, and the pieces of regions nest in them. -/
def Nested : Outline → Prop
  | word span => span.start < span.stop
  | region span inner => span.start ≤ span.stop ∧ AllNested span inner

def AllNested (space : Span) : List Outline → Prop
  | [] => True
  | first :: rest =>
    Nested first ∧ first.span.Within space ∧ (∀ other ∈ rest, first.span.Apart other.span) ∧
      AllNested space rest

end

mutual

def decideNested : (outline : Outline) → Decidable outline.Nested
  | word span => inferInstanceAs (Decidable (span.start < span.stop))
  | region span inner =>
    have := decideAllNested span inner
    inferInstanceAs (Decidable (span.start ≤ span.stop ∧ AllNested span inner))

def decideAllNested (space : Span) : (outlines : List Outline) → Decidable (AllNested space outlines)
  | [] => .isTrue trivial
  | first :: rest =>
    have := decideNested first
    have := decideAllNested space rest
    inferInstanceAs (Decidable (first.Nested ∧ first.span.Within space ∧
      (∀ other ∈ rest, first.span.Apart other.span) ∧ AllNested space rest))

end

instance (space : Span) (outlines : List Outline) : Decidable (AllNested space outlines) :=
  decideAllNested space outlines

variable {space : Span} {outlines front back : List Outline}

theorem allNested_iff : AllNested space outlines ↔
    (∀ outline ∈ outlines, outline.Nested ∧ outline.span.Within space) ∧
      outlines.Pairwise fun first second => first.span.Apart second.span := by
  induction outlines with
  | nil => simp [AllNested]
  | cons first rest ih =>
    rw [AllNested, ih, List.forall_mem_cons, List.pairwise_cons]
    constructor
    · rintro ⟨nested, within, apart, others, pairwise⟩
      exact ⟨⟨⟨nested, within⟩, others⟩, apart, pairwise⟩
    · rintro ⟨⟨⟨nested, within⟩, others⟩, apart, pairwise⟩
      exact ⟨nested, within, apart, others, pairwise⟩

theorem AllNested.sublist (nested : AllNested space outlines) (fewer : front.Sublist outlines) :
    AllNested space front := by
  obtain ⟨each, apart⟩ := allNested_iff.mp nested
  exact allNested_iff.mpr ⟨fun outline listed => each outline (fewer.subset listed),
    apart.sublist fewer⟩

theorem AllNested.of_region {span : Span} (nested : AllNested space [region span outlines]) :
    AllNested span outlines :=
  nested.1.2

theorem Nested.ordered {outline : Outline} (nested : outline.Nested) :
    outline.span.start ≤ outline.span.stop := by
  cases outline with
  | word span => exact Nat.le_of_lt nested
  | region span inner => exact nested.1

end Outline

theorem Span.Within.trans {a b c : Span} (inner : a.Within b) (outer : b.Within c) : a.Within c :=
  ⟨Nat.le_trans outer.1 inner.1, Nat.le_trans inner.2 outer.2⟩

theorem Span.Apart.mono {a b place other : Span} (apart : place.Apart other)
    (here : a.Within place) (there : b.Within other) : a.Apart b := by
  obtain ⟨_, _⟩ := here
  obtain ⟨_, _⟩ := there
  rcases apart with before | behind
  · exact .inl (by omega)
  · exact .inr (by omega)

def Request.quote (request : Request) : Outline := .word ⟨request.offset, request.offset + 1⟩

def Span.upTo (span : Span) (stop : Nat) : Outline := .word ⟨span.start, stop⟩

def Span.keyword (span : Span) : Outline := span.upTo (span.start + "import".length)

namespace Node

/-- Where a node begins and ends, if it keeps all its parts in its own span. -/
def extent? : Node → Option Span
  | .expression (.call span _ _) => some span
  | .expression (.dynamicImport span _ _) => some span
  | .statement (.importDeclaration d) => some d.span
  | .statement (.exportList span _ _) => some span
  | .statement (.exportAll span _ _) => some span
  | .statement (.exportDefault _ (.function _)) => none
  | .statement (.exportDefault _ (.classNode _)) => none
  | .statement (.exportDefault _ (.expression _ _)) => none
  | .statement (.exportDefault span _) => some span
  | _ => none

/-- What is written of a node besides its parts, as far as it matters where that is. An exported
declaration has its `export` in front of the parts, and where the value of a default export ends
there is a place of its own. -/
def words : Node → List Outline
  | .expression (.name span _) => [.word span]
  | .expression (.shorthand span _) => [.word span]
  | .expression (.string span _) => [.word span]
  | .expression (.dynamicImport span (.string literal _) _) => [span.upTo literal.start]
  | .statement (.importDeclaration d) => [d.span.keyword, d.source.quote]
  | .statement (.exportList span specifiers source) =>
    span.keyword :: ((specifiers.map fun specifier => .word specifier.span) ++
      source.toList.map Request.quote)
  | .statement (.exportAll span _ source) => [span.keyword, source.quote]
  | .statement (.exportDeclaration span declarationStart _) => [span.upTo declarationStart]
  | .statement (.exportDefault span inner) =>
    match inner with
    | .function (.mk own (some _) _ _ _ _ _) => [span.upTo own.start]
    | .function (.mk _ none _ _ parametersStart _ _) => [span.upTo parametersStart]
    | .classNode (.mk own (some _) _ _ _) => [span.upTo own.start]
    | .classNode (.mk own none _ _ _) => [span.upTo own.start, .region ⟨own.stop, own.stop⟩ []]
    | .expression own _ => [span.upTo own.start, .region ⟨own.stop, own.stop⟩ []]
    | _ => [span.keyword]
  | _ => []

def frame (node : Node) (inner : List Outline) : List Outline :=
  match node.extent? with
  | some span => [.region span (node.words ++ inner)]
  | none => node.words ++ inner

def outlines (node : Node) : List Outline :=
  node.frame (node.parts.attach.flatMap fun ⟨part, _⟩ => part.node.outlines)
termination_by sizeOf node
decreasing_by exact sizeOf_lt_of_mem_parts ‹_›

def inner (node : Node) : List Outline := node.parts.flatMap fun part => part.node.outlines

theorem outlines_eq (node : Node) : node.outlines = node.frame node.inner := by
  rw [outlines, inner]
  simp only [List.flatMap_subtype, List.unattach_attach]

theorem outlines_sublist_inner {node : Node} {part : Place} (listed : part ∈ node.parts) :
    part.node.outlines.Sublist node.inner := by
  have alone := (List.singleton_sublist.mpr listed).flatMap fun part => part.node.outlines
  rwa [List.flatMap_singleton] at alone

theorem allNested_content {node : Node} {space : Span}
    (nested : Outline.AllNested space node.outlines) :
    Outline.AllNested (node.extent?.getD space) (node.words ++ node.inner) := by
  rw [outlines_eq, frame] at nested
  cases extent : node.extent? with
  | some span =>
    rw [extent] at nested
    exact nested.of_region
  | none =>
    rw [extent] at nested
    exact nested

theorem allNested_inner {node : Node} {space : Span}
    (nested : Outline.AllNested space node.outlines) :
    Outline.AllNested (node.extent?.getD space) node.inner :=
  (allNested_content nested).sublist (List.sublist_append_right _ _)

theorem outlines_of_extent {node : Node} {span : Span} (extent : node.extent? = some span) :
    node.outlines = [.region span (node.words ++ node.inner)] := by
  rw [outlines_eq, frame, extent]

theorem exists_within_outlines {node : Node} {space : Span}
    (nested : Outline.AllNested space node.outlines) {outline : Outline}
    (listed : outline ∈ node.words ++ node.inner) :
    ∃ outer ∈ node.outlines, outline.span.Within outer.span := by
  have placed := ((Outline.allNested_iff.mp (allNested_content nested)).1 outline listed).2
  rw [outlines_eq, frame]
  cases extent : node.extent? with
  | some span =>
    rw [extent] at placed
    exact ⟨_, List.mem_singleton_self _, placed⟩
  | none => exact ⟨outline, listed, Nat.le_refl _, Nat.le_refl _⟩

/-! What nodes have of their own. -/

variable {α : Type}

/-- What a node and all parts of it have of their own. -/
def collect (own : Node → List α) (node : Node) : List α :=
  own node ++ node.parts.attach.flatMap fun ⟨part, _⟩ => part.node.collect own
termination_by sizeOf node
decreasing_by exact sizeOf_lt_of_mem_parts ‹_›

theorem collect_eq (own : Node → List α) (node : Node) :
    node.collect own = own node ++ node.parts.flatMap fun part => part.node.collect own := by
  rw [collect]
  simp only [List.flatMap_subtype, List.unattach_attach]

theorem collect_append_perm (first second : Node → List α) (node : Node) :
    (node.collect fun node => first node ++ second node).Perm
      (node.collect first ++ node.collect second) := by
  have parts (part : Place) (listed : part ∈ node.parts) := collect_append_perm first second part.node
  rw [collect_eq, collect_eq first, collect_eq second]
  refine (((List.Perm.flatMap_left _ parts).trans (List.flatMap_append_perm _ _ _).symm).append_left
    _).trans ?_
  -- both lists now have the same four parts
  rw [List.append_assoc, List.append_assoc]
  exact (List.perm_append_comm_assoc _ _ _).append_left _
termination_by sizeOf node
decreasing_by exact sizeOf_lt_of_mem_parts listed

theorem forall_mem_collect {own : Node → List α} {holds : α → Prop}
    (each : ∀ {node : Node} {space : Span}, Outline.AllNested space node.outlines →
      ∀ a ∈ own node, holds a) {node : Node} {space : Span}
    (nested : Outline.AllNested space node.outlines) : ∀ a ∈ node.collect own, holds a := by
  intro a member
  rw [collect_eq] at member
  rcases List.mem_append.mp member with here | there
  · exact each nested a here
  · obtain ⟨part, listed, member⟩ := List.mem_flatMap.mp there
    have inside := (allNested_inner nested).sublist (outlines_sublist_inner listed)
    exact forall_mem_collect each inside a member
termination_by sizeOf node
decreasing_by exact sizeOf_lt_of_mem_parts listed

/-- What nodes have of their own reaches no further than their outlines, and is in a relation to
each other and to what the parts have, in which all things are that reach into separate places. -/
structure KeepsApart (own : Node → List α) (reach : α → Span) (Related : α → α → Prop) : Prop where
  symm : ∀ a b, Related a b → Related b a
  apart : ∀ a b, (reach a).Apart (reach b) → Related a b
  within : ∀ {node : Node} {space : Span}, Outline.AllNested space node.outlines →
    ∀ a ∈ own node, ∃ outline ∈ node.outlines, (reach a).Within outline.span
  alone : ∀ {node : Node} {space : Span}, Outline.AllNested space node.outlines →
    (own node).Pairwise Related
  across : ∀ {node : Node} {space : Span}, Outline.AllNested space node.outlines →
    ∀ a ∈ own node, ∀ part ∈ node.parts, ∀ b ∈ part.node.collect own,
      ∀ outline ∈ part.node.outlines, (reach b).Within outline.span → Related a b

variable {own : Node → List α} {reach : α → Span} {Related : α → α → Prop}

theorem KeepsApart.collect (keeps : KeepsApart own reach Related) {node : Node} {space : Span}
    (nested : Outline.AllNested space node.outlines) :
    (node.collect own).Pairwise Related ∧
      ∀ a ∈ node.collect own, ∃ outline ∈ node.outlines, (reach a).Within outline.span := by
  have inside := allNested_inner nested
  have each (part : Place) (listed : part ∈ node.parts) :
      (part.node.collect own).Pairwise Related ∧
        ∀ a ∈ part.node.collect own, ∃ outline ∈ part.node.outlines, (reach a).Within outline.span :=
    keeps.collect (inside.sublist (outlines_sublist_inner listed))
  rw [collect_eq]
  constructor
  -- what two parts have, and then what the node itself has against any part
  · refine List.pairwise_append.mpr ⟨keeps.alone nested, ?_, fun a here b there => ?_⟩
    · refine List.pairwise_flatMap.mpr ⟨fun part listed => (each part listed).1, ?_⟩
      have separate := (List.pairwise_flatMap.mp (Outline.allNested_iff.mp inside).2).2
      refine separate.imp_of_mem fun {first second} one other apart a here b there => ?_
      obtain ⟨outline, listed, within⟩ := (each first one).2 a here
      obtain ⟨outline', listed', within'⟩ := (each second other).2 b there
      exact keeps.apart a b ((apart outline listed outline' listed').mono within within')
    · obtain ⟨part, listed, member⟩ := List.mem_flatMap.mp there
      obtain ⟨outline, placed, within⟩ := (each part listed).2 b member
      exact keeps.across nested a here part listed b member outline placed within
  · intro a member
    rcases List.mem_append.mp member with here | there
    · exact keeps.within nested a here
    · obtain ⟨part, listed, member⟩ := List.mem_flatMap.mp there
      obtain ⟨outline, placed, within⟩ := (each part listed).2 a member
      have inside : outline ∈ node.inner := List.mem_flatMap_of_mem listed placed
      obtain ⟨outer, outside, around⟩ :=
        exists_within_outlines nested (List.mem_append_right node.words inside)
      exact ⟨outer, outside, within.trans around⟩
termination_by sizeOf node
decreasing_by exact sizeOf_lt_of_mem_parts listed

end Node

namespace Program

section

variable {α : Type}

def collect (p : Program) (own : Node → List α) : List α :=
  p.body.flatMap fun statement => (Node.statement statement).collect own

theorem sublist_collect (p : Program) (own : Node → List α) :
    (p.body.flatMap fun statement => own (.statement statement)).Sublist (p.collect own) := by
  refine .flatMap_right _ fun statement _ => ?_
  rw [Node.collect_eq]
  exact List.sublist_append_left _ _

theorem collect_append_perm (p : Program) (first second : Node → List α) :
    (p.collect first ++ p.collect second).Perm
      (p.collect fun node => first node ++ second node) := by
  refine (List.flatMap_append_perm _ _ _).trans (List.Perm.flatMap_left _ fun statement _ => ?_)
  exact (Node.collect_append_perm _ _ _).symm

variable {p : Program} {own : Node → List α} {a : α} {place : Place}

end

def pieces (p : Program) : List (List Outline) :=
  p.hashbang.toList.map (fun line => [.word line]) ++
    p.directives.map (fun directive => [.word directive]) ++
    p.body.map fun statement => (Node.statement statement).outlines

/-- The spans of a program lie in the text and nest properly, and its pieces follow each other. -/
structure Nested (p : Program) (text : List Char) : Prop where
  nested : ∀ piece ∈ p.pieces, Outline.AllNested ⟨0, text.length⟩ piece
  follow : p.pieces.Pairwise fun front back =>
    ∀ first ∈ front, ∀ second ∈ back, first.span.stop ≤ second.span.start

instance (p : Program) (text : List Char) : Decidable (p.Nested text) :=
  decidable_of_iff
    ((∀ piece ∈ p.pieces, Outline.AllNested ⟨0, text.length⟩ piece) ∧
      p.pieces.Pairwise fun front back =>
        ∀ first ∈ front, ∀ second ∈ back, first.span.stop ≤ second.span.start)
    ⟨fun ⟨nested, follow⟩ => ⟨nested, follow⟩, fun nested => ⟨nested.nested, nested.follow⟩⟩

namespace Nested

variable {p : Program} {text : List Char} (nested : p.Nested text)
include nested

theorem of_statement {statement : Statement} (listed : statement ∈ p.body) :
    Outline.AllNested ⟨0, text.length⟩ (Node.statement statement).outlines :=
  nested.nested _ (List.mem_append_right _ (List.mem_map_of_mem listed))

theorem of_hashbang {line : Span} (first : p.hashbang = some line) :
    line.start < line.stop ∧ line.stop ≤ text.length := by
  have piece : [.word line] ∈ p.pieces := by simp [pieces, first]
  have alone := nested.nested _ piece
  exact ⟨alone.1, alone.2.1.2⟩

theorem of_directive {directive : Span} (listed : directive ∈ p.directives) :
    directive.start < directive.stop ∧ directive.stop ≤ text.length := by
  have piece : [.word directive] ∈ p.pieces := by simp [pieces, listed]
  have alone := nested.nested _ piece
  exact ⟨alone.1, alone.2.1.2⟩

theorem follows :
    (∀ line ∈ p.hashbang, ∀ directive ∈ p.directives, line.stop ≤ directive.start) ∧
    (∀ line, line ∈ p.hashbang ∨ line ∈ p.directives → ∀ statement ∈ p.body,
      ∀ outline ∈ (Node.statement statement).outlines, line.stop ≤ outline.span.start) ∧
    p.body.Pairwise fun front back => ∀ first ∈ (Node.statement front).outlines,
      ∀ second ∈ (Node.statement back).outlines, first.span.stop ≤ second.span.start := by
  have follow := nested.follow
  unfold pieces at follow
  obtain ⟨opening, body, across⟩ := List.pairwise_append.mp follow
  obtain ⟨_, _, before⟩ := List.pairwise_append.mp opening
  refine ⟨fun line first directive listed => ?_, fun line opens statement listed outline member => ?_,
    List.pairwise_map.mp body⟩
  · exact before [.word line] (List.mem_map_of_mem (Option.mem_toList.mpr first)) [.word directive]
      (List.mem_map_of_mem listed) _ (List.mem_singleton_self _) _ (List.mem_singleton_self _)
  · have piece : [.word line] ∈ p.hashbang.toList.map (fun line => [Outline.word line]) ++
        p.directives.map fun directive => [.word directive] := by
      rcases opens with first | directive
      · exact List.mem_append_left _ (List.mem_map_of_mem (Option.mem_toList.mpr first))
      · exact List.mem_append_right _ (List.mem_map_of_mem directive)
    exact across _ piece _ (List.mem_map_of_mem listed) _ (List.mem_singleton_self _) outline member

section

variable {α : Type} {own : Node → List α}

theorem collect {reach : α → Span} {Related : α → α → Prop}
    (keeps : Node.KeepsApart own reach Related) :
    (p.collect own).Pairwise Related ∧
      ∀ a ∈ p.collect own, ∃ statement ∈ p.body,
        ∃ outline ∈ (Node.statement statement).outlines, (reach a).Within outline.span := by
  have each (statement : Statement) (listed : statement ∈ p.body) :=
    keeps.collect (nested.of_statement listed)
  constructor
  · refine List.pairwise_flatMap.mpr ⟨fun statement listed => (each statement listed).1, ?_⟩
    refine nested.follows.2.2.imp_of_mem fun {first second} one other behind a here b there => ?_
    obtain ⟨outline, member, within⟩ := (each first one).2 a here
    obtain ⟨outline', member', within'⟩ := (each second other).2 b there
    have apart : outline.span.Apart outline'.span := .inl (behind outline member outline' member')
    exact keeps.apart a b (apart.mono within within')
  · intro a member
    obtain ⟨statement, listed, inside⟩ := List.mem_flatMap.mp member
    obtain ⟨outline, placed, within⟩ := (each statement listed).2 a inside
    exact ⟨statement, listed, outline, placed, within⟩

theorem forall_mem_collect {holds : α → Prop}
    (each : ∀ {node : Node} {space : Span}, Outline.AllNested space node.outlines →
      ∀ a ∈ own node, holds a) :
    ∀ a ∈ p.collect own, holds a := by
  intro a member
  obtain ⟨statement, listed, inside⟩ := List.mem_flatMap.mp member
  exact Node.forall_mem_collect each (nested.of_statement listed) a inside

end

end Nested

end Program

end ModuleBundle.Script
