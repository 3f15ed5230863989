import Mathlib.Data.List.Pairwise
import ModuleBundle.Proofs.Lowering.Shadowing
import ModuleBundle.Proofs.Lowering.Splicing

/-!
Which references to imports are rewritten. By the scoping of the language a reference denotes
an import if nothing around it has the name in scope where the reference stands. The walk
hides a construct's names from all of the construct: from a function's parameters too what
its body declares, from a subject of a `switch` what the cases declare, from a class's
decorators the class's own name. The references it misses are those there.
-/

set_option autoImplicit false

namespace ModuleBundle

open Script

theorem Analysis.body_of_accepted {goal : Goal} {text : List Char} {p : Program}
    {analysis : Analysis} (parsed : Program.parse? goal text = some p)
    (accepted : Analysis.ofText goal text = .ok analysis) :
    analysis.body = String.ofList (Edit.apply p.edits text) := by
  simp only [Analysis.ofText, parsed] at accepted
  split at accepted
  · cases accepted
  · cases accepted
    rfl

theorem Analysis.accepted_of_parsed {goal : Goal} {text : List Char} {p : Program}
    (parsed : Program.parse? goal text = some p) (awaits : Statement.anyAwaits p.body = false) :
    Analysis.ofText goal text = .ok (.ofProgram text p) := by
  simp only [Analysis.ofText, parsed, awaits, Bool.false_eq_true, ↓reduceIte]

namespace Script

variable {name : String} {imports : Readings}

/-- The part of what a construct binds that is in scope in its head. -/
def Construct.BindsInHead (name : String) : Construct → Prop
  | .function own parameters _ =>
    (∃ pattern ∈ parameters, pattern.Binds name) ∨ own = some name
  | .switch _ => False
  | .classNode _ => False
  | construct => construct.Binds name

instance (construct : Construct) : Decidable (construct.BindsInHead name) :=
  match construct with
  | .function own parameters _ =>
    decidable_of_iff (name ∈ Pattern.namesOfList parameters ∨ own = some name)
      (or_congr_left Pattern.mem_namesOfList_iff)
  | .switch _ => .isFalse id
  | .classNode _ => .isFalse id
  | .staticBlock body => inferInstanceAs (Decidable ((Construct.staticBlock body).Binds name))
  | .block body => inferInstanceAs (Decidable ((Construct.block body).Binds name))
  | .handler parameter => inferInstanceAs (Decidable ((Construct.handler parameter).Binds name))
  | .loop head => inferInstanceAs (Decidable ((Construct.loop head).Binds name))

namespace Enclosure

/-- Whether a name that a construct declares is in scope at a part of it. -/
def InScope (name : String) (enclosure : Enclosure) : Prop :=
  match enclosure.part with
  | .head => enclosure.construct.BindsInHead name
  | .body => enclosure.construct.Binds name

instance (enclosure : Enclosure) : Decidable (enclosure.InScope name) :=
  match enclosure with
  | ⟨construct, .head⟩ => inferInstanceAs (Decidable (construct.BindsInHead name))
  | ⟨construct, .body⟩ => inferInstanceAs (Decidable (construct.Binds name))

/-- Whether a name is hidden at a part of the construct that declares it, without being in
scope there. -/
def Overreaches (name : String) (enclosure : Enclosure) : Prop :=
  enclosure.construct.Binds name ∧ ¬ enclosure.InScope name

instance (enclosure : Enclosure) : Decidable (enclosure.Overreaches name) :=
  inferInstanceAs (Decidable (_ ∧ _))

end Enclosure

/-- Whether a reference denotes an imported name, which then reads as `reading`. -/
def Reference.Denotes (imports : Readings) (reference : Reference) (reading : Reading) : Prop :=
  imports reference.name = some reading ∧
    ∀ enclosure ∈ reference.around, ¬ enclosure.InScope reference.name

instance (reference : Reference) (reading : Reading) :
    Decidable (reference.Denotes imports reading) :=
  inferInstanceAs (Decidable (_ ∧ _))

namespace Program

def replacements (p : Program) : List Edit :=
  p.hashbang.toList.map Edit.remove ++ p.linkage.edits ++
    p.moduleCalls.filterMap dynamicImportEdit? ++ p.prologue

/-- How the spans of a syntax tree lie: references are apart from each other, and what is
replaced lies around a reference or apart from it. -/
structure WellNested (p : Program) : Prop where
  nonempty : ∀ reference ∈ p.references, reference.span.start < reference.span.stop
  ordered : ∀ edit ∈ p.replacements, edit.span.start ≤ edit.span.stop
  apart : p.references.Pairwise fun first second => first.span.Apart second.span
  nested : ∀ edit ∈ p.replacements, ∀ reference ∈ p.references,
    reference.span.Within edit.span ∨ edit.span.Apart reference.span

instance (p : Program) : Decidable p.WellNested :=
  decidable_of_iff
    ((∀ reference ∈ p.references, reference.span.start < reference.span.stop) ∧
      (∀ edit ∈ p.replacements, edit.span.start ≤ edit.span.stop) ∧
      (p.references.Pairwise fun first second => first.span.Apart second.span) ∧
      ∀ edit ∈ p.replacements, ∀ reference ∈ p.references,
        reference.span.Within edit.span ∨ edit.span.Apart reference.span)
    ⟨fun ⟨nonempty, ordered, apart, nested⟩ => ⟨nonempty, ordered, apart, nested⟩,
      fun nested => ⟨nested.nonempty, nested.ordered, nested.apart, nested.nested⟩⟩

/-- Whether a reference stands in no text that is replaced as a whole. -/
def Outside (p : Program) (reference : Reference) : Prop :=
  ∀ edit ∈ p.replacements, ¬ reference.span.Within edit.span

instance (p : Program) (reference : Reference) : Decidable (p.Outside reference) :=
  inferInstanceAs (Decidable (∀ edit ∈ p.replacements, ¬ reference.span.Within edit.span))

theorem mem_edits {p : Program} {edit : Edit} :
    edit ∈ p.edits ↔ edit ∈ p.replacements ∨
      ∃ reference ∈ p.references, reference.Unbound ∧
        reference.edit? p.linkage.readings = some edit := by
  simp only [edits, replacements, referenceEdits_eq, List.mem_append, List.mem_filterMap,
    List.mem_filter, decide_eq_true_eq, and_assoc, or_assoc, or_comm, or_left_comm]

theorem WellNested.eq_or_apart {p : Program} (nested : p.WellNested) {first second : Reference}
    (one : first ∈ p.references) (other : second ∈ p.references) :
    first = second ∨ first.span.Apart second.span := by
  by_cases same : first = second
  · exact .inl same
  · have : Std.Symm fun first second : Reference => first.span.Apart second.span :=
      ⟨fun _ _ => Span.Apart.symm⟩
    exact .inr (nested.apart.forall one other same)

theorem WellNested.edits_ordered {p : Program} (nested : p.WellNested) :
    ∀ edit ∈ p.edits, edit.span.start ≤ edit.span.stop := by
  intro edit listed
  rcases mem_edits.mp listed with replacement | ⟨reference, known, _, made⟩
  · exact nested.ordered edit replacement
  · obtain ⟨_, _, rfl⟩ := Option.map_eq_some_iff.mp made
    exact Nat.le_of_lt (nested.nonempty reference known)

/-- Of all edits only its own can touch a reference that nothing around it replaces. -/
theorem WellNested.own_or_apart {p : Program} (nested : p.WellNested) {reference : Reference}
    (listed : reference ∈ p.references) (outside : p.Outside reference) :
    ∀ edit ∈ p.edits,
      reference.Unbound ∧ reference.edit? p.linkage.readings = some edit ∨
        edit.span.Apart reference.span := by
  intro edit known
  rcases mem_edits.mp known with replacement | ⟨other, otherListed, unbound, made⟩
  · rcases nested.nested edit replacement reference listed with within | apart
    · exact absurd within (outside edit replacement)
    · exact .inr apart
  · rcases nested.eq_or_apart otherListed listed with rfl | apart
    · exact .inl ⟨unbound, made⟩
    · obtain ⟨_, _, rfl⟩ := Option.map_eq_some_iff.mp made
      exact .inr apart

/-- In the body of an accepted text, the place of a reference to an import that stands in no
text replaced as a whole has what the import reads as, unless the name is hidden around it
without being in scope; then the place has the bare name still. -/
theorem rewritten_iff_nothing_overreaches {goal : Goal} {text : List Char} {p : Program}
    {analysis : Analysis} (parsed : Program.parse? goal text = some p)
    (accepted : Analysis.ofText goal text = .ok analysis) (nested : p.WellNested)
    {reference : Reference} (listed : reference ∈ p.references) {reading : Reading}
    (denotes : reference.Denotes p.linkage.readings reading) (outside : p.Outside reference) :
    analysis.body = String.ofList (Edit.apply p.edits text) ∧
    (Edit.Replaces p.edits text ⟨reference.span, reference.written reading⟩ ↔
      ∀ enclosure ∈ reference.around, ¬ enclosure.Overreaches reference.name) ∧
    (¬ Edit.Replaces p.edits text ⟨reference.span, reference.written reading⟩ →
      Edit.Keeps p.edits text reference.span) := by
  obtain ⟨imported, notInScope⟩ := denotes
  have body := Analysis.body_of_accepted parsed accepted
  have nonempty := nested.nonempty reference listed
  have others := nested.own_or_apart listed outside
  have own : reference.edit? p.linkage.readings =
      some ⟨reference.span, reference.written reading⟩ := by
    rw [Reference.edit?, imported, Option.map_some]
  by_cases unbound : reference.Unbound
  · -- its own edit is there, and no other touches its span
    have replaces : Edit.Replaces p.edits text ⟨reference.span, reference.written reading⟩ := by
      refine Edit.replaces_of_apart ?_ nonempty nested.edits_ordered ?_
      · exact mem_edits.mpr (.inr ⟨reference, listed, unbound, own⟩)
      · intro edit known
        rcases others edit known with ⟨_, made⟩ | apart
        · exact .inl (Option.some.inj (made.symm.trans own))
        · exact .inr apart
    refine ⟨body, ⟨fun _ enclosure around overreaches => ?_, fun _ => replaces⟩, fun not => ?_⟩
    · exact unbound enclosure around overreaches.1
    · exact absurd replaces not
  · -- no edit touches its span
    have untouched : ∀ edit ∈ p.edits, edit.span.Apart reference.span := fun edit known =>
      (others edit known).resolve_left fun made => unbound made.1
    refine ⟨body, ⟨fun replaces => ?_, fun free => ?_⟩, fun _ => ?_⟩
    · have := untouched _ replaces.mem
      simp only [Span.Apart] at this
      omega
    · -- what binds the name has it in no scope here, so it overreaches
      refine absurd (fun enclosure around binds => ?_) unbound
      exact free enclosure around ⟨binds, notInScope enclosure around⟩
    · exact Edit.keeps_of_apart (Nat.le_of_lt nonempty) nested.edits_ordered untouched

def switchedOn : List Char :=
  "import { x } from './b';\nswitch (x) { case 0: let x; }".toList

def caseCall : List Char :=
  ("import \x7b x \x7d from './b';\n" ++
    "function f(y) \x7b switch (y) \x7b case x(): let z; var w; \x7d \x7d").toList

theorem caseCall_rewritten :
    ∃ p analysis reference reading, parse? .module caseCall = some p ∧
      Analysis.ofText .module caseCall = .ok analysis ∧ p.WellNested ∧ reference ∈ p.references ∧
      reference.Denotes p.linkage.readings reading ∧ p.Outside reference ∧
      (∀ name ∈ ["f", "y", "z", "w"],
        ∃ enclosure ∈ reference.around, enclosure.construct.Binds name) ∧
      Edit.Replaces p.edits caseCall ⟨reference.span, "(0, __import0__.x)"⟩ := by
  have known : ∃ p ∈ parse? .module caseCall, (Statement.anyAwaits p.body = false) ∧ p.WellNested ∧
      ∃ reference ∈ p.references, ∃ reading ∈ p.linkage.readings reference.name,
        reference.Denotes p.linkage.readings reading ∧ p.Outside reference ∧
        (∀ name ∈ ["f", "y", "z", "w"],
          ∃ enclosure ∈ reference.around, enclosure.construct.Binds name) ∧
        (∀ enclosure ∈ reference.around, ¬ enclosure.Overreaches reference.name) ∧
        reference.written reading = "(0, __import0__.x)" := by
    decide +kernel
  obtain ⟨p, parsed, awaits, nested, reference, listed, reading, _, denotes, outside, around, free,
    written⟩ := known
  have accepted := Analysis.accepted_of_parsed parsed awaits
  have rewritten := rewritten_iff_nothing_overreaches parsed accepted nested listed denotes outside
  exact ⟨p, _, reference, reading, parsed, accepted, nested, listed, denotes, outside, around,
    written ▸ rewritten.2.1.mpr free⟩

theorem switchedOn_not_rewritten :
    ∃ p reference reading, parse? .module switchedOn = some p ∧ reference ∈ p.references ∧
      reference.Denotes p.linkage.readings reading ∧ p.Outside reference ∧
      ¬ Edit.Replaces p.edits switchedOn ⟨reference.span, reference.written reading⟩ := by
  have known : ∃ p ∈ parse? .module switchedOn, ∃ reference ∈ p.references,
      ∃ reading ∈ p.linkage.readings reference.name,
        reference.Denotes p.linkage.readings reading ∧ p.Outside reference ∧
        ∀ edit ∈ p.edits, edit.span ≠ reference.span := by
    decide +kernel
  obtain ⟨p, parsed, reference, listed, reading, _, denotes, outside, without⟩ := known
  refine ⟨p, reference, reading, parsed, listed, denotes, outside, fun replaces => ?_⟩
  exact without _ replaces.mem rfl

end Program

end Script

end ModuleBundle
