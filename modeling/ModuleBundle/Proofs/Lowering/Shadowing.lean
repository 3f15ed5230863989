import ModuleBundle.Proofs.Lowering.ScopeStack

/-!
Shadowed names stay as they are. The references that are edited are those to imported names
that no construct around them binds.
-/

set_option autoImplicit false

namespace ModuleBundle

open Script

namespace Script

variable {imports : Readings}

namespace Reference

/-- No construct around a reference binds its name. -/
def Unbound (reference : Reference) : Prop :=
  ∀ enclosure ∈ reference.around, ¬ enclosure.construct.Binds reference.name

instance : DecidablePred Unbound := fun reference =>
  inferInstanceAs
    (Decidable (∀ enclosure ∈ reference.around, ¬ enclosure.construct.Binds reference.name))

def edit? (imports : Readings) (reference : Reference) : Option Edit :=
  (imports reference.name).map fun reading => ⟨reference.span, reference.written reading⟩

theorem edits_of_unbound {reference : Reference} (unbound : reference.Unbound) :
    reference.edits imports = (reference.edit? imports).toList := by
  cases imported : imports reference.name with
  | some reading =>
    have left := Readings.within_eq_some.mpr ⟨unbound, imported⟩
    simp only [edits, Edit.ofReading, left, edit?, imported, Option.map_some, Option.toList_some]
  | none =>
    have left : imports.within reference.around reference.name = none := by
      refine Option.eq_none_iff_forall_ne_some.mpr fun reading some => ?_
      cases imported.symm.trans (Readings.within_eq_some.mp some).2
    simp only [edits, Edit.ofReading, left, edit?, imported, Option.map_none, Option.toList_none]

theorem edits_of_bound {reference : Reference} (bound : ¬ reference.Unbound) :
    reference.edits imports = [] := by
  have left : imports.within reference.around reference.name = none := by
    refine Option.eq_none_iff_forall_ne_some.mpr fun reading some => ?_
    exact bound (Readings.within_eq_some.mp some).1
  simp only [edits, Edit.ofReading, left]

theorem flatMap_edits (references : List Reference) :
    references.flatMap (edits imports) =
      (references.filter Unbound).filterMap (edit? imports) := by
  induction references with
  | nil => rfl
  | cons reference rest ih =>
    rw [List.flatMap_cons, ih, List.filter_cons]
    by_cases unbound : reference.Unbound
    · rw [if_pos (decide_eq_true unbound), edits_of_unbound unbound]
      cases made : reference.edit? imports with
      | none => rw [List.filterMap_cons_none made, Option.toList_none, List.nil_append]
      | some edit => rw [List.filterMap_cons_some made, Option.toList_some, List.singleton_append]
    · rw [if_neg (by simpa using unbound), edits_of_bound unbound, List.nil_append]

end Reference

namespace Program

theorem referenceEdits_eq (p : Program) :
    Statement.referenceEditsOfList p.linkage.readings p.body =
      (p.references.filter Reference.Unbound).filterMap
        (Reference.edit? p.linkage.readings) :=
  (Statement.referenceEditsOfList_within p.linkage.readings [] p.body).trans
    (Reference.flatMap_edits p.references)

/-- The edits of references are those of the references to imported names that no construct
around them binds, in their order; and the walk with a stack of scopes, which makes the same
edits, leaves every construct with the stack it came with. -/
theorem shadowed_never_rewritten (p : Program) :
    let imports : Readings := p.linkage.readings
    let edits := Statement.referenceEditsOfList imports p.body
    (edits = (p.references.filter Reference.Unbound).filterMap (Reference.edit? imports)) ∧
    Statement.walkOfList imports p.body .start = ⟨[], edits⟩ ∧
    (∀ (e : Expression) (w : Walk), (e.walk imports w).scopes = w.scopes) ∧
    (∀ (pattern : Pattern) (w : Walk), (pattern.walk imports w).scopes = w.scopes) ∧
    (∀ (f : FunctionNode) (w : Walk), (f.walk imports w).scopes = w.scopes) ∧
    (∀ (c : ClassNode) (w : Walk), (c.walk imports w).scopes = w.scopes) ∧
    (∀ (member : Member) (w : Walk), (member.walk imports w).scopes = w.scopes) ∧
    (∀ (statement : Statement) (w : Walk), (statement.walk imports w).scopes = w.scopes) := by
  intro imports edits
  refine ⟨?_, ?_, ?_, ?_, ?_, ?_, ?_, ?_⟩
  · exact referenceEdits_eq p
  · exact Statement.walkOfList_eq imports p.body .start
  · intro e w
    rw [Expression.walk_eq]
    rfl
  · intro pattern w
    rw [Pattern.walk_eq]
    rfl
  · intro f w
    rw [FunctionNode.walk_eq]
    rfl
  · intro c w
    rw [ClassNode.walk_eq]
    rfl
  · intro member w
    rw [Member.walk_eq]
    rfl
  · intro statement w
    rw [Statement.walk_eq]
    rfl

example :
    (parse? .module "import { x } from './b';\nfunction f({ y: [x] }) { x; } x;".toList).map
      (fun p => (Statement.referenceEditsOfList p.linkage.readings p.body).map Edit.span) =
      some [⟨55, 56⟩] := by
  decide +kernel

end Program

end Script

end ModuleBundle
