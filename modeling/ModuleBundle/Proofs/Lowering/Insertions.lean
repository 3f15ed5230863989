import ModuleBundle.Proofs.Lowering.Boundaries
import ModuleBundle.Proofs.Lowering.HiddenNames
import ModuleBundle.Proofs.Script.Places
import ModuleBundle.Proofs.Text.Occurs

/-!
The names that a lowering writes, and where. References to imports become reads of hidden
names at any depth, and so do dynamic imports become calls of `require`; all else is written
into the prologue, which no construct of the source is around.
-/

set_option autoImplicit false

namespace ModuleBundle

open Script

/-! What is written. -/

namespace Reading

theorem object_occurs (reading : Reading) : Occurs reading.object.text reading.text := by
  obtain ⟨rest, split⟩ := reading.text_eq_object_append
  rw [split]
  exact (Occurs.refl _).append_right rest

theorem object_occurs_written (reading : Reading) (reference : Reference) :
    Occurs reading.object.text (reference.written reading) := by
  have here := reading.object_occurs
  unfold Reference.written
  split
  · exact here
  · unfold calleeText
    split
    · exact here
    · exact (here.append_left "(0, ").append_right ")"
  · exact here.append_left _

end Reading

namespace RequireLine

def uses : RequireLine → List String
  | run _ => ["require"]
  | bind _ _ => ["require"]
  | hold record => [recordName record]
  | copy record => [recordName record, "exports"]

theorem occurs_of_mem_uses {line : RequireLine} {name : String} (used : name ∈ line.uses) :
    Occurs name line.text := by
  cases line with
  | run specifier =>
    cases List.mem_singleton.mp used
    have here : Occurs "require" "require(" := by decide +kernel
    change Occurs "require" ("require(" ++ quoted specifier ++ ");")
    exact (here.append_right _).append_right _
  | bind record specifier =>
    cases List.mem_singleton.mp used
    have here : Occurs "require" " = require(" := by decide +kernel
    change Occurs "require"
      ("var " ++ recordName record ++ " = require(" ++ quoted specifier ++ ");")
    exact ((here.append_left _).append_right _).append_right _
  | hold record =>
    cases List.mem_singleton.mp used
    have here := Occurs.refl (recordName record)
    change Occurs (recordName record)
      ("var " ++ holderName record ++ " = " ++ recordName record ++ " && " ++ recordName record ++
        ".__esModule ? " ++ recordName record ++ " : \x7b default: " ++ recordName record ++
        " \x7d;")
    exact (here.append_left _).append_right _
  | copy record =>
    have checked : Occurs "exports" "!Object.prototype.hasOwnProperty.call(exports, k)) " := by
      decide +kernel
    change Occurs name
      ("Object.keys(" ++ recordName record ++ ").forEach(function (k) \x7b " ++
        "if (k !== \"default\" && k !== \"__esModule\" && " ++
        "!Object.prototype.hasOwnProperty.call(exports, k)) " ++
        "Object.defineProperty(exports, k, \x7b enumerable: true, " ++
        "get: function () \x7b return " ++ recordName record ++ "[k]; \x7d \x7d); \x7d);")
    rcases List.mem_cons.mp used with rfl | used
    · exact ((Occurs.refl (recordName record)).append_left _).append_right _
    · cases List.mem_singleton.mp used
      refine (Occurs.append_right ?_ _).append_right _
      exact ((checked.append_left _).append_right _).append_right _

end RequireLine

namespace Export

def hidden? (readings : Readings) (declared : List HiddenName) (e : Export) : Option HiddenName :=
  match e.origin with
  | .reading value => some value.object
  | .name text =>
    match readings text with
    | some reading => some reading.object
    | none => declared.find? fun hidden => hidden.text = text

theorem hidden_occurs {readings : Readings} {declared : List HiddenName} {e : Export}
    {hidden : HiddenName} (reads : e.hidden? readings declared = some hidden) :
    Occurs hidden.text (e.text readings) := by
  have inValue : Occurs hidden.text (e.value readings) := by
    obtain ⟨exported, origin⟩ := e
    cases origin with
    | reading value =>
      cases reads
      exact value.object_occurs
    | name own =>
      unfold hidden? at reads
      cases found : readings own with
      | some reading =>
        simp only [found, Option.some.injEq] at reads
        cases reads
        simpa only [value, found, Option.map_some, Option.getD_some] using reading.object_occurs
      | none =>
        simp only [found] at reads
        have same := List.find?_some reads
        simp only [decide_eq_true_eq] at same
        simpa only [value, found, same, Option.map_none, Option.getD_none] using Occurs.refl own
  exact (inValue.append_left _).append_right _

end Export

/-! The prologue. -/

theorem Prologue.occurs_of_mem {name line : String} {lines : List String} (offset : Nat)
    (listed : line ∈ lines) (occurs : Occurs name line) :
    Occurs name (Prologue.text offset lines) := by
  have broken : line ++ "\n" ∈ lines.map (· ++ "\n") := List.mem_map_of_mem listed
  have joined : Occurs (line ++ "\n") (String.join (lines.map (· ++ "\n"))) := by
    unfold Occurs
    rw [String.toList_join, List.flatMap_def]
    exact List.infix_of_mem_flatten (List.mem_map_of_mem broken)
  exact ((occurs.append_right "\n").trans joined).append_left _

namespace Script

namespace Program

variable {p : Program} {edit : Edit}

theorem linkage_of_not_isModule (unlinked : p.isModule = false) : p.linkage = .empty := by
  refine Statement.linkageOfList_of_not_isLink (fun statement listed => ?_) 0
  rw [isModule, List.any_eq_false] at unlinked
  exact Bool.eq_false_iff.mpr (unlinked statement listed)

theorem mem_prologue (listed : edit ∈ p.prologue) :
    p.isModule = true ∧
      edit = .insert p.prologueOffset (Prologue.text p.prologueOffset p.prologueLines) := by
  unfold prologue at listed
  split at listed
  · cases listed
  next nonempty =>
    refine ⟨?_, List.mem_singleton.mp listed⟩
    by_contra unlinked
    rw [Bool.not_eq_true] at unlinked
    refine nonempty ?_
    rw [prologueLines, unlinked, linkage_of_not_isModule unlinked]
    rfl

theorem exists_prologue {line : String} (listed : line ∈ p.prologueLines) :
    ∃ edit, edit ∈ p.prologue := by
  cases lines : p.prologueLines with
  | nil =>
    rw [lines] at listed
    cases listed
  | cons first rest =>
    rw [prologue, lines]
    exact ⟨_, List.mem_singleton_self _⟩

/-! Where it is written. -/

/-- An edit writes a name that the lowering introduces, at a place with source constructs around
it: the hidden name that a rewritten reference reads, `require` in place of a dynamic import, and
in the prologue, which no construct of the source is around, all that its lines use. -/
inductive Inserts (p : Program) : Edit → List Enclosure → String → Prop
  | reference {reference : Reference} {reading : Reading} (listed : reference ∈ p.references)
      (unbound : reference.Unbound)
      (imported : p.linkage.readings reference.name = some reading) :
      Inserts p ⟨reference.span, reference.written reading⟩ reference.around reading.object.text
  | dynamicImport {place : Place} {call : ModuleCall} {edit : Edit} (held : p.Holds place)
      (requests : place.node.moduleCall? = some call)
      (made : dynamicImportEdit? call = some edit) : Inserts p edit place.around "require"
  | marker {edit : Edit} (listed : edit ∈ p.prologue) : Inserts p edit [] "exports"
  | line {edit : Edit} {line : RequireLine} {name : String} (listed : edit ∈ p.prologue)
      (required : line ∈ p.linkage.requires) (used : name ∈ line.uses) : Inserts p edit [] name
  | getter {edit : Edit} {n : Nat} {statement : Statement} {e : Export} {hidden : HiddenName}
      (listed : edit ∈ p.prologue) (numbered : (n, statement) ∈ p.numbered)
      (exported : e ∈ (statement.linkage n).exports)
      (reads : e.hidden? p.linkage.readings (statement.hiddenNames n) = some hidden) :
      Inserts p edit [] hidden.text

variable {around : List Enclosure} {name : String}

theorem prologue_occurs {line : String} (listed : edit ∈ p.prologue)
    (inLines : line ∈ p.prologueLines) (occurs : Occurs name line) :
    edit ∈ p.edits ∧ Occurs name edit.text := by
  refine ⟨mem_edits.mpr (.inl (List.mem_append_right _ listed)), ?_⟩
  rw [(mem_prologue listed).2]
  exact Prologue.occurs_of_mem p.prologueOffset inLines occurs

theorem Inserts.mem_edits (inserts : p.Inserts edit around name) :
    edit ∈ p.edits ∧ Occurs name edit.text := by
  cases inserts with
  | @reference reference reading listed unbound imported =>
    refine ⟨Program.mem_edits.mpr (.inr ⟨reference, listed, unbound, ?_⟩), ?_⟩
    · rw [Reference.edit?, imported, Option.map_some]
    · exact reading.object_occurs_written reference
  | @dynamicImport place call edit held requests made =>
    have known : call ∈ p.moduleCalls := mem_moduleCalls_iff.mpr ⟨place, held, requests⟩
    have edited : edit ∈ p.replacements := by
      simp only [replacements, List.mem_append]
      exact .inl (.inr (List.mem_filterMap.mpr ⟨call, known, made⟩))
    refine ⟨Program.mem_edits.mpr (.inl edited), ?_⟩
    cases call with
    | require request => cases made
    | dynamicImport span specifier =>
      cases made
      have called : Occurs "require" "Promise.resolve().then(function () \x7b return require(" := by
        decide +kernel
      exact (called.append_right _).append_right _
  | marker listed =>
    have marked : Occurs "exports"
        "Object.defineProperty(exports, \"__esModule\", \x7b value: true \x7d);" := by
      decide +kernel
    refine prologue_occurs listed ?_ marked
    simp [prologueLines, Prologue.lines, (mem_prologue listed).1, Prologue.opening]
  | line listed required used =>
    refine prologue_occurs listed ?_ (RequireLine.occurs_of_mem_uses used)
    exact List.mem_append_right _ (List.mem_map_of_mem required)
  | @getter _ n statement e hidden listed numbered exported reads =>
    refine prologue_occurs listed ?_ (Export.hidden_occurs reads)
    have known : e ∈ p.linkage.exports := by
      rw [linkage_exports]
      exact List.mem_flatMap_of_mem numbered exported
    exact List.mem_append_left _ (List.mem_append_right _ (List.mem_map_of_mem known))

theorem exists_inserts (listed : edit ∈ p.edits) :
    edit ∈ p.hashbang.toList.map Edit.remove ∨ edit ∈ p.linkage.edits ∨
      ∃ around name, p.Inserts edit around name := by
  rcases Program.mem_edits.mp listed with replaced | ⟨reference, known, unbound, made⟩
  · simp only [replacements, List.mem_append] at replaced
    rcases replaced with ((first | linked) | called) | inPrologue
    · exact .inl first
    · exact .inr (.inl linked)
    · obtain ⟨call, requested, made⟩ := List.mem_filterMap.mp called
      obtain ⟨place, held, requests⟩ := mem_moduleCalls_iff.mp requested
      exact .inr (.inr ⟨_, _, .dynamicImport held requests made⟩)
    · exact .inr (.inr ⟨_, _, .marker inPrologue⟩)
  · obtain ⟨reading, imported, rfl⟩ := Option.map_eq_some_iff.mp made
    exact .inr (.inr ⟨_, _, .reference known unbound imported⟩)

end Program

end Script

end ModuleBundle
