import ModuleBundle.Proofs.Lowering.Exports
import ModuleBundle.Proofs.Lowering.Untouched

/-!
Calls of imported functions. What stands in front of a name that is called goes to the function as
`this`, so an import that is read as a property is detached where it is called. That holds of
a callee that is the name as it stands. In parentheses, and as the tag of a template, the name is
read as anywhere else, and the object that the property is read of goes to the function.
-/

set_option autoImplicit false

namespace ModuleBundle

open Script

namespace Reading

/-- Whether a reading is a property of a record or a holder, as what a name that is imported from
a list, or a default import, reads as. -/
def isProperty : Reading → Bool
  | whole _ => false
  | _ => true

def detached (reading : Reading) : String := "(0, " ++ reading.text ++ ")"

variable {reading : Reading}

theorem exists_propertyOf (property : reading.isProperty = true) :
    ∃ name, PropertyOf reading.object.text name reading.text := by
  cases reading with
  | whole record => cases property
  | member record name => exact ⟨name, memberText_property (recordName record) name⟩
  | defaultExport record =>
    have plain : isPlainName "default" = true := by decide +kernel
    obtain ⟨width, word⟩ := scan_of_isPlainName plain
    have dotted : (defaultExport record).text = holderName record ++ "." ++ "default" := by
      rw [String.append_assoc]
      rfl
    rw [dotted]
    exact ⟨"default", .dotted word⟩

theorem calleeText_eq (property : reading.isProperty = true) :
    reading.calleeText = reading.detached := by
  cases reading with
  | whole record => cases property
  | member | defaultExport => rfl

theorem text_ne_detached (reading : Reading) : reading.text ≠ reading.detached := by
  intro same
  have lengths := congrArg String.length same
  simp only [detached, String.length_append] at lengths
  have opens : "(0, ".length = 4 := by decide
  omega

end Reading

namespace Script

/-! Calls. -/

def Expression.bareName? : Expression → Option (Span × String)
  | .name span text => some (span, text)
  | .group .paren [inner] => inner.bareName?
  | _ => none

def Expression.object? : Expression → Option String
  | .group .member [.name _ text] => some text
  | _ => none

namespace Node

/-- What a node calls: the callee of a call, which may be an optional one, or the tag of a
template. -/
def called? : Node → Option Expression
  | .expression (.call _ callee _) => some callee
  | .expression (.group .tagged (tag :: _)) => some tag
  | _ => none

def calledName? (node : Node) : Option (Span × String) := node.called?.bind Expression.bareName?

def callsName : Node → Bool
  | .expression (.call _ (.name _ _) _) => true
  | _ => false

def isName : Node → Bool
  | .expression (.name _ _) => true
  | _ => false

end Node

/-! References in places. -/

namespace Node

def nameReferences (around : List Enclosure) : Node → List Reference
  | .expression (.name span text) => [⟨span, text, .plain, around⟩]
  | .expression (.shorthand span text) => [⟨span, text, .shorthand, around⟩]
  | .statement (.exportList _ specifiers none) =>
    specifiers.map fun specifier => ⟨specifier.span, specifier.source, .plain, around⟩
  | _ => []

theorem references_of_parts {node : Node} (indirect : node.callsName = false)
    (around : List Enclosure) :
    node.references around = node.nameReferences around ++
      node.parts.flatMap fun part => part.node.references (part.around ++ around) := by
  fun_cases parts node
  case case4 span callee arguments =>
    have unnamed : ¬ ∃ own name, callee = .name own name := by
      rintro ⟨own, name, rfl⟩
      cases indirect
    simp [references, nameReferences, within, List.flatMap_map,
      Expression.references_call unnamed, Expression.referencesOfList_eq]
  case case32 span specifiers source => cases source <;> simp [references, nameReferences,
    Statement.references]
  all_goals
    simp [references, nameReferences, within, ofFunction, List.flatMap_map,
      Expression.references, Pattern.references, FunctionNode.references,
      ClassNode.references, Member.references, Statement.references,
      Expression.referencesOfList_eq, Pattern.referencesOfList_eq, Member.referencesOfList_eq,
      Statement.referencesOfList_eq]

theorem references_subset {node : Node} {part : Place} (listed : part ∈ node.parts)
    (unnamed : part.node.isName = false) (around : List Enclosure) :
    part.node.references (part.around ++ around) ⊆ node.references around := by
  intro reference inPart
  cases direct : node.callsName with
  | false =>
    rw [references_of_parts direct]
    exact List.mem_append_right _ (List.mem_flatMap_of_mem listed inPart)
  | true =>
    unfold callsName at direct
    split at direct
    next span own name arguments =>
      obtain ⟨known, same⟩ := mem_within.mp listed
      rw [same, List.nil_append] at inPart
      -- the callee is a name, and has another form there than the part by itself
      rcases List.mem_cons.mp known with callee | inArguments
      · rw [callee] at unnamed
        cases unnamed
      · obtain ⟨argument, given, argumentNode⟩ := List.mem_map.mp inArguments
        rw [← argumentNode] at inPart
        apply List.mem_cons_of_mem
        rw [Expression.referencesOfList_eq]
        exact List.mem_flatMap_of_mem given inPart
    next => cases direct

end Node

namespace Expression

theorem mem_references_of_bareName {span : Span} {name : String} {e : Expression}
    (names : e.bareName? = some (span, name)) (around : List Enclosure) :
    ⟨span, name, .plain, around⟩ ∈ e.references around := by
  fun_induction bareName? e with
  | case1 own text =>
    cases names
    exact List.mem_cons_self
  | case2 inner ih =>
    simp only [references, referencesOfList, List.append_nil]
    exact ih names
  | case3 => cases names

end Expression

namespace Program

variable {p : Program} {place : Place}

theorem Holds.references_subset (held : p.Holds place) (unnamed : place.node.isName = false) :
    place.node.references place.around ⊆ p.references := by
  induction held with
  | outermost listed =>
    rw [references, Statement.referencesOfList_eq]
    exact fun reference inside => List.mem_flatMap_of_mem listed inside
  | @part place part held listed ih =>
    -- a name has no parts
    have opens : place.node.isName = false := by
      by_contra isName
      unfold Node.isName at isName
      split at isName
      next same =>
        rw [same] at listed
        cases listed
      next => exact isName rfl
    exact List.Subset.trans (Node.references_subset listed unnamed place.around) (ih opens)

end Program

namespace Node

def places (around : List Enclosure) (node : Node) : List Place :=
  ⟨node, around⟩ :: node.parts.attach.flatMap fun ⟨part, _⟩ =>
    part.node.places (part.around ++ around)
termination_by sizeOf node
decreasing_by exact sizeOf_lt_of_mem_parts ‹_›

theorem places_eq (around : List Enclosure) (node : Node) :
    node.places around = ⟨node, around⟩ ::
      node.parts.flatMap fun part => part.node.places (part.around ++ around) := by
  rw [places]
  simp only [List.flatMap_subtype, List.unattach_attach]

def calledForm (node : Node) : Reference.Form := if node.callsName then .callee else .plain

variable {node : Node} {span : Span} {name : String}

theorem isName_of_calls (calls : node.calledName? = some (span, name)) : node.isName = false := by
  cases node with
  | expression e => cases e <;> first | rfl | cases calls
  | _ => rfl

theorem mem_references_of_calls (calls : node.calledName? = some (span, name))
    (around : List Enclosure) :
    ⟨span, name, node.calledForm, around⟩ ∈ node.references around := by
  obtain ⟨callee, called, names⟩ := Option.bind_eq_some_iff.mp calls
  have inCallee := Expression.mem_references_of_bareName names around
  fun_cases called? node with
  | case1 own callee' arguments =>
    cases called
    -- a callee in parentheses is referred to as any other expression
    by_cases direct : ∃ span name, callee = .name span name
    · obtain ⟨_, _, rfl⟩ := direct
      cases names
      exact List.mem_cons_self
    · have indirect : (Node.expression (.call own callee arguments)).callsName = false := by
        cases callee <;> first | rfl | exact absurd ⟨_, _, rfl⟩ direct
      simp only [references, Expression.references_call direct, calledForm, indirect]
      exact List.mem_append_left _ inCallee
  | case2 tag parts =>
    cases called
    simp only [references, Expression.references, Expression.referencesOfList]
    exact List.mem_append_left _ inCallee
  | case3 => simp_all [called?]

end Node

namespace Program

variable {p : Program} {place : Place} {span : Span} {name : String} {reading : Reading}

theorem Holds.mem_references (held : p.Holds place)
    (calls : place.node.calledName? = some (span, name)) :
    ⟨span, name, place.node.calledForm, place.around⟩ ∈ p.references :=
  held.references_subset (Node.isName_of_calls calls) (Node.mem_references_of_calls calls place.around)

/-- What is written for a called name that reads as a property of a record or a holder. -/
def writtenFor (place : Place) (reading : Reading) : String :=
  if place.node.callsName then reading.detached else reading.text

theorem written_called (property : reading.isProperty = true) (place : Place) (span : Span)
    (name : String) :
    Reference.written reading ⟨span, name, place.node.calledForm, place.around⟩ =
      writtenFor place reading := by
  unfold Reference.written writtenFor Node.calledForm
  cases place.node.callsName with
  | true => exact Reading.calleeText_eq property
  | false => rfl

theorem WellNested.replaces_iff (nested : p.WellNested) (text : List Char) {reference : Reference}
    (listed : reference ∈ p.references) (outside : p.Outside reference)
    (unbound : reference.Unbound) (imported : p.linkage.readings reference.name = some reading)
    (written : String) :
    Edit.Replaces p.edits text ⟨reference.span, written⟩ ↔ written = reference.written reading := by
  have own : reference.edit? p.linkage.readings =
      some ⟨reference.span, reference.written reading⟩ := by
    simp [Reference.edit?, imported]
  have nonempty := nested.nonempty reference listed
  have others := nested.own_or_apart listed outside
  constructor
  -- whatever replaces the span is the one edit that the reference has
  · intro replaces
    rcases others _ replaces.mem with ⟨_, made⟩ | apart
    · cases own.symm.trans made
      rfl
    · simp only [Span.Apart] at apart
      omega
  · rintro rfl
    apply Edit.replaces_of_apart _ nonempty nested.edits_ordered
    · intro edit known
      exact (others edit known).imp_left fun made => Option.some.inj (made.2.symm.trans own)
    · exact mem_edits.mpr (.inr ⟨reference, listed, unbound, own⟩)

def places (p : Program) : List Place :=
  p.body.flatMap fun statement => (Node.statement statement).places []

theorem Holds.of_mem_places {node : Node} {around : List Enclosure} (held : p.Holds ⟨node, around⟩)
    (listed : place ∈ node.places around) : p.Holds place := by
  rw [Node.places_eq] at listed
  rcases List.mem_cons.mp listed with rfl | inside
  · exact held
  · obtain ⟨part, inParts, deeper⟩ := List.mem_flatMap.mp inside
    exact (held.part inParts).of_mem_places deeper
termination_by sizeOf node
decreasing_by exact Node.sizeOf_lt_of_mem_parts inParts

theorem holds_of_mem_places (listed : place ∈ p.places) : p.Holds place := by
  obtain ⟨statement, inBody, inside⟩ := List.mem_flatMap.mp listed
  exact (Holds.outermost inBody).of_mem_places inside

end Program

/-- In the body of an accepted text, an import that reads as a property of a record or a holder is
written detached from it, where it is called, exactly if it is the callee of a call as it stands; in
parentheses or as the tag of a template it is written as the property, and the record or holder goes
to the function that is called. -/
theorem callees_detached_iff {goal : Goal} {text : List Char} {p : Program} {analysis : Analysis}
    (parsed : Program.parse? goal text = some p) (accepted : Analysis.ofText goal text = .ok analysis)
    {place : Place} (held : p.Holds place) {span : Span} {name : String}
    (calls : place.node.calledName? = some (span, name))
    (unbound : ∀ enclosure ∈ place.around, ¬ enclosure.construct.Binds name) {reading : Reading}
    (imported : p.linkage.readings name = some reading) (property : reading.isProperty = true) :
    analysis.body = String.ofList (Edit.apply p.edits text) ∧
    (∃ property, PropertyOf reading.object.text property reading.text) ∧
    ⟨span, if place.node.callsName then reading.detached else reading.text⟩ ∈ p.edits ∧
    (p.WellNested → p.Outside ⟨span, name, place.node.calledForm, place.around⟩ →
      (Edit.Replaces p.edits text ⟨span, reading.detached⟩ ↔ place.node.callsName = true) ∧
      (Edit.Replaces p.edits text ⟨span, reading.text⟩ ↔ place.node.callsName = false)) := by
  let reference : Reference := ⟨span, name, place.node.calledForm, place.around⟩
  have listed : reference ∈ p.references := held.mem_references calls
  have written := Program.written_called property place span name
  refine ⟨Analysis.body_of_accepted parsed accepted, Reading.exists_propertyOf property, ?_, ?_⟩
  · apply Program.mem_edits.mpr
    refine .inr ⟨reference, listed, unbound, ?_⟩
    simp only [Reference.edit?, reference, imported, Option.map_some, written, Program.writtenFor]
  · intro nested outside
    have replaces := nested.replaces_iff text listed outside unbound imported
    -- only one of the two texts can be written, as they differ
    have other := reading.text_ne_detached
    simp only [reference, written, Program.writtenFor] at replaces
    cases direct : place.node.callsName with
    | true => simp [replaces, direct, other]
    | false => simp [replaces, direct, other.symm]

def taggedArgument : List Char :=
  ("import d, \x7b f \x7d from './b';\n" ++
    "class C \x7b m(o) \x7b return d?.(f`$\x7bo\x7d`); \x7d \x7d").toList

theorem taggedArgument_detached :
    ∃ p analysis inner outer, Program.parse? .module taggedArgument = some p ∧
      Analysis.ofText .module taggedArgument = .ok analysis ∧ p.Holds inner ∧ p.Holds outer ∧
      outer.around.length = 2 ∧ outer.node.calledName? = some (⟨52, 53⟩, "d") ∧
      Edit.Replaces p.edits taggedArgument
        ⟨⟨52, 53⟩, (Reading.defaultExport 0).detached⟩ ∧
      inner.node.calledName? = some (⟨56, 57⟩, "f") ∧
      ¬ Edit.Replaces p.edits taggedArgument ⟨⟨56, 57⟩, (Reading.member 0 "f").detached⟩ ∧
      Edit.Replaces p.edits taggedArgument ⟨⟨56, 57⟩, (Reading.member 0 "f").text⟩ := by
  have known : ∃ p ∈ Program.parse? .module taggedArgument, Statement.anyAwaits p.body = false ∧
      p.WellNested ∧ p.linkage.readings "d" = some (.defaultExport 0) ∧
      p.linkage.readings "f" = some (.member 0 "f") ∧
      (∃ outer ∈ p.places, outer.around.length = 2 ∧ outer.node.callsName = true ∧
        outer.node.calledName? = some (⟨52, 53⟩, "d") ∧
        (∀ enclosure ∈ outer.around, ¬ enclosure.construct.Binds "d") ∧
        p.Outside ⟨⟨52, 53⟩, "d", outer.node.calledForm, outer.around⟩) ∧
      ∃ inner ∈ p.places, inner.node.callsName = false ∧
        inner.node.calledName? = some (⟨56, 57⟩, "f") ∧
        (∀ enclosure ∈ inner.around, ¬ enclosure.construct.Binds "f") ∧
        p.Outside ⟨⟨56, 57⟩, "f", inner.node.calledForm, inner.around⟩ := by
    decide +kernel
  obtain ⟨p, parsed, awaits, nested, d, f, ⟨outer, listed, depth, direct, calls, free, outside⟩,
    inner, listed', tags, calls', free', outside'⟩ := known
  have accepted := Analysis.accepted_of_parsed parsed awaits
  have held := Program.holds_of_mem_places listed
  have held' := Program.holds_of_mem_places listed'
  obtain ⟨_, _, _, here⟩ := callees_detached_iff parsed accepted held calls free d rfl
  obtain ⟨_, _, _, there⟩ := callees_detached_iff parsed accepted held' calls' free' f rfl
  refine ⟨p, _, inner, outer, parsed, accepted, held', held, depth, calls, ?_, calls', ?_, ?_⟩
  · exact (here nested outside).1.mpr direct
  · simp [(there nested outside').1, tags]
  · exact (there nested outside').2.mpr tags

def taggedImport : List Char := "import \x7b f \x7d from './b';\nf`x`;".toList

/-- In the body, the tag is a property of the record, which goes to the function as `this`. -/
theorem taggedImport_not_detached :
    ∃ p analysis, Program.parse? .module taggedImport = some p ∧
      Analysis.ofText .module taggedImport = .ok analysis ∧
      ("f" ∈ (p.places.filterMap fun place => place.node.calledName?).map Prod.snd ∧
        p.linkage.readings "f" = some (.member 0 "f")) ∧
      ∃ q ∈ Program.parse? .module analysis.body.toList, ∃ place, q.Holds place ∧
        (place.node.called?.bind Expression.object?) = some "__import0__" := by
  have known : ∃ p ∈ Program.parse? .module taggedImport, Statement.anyAwaits p.body = false ∧
      ("f" ∈ (p.places.filterMap fun place => place.node.calledName?).map Prod.snd ∧
        p.linkage.readings "f" = some (.member 0 "f")) ∧
      ∃ q ∈ Program.parse? .module (Edit.apply p.edits taggedImport),
        ∃ place ∈ q.places, (place.node.called?.bind Expression.object?) = some "__import0__" := by
    decide +kernel
  obtain ⟨p, parsed, awaits, calls, q, reread, place, listed, object⟩ := known
  refine ⟨p, _, parsed, Analysis.accepted_of_parsed parsed awaits, calls, q, ?_, place, ?_, object⟩
  · rwa [Analysis.ofProgram, String.toList_ofList]
  · exact Program.holds_of_mem_places listed

end Script

end ModuleBundle
