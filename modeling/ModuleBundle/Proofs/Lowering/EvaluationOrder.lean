import ModuleBundle.Proofs.Lowering.Exports
import ModuleBundle.Proofs.Lowering.Requests
import ModuleBundle.Proofs.Script.StatementOrder

/-!
The order in which a body runs. One insertion puts all that a module adds behind its directives:
what marks it, the getters of its exports, and then what its declarations require, in the order in
which they stand in the text. Whatever else is changed lies behind, with all other statements, so
that none of them runs before the modules that the text names.
-/

set_option autoImplicit false

namespace ModuleBundle

open Script

/-! Lines. -/

namespace HiddenName

theorem space_not_mem_text (name : HiddenName) : ' ' ∉ name.text.toList := by
  have first : ' ' ∉ "__import".toList := by decide
  have number (n : Nat) : ' ' ∉ (toString n).toList := fun member =>
    absurd (isDigit_of_mem_toString member) (by decide)
  cases name with
  | record n =>
    have last : ' ' ∉ "__".toList := by decide
    rw [text, toList_recordName, List.mem_append, List.mem_append]
    exact not_or.mpr ⟨first, not_or.mpr ⟨number n, last⟩⟩
  | holder n =>
    have last : ' ' ∉ "_default__".toList := by decide
    rw [text, toList_holderName, List.mem_append, List.mem_append]
    exact not_or.mpr ⟨first, not_or.mpr ⟨number n, last⟩⟩
  | default =>
    change ' ' ∉ defaultName.toList
    decide

theorem text_append_inj {a b : HiddenName} {x y : List Char}
    (same : a.text.toList ++ ' ' :: x = b.text.toList ++ ' ' :: y) : a = b := by
  have inName (name : HiddenName) : ∀ c ∈ name.text.toList, c ≠ ' ' := by
    rintro _ member rfl
    exact name.space_not_mem_text member
  have stops (z : List Char) : ∀ c ∈ (' ' :: z).head?, ¬ c ≠ ' ' := by
    rintro _ ⟨⟩
    simp
  obtain ⟨texts, _⟩ := append_inj_of_stops (inName a) (inName b) (stops x) (stops y) same
  exact text_inj (String.toList_inj.mp texts)

def declaredBy (name : HiddenName) (line : String) : Bool :=
  ("var " ++ name.text ++ " = ").toList.isPrefixOf line.toList

theorem declaredBy_iff {name : HiddenName} {line : String} :
    name.declaredBy line = true ↔ ∃ rest, line.toList =
      "var ".toList ++ (name.text.toList ++ (" = ".toList ++ rest)) := by
  rw [declaredBy, List.isPrefixOf_iff_prefix]
  simp only [String.toList_append, List.append_assoc, List.IsPrefix, eq_comm]

theorem not_declaredBy {name : HiddenName} {line : String} {c : Char}
    (begins : line.toList.head? = some c) (other : c ≠ 'v') : name.declaredBy line = false := by
  apply Bool.eq_false_iff.mpr
  intro declares
  obtain ⟨rest, same⟩ := declaredBy_iff.mp declares
  rw [same] at begins
  exact other (Option.some.inj begins).symm

end HiddenName

theorem head?_append {first rest : String} {c : Char} (begins : first.toList.head? = some c) :
    (first ++ rest).toList.head? = some c := by
  rw [String.toList_append, List.head?_append, begins, Option.some_or]

namespace RequireLine

theorem begins_of_not_declared {line : RequireLine} (none : line.declared? = none) :
    ∃ c, c ≠ 'v' ∧ line.text.toList.head? = some c := by
  cases line with
  | run specifier =>
    refine ⟨'r', by decide, ?_⟩
    change ("require(" ++ quoted specifier ++ ");").toList.head? = some 'r'
    exact head?_append (head?_append (by decide +kernel))
  | copy record =>
    refine ⟨'O', by decide, ?_⟩
    unfold text
    simp only [String.append_assoc]
    exact head?_append (by decide +kernel)
  | bind | hold => cases none

theorem declaredBy_text {line : RequireLine} {name : HiddenName} :
    name.declaredBy line.text = true ↔ line.declared? = some name := by
  constructor
  · intro declares
    cases declared : line.declared? with
    | none =>
      obtain ⟨c, other, begins⟩ := begins_of_not_declared declared
      rw [HiddenName.not_declaredBy begins other] at declares
      cases declares
    | some other =>
      obtain ⟨rest, same⟩ := HiddenName.declaredBy_iff.mp declares
      obtain ⟨more, split⟩ := text_of_declared declared
      have names := List.append_cancel_left (same.symm.trans split)
      rw [HiddenName.text_append_inj names]
  · exact fun declared => HiddenName.declaredBy_iff.mpr (text_of_declared declared)

end RequireLine

theorem Export.text_head? (readings : Readings) (e : Export) :
    (e.text readings).toList.head? = some 'O' := by
  unfold text
  simp only [String.append_assoc]
  exact head?_append (by decide +kernel)

namespace Script

namespace Program

variable {p : Program}

def requireLines (p : Program) : List RequireLine :=
  p.numbered.flatMap fun entry => entry.2.requireLines entry.1

theorem requires_eq (p : Program) : p.linkage.requires = p.requireLines := by
  rw [linkage_requires, requireLines]
  exact List.flatMap_congr fun entry _ => Statement.requires_eq entry.1 entry.2

theorem requireLines_specifiers (p : Program) :
    p.requireLines.filterMap RequireLine.specifier? =
      (p.body.filterMap Statement.source?).map Request.specifier := by
  rw [← requires_eq, linkage_requires, List.filterMap_flatMap]
  simp only [Statement.requires_specifiers]
  rw [p.flatMap_numbered fun statement => statement.source?.toList.map Request.specifier,
    List.filterMap_eq_flatMap_toList, List.map_flatMap]

/-! What the lines declare. -/

theorem countP_prologueLines (p : Program) (name : HiddenName) :
    p.prologueLines.countP name.declaredBy =
      (p.linkage.requires.filterMap RequireLine.declared?).count name := by
  have marks : (if p.isModule then Prologue.opening else []).countP name.declaredBy = 0 := by
    have begin : ∀ line ∈ Prologue.opening, line.toList.head? = some '"' ∨
        line.toList.head? = some 'O' := by decide +kernel
    split
    · refine List.countP_eq_zero.mpr fun line listed => ?_
      rcases begin line listed with quoted | called
      · simp [HiddenName.not_declaredBy quoted]
      · simp [HiddenName.not_declaredBy called]
    · rfl
  -- getters begin as the marker does, with no declaration
  have getters : (p.linkage.exports.map (Export.text p.linkage.readings)).countP
      name.declaredBy = 0 := by
    refine List.countP_eq_zero.mpr fun line listed => ?_
    obtain ⟨e, _, rfl⟩ := List.mem_map.mp listed
    simp [HiddenName.not_declaredBy (e.text_head? p.linkage.readings)]
  have required (line : RequireLine) :
      name.declaredBy line.text = true ↔
        ((line.declared?.map (· == name)).getD false) = true := by
    rw [RequireLine.declaredBy_text]
    cases line.declared? <;> simp
  rw [prologueLines, Prologue.lines, List.countP_append, List.countP_append, marks, getters,
    List.countP_map, List.count, List.countP_filterMap, Nat.zero_add]
  exact List.countP_congr fun line _ => required line

theorem declaredOnce_of_inserts {goal : Goal} {text : List Char}
    (parsed : parse? goal text = some p) {edit : Edit} {around : List Enclosure} {name : HiddenName}
    (inserts : p.Inserts edit around name.text) (numbered : name ≠ .default) :
    p.prologueLines.countP name.declaredBy = 1 := by
  have hidden : name ∈ p.hiddenNames := by
    rcases List.mem_append.mp inserts.mem_introducedNames with parameter | listed
    · exact absurd parameter name.text_not_mem_wrapperParameters
    · obtain ⟨other, known, same⟩ := List.mem_map.mp listed
      exact HiddenName.text_inj same ▸ known
  -- only the name of a default export's value is declared elsewhere than in the prologue
  have declared : name ∈ p.linkage.requires.filterMap RequireLine.declared? := by
    obtain ⟨entry, listed, own⟩ := List.mem_flatMap.mp hidden
    rw [linkage_requires, List.filterMap_flatMap]
    refine List.mem_flatMap_of_mem listed ?_
    rcases List.mem_append.mp own with inLines | isDefault
    · exact inLines
    · split at isDefault
      · exact absurd (List.mem_singleton.mp isDefault) numbered
      · cases isDefault
  rw [countP_prologueLines]
  exact List.count_eq_one_of_mem ((hiddenNames_nodup parsed).sublist p.declared_sublist) declared

end Program

/-- The body of an accepted module is laid out in the order in which it is to run: its directives,
the lines that make it strict and mark it, a getter for each export in the order of the text, what
its declarations require in the order of the text, each once and followed by lines about its own
record only, and then the rest of the text. All its statements and all edits that are made in them
lie in that rest, wherever among them its declarations stand, and each hidden name that is written
into the body to be read, by a getter, for a reference or in a line of the prologue, is declared by
one of the lines, but for the name of a default export's value. -/
theorem body_in_order {goal : Goal} {text : List Char} {p : Program} {analysis : Analysis}
    (parsed : Program.parse? goal text = some p)
    (accepted : Analysis.ofText goal text = .ok analysis) (links : p.isModule = true) :
    (∃ lines, Prologue.Written p.getters p.requireLines lines ∧
      analysis.body.toList = (text.take p.directivesStop).drop p.lineStop ++
        Prologue.inserted p.directivesStop lines ++ p.editedRest text ∧
      ∀ edit around (name : HiddenName), p.Inserts edit around name.text → name ≠ .default →
        lines.countP name.declaredBy = 1) ∧
    (p.Nested text → Edit.Rewritten p.bodyStart
      ((Edit.sort p.bodyEdits).filter (Edit.Outermost p.bodyEdits)) (text.drop p.bodyStart)
      (p.editedRest text)) ∧
    p.Laid ∧
    (∀ edit ∈ p.bodyEdits, Behind p.bodyStart edit.span) ∧
    ((p.body.filterMap Statement.span?).Pairwise fun earlier later => earlier.stop ≤ later.start) ∧
    (p.getters.map Prod.fst).Sublist (p.body.flatMap Statement.exportedNames) ∧
    (∀ name, name ∈ p.getters.map Prod.fst ↔ ∃ entry, p.Exports name entry) ∧
    p.requireLines.filterMap RequireLine.specifier? =
      (p.body.filterMap Statement.source?).map Request.specifier ∧
    ∀ statement ∈ p.body, statement.defaultImports ≤ 1 := by
  have laid := Program.laid_of_parsed parsed
  have once := (Program.checked_of_parsed parsed).2
  refine ⟨⟨p.prologueLines, ?_, ?_, fun edit around name => ?_⟩, fun nested => ?_, laid,
    fun edit listed => Program.bodyEdits_behind laid listed, laid.spans_pairwise,
    p.getters_sublist, fun name => Program.mem_getters_names, p.requireLines_specifiers,
    fun statement listed => Statement.defaultImports_le_one (once statement listed)⟩
  · rw [← Program.requires_eq]
    exact Program.written_prologueLines links
  · rw [Analysis.body_of_accepted parsed accepted, String.toList_ofList,
      Program.apply_edits laid links]
  · exact Program.declaredOnce_of_inserts parsed
  · exact nested.rewritten_rest laid

def scattered : List Char :=
  ("#!node\n'use strict';\nrun(c);\nexport \x7b d as e \x7d;\nimport d, \x7b b as c \x7d from './d';\n" ++
    "export * from './f';\nimport './g';\nexport \x7b h \x7d from './h';\n" ++
    "export * as k from './k';\nrun(d);").toList

def scatteredRest : List Char :=
  "\nrun(__import0__.b);\n\n\n\n\n\n\nrun(__import0_default__.default);".toList

theorem scattered_in_order :
    ∃ p analysis, Program.parse? .module scattered = some p ∧
      Analysis.ofText .module scattered = .ok analysis ∧ p.isModule = true ∧
      p.lineStop = 6 ∧ p.directivesStop = 20 ∧
      p.getters = [("e", "__import0_default__.default"), ("h", "__import2__.h"),
        ("k", "__import3__")] ∧
      p.requireLines = [.bind 0 "./d", .hold 0, .bind 1 "./f", .copy 1, .run "./g", .bind 2 "./h",
        .bind 3 "./k"] ∧
      ∃ lines, Prologue.Written p.getters p.requireLines lines ∧
        analysis.body.toList =
          (scattered.take 20).drop 6 ++ Prologue.inserted 20 lines ++ scatteredRest := by
  have known : ∃ p ∈ Program.parse? .module scattered, Statement.anyAwaits p.body = false ∧
      p.isModule = true ∧ p.lineStop = 6 ∧ p.directivesStop = 20 ∧
      p.getters = [("e", "__import0_default__.default"), ("h", "__import2__.h"),
        ("k", "__import3__")] ∧
      p.requireLines = [.bind 0 "./d", .hold 0, .bind 1 "./f", .copy 1, .run "./g", .bind 2 "./h",
        .bind 3 "./k"] ∧
      p.editedRest scattered = scatteredRest := by
    decide +kernel
  obtain ⟨p, parsed, awaits, links, line, stop, getters, requires, rest⟩ := known
  have accepted := Analysis.accepted_of_parsed parsed awaits
  obtain ⟨lines, written, layout, _⟩ := (body_in_order parsed accepted links).1
  rw [line, stop, rest] at layout
  exact ⟨p, _, parsed, accepted, links, line, stop, getters, requires, lines, written, layout⟩

end Script

end ModuleBundle
