import ModuleBundle.Proofs.Lowering.Insertions

/-!
Hygiene of the lowering. It writes calls of `require` and reads of hidden names without a look
at the names that the source declares. The names it introduces never clash with each other, so
that all there is to go wrong is a declaration of the source: one around the place where a name
is written captures it, and one outside of functions declares it a second time. Names are looked
up by declarations alone, with a function in a block declared there as in strict code; `with`
and `eval` are left aside.
-/

set_option autoImplicit false

namespace ModuleBundle

open Script

namespace Script

/-! What the lowering introduces. -/

namespace Statement

variable {n : Nat} {statement : Statement} {name : String}

theorem mem_uses {line : RequireLine} (listed : line ∈ (statement.linkage n).requires)
    (used : name ∈ line.uses) :
    name ∈ wrapperParameters ∨ (statement.bindsRecord = true ∧ name = recordName n) := by
  rcases mem_requires listed with ⟨specifier, rfl⟩ | ⟨binds, ⟨specifier, rfl⟩ | rfl | rfl⟩
  · cases List.mem_singleton.mp used
    exact .inl (by decide)
  · cases List.mem_singleton.mp used
    exact .inl (by decide)
  · exact .inr ⟨binds, List.mem_singleton.mp used⟩
  · rcases List.mem_cons.mp used with own | marked
    · exact .inr ⟨binds, own⟩
    · cases List.mem_singleton.mp marked
      exact .inl (by decide)

theorem mem_of_hidden {readings : Readings} {e : Export} {hidden : HiddenName}
    (exported : e ∈ (statement.linkage n).exports)
    (reads : e.hidden? readings (statement.hiddenNames n) = some hidden) :
    (∃ name reading, readings name = some reading ∧ reading.object = hidden) ∨
      hidden ∈ statement.hiddenNames n := by
  unfold Export.hidden? at reads
  split at reads
  next value origin =>
    cases reads
    obtain ⟨binds, imported, rfl⟩ := exported_reading exported origin
    exact .inr (record_mem_hiddenNames binds)
  next name origin =>
    split at reads
    next reading found =>
      cases reads
      exact .inl ⟨name, reading, found, rfl⟩
    next => exact .inr (List.mem_of_find?_eq_some reads)

end Statement

namespace Program

variable {p : Program} {edit : Edit} {around : List Enclosure} {name : String}

/-- The names that the function around a body and the lowering declare outside of all else. -/
def introducedNames (p : Program) : List String :=
  wrapperParameters ++ p.hiddenNames.map HiddenName.text

theorem Inserts.mem_introducedNames (inserts : p.Inserts edit around name) :
    name ∈ p.introducedNames := by
  have declared {hidden : HiddenName} (listed : hidden ∈ p.hiddenNames) :
      hidden.text ∈ p.introducedNames :=
    List.mem_append_right _ (List.mem_map_of_mem listed)
  have given {name : String} (listed : name ∈ wrapperParameters) : name ∈ p.introducedNames :=
    List.mem_append_left _ listed
  -- by where a name is written; what is no parameter is declared by some statement
  cases inserts with
  | reference listed unbound imported => exact declared (object_mem_hiddenNames imported)
  | dynamicImport held requests made => exact given (by decide)
  | marker listed => exact given (by decide)
  | @line _ line _ listed required used =>
    rw [linkage_requires] at required
    obtain ⟨⟨n, statement⟩, numbered, inStatement⟩ := List.mem_flatMap.mp required
    rcases Statement.mem_uses inStatement used with parameter | ⟨binds, rfl⟩
    · exact given parameter
    · exact declared (mem_hiddenNames_of_numbered numbered (Statement.record_mem_hiddenNames binds))
  | getter listed numbered exported reads =>
    rcases Statement.mem_of_hidden exported reads with ⟨_, _, imported, rfl⟩ | own
    · exact declared (object_mem_hiddenNames imported)
    · exact declared (mem_hiddenNames_of_numbered numbered own)

theorem introducedNames_nodup {goal : Goal} {text : List Char}
    (parsed : parse? goal text = some p) : p.introducedNames.Nodup := by
  refine List.nodup_append.mpr ⟨by decide, ?_, ?_⟩
  · exact (hiddenNames_nodup parsed).map fun _ _ => HiddenName.text_inj
  · rintro parameter given _ listed rfl
    obtain ⟨hidden, _, rfl⟩ := List.mem_map.mp listed
    exact hidden.text_not_mem_wrapperParameters given

end Program

/-! What the lowering declares. -/

def declarationKeywords : List String := ["var ", "function ", "function* "]

namespace Statement

theorem header_declares (isAsync isGenerator : Bool) :
    ∃ keyword ∈ declarationKeywords, Occurs (keyword ++ defaultName)
      ((if isAsync then "async " else "") ++ "function" ++ (if isGenerator then "*" else "") ++
        " " ++ defaultName) := by
  cases isGenerator with
  | false => exact ⟨"function ", by decide, by cases isAsync <;> decide +kernel⟩
  | true => exact ⟨"function* ", by decide, by cases isAsync <;> decide +kernel⟩

theorem exists_declaration_of_holdsDefault {statement : Statement}
    (holds : statement.holdsDefault = true) (n : Nat) :
    ∃ edit ∈ (statement.linkage n).edits, ∃ keyword ∈ declarationKeywords,
      Occurs (keyword ++ defaultName) edit.text := by
  have assigned : Occurs ("var " ++ defaultName) ("var " ++ defaultName ++ " = ") :=
    (Occurs.refl _).append_right _
  cases statement with
  | exportDefault span inner =>
    cases inner with
    | function value =>
      obtain ⟨own, name, isAsync, isGenerator, start, parameters, body⟩ := value
      cases name with
      | some name => cases holds
      | none =>
        exact ⟨_, List.mem_singleton_self _, header_declares isAsync isGenerator⟩
    | classNode value =>
      obtain ⟨own, name, decorators, heritage, members⟩ := value
      cases name with
      | some name => cases holds
      | none => exact ⟨_, List.mem_cons_self, _, List.mem_cons_self, assigned⟩
    | expression own value => exact ⟨_, List.mem_cons_self, _, List.mem_cons_self, assigned⟩
    | _ => cases holds
  | _ => cases holds

end Statement

namespace Program

variable {p : Program}

theorem exists_declaration {hidden : HiddenName} (listed : hidden ∈ p.hiddenNames) :
    ∃ edit ∈ p.edits, ∃ keyword ∈ declarationKeywords,
      Occurs (keyword ++ hidden.text) edit.text := by
  obtain ⟨⟨n, statement⟩, numbered, inStatement⟩ := List.mem_flatMap.mp listed
  -- records and holders are declared in the prologue, a default value where it is exported
  rcases List.mem_append.mp inStatement with inLines | isDefault
  · obtain ⟨line, own, declared⟩ := List.mem_filterMap.mp inLines
    have required : line ∈ p.linkage.requires := by
      rw [linkage_requires]
      exact List.mem_flatMap_of_mem numbered own
    have inPrologue : line.text ∈ p.prologueLines :=
      List.mem_append_right _ (List.mem_map_of_mem required)
    obtain ⟨edit, inserted⟩ := exists_prologue inPrologue
    obtain ⟨rest, split⟩ := RequireLine.text_of_declared declared
    have occurs : Occurs ("var " ++ hidden.text) line.text := by
      unfold Occurs
      rw [split, String.toList_append, ← List.append_assoc]
      exact List.infix_append [] _ _
    obtain ⟨edited, inText⟩ := prologue_occurs inserted inPrologue occurs
    exact ⟨edit, edited, "var ", List.mem_cons_self, inText⟩
  · split at isDefault
    next holds =>
      cases List.mem_singleton.mp isDefault
      obtain ⟨edit, own, written⟩ := Statement.exists_declaration_of_holdsDefault holds n
      have linked : edit ∈ p.linkage.edits := by
        rw [linkage_edits]
        exact List.mem_flatMap_of_mem numbered own
      refine ⟨edit, mem_edits.mpr (.inl ?_), written⟩
      simp only [replacements, List.mem_append]
      exact .inl (.inl (.inr linked))
    next => cases isDefault

end Program

/-! What the source declares. -/

def Statement.exposed : Statement → Statement
  | .exportDeclaration _ _ inner => inner
  | .exportDefault _ inner => inner
  | statement => statement

namespace Program

variable {p : Program} {around : List Enclosure} {name : String}

def lexicalNames (p : Program) : List String :=
  Statement.lexicalNamesOfList (p.body.map Statement.exposed)

/-- The names that a source declares outside of all else and that its body declares still. What
imports declare is gone from there. -/
def declaredNames (p : Program) : List String :=
  p.lexicalNames ++ Statement.hoistedNamesOfList p.body

/-- Whose declaration a name denotes. -/
inductive Declarer where
  | construct (enclosure : Enclosure)
  | outermost
  | introduced

/-- Whose declaration a name denotes that is written with constructs of the source around it:
that of the innermost with the name in scope, or else one outside of functions, or else one of
the lowering. -/
def declarer? (p : Program) (around : List Enclosure) (name : String) : Option Declarer :=
  match around.find? fun enclosure => enclosure.InScope name with
  | some enclosure => some (.construct enclosure)
  | none =>
    if name ∈ p.declaredNames then some .outermost
    else if name ∈ p.introducedNames then some .introduced
    else none

theorem declarer?_eq_introduced (introduced : name ∈ p.introducedNames) :
    p.declarer? around name = some .introduced ↔
      (∀ enclosure ∈ around, ¬ enclosure.InScope name) ∧ name ∉ p.declaredNames := by
  unfold declarer?
  split
  next enclosure found =>
    have inScope := List.find?_some found
    simp only [decide_eq_true_eq] at inScope
    refine ⟨nofun, fun ⟨free, _⟩ => ?_⟩
    exact absurd inScope (free enclosure (List.mem_of_find?_eq_some found))
  next nowhere =>
    have free : ∀ enclosure ∈ around, ¬ enclosure.InScope name := by
      simpa using nowhere
    by_cases declared : name ∈ p.declaredNames
    · rw [if_pos declared]
      exact ⟨nofun, fun ⟨_, undeclared⟩ => absurd declared undeclared⟩
    · rw [if_neg declared, if_pos introduced]
      exact ⟨fun _ => ⟨free, declared⟩, fun _ => rfl⟩

theorem count_eq_one_iff (apart : p.introducedNames.Nodup) (introduced : name ∈ p.introducedNames) :
    (p.introducedNames ++ p.declaredNames).count name = 1 ↔ name ∉ p.declaredNames := by
  rw [List.count_append, List.count_eq_one_of_mem apart introduced, ← List.count_eq_zero]
  omega

/-- How the names that the lowering introduces clash with others: in no way but by a declaration
of the source. -/
structure OnlySourceClashes (p : Program) : Prop where
  /-- Hidden names are declared by the body, the parameters by the function around it. -/
  declared : ∀ hidden ∈ p.hiddenNames, ∃ edit ∈ p.edits,
    ∃ keyword ∈ declarationKeywords, Occurs (keyword ++ hidden.text) edit.text
  apart : p.introducedNames.Nodup
  once : ∀ name ∈ p.introducedNames,
    (p.introducedNames ++ p.declaredNames).count name = 1 ↔ name ∉ p.declaredNames
  /-- An edit that writes no introduced name removes a `#!` line, or belongs to the import or
  export that it replaces. -/
  covered : ∀ edit ∈ p.edits, edit ∈ p.hashbang.toList.map Edit.remove ∨
    edit ∈ p.linkage.edits ∨ ∃ around name, p.Inserts edit around name
  denotes : ∀ edit around name, p.Inserts edit around name →
    edit ∈ p.edits ∧ Occurs name edit.text ∧
      (p.declarer? around name = some .introduced ↔
        (∀ enclosure ∈ around, ¬ enclosure.InScope name) ∧ name ∉ p.declaredNames)

/-- In the body of an accepted text, a name that the lowering writes denotes what the lowering
or the function around the body declares, unless a scope of the source around the place has it;
and what those two declare is declared once, unless the source declares it outside of functions. -/
theorem onlySourceClashes_of_accepted {goal : Goal} {text : List Char} {analysis : Analysis}
    (parsed : parse? goal text = some p) (accepted : Analysis.ofText goal text = .ok analysis) :
    analysis.body = String.ofList (Edit.apply p.edits text) ∧ p.OnlySourceClashes := by
  have apart := introducedNames_nodup parsed
  refine ⟨Analysis.body_of_accepted parsed accepted, ⟨?_, apart, ?_, ?_, ?_⟩⟩
  · exact fun hidden listed => exists_declaration listed
  · exact fun name introduced => count_eq_one_iff apart introduced
  · exact fun edit listed => exists_inserts listed
  · intro edit around name inserts
    obtain ⟨listed, occurs⟩ := inserts.mem_edits
    exact ⟨listed, occurs, declarer?_eq_introduced inserts.mem_introducedNames⟩

def readInside : List Char := "import { x } from './b';\nfunction f(y) { return x; }".toList

theorem readInside_onlySourceClashes :
    ∃ p analysis edit around, parse? .module readInside = some p ∧
      Analysis.ofText .module readInside = .ok analysis ∧ p.OnlySourceClashes ∧
      p.Inserts edit around "__import0__" ∧ around.length = 1 ∧
      p.declarer? around "__import0__" = some .introduced := by
  have known : ∃ p ∈ parse? .module readInside, Statement.anyAwaits p.body = false ∧
      "__import0__" ∉ p.declaredNames ∧ ∃ reference ∈ p.references, reference.Unbound ∧
        ∃ reading ∈ p.linkage.readings reference.name, reading.object.text = "__import0__" ∧
          reference.around.length = 1 ∧
          ∀ enclosure ∈ reference.around, ¬ enclosure.InScope "__import0__" := by
    decide +kernel
  obtain ⟨p, parsed, awaits, undeclared, reference, listed, unbound, reading, imported, named,
    one, free⟩ := known
  have accepted := Analysis.accepted_of_parsed parsed awaits
  have clashes := (onlySourceClashes_of_accepted parsed accepted).2
  have inserts := Inserts.reference listed unbound imported
  rw [named] at inserts
  exact ⟨p, _, _, _, parsed, accepted, clashes, inserts, one,
    (clashes.denotes _ _ _ inserts).2.2.mpr ⟨free, undeclared⟩⟩

/-- Whether no declaration of the source clashes with a name that the lowering introduces. -/
def Hygienic (p : Program) : Prop :=
  (∀ edit around name, p.Inserts edit around name → p.declarer? around name = some .introduced) ∧
    ∀ name ∈ p.introducedNames, name ∉ p.lexicalNames

def capturing : List Char :=
  ("import { x } from './b';\nfunction f(__import0__) { return x; }\n" ++
    "const require = f;").toList

/-- Neither half of hygiene holds of every accepted text. -/
theorem capturing_not_hygienic :
    ∃ p analysis, parse? .module capturing = some p ∧
      Analysis.ofText .module capturing = .ok analysis ∧
      (∃ edit around enclosure, p.Inserts edit around "__import0__" ∧ enclosure ∈ around ∧
        enclosure.InScope "__import0__") ∧
      ("require" ∈ p.introducedNames ∧ "require" ∈ p.lexicalNames) ∧ ¬ p.Hygienic := by
  have known : ∃ p ∈ parse? .module capturing, Statement.anyAwaits p.body = false ∧
      "require" ∈ p.lexicalNames ∧ ∃ reference ∈ p.references, reference.Unbound ∧
        ∃ reading ∈ p.linkage.readings reference.name, reading.object.text = "__import0__" ∧
          ∃ enclosure ∈ reference.around, enclosure.InScope "__import0__" := by
    decide +kernel
  obtain ⟨p, parsed, awaits, redeclared, reference, listed, unbound, reading, imported, named,
    enclosure, around, inScope⟩ := known
  have inserts := Inserts.reference listed unbound imported
  rw [named] at inserts
  have parameter : "require" ∈ p.introducedNames := List.mem_append_left _ (by decide)
  exact ⟨p, _, parsed, Analysis.accepted_of_parsed parsed awaits,
    ⟨_, _, enclosure, inserts, around, inScope⟩, ⟨parameter, redeclared⟩,
    fun hygienic => hygienic.2 "require" parameter redeclared⟩

end Program

end Script

end ModuleBundle
