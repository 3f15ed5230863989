import ModuleBundle.Proofs.Lowering.Hygiene
import ModuleBundle.Proofs.Lowering.Layout

/-!
What a module exports, and what its getters read. The forms of export are recorded one statement
at a time and joined with the imports at the end; the names that come of it are those that the
export entries of the language give, each once, and each is read where its entry has its value:
from a name of the module, from what an imported name reads as, or from the record of the module
that is exported from.
-/

set_option autoImplicit false

namespace ModuleBundle

open Script

/-! Properties. -/

namespace Script

/-- A text that reads the property `name` of `object`: behind a dot, where the name is one word,
or by a string in brackets. -/
inductive PropertyOf (object name : String) : String → Prop
  | dotted {width : Nat} (word : Tag.scan name.toList = (.word name false, width, [])) :
      PropertyOf object name (object ++ "." ++ name)
  | bracketed {literal : String} {width : Nat}
      (string : Tag.scan literal.toList = (.string name false, width, [])) :
      PropertyOf object name (object ++ "[" ++ literal ++ "]")

theorem Word.tail?_of_parts {cs : List Char}
    (parts : ∀ c ∈ cs, c ≠ '\\' ∧ isIdentifierPart c = true) :
    Word.tail? 0 cs = some ⟨cs, false, cs.length, []⟩ := by
  induction cs with
  | nil => rfl
  | cons c rest ih =>
    obtain ⟨⟨plain, part⟩, others⟩ := List.forall_mem_cons.mp parts
    rw [Word.tail?.eq_def]
    simp only [plain, part, ↓reduceIte, ih others]
    rfl

theorem isDigit_of_isAlpha {c : Char} (letter : c.isAlpha = true) : c.isDigit = false := by
  -- the digits stand in front of all letters
  have above : 58 ≤ c.toNat := by
    rcases (Bool.or_eq_true _ _).mp letter with upper | lower
    · have first : 65 ≤ c.toNat := (of_decide_eq_true upper).1
      omega
    · have first : 97 ≤ c.toNat := of_decide_eq_true ((Bool.and_eq_true _ _).mp lower).1
      omega
  refine Bool.eq_false_iff.mpr fun digit => ?_
  have below : c.toNat ≤ 57 := (Char.isDigit_iff_toNat.mp digit).2
  omega

theorem isIdentifierPart_of_plain {c : Char}
    (plain : (c.isAlphanum || c = '_' || c = '$') = true) :
    c ≠ '\\' ∧ isIdentifierPart c = true := by
  refine ⟨?_, by rw [isIdentifierPart, plain, Bool.true_or]⟩
  rintro rfl
  cases plain

theorem isIdentifierStart_of_plain {c : Char} (plain : (c.isAlpha || c = '_' || c = '$') = true) :
    isIdentifierStart c = true ∧ ¬ (c = '"' ∨ c = '\'') ∧ c ≠ '#' ∧ c.isDigit = false ∧
      c ≠ '.' := by
  have other {mark : Char} (no : (mark.isAlpha || mark = '_' || mark = '$') = false) : c ≠ mark := by
    rintro rfl
    exact Bool.false_ne_true (no.symm.trans plain)
  refine ⟨by rw [isIdentifierStart, plain, Bool.true_or], ?_, other rfl, ?_, other rfl⟩
  · rintro (quote | quote)
    · exact other rfl quote
    · exact other rfl quote
  · simp only [Bool.or_eq_true, decide_eq_true_eq] at plain
    rcases plain with (letter | rfl) | rfl
    · exact isDigit_of_isAlpha letter
    · rfl
    · rfl

theorem scan_of_isPlainName {name : String} (plain : isPlainName name = true) :
    ∃ width, Tag.scan name.toList = (.word name false, width, []) := by
  have ofChars : String.ofList name.toList = name := String.ofList_toList
  unfold isPlainName at plain
  generalize name.toList = cs at plain ofChars
  subst ofChars
  cases cs with
  | nil => cases plain
  | cons first rest =>
    obtain ⟨opens, goesOn⟩ := (Bool.and_eq_true _ _).mp plain
    obtain ⟨starts, noString, noPrivate, noDigit, noPoint⟩ := isIdentifierStart_of_plain opens
    have continues : (first.isAlphanum || first = '_' || first = '$') = true := by
      rw [Char.isAlphanum, Bool.or_right_comm _ first.isDigit, Bool.or_right_comm _ first.isDigit,
        opens, Bool.true_or]
    have word : Word.scan? (first :: rest) =
        some ⟨first :: rest, false, (first :: rest).length, []⟩ := by
      have parts : ∀ c ∈ first :: rest, c ≠ '\\' ∧ isIdentifierPart c = true :=
        List.forall_mem_cons.mpr ⟨isIdentifierPart_of_plain continues,
          fun c listed => isIdentifierPart_of_plain (List.all_eq_true.mp goesOn c listed)⟩
      simp [Word.scan?, Word.tail?_of_parts parts, starts]
    -- the first letter decides what is scanned
    refine ⟨(first :: rest).length, ?_⟩
    simp only [Tag.scan, noString, noPrivate, noDigit, noPoint, starts, word, ↓reduceIte,
      Bool.false_eq_true, false_and, or_false, or_true]

end Script

theorem memberText_property (object name : String) :
    PropertyOf object name (memberText object name) := by
  unfold memberText
  split
  next plain =>
    obtain ⟨width, word⟩ := scan_of_isPlainName plain
    exact .dotted word
  next =>
    obtain ⟨width, string⟩ := isLiteral_quoted name
    exact .bracketed string

namespace Script

/-! Export entries. -/

/-- What an exported name stands for: a name of the module, the value of a default export that has
no name, a name that another module exports, or all that another module exports. -/
inductive ExportEntry where
  | own (name : String)
  | unnamed
  | member (specifier name : String)
  | whole (specifier : String)
  deriving DecidableEq, Repr

namespace Statement

/-- The export entries of an outermost statement, form by form. A pattern at any depth exports each
name that it binds; `export *` gives no entry with a name, and a dropped interface none at all. -/
inductive Exports : Statement → String → ExportEntry → Prop
  | declared {span : Span} {start : Nat} {inner : Statement} {name : String}
      (declares : inner.Declares name) : Exports (.exportDeclaration span start inner) name (.own name)
  | listed {span : Span} {specifiers : List ExportSpecifier} {s : ExportSpecifier}
      (listed : s ∈ specifiers) : Exports (.exportList span specifiers none) s.exported (.own s.source)
  | again {span : Span} {specifiers : List ExportSpecifier} {source : Request} {s : ExportSpecifier}
      (listed : s ∈ specifiers) :
      Exports (.exportList span specifiers (some source)) s.exported
        (.member source.specifier s.source)
  | whole {span : Span} {name : String} {source : Request} :
      Exports (.exportAll span (some name) source) name (.whole source.specifier)
  | function {span : Span} {value : FunctionNode} {name : String} (named : value.name = some name) :
      Exports (.exportDefault span (.function value)) "default" (.own name)
  | classNode {span : Span} {value : ClassNode} {name : String} (named : value.name = some name) :
      Exports (.exportDefault span (.classNode value)) "default" (.own name)
  | unnamed {statement : Statement} (holds : statement.holdsDefault = true) :
      Exports statement "default" .unnamed

end Statement

def ExportEntry.origin (n : Nat) : ExportEntry → Origin
  | own name => .name name
  | unnamed => .name defaultName
  | member _ name => .reading (.member n name)
  | whole _ => .name (recordName n)

def ExportEntry.specifier? : ExportEntry → Option String
  | member specifier _ => some specifier
  | whole specifier => some specifier
  | _ => none

namespace Statement

variable {n : Nat} {statement : Statement}

theorem defaultLinkage_exports (span : Span) (inner : Statement) :
    (∃ name, (exportDefault span inner).Exports "default" (.own name) ∧
      (exportDefault span inner).holdsDefault = false ∧
      (inner.defaultLinkage span).exports = [⟨"default", .name name⟩]) ∨
    ((exportDefault span inner).holdsDefault = true ∧
      (inner.defaultLinkage span).exports = [⟨"default", .name defaultName⟩]) ∨
    ((exportDefault span inner).holdsDefault = false ∧
      (inner.defaultLinkage span).exports = []) := by
  cases inner with
  | function value =>
    obtain ⟨own, name, isAsync, isGenerator, start, parameters, body⟩ := value
    cases name with
    | some name => exact .inl ⟨name, .function rfl, rfl, rfl⟩
    | none => exact .inr (.inl ⟨rfl, rfl⟩)
  | classNode value =>
    obtain ⟨own, name, decorators, heritage, members⟩ := value
    cases name with
    | some name => exact .inl ⟨name, .classNode rfl, rfl, rfl⟩
    | none => exact .inr (.inl ⟨rfl, rfl⟩)
  | expression own value => exact .inr (.inl ⟨rfl, rfl⟩)
  | _ => exact .inr (.inr ⟨rfl, rfl⟩)

theorem Exports.mem_exports {name : String} {entry : ExportEntry}
    (exports : statement.Exports name entry) (n : Nat) :
    ⟨name, entry.origin n⟩ ∈ (statement.linkage n).exports := by
  cases exports with
  | declared declares => exact List.mem_map_of_mem (mem_declaredNames_iff.mpr declares)
  | listed listed => exact List.mem_map_of_mem listed
  | again listed => exact List.mem_map_of_mem listed
  | whole => exact List.mem_singleton_self _
  | @function span value name named =>
    obtain ⟨own, name?, isAsync, isGenerator, start, parameters, body⟩ := value
    obtain rfl : name? = some name := named
    exact List.mem_singleton_self _
  | @classNode span value name named =>
    obtain ⟨own, name?, decorators, heritage, members⟩ := value
    obtain rfl : name? = some name := named
    exact List.mem_singleton_self _
  | unnamed holds =>
    cases statement with
    | exportDefault span inner =>
      rw [linkage_exportDefault]
      rcases defaultLinkage_exports span inner with ⟨name, _, named, _⟩ | ⟨_, same⟩ | ⟨none, _⟩
      · cases holds.symm.trans named
      · rw [same]
        exact List.mem_singleton_self _
      · cases holds.symm.trans none
    | _ => cases holds

theorem exists_entry {e : Export} (recorded : e ∈ (statement.linkage n).exports) :
    ∃ entry, statement.Exports e.exported entry ∧ e.origin = entry.origin n := by
  cases statement with
  | importDeclaration d =>
    obtain ⟨span, specifiers, source⟩ := d
    cases specifiers <;> cases recorded
  | exportList span specifiers source =>
    cases source with
    | none =>
      obtain ⟨s, listed, rfl⟩ := List.mem_map.mp recorded
      exact ⟨_, .listed listed, rfl⟩
    | some source =>
      obtain ⟨s, listed, rfl⟩ := List.mem_map.mp recorded
      exact ⟨_, .again listed, rfl⟩
  | exportAll span name source =>
    cases name with
    | none => cases recorded
    | some name =>
      cases List.mem_singleton.mp recorded
      exact ⟨_, .whole, rfl⟩
  | exportDeclaration span start inner =>
    obtain ⟨name, named, rfl⟩ := List.mem_map.mp recorded
    exact ⟨_, .declared (mem_declaredNames_iff.mp named), rfl⟩
  | exportDefault span inner =>
    rw [linkage_exportDefault] at recorded
    -- under its own name, as a value without one, or not at all
    rcases defaultLinkage_exports span inner with
        ⟨name, exports, _, same⟩ | ⟨holds, same⟩ | ⟨_, same⟩ <;>
      rw [same] at recorded
    · obtain rfl := List.mem_singleton.mp recorded
      exact ⟨_, exports, rfl⟩
    · obtain rfl := List.mem_singleton.mp recorded
      exact ⟨_, .unnamed holds, rfl⟩
    · cases recorded
  | _ => cases recorded

theorem exports_sublist (n : Nat) (statement : Statement) :
    ((statement.linkage n).exports.map Export.exported).Sublist statement.exportedNames := by
  cases statement with
  | importDeclaration d =>
    obtain ⟨span, specifiers, source⟩ := d
    cases specifiers <;> exact .slnil
  | exportList span specifiers source =>
    cases source <;> simp only [linkage, exportedNames, List.map_map] <;> exact .refl _
  | exportAll span name source => cases name <;> exact .refl _
  | exportDeclaration span start inner =>
    have names : (inner.declaredNames.map fun name => Export.mk name (.name name)).map
        Export.exported = inner.declaredNames := by
      rw [List.map_map]
      exact List.map_id _
    exact names ▸ .refl _
  | exportDefault span inner =>
    -- a dropped interface is checked as a default export, but not recorded
    rw [linkage_exportDefault]
    rcases defaultLinkage_exports span inner with
        ⟨name, _, _, same⟩ | ⟨_, same⟩ | ⟨_, same⟩ <;> rw [same]
    · exact .refl _
    · exact .refl _
    · exact List.nil_sublist _
  | _ => exact .slnil

theorem Exports.bind_mem_requires {name specifier : String} {entry : ExportEntry}
    (exports : statement.Exports name entry) (from? : entry.specifier? = some specifier) (n : Nat) :
    .bind n specifier ∈ (statement.linkage n).requires := by
  cases exports with
  | again listed =>
    cases from?
    exact List.mem_singleton_self _
  | whole =>
    cases from?
    exact List.mem_singleton_self _
  | _ => cases from?

end Statement

def ImportSpecifier.name : ImportSpecifier → String
  | default name => name
  | whole name => name
  | named _ name => name

namespace Program

variable {p : Program}

def Exports (p : Program) (name : String) (entry : ExportEntry) : Prop :=
  ∃ statement ∈ p.body, statement.Exports name entry

def Imports (p : Program) (name : String) : Prop :=
  ∃ d specifiers, .importDeclaration d ∈ p.body ∧ d.specifiers = some specifiers ∧
    ∃ specifier ∈ specifiers, specifier.name = name

/-- Whether the `n`-th record is what requiring `specifier` gives: one line declares it, as that. -/
def Records (p : Program) (n : Nat) (specifier : String) : Prop :=
  .bind n specifier ∈ p.linkage.requires ∧
    ∀ line ∈ p.linkage.requires, line.declared? = some (.record n) → line = .bind n specifier

/-- The expressions that read what an entry stands for. An imported name is read by the expression
that references to it are rewritten to, and a value without a name by the one that it is declared
under; what is read of another module's default is left open. -/
inductive Reads (p : Program) : ExportEntry → String → Prop
  | own {name : String} (unimported : ¬ p.Imports name) : Reads p (.own name) name
  | imported {name : String} {reading : Reading} (imports : p.Imports name)
      (reads : p.linkage.readings name = some reading)
      (rewritten : ∀ reference ∈ p.references, reference.name = name → reference.Unbound →
        ⟨reference.span, reference.written reading⟩ ∈ p.edits) : Reads p (.own name) reading.text
  | unnamed (declared : ∃ edit ∈ p.edits, ∃ keyword ∈ declarationKeywords,
      Occurs (keyword ++ defaultName) edit.text) : Reads p .unnamed defaultName
  | member {n : Nat} {specifier name value : String} (records : p.Records n specifier)
      (property : name ≠ "default" → PropertyOf (recordName n) name value) :
      Reads p (.member specifier name) value
  | whole {n : Nat} {specifier : String} (records : p.Records n specifier) :
      Reads p (.whole specifier) (recordName n)

/-! Imports. -/

theorem readingsOf_eq_none_iff {imports : List (String × Reading)} {name : String} :
    Linkage.readingsOf imports name = none ↔ ∀ imported ∈ imports, imported.1 ≠ name := by
  induction imports with
  | nil => simp [Linkage.readingsOf]
  | cons first rest ih =>
    rw [Linkage.readingsOf, List.forall_mem_cons, ← ih]
    cases Linkage.readingsOf rest name <;> simp

theorem mem_imports {n : Nat} {statement : Statement} {imported : String × Reading} :
    imported ∈ (statement.linkage n).imports ↔
      ∃ d specifiers, statement = .importDeclaration d ∧ d.specifiers = some specifiers ∧
        ∃ specifier ∈ specifiers, specifier.importOf n = imported := by
  constructor
  · intro listed
    cases statement with
    | importDeclaration d =>
      obtain ⟨span, specifiers, source⟩ := d
      cases specifiers with
      | none => cases listed
      | some specifiers => exact ⟨_, specifiers, rfl, rfl, List.mem_map.mp listed⟩
    | exportList span specifiers source => cases source <;> cases listed
    | exportAll span name source => cases name <;> cases listed
    | exportDefault span inner =>
      rw [Statement.linkage_exportDefault, (Statement.defaultLinkage_plain span inner).2.1] at listed
      cases listed
    | _ => cases listed
  · rintro ⟨⟨span, _, source⟩, specifiers, rfl, rfl, listed⟩
    exact List.mem_map.mpr listed

theorem readings_eq_none_iff {name : String} :
    p.linkage.readings name = none ↔ ¬ p.Imports name := by
  have bound (n : Nat) (specifier : ImportSpecifier) : (specifier.importOf n).1 = specifier.name := by
    cases specifier <;> rfl
  rw [Linkage.readings, readingsOf_eq_none_iff, linkage_imports]
  constructor
  · rintro others ⟨d, specifiers, listed, named, specifier, member, rfl⟩
    obtain ⟨n, numbered⟩ := Statement.exists_number (n := 0) listed
    refine others (specifier.importOf n) (List.mem_flatMap_of_mem numbered ?_) (bound n specifier)
    exact mem_imports.mpr ⟨d, specifiers, rfl, named, specifier, member, rfl⟩
  · rintro unimported imported listed rfl
    obtain ⟨⟨n, statement⟩, numbered, own⟩ := List.mem_flatMap.mp listed
    obtain ⟨d, specifiers, rfl, named, specifier, member, rfl⟩ := mem_imports.mp own
    exact unimported ⟨d, specifiers, Statement.mem_of_mem_numbered numbered, named, specifier, member,
      (bound n specifier).symm⟩

/-! Records. -/

theorem declared_sublist (p : Program) :
    (p.linkage.requires.filterMap RequireLine.declared?).Sublist p.hiddenNames := by
  rw [linkage_requires, List.filterMap_flatMap]
  exact .flatMap_right _ fun entry _ => List.sublist_append_left _ _

theorem records_of_mem {goal : Goal} {text : List Char} (parsed : parse? goal text = some p) {n : Nat}
    {specifier : String} (binds : .bind n specifier ∈ p.linkage.requires) : p.Records n specifier := by
  have apart := List.pairwise_filterMap.mp ((hiddenNames_nodup parsed).sublist p.declared_sublist)
  have : Std.Symm fun first second : RequireLine =>
      ∀ a, first.declared? = some a → ∀ b, second.declared? = some b → a ≠ b :=
    ⟨fun _ _ apart a first b second same => apart b second a first same.symm⟩
  refine ⟨binds, fun line listed declares => ?_⟩
  -- another line would declare the name of the record once more
  by_contra other
  exact apart.forall listed binds other _ declares _ rfl rfl

/-! Getters. -/

theorem getters_sublist (p : Program) :
    (p.getters.map Prod.fst).Sublist (p.body.flatMap Statement.exportedNames) := by
  have names : p.getters.map Prod.fst =
      p.numbered.flatMap fun entry => ((entry.2.linkage entry.1).exports.map Export.exported) := by
    rw [getters, List.map_map, linkage_exports, List.map_flatMap]
    rfl
  rw [names, ← p.flatMap_numbered]
  exact .flatMap_right _ fun entry _ => Statement.exports_sublist entry.1 entry.2

theorem getters_names_nodup {goal : Goal} {text : List Char} (parsed : parse? goal text = some p) :
    (p.getters.map Prod.fst).Nodup :=
  (checked_of_parsed parsed).1.sublist p.getters_sublist

theorem exists_entry_of_mem_getters {getter : String × String} (listed : getter ∈ p.getters) :
    ∃ entry, p.Exports getter.1 entry := by
  obtain ⟨e, recorded, rfl⟩ := List.mem_map.mp listed
  rw [linkage_exports] at recorded
  obtain ⟨⟨n, statement⟩, numbered, own⟩ := List.mem_flatMap.mp recorded
  obtain ⟨entry, exports, _⟩ := Statement.exists_entry own
  exact ⟨entry, statement, Statement.mem_of_mem_numbered numbered, exports⟩

theorem mem_getters_names {name : String} :
    name ∈ p.getters.map Prod.fst ↔ ∃ entry, p.Exports name entry := by
  constructor
  · intro named
    obtain ⟨getter, listed, rfl⟩ := List.mem_map.mp named
    exact exists_entry_of_mem_getters listed
  · rintro ⟨entry, statement, listed, exports⟩
    obtain ⟨n, numbered⟩ := Statement.exists_number (n := 0) listed
    have recorded : ⟨name, entry.origin n⟩ ∈ p.linkage.exports := by
      rw [linkage_exports]
      exact List.mem_flatMap_of_mem numbered (exports.mem_exports n)
    simp only [getters, List.map_map]
    exact List.mem_map.mpr ⟨_, recorded, rfl⟩

theorem reads_own (p : Program) (name : String) :
    p.Reads (.own name) (((p.linkage.readings name).map Reading.text).getD name) := by
  cases found : p.linkage.readings name with
  | none => exact .own (readings_eq_none_iff.mp found)
  | some reading =>
    have imports : p.Imports name := by
      by_contra unimported
      cases found.symm.trans (readings_eq_none_iff.mpr unimported)
    refine .imported imports found fun reference listed same unbound => mem_edits.mpr (.inr ?_)
    refine ⟨reference, listed, unbound, ?_⟩
    rw [Reference.edit?, same, found, Option.map_some]

section

variable {goal : Goal} {text : List Char} (parsed : parse? goal text = some p) {n : Nat}
  {statement : Statement} (numbered : (n, statement) ∈ p.numbered) {name : String}
  {entry : ExportEntry} (exports : statement.Exports name entry)
include parsed numbered exports

theorem records_of_exports {specifier : String} (from? : entry.specifier? = some specifier) :
    p.Records n specifier := by
  refine records_of_mem parsed ?_
  rw [linkage_requires]
  exact List.mem_flatMap_of_mem numbered (exports.bind_mem_requires from? n)

/-- What is recorded for an entry reads what the entry stands for. -/
theorem reads_value (unused : ∀ hidden ∈ p.hiddenNames, p.linkage.readings hidden.text = none) :
    p.Reads entry (Export.value p.linkage.readings ⟨name, entry.origin n⟩) := by
  -- a hidden name reads as itself
  have hidden {own : HiddenName} (declared : own ∈ p.hiddenNames) :
      ((p.linkage.readings own.text).map Reading.text).getD own.text = own.text := by
    rw [unused own declared]
    rfl
  cases entry with
  | own name => exact p.reads_own name
  | unnamed =>
    have declared : .default ∈ p.hiddenNames := by
      refine mem_hiddenNames_of_numbered numbered (List.mem_append_right _ ?_)
      cases exports with
      | unnamed holds =>
        rw [if_pos holds]
        exact List.mem_singleton_self _
    have value : Export.value p.linkage.readings ⟨name, .name defaultName⟩ = defaultName :=
      hidden declared
    have declares := exists_declaration declared
    rw [ExportEntry.origin, value]
    exact .unnamed declares
  | member specifier original =>
    have records := records_of_exports parsed numbered exports rfl
    exact .member records fun _ => memberText_property (recordName n) original
  | whole specifier =>
    have records := records_of_exports parsed numbered exports rfl
    have declared : .record n ∈ p.hiddenNames :=
      p.declared_sublist.subset (List.mem_filterMap.mpr ⟨_, records.1, rfl⟩)
    have value : Export.value p.linkage.readings ⟨name, .name (recordName n)⟩ = recordName n :=
      hidden declared
    rw [ExportEntry.origin, value]
    exact .whole records

end

theorem exists_getter {goal : Goal} {text : List Char} (parsed : parse? goal text = some p)
    (unused : ∀ hidden ∈ p.hiddenNames, p.linkage.readings hidden.text = none) {name : String}
    {entry : ExportEntry} (exports : p.Exports name entry) :
    ∃ value, (name, value) ∈ p.getters ∧ p.Reads entry value := by
  obtain ⟨statement, listed, exports⟩ := exports
  obtain ⟨n, numbered⟩ := Statement.exists_number (n := 0) listed
  have recorded : ⟨name, entry.origin n⟩ ∈ p.linkage.exports := by
    rw [linkage_exports]
    exact List.mem_flatMap_of_mem numbered (exports.mem_exports n)
  exact ⟨_, List.mem_map_of_mem recorded, reads_value parsed numbered exports unused⟩

end Program

/-- The prologue of an accepted module defines one getter for each name that its export entries
give, and none for any other name, and the getter of a name reads what its entry stands for: this as
long as no import has a hidden name that the body declares. A name that is declared and imported,
which the language does not allow, counts as imported, as it does for the references to it. -/
theorem getters_are_exports {goal : Goal} {text : List Char} {p : Program} {analysis : Analysis}
    (parsed : Program.parse? goal text = some p)
    (accepted : Analysis.ofText goal text = .ok analysis)
    (unused : ∀ hidden ∈ p.hiddenNames, p.linkage.readings hidden.text = none) :
    analysis.body = String.ofList (Edit.apply p.edits text) ∧
    (p.isModule = true → ∃ lines, Prologue.Written p.getters p.linkage.requires lines ∧
      p.OpensWith text lines analysis.body) ∧
    (p.getters.map Prod.fst).Nodup ∧
    (∀ name, name ∈ p.getters.map Prod.fst ↔ ∃ entry, p.Exports name entry) ∧
    ∀ name entry, p.Exports name entry → ∃ value, (name, value) ∈ p.getters ∧ p.Reads entry value := by
  refine ⟨Analysis.body_of_accepted parsed accepted, fun links => ?_,
    Program.getters_names_nodup parsed, fun name => Program.mem_getters_names,
    fun name entry => Program.exists_getter parsed unused⟩
  exact ⟨p.prologueLines, Program.written_prologueLines links,
    Program.opensWith_of_accepted parsed accepted links⟩

def manyExports : List Char :=
  ("export \x7b x as y, ns, d as 'v w' \x7d;\nimport d, \x7b x, 'a-b' as z \x7d from './b';\n" ++
    "import * as ns from './c';\nexport const \x7b a, b: [c, ...e], f = 1, ...g \x7d = z;\n" ++
    "export \x7b 'p q' as r, s as 't-u' \x7d from './d';\nexport * as w from './e';\n" ++
    "export * from './f';\nexport default function () \x7b\x7d").toList

def manyGetters : List (String × String) :=
  [("y", "__import0__.x"), ("ns", "__import1__"), ("v w", "__import0_default__.default"),
    ("a", "a"), ("c", "c"), ("e", "e"), ("f", "f"), ("g", "g"), ("r", "__import2__[\"p q\"]"),
    ("t-u", "__import2__.s"), ("w", "__import3__"), ("default", "__default__")]

theorem manyExports_getters :
    ∃ p analysis, Program.parse? .module manyExports = some p ∧
      Analysis.ofText .module manyExports = .ok analysis ∧
      (∀ hidden ∈ p.hiddenNames, p.linkage.readings hidden.text = none) ∧
      p.getters = manyGetters ∧
      (∃ lines, Prologue.Written manyGetters p.linkage.requires lines ∧
        p.OpensWith manyExports lines analysis.body) ∧
      (p.getters.map Prod.fst).Nodup ∧
      (∀ name, name ∈ p.getters.map Prod.fst ↔ ∃ entry, p.Exports name entry) ∧
      ∀ name entry, p.Exports name entry →
        ∃ value, (name, value) ∈ p.getters ∧ p.Reads entry value := by
  have known : ∃ p ∈ Program.parse? .module manyExports, Statement.anyAwaits p.body = false ∧
      (∀ hidden ∈ p.hiddenNames, p.linkage.readings hidden.text = none) ∧ p.isModule = true ∧
      p.getters = manyGetters := by
    decide +kernel
  obtain ⟨p, parsed, awaits, unused, links, getters⟩ := known
  have accepted := Analysis.accepted_of_parsed parsed awaits
  obtain ⟨_, lines, once, names, reads⟩ := getters_are_exports parsed accepted unused
  exact ⟨p, _, parsed, accepted, unused, getters, getters ▸ lines links, once, names, reads⟩

end Script

end ModuleBundle
