import ModuleBundle.Proofs.Lowering.Exports

/-!
Reads of default exports. The language has several ways to write them, which mean the same.
Those by the keyword of a default import go through the holder of the record, which takes a
module without a mark as its own default export; those that name `default` in a list read that
property of the record itself. So they agree where the module required is marked, and else only
where its property `default` is the module.
-/

set_option autoImplicit false

namespace ModuleBundle

open Script

/-! Modules that are required. -/

/-- What requiring a module gives: a value, whether that is something marked as the exports of a
module, and what its properties are, unless reading one throws. -/
structure Required (Value : Type) where
  self : Value
  marked : Bool
  property : String → Option Value

def Required.held {Value : Type} (required : Required Value) : Option Value :=
  if required.marked then required.property "default" else some required.self

theorem Required.held_eq_property_iff {Value : Type} (required : Required Value) :
    required.held = required.property "default" ↔
      required.marked = true ∨ required.property "default" = some required.self := by
  unfold held
  cases required.marked with
  | true => simp
  | false => simpa using eq_comm

namespace Reading

def record : Reading → Nat
  | whole record => record
  | member record _ => record
  | defaultExport record => record

def value {Value : Type} (required : Required Value) : Reading → Option Value
  | whole _ => some required.self
  | member _ name => required.property name
  | defaultExport _ => required.held

end Reading

def RequireLine.bound? (n : Nat) : RequireLine → Option String
  | bind record specifier => if record = n then some specifier else none
  | _ => none

theorem RequireLine.bound?_eq_some {n : Nat} {line : RequireLine} {specifier : String} :
    line.bound? n = some specifier ↔ line = .bind n specifier := by
  cases line with
  | bind record other => simp [bound?]
  | _ => simp [bound?]

namespace Script

/-! Constructs. -/

/-- A construct that reads the default export of another module: an import under `name`, by the
keyword or out of a list, or an export of it again. -/
inductive DefaultRead where
  | keyword (name : String)
  | listed (name : String)
  | again (exported : String)
  deriving DecidableEq, Repr

namespace DefaultRead

def isKeyword : DefaultRead → Bool
  | keyword _ => true
  | _ => false

def imported? : DefaultRead → Option String
  | keyword name => some name
  | listed name => some name
  | again _ => none

def reading (n : Nat) : DefaultRead → Reading
  | keyword _ => .defaultExport n
  | _ => .member n "default"

theorem record_reading (n : Nat) (read : DefaultRead) : (read.reading n).record = n := by
  cases read <;> rfl

end DefaultRead

/-- Whether a statement has a construct that reads the default export of the module `specifier`.
In lists `default` stands as a word or as a string. -/
inductive Statement.ReadsDefault : Statement → DefaultRead → String → Prop
  | keyword {d : ImportDeclaration} {specifiers : List ImportSpecifier} {name : String}
      (some : d.specifiers = some specifiers) (member : .default name ∈ specifiers) :
      ReadsDefault (.importDeclaration d) (.keyword name) d.source.specifier
  | listed {d : ImportDeclaration} {specifiers : List ImportSpecifier} {name : String}
      (some : d.specifiers = some specifiers) (member : .named "default" name ∈ specifiers) :
      ReadsDefault (.importDeclaration d) (.listed name) d.source.specifier
  | again {span : Span} {specifiers : List ExportSpecifier} {source : Request} {s : ExportSpecifier}
      (member : s ∈ specifiers) (default : s.source = "default") :
      ReadsDefault (.exportList span specifiers (some source)) (.again s.exported) source.specifier

def Statement.defaultReads : Statement → List (DefaultRead × String)
  | .importDeclaration d =>
    (d.specifiers.getD []).filterMap fun
      | .default name => some (.keyword name, d.source.specifier)
      | .named imported name =>
        if imported = "default" then some (.listed name, d.source.specifier) else none
      | .whole _ => none
  | .exportList _ specifiers (some source) =>
    specifiers.filterMap fun s =>
      if s.source = "default" then some (.again s.exported, source.specifier) else none
  | _ => []

namespace Statement.ReadsDefault

variable {statement : Statement} {read : DefaultRead} {specifier : String}

theorem mem_defaultReads_iff :
    (read, specifier) ∈ statement.defaultReads ↔ statement.ReadsDefault read specifier := by
  constructor
  · intro listed
    cases statement with
    | importDeclaration d =>
      obtain ⟨span, _ | specifiers, source⟩ := d
      · cases listed
      · obtain ⟨own, member, made⟩ := List.mem_filterMap.mp listed
        cases own with
        | default name =>
          cases made
          exact .keyword rfl member
        | whole name => cases made
        | named imported name =>
          obtain ⟨rfl, made⟩ := Option.ite_none_right_eq_some.mp made
          cases made
          exact .listed rfl member
    | exportList span specifiers source =>
      cases source with
      | none => cases listed
      | some source =>
        obtain ⟨s, member, made⟩ := List.mem_filterMap.mp listed
        obtain ⟨default, made⟩ := Option.ite_none_right_eq_some.mp made
        cases made
        exact .again member default
    | _ => cases listed
  · intro reads
    cases reads with
    | keyword listed member =>
      simp only [defaultReads, listed, Option.getD_some]
      exact List.mem_filterMap.mpr ⟨_, member, rfl⟩
    | listed listed member =>
      simp only [defaultReads, listed, Option.getD_some]
      exact List.mem_filterMap.mpr ⟨_, member, rfl⟩
    | again member default => exact List.mem_filterMap.mpr ⟨_, member, if_pos default⟩

instance : Decidable (statement.ReadsDefault read specifier) :=
  decidable_of_iff _ mem_defaultReads_iff

theorem bind_mem_requires (reads : statement.ReadsDefault read specifier) (n : Nat) :
    .bind n specifier ∈ (statement.linkage n).requires := by
  cases reads with
  | @keyword d specifiers name listed member =>
    obtain ⟨span, _, source⟩ := d
    subst listed
    exact List.mem_cons_self
  | @listed d specifiers name listed member =>
    obtain ⟨span, _, source⟩ := d
    subst listed
    exact List.mem_cons_self
  | again member default => exact List.mem_cons_self

theorem hold_mem_requires (reads : statement.ReadsDefault read specifier)
    (keyword : read.isKeyword = true) (n : Nat) : .hold n ∈ (statement.linkage n).requires := by
  cases reads with
  | @keyword d specifiers name listed member =>
    obtain ⟨span, _, source⟩ := d
    subst listed
    exact List.mem_cons_of_mem _ (List.mem_flatMap_of_mem member List.mem_cons_self)
  | listed | again => cases keyword

theorem mem_imports {name : String} (reads : statement.ReadsDefault read specifier)
    (binds : read.imported? = some name) (n : Nat) :
    (name, read.reading n) ∈ (statement.linkage n).imports := by
  cases reads with
  | keyword listed member =>
    cases binds
    exact Program.mem_imports.mpr ⟨_, _, rfl, listed, _, member, rfl⟩
  | listed listed member =>
    cases binds
    exact Program.mem_imports.mpr ⟨_, _, rfl, listed, _, member, rfl⟩
  | again => cases binds

theorem mem_exports {exported : String} (reads : statement.ReadsDefault (.again exported) specifier)
    (n : Nat) : ⟨exported, .reading (.member n "default")⟩ ∈ (statement.linkage n).exports := by
  cases reads with
  | again member default => exact List.mem_map.mpr ⟨_, member, by rw [default]⟩

end Statement.ReadsDefault

namespace Program

variable {p : Program} {n : Nat} {read : DefaultRead} {specifier name : String}

/-- Whether a construct of the statement with the `n`-th record reads the default export of the
module `specifier`. -/
def ReadsDefault (p : Program) (n : Nat) (read : DefaultRead) (specifier : String) : Prop :=
  ∃ statement, (n, statement) ∈ p.numbered ∧ statement.ReadsDefault read specifier

instance : Decidable (p.ReadsDefault n read specifier) :=
  decidable_of_iff (∃ entry ∈ p.numbered, entry.1 = n ∧ entry.2.ReadsDefault read specifier) <| by
    constructor
    · rintro ⟨⟨_, statement⟩, numbered, rfl, reads⟩
      exact ⟨statement, numbered, reads⟩
    · rintro ⟨statement, numbered, reads⟩
      exact ⟨(n, statement), numbered, rfl, reads⟩

/-- What is written for a construct that reads another module's default export: `reading`, in
place of the references to the name that it imports and in the getters of that name, or in the
getter of the name that it exports. Another import of the same name could take its place. -/
def WritesDefault (p : Program) (reading : Reading) : DefaultRead → Prop
  | .again exported => (exported, reading.text) ∈ p.getters
  | .keyword name | .listed name =>
    (name, reading) ∈ p.linkage.imports ∧
      ((∀ other, (name, other) ∈ p.linkage.imports → other = reading) →
        (∀ reference ∈ p.references, reference.name = name → reference.Unbound →
          ⟨reference.span, reference.written reading⟩ ∈ p.edits) ∧
        ∀ e ∈ p.linkage.exports, e.origin = .name name → (e.exported, reading.text) ∈ p.getters)

def specifierOf? (p : Program) (n : Nat) : Option String :=
  p.linkage.requires.findSome? (RequireLine.bound? n)

/-- The value of a reading in the body of a program, given what requiring each module gives. -/
def evaluate {Value : Type} (p : Program) (required : String → Required Value)
    (reading : Reading) : Option Value :=
  (p.specifierOf? reading.record).bind fun specifier => reading.value (required specifier)

theorem Records.specifierOf?_eq (records : p.Records n specifier) :
    p.specifierOf? n = some specifier := by
  obtain ⟨binds, once⟩ := records
  cases found : p.specifierOf? n with
  | none =>
    have nothing := List.findSome?_eq_none_iff.mp found _ binds
    simp [RequireLine.bound?] at nothing
  | some other =>
    obtain ⟨line, listed, bound⟩ := List.exists_of_findSome?_eq_some found
    have line := RequireLine.bound?_eq_some.mp bound
    -- no two lines bind one record
    cases once _ (line ▸ listed) rfl
    rfl

theorem readings_eq_some {reading : Reading} (imported : (name, reading) ∈ p.linkage.imports)
    (only : ∀ other, (name, other) ∈ p.linkage.imports → other = reading) :
    p.linkage.readings name = some reading := by
  cases found : p.linkage.readings name with
  | none => exact absurd rfl (readingsOf_eq_none_iff.mp found _ imported)
  | some other => rw [only other (mem_of_readingsOf found)]

theorem writes_imported {reading : Reading} (imported : (name, reading) ∈ p.linkage.imports) :
    (name, reading) ∈ p.linkage.imports ∧
      ((∀ other, (name, other) ∈ p.linkage.imports → other = reading) →
        (∀ reference ∈ p.references, reference.name = name → reference.Unbound →
          ⟨reference.span, reference.written reading⟩ ∈ p.edits) ∧
        ∀ e ∈ p.linkage.exports, e.origin = .name name → (e.exported, reading.text) ∈ p.getters) := by
  refine ⟨imported, fun only => ⟨fun reference listed same unbound => ?_, fun e listed origin => ?_⟩⟩
  · apply mem_edits.mpr
    refine .inr ⟨reference, listed, unbound, ?_⟩
    simp [Reference.edit?, same, readings_eq_some imported only]
  · apply List.mem_map.mpr
    refine ⟨e, listed, ?_⟩
    simp [Export.value, origin, readings_eq_some imported only]

namespace ReadsDefault

theorem writes (reads : p.ReadsDefault n read specifier) :
    p.WritesDefault (read.reading n) read := by
  obtain ⟨statement, numbered, reads⟩ := reads
  have imports (name : String) (binds : read.imported? = some name) :
      (name, read.reading n) ∈ p.linkage.imports := by
    rw [linkage_imports]
    exact List.mem_flatMap_of_mem numbered (reads.mem_imports binds n)
  cases read with
  | keyword name => exact writes_imported (imports name rfl)
  | listed name => exact writes_imported (imports name rfl)
  | again exported =>
    have recorded : ⟨exported, .reading (.member n "default")⟩ ∈ p.linkage.exports := by
      rw [linkage_exports]
      exact List.mem_flatMap_of_mem numbered (reads.mem_exports n)
    exact List.mem_map.mpr ⟨_, recorded, rfl⟩

theorem hold_mem_requires (reads : p.ReadsDefault n read specifier)
    (keyword : read.isKeyword = true) : .hold n ∈ p.linkage.requires := by
  obtain ⟨statement, numbered, reads⟩ := reads
  rw [linkage_requires]
  exact List.mem_flatMap_of_mem numbered (reads.hold_mem_requires keyword n)

section

variable {goal : Goal} {text : List Char} (parsed : parse? goal text = some p)
include parsed

theorem records (reads : p.ReadsDefault n read specifier) : p.Records n specifier := by
  obtain ⟨statement, numbered, reads⟩ := reads
  apply records_of_mem parsed
  rw [linkage_requires]
  exact List.mem_flatMap_of_mem numbered (reads.bind_mem_requires n)

theorem evaluate_eq {Value : Type} (reads : p.ReadsDefault n read specifier)
    (required : String → Required Value) :
    p.evaluate required (read.reading n) =
      if read.isKeyword then (required specifier).held
      else (required specifier).property "default" := by
  rw [evaluate, read.record_reading, (reads.records parsed).specifierOf?_eq, Option.bind_some]
  cases read <;> rfl

end

end ReadsDefault

end Program

/-- In the body of an accepted text, a default import by the keyword reads the holder of its
declaration's record, and a construct that lists `default` reads that property of the record. Two
constructs that read the default export of the same module give the same value, whatever it is,
exactly if they are of the same of these two kinds, or the module is marked, or its property
`default` is itself. -/
theorem default_reads_agree_iff {goal : Goal} {text : List Char} {p : Program}
    {analysis : Analysis} (parsed : Program.parse? goal text = some p)
    (accepted : Analysis.ofText goal text = .ok analysis) :
    analysis.body = String.ofList (Edit.apply p.edits text) ∧
    (p.isModule = true → ∃ lines, Prologue.Written p.getters p.linkage.requires lines ∧
      p.OpensWith text lines analysis.body) ∧
    (∀ n read specifier, p.ReadsDefault n read specifier →
      p.Records n specifier ∧ p.WritesDefault (read.reading n) read ∧
        (read.isKeyword = true → .hold n ∈ p.linkage.requires)) ∧
    ∀ (Value : Type) (required : String → Required Value) (specifier : String) (m n : Nat)
        (first second : DefaultRead),
      p.ReadsDefault m first specifier → p.ReadsDefault n second specifier →
      ((first.isKeyword = true → (required specifier).marked = false →
          p.evaluate required (first.reading m) = some (required specifier).self) ∧
        (p.evaluate required (first.reading m) = p.evaluate required (second.reading n) ↔
          first.isKeyword = second.isKeyword ∨ (required specifier).marked = true ∨
            (required specifier).property "default" = some (required specifier).self)) := by
  refine ⟨Analysis.body_of_accepted parsed accepted, fun links => ?_,
    fun n read specifier reads => ?_, ?_⟩
  · exact ⟨p.prologueLines, Program.written_prologueLines links,
      Program.opensWith_of_accepted parsed accepted links⟩
  · exact ⟨reads.records parsed, reads.writes, reads.hold_mem_requires⟩
  · intro Value required specifier m n first second here there
    rw [here.evaluate_eq parsed required, there.evaluate_eq parsed required]
    refine ⟨fun keyword unmarked => ?_, ?_⟩
    · simp [keyword, Required.held, unmarked]
    -- kinds that differ compare the holder with the property
    · have mixed := (required specifier).held_eq_property_iff
      cases first.isKeyword <;> cases second.isKeyword
      · simp
      · simpa using eq_comm.trans mixed
      · simpa using mixed
      · simp

def manyDefaults : List Char :=
  ("import d, \x7b 'default' as e \x7d from './b';\nimport \x7b default as f \x7d from './b';\n" ++
    "export \x7b default \x7d from './b';\nexport \x7b default as n \x7d from './b';\n" ++
    "export \x7b d as m \x7d;\ne(d, f);").toList

def unmarked : Required Nat := ⟨1, false, fun name => if name = "default" then some 2 else none⟩

theorem manyDefaults_read :
    ∃ p analysis, Program.parse? .module manyDefaults = some p ∧
      Analysis.ofText .module manyDefaults = .ok analysis ∧
      (p.ReadsDefault 0 (.keyword "d") "./b" ∧ p.ReadsDefault 0 (.listed "e") "./b" ∧
        p.ReadsDefault 1 (.listed "f") "./b" ∧ p.ReadsDefault 2 (.again "default") "./b" ∧
        p.ReadsDefault 3 (.again "n") "./b") ∧
      .hold 0 ∈ p.linkage.requires ∧ ("m", "__import0_default__.default") ∈ p.getters ∧
      p.evaluate (fun _ => unmarked) (.defaultExport 0) = some 1 ∧
      p.evaluate (fun _ => { unmarked with marked := true }) (.defaultExport 0) =
        p.evaluate (fun _ => { unmarked with marked := true }) (.member 3 "default") := by
  have known : ∃ p ∈ Program.parse? .module manyDefaults, Statement.anyAwaits p.body = false ∧
      p.ReadsDefault 0 (.keyword "d") "./b" ∧ p.ReadsDefault 0 (.listed "e") "./b" ∧
      p.ReadsDefault 1 (.listed "f") "./b" ∧ p.ReadsDefault 2 (.again "default") "./b" ∧
      p.ReadsDefault 3 (.again "n") "./b" ∧ ("m", "__import0_default__.default") ∈ p.getters := by
    decide +kernel
  obtain ⟨p, parsed, awaits, d, e, f, default, n, again⟩ := known
  have accepted := Analysis.accepted_of_parsed parsed awaits
  obtain ⟨_, _, writes, agree⟩ := default_reads_agree_iff parsed accepted
  refine ⟨p, _, parsed, accepted, ⟨d, e, f, default, n⟩, ?_, again, ?_, ?_⟩
  · exact (writes _ _ _ d).2.2 rfl
  · exact (agree Nat (fun _ => unmarked) _ _ _ _ _ d n).1 rfl rfl
  · exact (agree Nat _ _ _ _ _ _ d n).2.mpr (.inr (.inl rfl))

def bothSpellings : List Char :=
  "import d, \x7b default as e \x7d from './b';\n[d, e];".toList

/-- The two imports are written as reads of different objects, and give different values of a
module without a mark: its own value for the one, and its property for the other. -/
theorem bothSpellings_differ :
    ∃ p analysis, Program.parse? .module bothSpellings = some p ∧
      Analysis.ofText .module bothSpellings = .ok analysis ∧
      p.ReadsDefault 0 (.keyword "d") "./b" ∧ p.ReadsDefault 0 (.listed "e") "./b" ∧
      p.linkage.readings "d" = some (.defaultExport 0) ∧
      p.linkage.readings "e" = some (.member 0 "default") ∧
      ⟨⟨40, 41⟩, "__import0_default__.default"⟩ ∈ p.edits ∧
      ⟨⟨43, 44⟩, "__import0__.default"⟩ ∈ p.edits ∧
      p.evaluate (fun _ => unmarked) (.defaultExport 0) = some unmarked.self ∧
      p.evaluate (fun _ => unmarked) (.member 0 "default") ≠ some unmarked.self := by
  have known : ∃ p ∈ Program.parse? .module bothSpellings, Statement.anyAwaits p.body = false ∧
      p.ReadsDefault 0 (.keyword "d") "./b" ∧ p.ReadsDefault 0 (.listed "e") "./b" ∧
      p.linkage.readings "d" = some (.defaultExport 0) ∧
      p.linkage.readings "e" = some (.member 0 "default") ∧
      ⟨⟨40, 41⟩, "__import0_default__.default"⟩ ∈ p.edits ∧
      ⟨⟨43, 44⟩, "__import0__.default"⟩ ∈ p.edits ∧
      p.evaluate (fun _ => unmarked) (.defaultExport 0) = some unmarked.self ∧
      p.evaluate (fun _ => unmarked) (.member 0 "default") ≠ some unmarked.self := by
    decide +kernel
  obtain ⟨p, parsed, awaits, shown⟩ := known
  exact ⟨p, _, parsed, Analysis.accepted_of_parsed parsed awaits, shown⟩

end Script

end ModuleBundle
