import Mathlib.Data.List.Nodup
import ModuleBundle.Proofs.Lowering.Exports

/-!
The properties of `exports` that a prologue defines. It defines the mark of a module and one
property for each export, and what is defined so can not be defined again: the attempt throws.
Copies of another module's exports look first at what is there. So a prologue runs to its end
unless an export has the name of the mark, which nothing keeps an export from.
-/

set_option autoImplicit false

namespace ModuleBundle

open Script

def markName : String := "__esModule"

/-! Names in lines. -/

def definitionHead : List Char := "Object.defineProperty(exports, ".toList

def definedName? (line : String) : Option String :=
  if definitionHead <+: line.toList then
    (Quoted.read (line.toList.drop definitionHead.length)).map fun found => String.ofList found.1
  else none

theorem definedName?_eq_some {line name : String}
    (begins : definitionHead ++ (quoted name).toList <+: line.toList) :
    definedName? line = some name := by
  obtain ⟨rest, text⟩ := begins
  have string : Quoted.read ((quoted name).toList ++ rest) = some (name.toList, rest) := by
    rw [quoted, String.toList_ofList]
    exact Quoted.read_encode name.toList rest
  simp [definedName?, ← text, string]

theorem definedName?_export (readings : Readings) (e : Export) :
    definedName? (e.text readings) = some e.exported := by
  apply definedName?_eq_some
  unfold Export.text definitionHead
  simp only [String.toList_append, List.append_assoc]
  exact (List.prefix_append_right_inj _).mpr (List.prefix_append _ _)

theorem RequireLine.exists_start (line : RequireLine) :
    ∃ start ∈ ["require(", "var ", "Object.keys("], start.toList <+: line.text.toList := by
  have begins (start rest : String) : start.toList <+: (start ++ rest).toList := by
    rw [String.toList_append]
    exact List.prefix_append _ _
  cases line with
  | run specifier =>
    refine ⟨"require(", by decide, ?_⟩
    change _ <+: ("require(" ++ quoted specifier ++ ");").toList
    rw [String.append_assoc]
    exact begins _ _
  | bind record specifier =>
    refine ⟨"var ", by decide, ?_⟩
    change _ <+: ("var " ++ recordName record ++ " = require(" ++ quoted specifier ++ ");").toList
    simp only [String.append_assoc]
    exact begins _ _
  | hold record =>
    refine ⟨"var ", by decide, ?_⟩
    change _ <+: ("var " ++ holderName record ++ " = " ++ recordName record ++ " && " ++
      recordName record ++ ".__esModule ? " ++ recordName record ++ " : \x7b default: " ++
      recordName record ++ " \x7d;").toList
    simp only [String.append_assoc]
    exact begins _ _
  | copy record =>
    refine ⟨"Object.keys(", by decide, ?_⟩
    change _ <+: ("Object.keys(" ++ recordName record ++ ").forEach(function (k) \x7b " ++
      "if (k !== \"default\" && k !== \"__esModule\" && " ++
      "!Object.prototype.hasOwnProperty.call(exports, k)) " ++
      "Object.defineProperty(exports, k, \x7b enumerable: true, " ++
      "get: function () \x7b return " ++ recordName record ++ "[k]; \x7d \x7d); \x7d);").toList
    simp only [String.append_assoc]
    exact begins _ _

theorem definedName?_require (line : RequireLine) : definedName? line.text = none := by
  obtain ⟨start, known, begins⟩ := line.exists_start
  have others : ∀ start ∈ ["require(", "var ", "Object.keys("],
      ¬ start.toList <+: definitionHead ∧ start.toList.length ≤ definitionHead.length := by
    decide +kernel
  obtain ⟨other, shorter⟩ := others start known
  apply if_neg
  intro defines
  exact other (List.prefix_of_prefix_length_le begins defines shorter)

theorem definedName?_opening : Prologue.opening.filterMap definedName? = [markName] := by
  decide +kernel

/-! Running lines. -/

/-- What a line of a prologue does to the properties of `exports`: it defines one, or it copies
names that another module exports. -/
inductive Definition where
  | own (name : String)
  | copied (names : List String)
  deriving DecidableEq, Repr

namespace Definition

def copy (present : List String) (name : String) : List String :=
  if name = "default" ∨ name = markName ∨ name ∈ present then present else name :: present

/-- The properties that are there after a line, or nothing where it throws: what is there can not
be defined once more. -/
def run (present : List String) : Definition → Option (List String)
  | own name => if name ∈ present then none else some (name :: present)
  | copied names => some (names.foldl copy present)

def ofLine (keys : Nat → List String) : RequireLine → Option Definition
  | .copy record => some (.copied (keys record))
  | _ => none

theorem run_copies (keys : Nat → List String) (lines : List RequireLine) (present : List String) :
    ((lines.filterMap (ofLine keys)).foldlM run present).isSome = true := by
  induction lines generalizing present with
  | nil => rfl
  | cons line rest ih =>
    cases line with
    | copy record => exact ih ((keys record).foldl copy present)
    | _ => exact ih present

theorem run_isSome_iff (keys : Nat → List String) (lines : List RequireLine)
    (names present : List String) :
    ((names.map own ++ lines.filterMap (ofLine keys)).foldlM run present).isSome = true ↔
      names.Nodup ∧ ∀ name ∈ names, name ∉ present := by
  -- by induction on the names, for whatever is there when the first of them is defined
  induction names generalizing present with
  | nil => simp [run_copies]
  | cons first rest ih =>
    by_cases there : first ∈ present
    · simp [run, there]
    · simp only [List.map_cons, List.cons_append, List.foldlM_cons, run, there, ↓reduceIte,
        Option.bind_eq_bind, Option.bind_some, ih, List.mem_cons, not_or, List.nodup_cons]
      grind

end Definition

namespace Script.Program

variable {p : Program}

/-- The names of the properties that the lines of a prologue define. -/
def definedNames (p : Program) : List String :=
  (if p.isModule then [markName] else []) ++ p.getters.map Prod.fst

/-- Runs the lines of a prologue on an object without properties, given the names that each record
exports. -/
def runPrologue (p : Program) (keys : Nat → List String) : Option (List String) :=
  (p.definedNames.map Definition.own ++
    p.linkage.requires.filterMap (Definition.ofLine keys)).foldlM Definition.run []

theorem definedNames_of_lines (p : Program) :
    p.prologueLines.filterMap definedName? = p.definedNames := by
  have exports : (p.linkage.exports.map (Export.text p.linkage.readings)).filterMap definedName? =
      p.getters.map Prod.fst := by
    simp [getters, List.filterMap_map, Function.comp_def, definedName?_export]
  have requires : (p.linkage.requires.map RequireLine.text).filterMap definedName? = [] := by
    simp [List.filterMap_map, definedName?_require]
  rw [prologueLines, Prologue.lines, List.filterMap_append, List.filterMap_append, exports, requires,
    List.append_nil, definedNames]
  split
  · rw [definedName?_opening]
  · rfl

theorem definedNames_nodup_iff {goal : Goal} {text : List Char}
    (parsed : parse? goal text = some p) :
    p.definedNames.Nodup ↔ ∀ entry, ¬ p.Exports markName entry := by
  have apart := getters_names_nodup parsed
  have marked : markName ∈ p.getters.map Prod.fst ↔ ∃ entry, p.Exports markName entry :=
    mem_getters_names
  cases links : p.isModule with
  | true =>
    rw [definedNames, if_pos links, List.singleton_append, List.nodup_cons, marked]
    simp [apart]
  | false =>
    -- without imports and exports there is no getter
    have none : p.getters = [] := by
      rw [getters, linkage_of_not_isModule links]
      rfl
    rw [none] at marked
    simp only [List.map_nil, List.not_mem_nil, false_iff, not_exists] at marked
    simp [definedNames, links, none, marked]

end Script.Program

namespace Script

/-- The lines of the prologue of an accepted text define the mark of a module and the names that
the text exports. They define no name twice, and run to their end whatever the other modules
export, exactly if the text exports nothing under the name of the mark. -/
theorem definitions_distinct_iff {goal : Goal} {text : List Char} {p : Program}
    {analysis : Analysis} (parsed : Program.parse? goal text = some p)
    (accepted : Analysis.ofText goal text = .ok analysis) :
    analysis.body = String.ofList (Edit.apply p.edits text) ∧
    (p.isModule = true → Prologue.Written p.getters p.linkage.requires p.prologueLines ∧
      p.OpensWith text p.prologueLines analysis.body) ∧
    p.prologueLines.filterMap definedName? = p.definedNames ∧
    (p.definedNames.Nodup ↔ ∀ entry, ¬ p.Exports markName entry) ∧
    ∀ keys, (p.runPrologue keys).isSome = true ↔ ∀ entry, ¬ p.Exports markName entry := by
  have distinct := Program.definedNames_nodup_iff parsed
  refine ⟨Analysis.body_of_accepted parsed accepted, fun links => ?_, p.definedNames_of_lines,
    distinct, fun keys => ?_⟩
  · exact ⟨Program.written_prologueLines links,
      Program.opensWith_of_accepted parsed accepted links⟩
  · rw [← distinct, Program.runPrologue, Definition.run_isSome_iff]
    simp

def copiedTwice : List Char :=
  ("export const a = 1, [b] = c;\nexport * from './d';\nexport \x7b a as 'e f' \x7d;\n" ++
    "export * from './g';\nexport \x7b h as default \x7d from './i';").toList

theorem copiedTwice_distinct :
    ∃ p analysis, Program.parse? .module copiedTwice = some p ∧
      Analysis.ofText .module copiedTwice = .ok analysis ∧ p.isModule = true ∧
      p.definedNames = [markName, "a", "b", "e f", "default"] ∧ p.definedNames.Nodup ∧
      (∀ keys, (p.runPrologue keys).isSome = true) ∧
      p.runPrologue (fun _ => ["a", "j", "default", markName]) =
        some ["j", "default", "e f", "b", "a", markName] := by
  have known : ∃ p ∈ Program.parse? .module copiedTwice, Statement.anyAwaits p.body = false ∧
      p.isModule = true ∧ p.definedNames = [markName, "a", "b", "e f", "default"] ∧
      p.runPrologue (fun _ => ["a", "j", "default", markName]) =
        some ["j", "default", "e f", "b", "a", markName] := by
    decide +kernel
  obtain ⟨p, parsed, awaits, links, names, runs⟩ := known
  have accepted := Analysis.accepted_of_parsed parsed awaits
  obtain ⟨_, _, _, distinct, ends⟩ := definitions_distinct_iff parsed accepted
  have apart : p.definedNames.Nodup := by
    rw [names]
    decide
  exact ⟨p, _, parsed, accepted, links, names, apart,
    fun keys => (ends keys).mpr (distinct.mp apart), runs⟩

def exportedMark : List Char := "const x = 1;\nexport \x7b x as __esModule \x7d;".toList

/-- The text is accepted, and its prologue defines the mark twice: the module that it becomes
throws whenever it is required. -/
theorem exportedMark_defined_twice :
    ∃ p analysis, Program.parse? .module exportedMark = some p ∧
      Analysis.ofText .module exportedMark = .ok analysis ∧
      p.prologueLines.filterMap definedName? = [markName, markName] ∧
      ¬ (p.prologueLines.filterMap definedName?).Nodup ∧ ∀ keys, p.runPrologue keys = none := by
  have known : ∃ p ∈ Program.parse? .module exportedMark, Statement.anyAwaits p.body = false ∧
      p.definedNames = [markName, markName] := by
    decide +kernel
  obtain ⟨p, parsed, awaits, names⟩ := known
  have lines := p.definedNames_of_lines.trans names
  refine ⟨p, _, parsed, Analysis.accepted_of_parsed parsed awaits, lines, ?_, fun keys => ?_⟩
  · rw [lines]
    decide
  · have stops := (Definition.run_isSome_iff keys p.linkage.requires p.definedNames []).not
    rw [names] at stops
    rw [Program.runPrologue, names]
    simpa using stops

end Script

end ModuleBundle
