import ModuleBundle.Proofs.Emission.Table
import ModuleBundle.Proofs.Graph.Closure
import ModuleBundle.Proofs.Script.ObjectLiteral

/-!
Mappings at run time. The row of a module gives its mapping as an object literal, and the own
properties of the object are what the module's `require` looks names up in. They are the entries
of the mapping, but for one name that a literal cannot define a property for.
-/

set_option autoImplicit false

namespace ModuleBundle

open Script (Key OwnProperties ObjectLiteral.evaluate?)

def Mapping.table (mapping : Mapping) : OwnProperties := fun name =>
  if name.hasHalf then none else mapping.lookup name.text

def Mapping.literalTable (mapping : Mapping) : OwnProperties := fun name =>
  if name = .proto then none else mapping.table name

theorem Mapping.table_cons (entry : String × Nat) (others : Mapping) (name : Key) :
    Mapping.table (entry :: others) name =
      if name = .of entry.1 then some entry.2 else others.table name := by
  obtain ⟨text, hasHalf⟩ := name
  cases hasHalf with
  | true => simp [Mapping.table, Key.of]
  | false => simp [Mapping.table, Key.of, lookup_cons_ite]

theorem Mapping.table_eq_some_iff {mapping : Mapping} (once : (mapping.map Prod.fst).Nodup)
    (name : Key) (id : Nat) :
    mapping.table name = some id ↔ ∃ specifier, name = .of specifier ∧ (specifier, id) ∈ mapping := by
  obtain ⟨text, hasHalf⟩ := name
  cases hasHalf with
  | true => simp [Mapping.table, Key.of]
  | false => simp [Mapping.table, Key.of, lookup_eq_some_iff_mem once]

namespace Emission

variable {mapping : Mapping} {a : Asset}

def literalText (mapping : Mapping) : String := "\x7b" ++ mappingText mapping ++ "\x7d"

def rowFront (a : Asset) : String :=
  "// " ++ toString a.id ++ ": " ++ oneLine (label a) ++ "\n" ++
    toString a.id ++ ": [function (require, module, exports) \x7b\n" ++ a.body ++ "\n\x7d, "

/-- What the `require` of a module does with a name: it goes on with the number of another
module, or throws. -/
def localRequire (own : OwnProperties) (name : Key) : Except String Nat :=
  match own name with
  | some id => .ok id
  | none => .error ("Cannot find module '" ++ name.text ++ "'")

/-! The literal. -/

theorem row_eq_literalText (a : Asset) : row a = rowFront a ++ literalText a.mapping ++ "],\n" := by
  have opening : "\n\x7d, \x7b" = "\n\x7d, " ++ "\x7b" := rfl
  have closing : "\x7d],\n" = "\x7d" ++ "],\n" := rfl
  simp only [row, rowFront, literalText, opening, closing, String.append_assoc]

def definition (entry : String × Nat) : Key × Nat := (Key.of entry.1, entry.2)

open Script.ObjectLiteral

theorem definitions?_mappingText (mapping : Mapping) {limit : Nat} (enough : mapping.length < limit)
    (rest : List Char) :
    definitions? limit ((mappingText mapping).toList ++ '}' :: rest) =
      some (mapping.map definition, rest) := by
  induction mapping generalizing limit with
  | nil =>
    cases limit with
    | zero => omega
    | succ limit => rfl
  | cons entry others ih =>
    cases limit with
    | zero => omega
    | succ limit =>
      rw [toList_mappingText_cons]
      simp only [List.append_assoc, List.cons_append]
      -- the number ends at the closing brace, or at the comma in front of the next entry
      cases others with
      | nil => exact definitions?_last (definition?_quoted _ _ ⟨_, _, rfl, .inr rfl⟩)
      | cons next others =>
        refine definitions?_next (definition?_quoted _ _ ⟨_, _, rfl, .inl rfl⟩) (ih ?_)
        exact Nat.lt_of_succ_lt_succ enough

theorem length_le_mappingText (mapping : Mapping) :
    mapping.length ≤ (mappingText mapping).toList.length := by
  induction mapping with
  | nil => exact Nat.zero_le _
  | cons entry others ih =>
    rw [toList_mappingText_cons]
    cases others with
    | nil =>
      simp only [List.length_append, List.length_cons, List.length_nil]
      omega
    | cons next others =>
      simp only [List.length_append, List.length_cons, laterEntries] at ih ⊢
      omega

theorem keys_definition (mapping : Mapping) :
    (mapping.map definition).map Prod.fst = (mapping.map Prod.fst).map Key.of := by
  simp [definition]

theorem nodup_keys (once : (mapping.map Prod.fst).Nodup) :
    ((mapping.map definition).map Prod.fst).Nodup := by
  rw [keys_definition]
  exact once.map fun _ _ => Key.of_inj.mp

theorem read?_literalText (once : (mapping.map Prod.fst).Nodup) (rest : List Char) :
    read? ((literalText mapping).toList ++ rest) = some (mapping.map definition, rest) := by
  have text : (literalText mapping).toList ++ rest =
      '{' :: ((mappingText mapping).toList ++ '}' :: rest) := by
    have opening : "\x7b".toList = ['{'] := rfl
    have closing : "\x7d".toList = ['}'] := rfl
    simp only [literalText, String.toList_append, opening, closing, List.append_assoc,
      List.cons_append, List.nil_append]
  have opens : mark? .openBrace ('{' :: ((mappingText mapping).toList ++ '}' :: rest)) =
      some ((mappingText mapping).toList ++ '}' :: rest) := rfl
  have enough : mapping.length < ((mappingText mapping).toList ++ '}' :: rest).length := by
    have bound := length_le_mappingText mapping
    simp only [List.length_append, List.length_cons]
    omega
  have single := List.nodup_iff_count_le_one.mp (nodup_keys once) .proto
  simp only [read?, text, opens, definitions?_mappingText mapping enough, single, if_true,
    Option.bind_eq_bind, Option.bind_some, Option.pure_def]

theorem lookup_definition (mapping : Mapping) (name : Key) :
    (mapping.map definition).lookup name = mapping.table name := by
  induction mapping with
  | nil => simp [Mapping.table]
  | cons entry others ih =>
    rw [List.map_cons, definition, lookup_cons_ite, ih, Mapping.table_cons]

theorem evaluate?_literalText (once : (mapping.map Prod.fst).Nodup) (rest : List Char) :
    evaluate? ((literalText mapping).toList ++ rest) = some (mapping.literalTable, rest) := by
  have own : ownProperties (mapping.map definition) = mapping.literalTable := by
    funext name
    rw [ownProperties_apply (nodup_keys once), lookup_definition, Mapping.literalTable]
  rw [evaluate?, read?_literalText once, Option.map_some, own]

end Emission

namespace Workspace.Closed

variable {w : Workspace} {reference : Path} {assets : List Asset} {a : Asset}

theorem nodup_specifiers (closed : w.Closed reference assets) (member : a ∈ assets) :
    (a.mapping.map Prod.fst).Nodup :=
  (closed.linked a member).sorted.nodup

theorem exists_table_eq (closed : w.Closed reference assets) (member : a ∈ assets)
    {specifier : String} (listed : specifier ∈ a.specifiers) :
    ∃ b ∈ assets, (specifier, b.id) ∈ a.mapping ∧ a.mapping.table (.of specifier) = some b.id := by
  obtain ⟨b, there, mapped, _⟩ := closed.exists_of_specifier member listed
  refine ⟨b, there, mapped, ?_⟩
  exact (Mapping.table_eq_some_iff (closed.nodup_specifiers member) _ _).mpr ⟨specifier, rfl, mapped⟩

theorem table_eq_none (closed : w.Closed reference assets) (member : a ∈ assets) {name : Key}
    (unlisted : ∀ specifier ∈ a.specifiers, name ≠ .of specifier) : a.mapping.table name = none := by
  refine Option.eq_none_iff_forall_ne_some.mpr fun id found => ?_
  obtain ⟨specifier, same, mapped⟩ :=
    (Mapping.table_eq_some_iff (closed.nodup_specifiers member) name id).mp found
  exact unlisted specifier ((closed.mem_mapping_iff member specifier id).mp mapped).1 same

/-- What the literal leaves out of the mapping is the entry of the prototype's name, if there is
one. -/
theorem literalTable_eq_iff (closed : w.Closed reference assets) (member : a ∈ assets) :
    a.mapping.literalTable = a.mapping.table ↔ "__proto__" ∉ a.specifiers := by
  constructor
  · intro same listed
    obtain ⟨b, _, _, found⟩ := closed.exists_table_eq member listed
    have swallowed : a.mapping.table .proto = none := (congrFun same .proto).symm
    cases swallowed.symm.trans found
  · intro unlisted
    funext name
    unfold Mapping.literalTable
    split_ifs with proto
    · have absent : ∀ specifier ∈ a.specifiers, Key.proto ≠ .of specifier := by
        rintro specifier listed same
        obtain rfl := Key.of_inj.mp same
        exact unlisted listed
      rw [proto, closed.table_eq_none member absent]
    · rfl

end Workspace.Closed

namespace Graph

open Emission Script.ObjectLiteral

/-- What a script finds in the row of a module: a literal whose own properties are the entries of
the mapping, and which has no own property under the name of the prototype. -/
structure MappingRead (g : Graph) (a : Asset) (own : OwnProperties) : Prop where
  emitted : ∃ before after, g.emit = before ++ row a ++ after
  stands : ∃ front, row a = front ++ literalText a.mapping ++ "],\n"
  read : ∀ rest, evaluate? ((literalText a.mapping).toList ++ rest) = some (own, rest)
  proto : own .proto = none
  entries : ∀ name, name ≠ .proto → own name = a.mapping.table name
  found : ∀ specifier ∈ a.specifiers, specifier ≠ "__proto__" →
    ∃ b ∈ g.assets, (specifier, b.id) ∈ a.mapping ∧ localRequire own (.of specifier) = .ok b.id
  missing : ∀ name, (∀ specifier ∈ a.specifiers, name ≠ .of specifier) →
    localRequire own name = .error ("Cannot find module '" ++ name.text ++ "'")
  exact : own = a.mapping.table ↔ "__proto__" ∉ a.specifiers

variable {w : Workspace} {schedule : Schedule} {limit : Nat} {reference : Path} {g : Graph} {a : Asset}

theorem exists_emit_eq (member : a ∈ g.assets) : ∃ before after, g.emit = before ++ row a ++ after := by
  obtain ⟨front, back, split⟩ := List.mem_iff_append.mp member
  exact ⟨_, _, (congrArg text split).trans (text_append_cons front back a)⟩

/-- In a finished graph every module reads its own mapping, and the literal is the mapping exactly
where the module does not ask for the name of the prototype. -/
theorem mappingRead_of_finished
    (finished : (Build.run w schedule limit reference).outcome = .finished g) :
    ∀ a ∈ g.assets, ∃ own, g.MappingRead a own := by
  have closed := (Build.completes_of_finished finished).closed
  intro a member
  refine ⟨a.mapping.literalTable, ?_⟩
  exact {
    emitted := exists_emit_eq member
    stands := ⟨rowFront a, row_eq_literalText a⟩
    read := evaluate?_literalText (closed.nodup_specifiers member)
    proto := if_pos rfl
    entries := fun name other => if_neg other
    found := fun specifier listed other => by
      obtain ⟨b, there, mapped, found⟩ := closed.exists_table_eq member listed
      have different : Key.of specifier ≠ .proto := fun same => other (Key.of_inj.mp same)
      refine ⟨b, there, mapped, ?_⟩
      simp only [localRequire, Mapping.literalTable, if_neg different, found]
    missing := fun name unlisted => by
      simp only [localRequire, Mapping.literalTable, closed.table_eq_none member unlisted, ite_self]
    exact := closed.literalTable_eq_iff member }

theorem sampleGraph_mappingRead :
    (Build.run sample .inTurn 3 ⟨"/main"⟩).outcome = .finished sampleGraph ∧
      ∀ a ∈ sampleGraph.assets, ∃ own, sampleGraph.MappingRead a own :=
  ⟨sample_finished, mappingRead_of_finished sample_finished⟩

def protoFiles : MemoryFiles := .ofList [(⟨"/main.js"⟩, "require('__proto__')")] []

def protoGraph : Graph :=
  ⟨⟨0, ⟨"/main.js"⟩, .script ⟨["__proto__"], "require('__proto__')"⟩, [("__proto__", 1)]⟩,
    [⟨1, ⟨"__proto__"⟩, .placeholder (.unresolved ⟨⟨"__proto__"⟩, []⟩), []⟩]⟩

/-- The name of the prototype is a specifier like any other, and has a module in the graph; but the
literal that is written for the mapping gives it no property, so the module is not found. -/
theorem protoGraph_not_found :
    (Build.run ⟨protoFiles.fileSystem, .default, Analysis.analyzer, .lenient⟩ .inTurn 2
        ⟨"/main.js"⟩).outcome = .finished protoGraph ∧
      ∃ own, evaluate? (literalText protoGraph.entry.mapping).toList = some (own, []) ∧
        "__proto__" ∈ protoGraph.entry.specifiers ∧
        protoGraph.entry.mapping.table .proto = some 1 ∧ own .proto = none ∧
        localRequire own .proto = .error "Cannot find module '__proto__'" := by
  have finished : (Build.run ⟨protoFiles.fileSystem, .default, Analysis.analyzer, .lenient⟩ .inTurn 2
      ⟨"/main.js"⟩).outcome = .finished protoGraph := by
    decide +kernel
  have once : (protoGraph.entry.mapping.map Prod.fst).Nodup := by decide
  have read := evaluate?_literalText once []
  rw [List.append_nil] at read
  exact ⟨finished, _, read, List.mem_cons_self, rfl, rfl, rfl⟩

end Graph

end ModuleBundle
