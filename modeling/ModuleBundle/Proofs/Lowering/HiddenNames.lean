import Mathlib.Data.List.Nodup
import ModuleBundle.Proofs.Lowering.Records
import ModuleBundle.Proofs.Script.Answers
import ModuleBundle.Proofs.Text.Quoted

/-!
The names that the lowering introduces: one for each record, one for each holder of a default
export, and one for a default export without a name of its own. They differ from each other and
from the parameters of the function around a body, a module declares each at most once, and all
that is read of a record or a holder is declared.
-/

set_option autoImplicit false

namespace ModuleBundle

open Script

inductive HiddenName where
  | record (n : Nat)
  | holder (n : Nat)
  | default
  deriving DecidableEq, Repr

def wrapperParameters : List String := ["require", "module", "exports"]

namespace HiddenName

def text : HiddenName → String
  | record n => recordName n
  | holder n => holderName n
  | default => defaultName

theorem toList_recordName (n : Nat) :
    (recordName n).toList = "__import".toList ++ ((toString n).toList ++ "__".toList) := by
  unfold recordName
  simp only [String.toList_append, List.append_assoc]
  rfl

theorem toList_holderName (n : Nat) :
    (holderName n).toList = "__import".toList ++ ((toString n).toList ++ "_default__".toList) := by
  unfold holderName
  simp only [String.toList_append, List.append_assoc]
  rfl

theorem text_inj {a b : HiddenName} (same : a.text = b.text) : a = b := by
  have lists := congrArg String.toList same
  -- what follows a number starts with no digit, so that the numbers end together
  have afterRecord : ∀ c ∈ "__".toList.head?, ¬ c.isDigit = true := by
    rintro _ ⟨⟩
    decide
  have afterHolder : ∀ c ∈ "_default__".toList.head?, ¬ c.isDigit = true := by
    rintro _ ⟨⟩
    decide
  cases a with
  | record m =>
    cases b with
    | record n =>
      rw [text, text, toList_recordName, toList_recordName] at lists
      rw [(toString_append_inj afterRecord afterRecord (List.append_cancel_left lists)).1]
    | holder n =>
      rw [text, text, toList_recordName, toList_holderName] at lists
      cases (toString_append_inj afterRecord afterHolder (List.append_cancel_left lists)).2
    | default =>
      rw [text, text, toList_recordName] at lists
      cases lists
  | holder m =>
    cases b with
    | record n =>
      rw [text, text, toList_recordName, toList_holderName] at lists
      cases (toString_append_inj afterHolder afterRecord (List.append_cancel_left lists)).2
    | holder n =>
      rw [text, text, toList_holderName, toList_holderName] at lists
      rw [(toString_append_inj afterHolder afterHolder (List.append_cancel_left lists)).1]
    | default =>
      rw [text, text, toList_holderName] at lists
      cases lists
  | default =>
    cases b with
    | record n =>
      rw [text, text, toList_recordName] at lists
      cases lists
    | holder n =>
      rw [text, text, toList_holderName] at lists
      cases lists
    | default => rfl

theorem text_not_mem_wrapperParameters (name : HiddenName) : name.text ∉ wrapperParameters := by
  have first : name.text.toList.head? = some '_' := by
    cases name with
    | record n => rw [text, toList_recordName]; rfl
    | holder n => rw [text, toList_holderName]; rfl
    | default => rfl
  intro listed
  have others : ∀ parameter ∈ wrapperParameters, parameter.toList.head? ≠ some '_' := by decide
  exact others name.text listed first

end HiddenName

/-! Reading and declaring. -/

def Reading.object : Reading → HiddenName
  | whole record => .record record
  | member record _ => .record record
  | defaultExport record => .holder record

theorem Reading.text_eq_object_append (reading : Reading) :
    ∃ rest, reading.text = reading.object.text ++ rest := by
  cases reading with
  | whole record => exact ⟨"", (String.append_empty).symm⟩
  | member record name =>
    change ∃ rest, memberText (recordName record) name = recordName record ++ rest
    unfold memberText
    split
    · exact ⟨"." ++ name, String.append_assoc⟩
    · exact ⟨"[" ++ (quoted name ++ "]"), by simp only [String.append_assoc]⟩
  | defaultExport record => exact ⟨".default", rfl⟩

def RequireLine.declared? : RequireLine → Option HiddenName
  | run _ => none
  | bind record _ => some (.record record)
  | hold record => some (.holder record)
  | copy _ => none

theorem RequireLine.text_of_declared {line : RequireLine} {name : HiddenName}
    (declared : line.declared? = some name) :
    ∃ rest, line.text.toList =
      "var ".toList ++ (name.text.toList ++ (" = ".toList ++ rest)) := by
  cases line with
  | run | copy => cases declared
  | bind record specifier =>
    cases declared
    refine ⟨("require(" ++ quoted specifier ++ ");").toList, ?_⟩
    have joined : " = require(" = " = " ++ "require(" := rfl
    change ("var " ++ recordName record ++ " = require(" ++ quoted specifier ++ ");").toList = _
    simp only [HiddenName.text, joined, String.toList_append, List.append_assoc]
  | hold record =>
    cases declared
    refine ⟨(recordName record ++ " && " ++ recordName record ++ ".__esModule ? " ++
      recordName record ++ " : \x7b default: " ++ recordName record ++ " \x7d;").toList, ?_⟩
    change ("var " ++ holderName record ++ " = " ++ recordName record ++ " && " ++
      recordName record ++ ".__esModule ? " ++ recordName record ++ " : \x7b default: " ++
      recordName record ++ " \x7d;").toList = _
    simp only [HiddenName.text, String.toList_append, List.append_assoc]

namespace Script

namespace Statement

/-- Whether a statement exports a default value that has no name of its own. -/
def holdsDefault : Statement → Bool
  | .exportDefault _ (.function (.mk _ none _ _ _ _ _)) => true
  | .exportDefault _ (.classNode (.mk _ none _ _ _)) => true
  | .exportDefault _ (.expression _ _) => true
  | _ => false

def hiddenNames (n : Nat) (statement : Statement) : List HiddenName :=
  (statement.linkage n).requires.filterMap RequireLine.declared? ++
    if statement.holdsDefault then [.default] else []

end Statement

def Program.hiddenNames (p : Program) : List HiddenName :=
  p.numbered.flatMap fun entry => entry.2.hiddenNames entry.1

/-! Each is declared once. -/

namespace Statement

def defaultImports : Statement → Nat
  | .importDeclaration d => (d.specifiers.getD []).countP ImportSpecifier.isDefault
  | _ => 0

theorem defaultImports_le_one {statement : Statement} (once : statement.NamesDefaultOnce) :
    statement.defaultImports ≤ 1 := by
  cases statement with
  | importDeclaration d =>
    obtain ⟨span, specifiers, source⟩ := d
    cases specifiers with
    | none => exact Nat.zero_le 1
    | some list => exact once list rfl
  | _ => exact Nat.zero_le 1

theorem requiresOf_eq (n : Nat) (specifiers : List ImportSpecifier) :
    specifiers.flatMap (ImportSpecifier.requiresOf n) =
      List.replicate (specifiers.countP ImportSpecifier.isDefault) (.hold n) := by
  induction specifiers with
  | nil => rfl
  | cons first rest ih =>
    rw [List.flatMap_cons, ih]
    cases first with
    | default name =>
      rw [List.countP_cons_of_pos rfl, List.replicate_succ]
      rfl
    | whole name => rw [List.countP_cons_of_neg Bool.false_ne_true]; rfl
    | named imported name => rw [List.countP_cons_of_neg Bool.false_ne_true]; rfl

theorem declared_holders (n : Nat) (specifiers : List ImportSpecifier) :
    (specifiers.flatMap (ImportSpecifier.requiresOf n)).filterMap RequireLine.declared? =
      List.replicate (specifiers.countP ImportSpecifier.isDefault) (.holder n) := by
  have holds : (RequireLine.hold n).declared? = some (.holder n) := rfl
  rw [requiresOf_eq, List.filterMap_replicate_of_some holds]

theorem declared_requires (n : Nat) (statement : Statement) :
    (statement.linkage n).requires.filterMap RequireLine.declared? =
      if statement.bindsRecord then
        .record n :: List.replicate statement.defaultImports (.holder n)
      else [] := by
  cases statement with
  | importDeclaration d =>
    obtain ⟨span, specifiers, source⟩ := d
    cases specifiers with
    | none => rfl
    | some list => exact congrArg (HiddenName.record n :: ·) (declared_holders n list)
  | exportList span specifiers source => cases source <;> rfl
  | exportAll span name source => cases name <;> rfl
  | exportDefault span inner =>
    rw [linkage_exportDefault, (defaultLinkage_plain span inner).1]
    rfl
  | _ => rfl

variable {n : Nat} {statement : Statement} {name : HiddenName}

theorem mem_hiddenNames (listed : name ∈ statement.hiddenNames n) :
    (statement.bindsRecord = true ∧ (name = .record n ∨ name = .holder n)) ∨
      (statement.holdsDefault = true ∧ name = .default) := by
  rw [hiddenNames, declared_requires, List.mem_append] at listed
  rcases listed with inLines | isDefault
  · split at inLines
    · next binds =>
      refine .inl ⟨binds, (List.mem_cons.mp inLines).imp id fun inHolders => ?_⟩
      exact List.eq_of_mem_replicate inHolders
    · cases inLines
  · split at isDefault
    · next holds => exact .inr ⟨holds, List.mem_singleton.mp isDefault⟩
    · cases isDefault

theorem record_mem_hiddenNames (binds : statement.bindsRecord = true) :
    .record n ∈ statement.hiddenNames n := by
  rw [hiddenNames, declared_requires, if_pos binds]
  exact List.mem_append_left _ List.mem_cons_self

theorem holder_mem_hiddenNames (binds : statement.bindsRecord = true)
    (some : 0 < statement.defaultImports) : .holder n ∈ statement.hiddenNames n := by
  rw [hiddenNames, declared_requires, if_pos binds]
  refine List.mem_append_left _ (List.mem_cons_of_mem _ ?_)
  exact List.mem_replicate.mpr ⟨Nat.ne_of_gt some, rfl⟩

theorem object_mem_hiddenNames {imported : String × Reading}
    (listed : imported ∈ (statement.linkage n).imports) :
    imported.2.object ∈ statement.hiddenNames n := by
  cases statement with
  | importDeclaration d =>
    obtain ⟨span, specifiers, source⟩ := d
    cases specifiers with
    | none => cases listed
    | some list =>
      obtain ⟨specifier, member, rfl⟩ := List.mem_map.mp listed
      cases specifier with
      | default name =>
        exact holder_mem_hiddenNames rfl (List.countP_pos_iff.mpr ⟨_, member, rfl⟩)
      | whole name => exact record_mem_hiddenNames rfl
      | named original name => exact record_mem_hiddenNames rfl
  | exportList span specifiers source => cases source <;> cases listed
  | exportAll span name source => cases name <;> cases listed
  | exportDefault span inner =>
    rw [linkage_exportDefault, (defaultLinkage_plain span inner).2.1] at listed
    cases listed
  | _ => cases listed

theorem hiddenNames_nodup (once : statement.NamesDefaultOnce) (n : Nat) :
    (statement.hiddenNames n).Nodup := by
  rw [hiddenNames, declared_requires]
  -- at most one name of each kind
  rcases Nat.le_one_iff_eq_zero_or_eq_one.mp (defaultImports_le_one once) with none | one
  · rw [none]
    split <;> split <;> simp
  · rw [one]
    split <;> split <;> simp

theorem default_mem_exportedNames (holds : statement.holdsDefault = true) :
    "default" ∈ statement.exportedNames := by
  cases statement with
  | exportDefault span inner => exact List.mem_singleton_self _
  | _ => cases holds

end Statement

namespace Program

variable {p : Program}

theorem hiddenNames_nodup {goal : Goal} {text : List Char} (parsed : parse? goal text = some p) :
    p.hiddenNames.Nodup := by
  obtain ⟨exported, once⟩ := checked_of_parsed parsed
  have apart : p.numbered.Pairwise fun first second =>
      List.Disjoint first.2.exportedNames second.2.exportedNames := by
    have pairwise := (List.nodup_flatMap.mp exported).2
    rw [← Statement.map_snd_numbered 0 p.body, List.pairwise_map] at pairwise
    exact pairwise
  refine List.nodup_flatMap.mpr ⟨fun entry listed => ?_, ?_⟩
  · exact Statement.hiddenNames_nodup (once _ (Statement.mem_of_mem_numbered listed)) _
  · refine ((Statement.numbered_pairwise 0 p.body).and apart).imp ?_
    intro first second ⟨lower, apart⟩ name inFirst inSecond
    -- a name that both declare has the number of both records, or both export a default
    rcases Statement.mem_hiddenNames inFirst with ⟨binds, same⟩ | ⟨holds, rfl⟩
    · have := lower binds
      rcases Statement.mem_hiddenNames inSecond with ⟨_, other⟩ | ⟨_, rfl⟩
      · have numbers : first.1 = second.1 := by
          rcases same with rfl | rfl <;> simp at other <;> exact other
        omega
      · rcases same with same | same <;> cases same
    · rcases Statement.mem_hiddenNames inSecond with ⟨_, other⟩ | ⟨alsoHolds, _⟩
      · rcases other with other | other <;> cases other
      · exact apart (Statement.default_mem_exportedNames holds)
          (Statement.default_mem_exportedNames alsoHolds)

theorem mem_of_readingsOf {imports : List (String × Reading)} {name : String} {reading : Reading}
    (found : Linkage.readingsOf imports name = some reading) : (name, reading) ∈ imports := by
  induction imports with
  | nil => cases found
  | cons first rest ih =>
    obtain ⟨own, value⟩ := first
    unfold Linkage.readingsOf at found
    split at found
    next later inRest =>
      cases found
      exact List.mem_cons_of_mem _ (ih inRest)
    next =>
      split at found
      next same =>
        cases found
        cases same
        exact List.mem_cons_self
      next => cases found

theorem mem_hiddenNames_of_numbered {n : Nat} {statement : Statement} {name : HiddenName}
    (numbered : (n, statement) ∈ p.numbered) (declared : name ∈ statement.hiddenNames n) :
    name ∈ p.hiddenNames :=
  List.mem_flatMap.mpr ⟨_, numbered, declared⟩

theorem object_mem_hiddenNames {name : String} {reading : Reading}
    (imported : p.linkage.readings name = some reading) : reading.object ∈ p.hiddenNames := by
  have listed := mem_of_readingsOf imported
  rw [linkage_imports] at listed
  obtain ⟨⟨n, statement⟩, numbered, inStatement⟩ := List.mem_flatMap.mp listed
  exact mem_hiddenNames_of_numbered numbered (Statement.object_mem_hiddenNames inStatement)

end Program

end Script

end ModuleBundle
