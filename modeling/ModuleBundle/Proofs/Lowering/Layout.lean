import ModuleBundle.Proofs.Lowering.Untouched
import ModuleBundle.Proofs.Script.Scanning
import ModuleBundle.Proofs.Script.StatementOrder

/-!
The layout of a body. Behind the directives of its text a module has lines of its own, which one
insertion puts there: it is strict and marked as a module, each export has a getter, and then come
the lines that require other modules. All other edits lie behind them. The lines are spelled out
here once more, with any literal that a scanner reads as the text that it is to stand for.
-/

set_option autoImplicit false

namespace ModuleBundle

open Script

/-! Edits in the order of the text. -/

namespace Edit

variable {edit first : Edit} {edits sorted : List Edit}

theorem insertSorted_of_before (leads : ∀ other ∈ sorted, edit.before other = true) :
    insertSorted edit sorted = edit :: sorted := by
  cases sorted with
  | nil => rfl
  | cons other rest => exact if_pos (leads other List.mem_cons_self)

theorem insertSorted_cons (behind : edit.before first = false) (sorted : List Edit) :
    insertSorted edit (first :: sorted) = first :: insertSorted edit sorted :=
  if_neg (Bool.eq_false_iff.mp behind)

theorem sort_append_singleton (behind : ∀ edit ∈ edits, edit.before first = false) :
    sort (edits ++ [first]) = first :: sort edits := by
  induction edits with
  | nil => rfl
  | cons edit rest ih =>
    obtain ⟨here, behind⟩ := List.forall_mem_cons.mp behind
    calc sort (edit :: rest ++ [first])
        = insertSorted edit (first :: sort rest) := congrArg (insertSorted edit) (ih behind)
      _ = first :: sort (edit :: rest) := insertSorted_cons here _

theorem splice_insert {cursor offset : Nat} (ahead : cursor ≤ offset) (text : List Char)
    (inserted : String) (rest : List Edit) :
    splice text cursor (insert offset inserted :: rest) =
      text.take (offset - cursor) ++
        (inserted.toList ++ splice (text.drop (offset - cursor)) offset rest) :=
  if_neg (Nat.not_lt.mpr ahead)

theorem splice_remove (start stop : Nat) (text : List Char) (rest : List Edit) :
    splice text start (remove ⟨start, stop⟩ :: rest) =
      splice (text.drop (stop - start)) stop rest := by
  simp [splice, remove]

end Edit

/-! Lines. -/

namespace Script

/-- Whether a text is one string literal and nothing else, and `value` is what it stands for. -/
def IsLiteral (value literal : String) : Prop :=
  ∃ width, Tag.scan literal.toList = (.string value false, width, [])

theorem isLiteral_quoted (value : String) : IsLiteral value (quoted value) := by
  obtain ⟨width, scanned⟩ := scan_encode value.toList []
  rw [List.append_nil, String.ofList_toList] at scanned
  rw [IsLiteral, quoted, String.toList_ofList]
  exact ⟨width, scanned⟩

end Script

/-- A line that defines the property `name` of `exports` by a getter that returns `value`. -/
inductive GetterLine (name value : String) : String → Prop
  | intro {literal : String} (string : IsLiteral name literal) :
      GetterLine name value
        ("Object.defineProperty(exports, " ++ literal ++
          ", \x7b enumerable: true, get: function () \x7b return " ++ value ++ "; \x7d \x7d);")

/-- How a line is written that requires a module, or that prepares its record for reads of its
default export or copies what it exports. -/
inductive RequireLine.Written : RequireLine → String → Prop
  | run {specifier literal : String} (string : IsLiteral specifier literal) :
      Written (.run specifier) ("require(" ++ literal ++ ");")
  | bind {n : Nat} {record specifier literal : String} (named : record = s!"__import{n}__")
      (string : IsLiteral specifier literal) :
      Written (.bind n specifier) ("var " ++ record ++ " = require(" ++ literal ++ ");")
  | hold {n : Nat} {record holder : String} (named : record = s!"__import{n}__")
      (held : holder = s!"__import{n}_default__") :
      Written (.hold n) ("var " ++ holder ++ " = " ++ record ++ " && " ++ record ++
        ".__esModule ? " ++ record ++ " : \x7b default: " ++ record ++ " \x7d;")
  | copy {n : Nat} {record : String} (named : record = s!"__import{n}__") :
      Written (.copy n) ("Object.keys(" ++ record ++ ").forEach(function (k) \x7b " ++
        "if (k !== \"default\" && k !== \"__esModule\" && " ++
        "!Object.prototype.hasOwnProperty.call(exports, k)) " ++
        "Object.defineProperty(exports, k, \x7b enumerable: true, " ++
        "get: function () \x7b return " ++ record ++ "[k]; \x7d \x7d); \x7d);")

namespace Prologue

/-- The lines that a module with these getters begins with, if it requires what it does in this
order. -/
inductive Written (getters : List (String × String)) (requires : List RequireLine) :
    List String → Prop
  | intro {definitions requests : List String}
      (define : List.Forall₂ (fun getter line => GetterLine getter.1 getter.2 line) getters
        definitions)
      (request : List.Forall₂ RequireLine.Written requires requests) :
      Written getters requires
        ("\"use strict\";" ::
          "Object.defineProperty(exports, \"__esModule\", \x7b value: true \x7d);" ::
          (definitions ++ requests))

/-- Lines as they stand at `offset`, each with a line break behind it, and with one in front of all
unless they begin the text. -/
def inserted (offset : Nat) (lines : List String) : List Char :=
  (if offset = 0 then [] else ['\n']) ++ lines.flatMap fun line => line.toList ++ ['\n']

theorem toList_text (offset : Nat) (lines : List String) :
    (text offset lines).toList = inserted offset lines := by
  have broken : (if offset = 0 then "" else "\n").toList =
      if offset = 0 then [] else ['\n'] := by
    split <;> rfl
  have each (line : String) : (line ++ "\n").toList = line.toList ++ ['\n'] :=
    String.toList_append
  rw [text, inserted, String.toList_append, broken, String.toList_join, List.flatMap_map]
  simp only [each]

end Prologue

theorem RequireLine.written_text (line : RequireLine) : line.Written line.text := by
  cases line with
  | run specifier => exact .run (isLiteral_quoted specifier)
  | bind record specifier => exact .bind rfl (isLiteral_quoted specifier)
  | hold record => exact .hold rfl rfl
  | copy record => exact .copy rfl

namespace Script.Program

variable {p : Program}

def getters (p : Program) : List (String × String) :=
  p.linkage.exports.map fun e => (e.exported, e.value p.linkage.readings)

theorem written_prologueLines (links : p.isModule = true) :
    Prologue.Written p.getters p.linkage.requires p.prologueLines := by
  have lines : p.prologueLines =
      "\"use strict\";" ::
        "Object.defineProperty(exports, \"__esModule\", \x7b value: true \x7d);" ::
        (p.linkage.exports.map (Export.text p.linkage.readings) ++
          p.linkage.requires.map RequireLine.text) := by
    rw [prologueLines, Prologue.lines, if_pos links, List.append_assoc]
    rfl
  rw [lines]
  constructor
  · rw [getters, List.forall₂_map_left_iff, List.forall₂_map_right_iff, List.forall₂_same]
    exact fun e _ => .intro (isLiteral_quoted e.exported)
  · rw [List.forall₂_map_right_iff, List.forall₂_same]
    exact fun line _ => line.written_text

theorem prologue_eq (links : p.isModule = true) :
    p.prologue =
      [.insert p.directivesStop (Prologue.text p.directivesStop p.prologueLines)] := by
  have lines := written_prologueLines links
  unfold prologue
  -- there are at least the two lines of the opening
  split
  next none =>
    rw [none] at lines
    cases lines
  next => rfl

/-! Where all of it stands. -/

theorem bodyEdits_behind (laid : p.Laid) {edit : Edit} (listed : edit ∈ p.bodyEdits) :
    Behind p.bodyStart edit.span := by
  obtain ⟨spans, perm, among⟩ := p.bodyEdits_spans
  have site : edit.span ∈ p.sites :=
    among.subset (perm.mem_iff.mpr (List.mem_map_of_mem listed))
  obtain ⟨statement, member, inStatement⟩ := List.mem_flatMap.mp site
  exact (laid.body statement member).1 edit.span inStatement

theorem not_before_prologue (laid : p.Laid) (text : String) :
    ∀ edit ∈ p.bodyEdits, edit.before (.insert p.directivesStop text) = false := by
  intro edit listed
  have here := (bodyEdits_behind laid listed).1
  have stops := (bodyEdits_behind laid listed).2
  have below : p.directivesStop ≤ p.bodyStart := Nat.le_max_right _ _
  rw [← Bool.not_eq_true, Edit.before_iff, Edit.insert]
  dsimp only
  omega

theorem hashbang_before (laid : p.Laid) {line : Span} (first : p.hashbang = some line) :
    ∀ edit ∈ p.bodyEdits, (Edit.remove line).before edit = true := by
  intro edit listed
  obtain ⟨start, nonempty⟩ := laid.hashbang line first
  have here := (bodyEdits_behind laid listed).1
  have below : p.lineStop ≤ p.bodyStart := Nat.le_max_left _ _
  have own := lineStop_of_hashbang first
  rw [Edit.before_iff, Edit.remove]
  dsimp only
  omega

theorem lineStop_le_directivesStop (laid : p.Laid) :
    if p.directives = [] then p.directivesStop = 0 else p.lineStop ≤ p.directivesStop := by
  split
  next none =>
    rw [directivesStop, none]
    rfl
  next some => exact laid.directives some

theorem sort_edits (laid : p.Laid) (links : p.isModule = true) :
    Edit.sort p.edits =
      (if p.directives = [] then p.prologue ++ p.hashbang.toList.map Edit.remove
        else p.hashbang.toList.map Edit.remove ++ p.prologue) ++ Edit.sort p.bodyEdits := by
  let prologue := Edit.insert p.directivesStop (Prologue.text p.directivesStop p.prologueLines)
  have inserted : p.prologue = [prologue] := prologue_eq links
  have sorted : Edit.sort (p.bodyEdits ++ [prologue]) = prologue :: Edit.sort p.bodyEdits :=
    Edit.sort_append_singleton (not_before_prologue laid _)
  rw [edits_eq, inserted, List.append_assoc]
  cases first : p.hashbang with
  | none => simpa using sorted
  | some line =>
    obtain ⟨start, nonempty⟩ := laid.hashbang line first
    have own := lineStop_of_hashbang first
    have leads : ∀ edit ∈ Edit.sort p.bodyEdits, (Edit.remove line).before edit = true :=
      fun edit listed => hashbang_before laid first edit (Edit.mem_sort.mp listed)
    have place := lineStop_le_directivesStop laid
    change Edit.insertSorted (Edit.remove line) (Edit.sort (p.bodyEdits ++ [prologue])) = _
    rw [sorted]
    split at place
    -- at the start of the text an insertion comes before what is removed there
    next none =>
      have behind : (Edit.remove line).before prologue = false := by
        rw [← Bool.not_eq_true, Edit.before_iff]
        simp only [prologue, Edit.remove, Edit.insert]
        omega
      rw [Edit.insertSorted_cons behind, Edit.insertSorted_of_before leads, if_pos none]
      rfl
    next some =>
      have ahead : (Edit.remove line).before prologue = true := by
        rw [Edit.before_iff]
        simp only [prologue, Edit.remove, Edit.insert]
        omega
      rw [Edit.insertSorted_of_before (List.forall_mem_cons.mpr ⟨ahead, leads⟩), if_neg some]
      rfl

/-- The rest of a body, behind its directives and its prologue. -/
def editedRest (p : Program) (text : List Char) : List Char :=
  Edit.splice (text.drop p.bodyStart) p.bodyStart (Edit.sort p.bodyEdits)

/-- The body of a module: its directives without a `#!` line, the prologue, and then the rest of the
text with its edits. -/
theorem apply_edits (laid : p.Laid) (links : p.isModule = true) (text : List Char) :
    Edit.apply p.edits text =
      (text.take p.directivesStop).drop p.lineStop ++
        Prologue.inserted p.directivesStop p.prologueLines ++ p.editedRest text := by
  have place := lineStop_le_directivesStop laid
  rw [Edit.apply, sort_edits laid links, prologue_eq links, ← Prologue.toList_text, editedRest]
  cases first : p.hashbang with
  | none =>
    have noLine : p.lineStop = 0 := by rw [lineStop, first]; rfl
    have starts : p.bodyStart = p.directivesStop := by rw [bodyStart, noLine, Nat.zero_max]
    simp only [Option.toList_none, List.map_nil, List.append_nil, List.nil_append, ite_self,
      List.singleton_append]
    rw [Edit.splice_insert (Nat.zero_le _), noLine, starts]
    simp only [Nat.sub_zero, List.drop_zero, List.append_assoc]
  | some line =>
    obtain ⟨start, stop⟩ := line
    obtain ⟨opens, nonempty⟩ := laid.hashbang _ first
    dsimp only at opens nonempty
    subst opens
    have own : p.lineStop = stop := lineStop_of_hashbang first
    rw [own] at place ⊢
    split at place
    next none =>
      have starts : p.bodyStart = stop := by rw [bodyStart, own, place, Nat.max_zero]
      -- the insertion comes first, and the line is then removed behind it
      rw [if_pos none, starts, place]
      simp only [Option.toList_some, List.map_cons, List.map_nil, List.cons_append,
        List.nil_append]
      rw [Edit.splice_insert (Nat.le_refl 0), Edit.splice_remove]
      simp
    next some =>
      have starts : p.bodyStart = p.directivesStop := by rw [bodyStart, own, Nat.max_eq_right place]
      rw [if_neg some, starts]
      simp only [Option.toList_some, List.map_cons, List.map_nil, List.cons_append,
        List.nil_append]
      rw [Edit.splice_remove, Edit.splice_insert place]
      simp only [Nat.sub_zero, List.drop_take, List.drop_drop, Nat.add_sub_cancel' place,
        List.append_assoc]

theorem Nested.rewritten_rest {text : List Char} (nested : p.Nested text) (laid : p.Laid) :
    Edit.Rewritten p.bodyStart ((Edit.sort p.bodyEdits).filter (Edit.Outermost p.bodyEdits))
      (text.drop p.bodyStart) (p.editedRest text) := by
  obtain ⟨fits, layered⟩ := nested.edits_layered
  have among : p.bodyEdits.Sublist p.edits := by
    rw [edits_eq, List.append_assoc]
    exact (List.sublist_append_left _ _).trans (List.sublist_append_right _ _)
  refine Edit.rewritten_sort (fun edit listed => ?_) (layered.sublist among)
  obtain ⟨ordered, inText⟩ := fits edit (among.subset listed)
  have here := (bodyEdits_behind laid listed).1
  rw [List.length_drop]
  omega

/-- Lines are inserted behind the directives of a text, and its body begins with both. -/
structure OpensWith (p : Program) (text : List Char) (lines : List String) (body : String) :
    Prop where
  inserted : .insert p.directivesStop
    (String.ofList (Prologue.inserted p.directivesStop lines)) ∈ p.edits
  begins : (text.take p.directivesStop).drop p.lineStop ++
    Prologue.inserted p.directivesStop lines <+: body.toList

theorem opensWith_of_accepted {goal : Goal} {text : List Char} {analysis : Analysis}
    (parsed : parse? goal text = some p) (accepted : Analysis.ofText goal text = .ok analysis)
    (links : p.isModule = true) : p.OpensWith text p.prologueLines analysis.body := by
  constructor
  · rw [← Prologue.toList_text, String.ofList_toList]
    refine mem_edits.mpr (.inl (List.mem_append_right _ ?_))
    rw [prologue_eq links]
    exact List.mem_singleton_self _
  · rw [Analysis.body_of_accepted parsed accepted, String.toList_ofList,
      apply_edits (laid_of_parsed parsed) links]
    exact List.prefix_append _ _

end Script.Program

end ModuleBundle
