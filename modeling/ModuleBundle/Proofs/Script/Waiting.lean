import ModuleBundle.Proofs.Script.Places

/-!
What waits outside of functions. A watch goes over a syntax tree and counts the functions around
it: it has seen something wait once a node waits while none is around. It comes back from every
node at the depth it came with, and over a whole program it sees exactly what waits at a place
with no function or arrow function between it and the root.
-/

set_option autoImplicit false

namespace ModuleBundle

namespace Script

/-- What a watch carries: how many functions stand around, and whether something has waited
outside of them. -/
structure Watch where
  depth : Nat
  seen : Bool

namespace Watch

def start : Watch := ⟨0, false⟩

def notice (w : Watch) : Watch := if w.depth = 0 then { w with seen := true } else w

def enter (w : Watch) : Watch := { w with depth := w.depth + 1 }

def leave (w : Watch) : Watch := { w with depth := w.depth - 1 }

def sees (here : Bool) (w : Watch) : Watch := { w with seen := w.seen || w.depth == 0 && here }

theorem sees_false (w : Watch) : w.sees false = w := by
  simp only [sees, Bool.and_false, Bool.or_false]

theorem sees_sees (w : Watch) (first second : Bool) :
    (w.sees first).sees second = w.sees (first || second) := by
  simp only [sees, Bool.and_or_distrib_left, Bool.or_assoc]

theorem notice_eq (w : Watch) : w.notice = w.sees true := by
  unfold notice sees
  split
  next outside => simp only [outside, beq_self_eq_true, Bool.and_true, Bool.or_true]
  next inside => simp only [beq_false_of_ne inside, Bool.false_and, Bool.or_false]

theorem leave_enter (w : Watch) : w.enter.leave = w := rfl

theorem sees_enter (w : Watch) (here : Bool) : w.enter.sees here = w.enter := by
  simp [enter, sees]

theorem foldl_sees {α : Type} {visit : α → Watch → Watch} {waits : α → Bool} {list : List α}
    (each : ∀ a ∈ list, ∀ w, visit a w = w.sees (waits a)) (w : Watch) :
    list.foldl (fun w a => visit a w) w = w.sees (list.any waits) := by
  induction list generalizing w with
  | nil => exact w.sees_false.symm
  | cons first rest ih =>
    obtain ⟨here, later⟩ := List.forall_mem_cons.mp each
    rw [List.foldl_cons, here, ih later, sees_sees, List.any_cons]

end Watch

namespace Node

def isFunction : Node → Bool
  | .function _ => true
  | .expression (.arrow _ _) => true
  | _ => false

/-- Watches a node: the node itself, and then all of its parts in their order. -/
def watch (node : Node) (w : Watch) : Watch :=
  let noticed := if node.waits then w.notice else w
  if node.isFunction then
    (node.parts.attach.foldl (fun w part => part.val.node.watch w) noticed.enter).leave
  else
    node.parts.attach.foldl (fun w part => part.val.node.watch w) noticed
termination_by sizeOf node
decreasing_by all_goals exact sizeOf_lt_of_mem_parts part.property

/-- Of all nodes only functions and arrow functions have their parts inside of a function: not
classes, their members or static blocks. -/
theorem outsideFunctions_of_mem_parts {node : Node} {part : Place} (listed : part ∈ node.parts) :
    part.outsideFunctions = !node.isFunction := by
  revert listed
  fun_cases parts node <;>
    simp only [mem_ofFunction, mem_within, List.mem_append, List.not_mem_nil] <;>
    grind [Place.outsideFunctions, Construct.isFunction, isFunction]

theorem awaits_eq_parts (node : Node) :
    node.awaits =
      (node.waits || !node.isFunction && node.parts.any fun part => part.node.awaits) := by
  have inParts : (node.parts.any fun part => part.outsideFunctions && part.node.awaits) =
      node.parts.any fun part => !node.isFunction && part.node.awaits := by
    rw [Bool.eq_iff_iff, List.any_eq_true, List.any_eq_true]
    apply exists_congr
    intro part
    apply and_congr_right
    intro listed
    rw [outsideFunctions_of_mem_parts listed]
  rw [awaits_eq, inParts]
  cases node.isFunction with
  | false => simp only [Bool.not_false, Bool.true_and]
  | true =>
    have none : (node.parts.any fun _ => false) = false := List.any_eq_false.mpr fun _ _ => nofun
    simp only [Bool.not_true, Bool.false_and, none]

/-- A watch that comes to a node at depth zero sees whether the node waits outside of functions;
at whatever depth it comes, it leaves at that depth. -/
theorem watch_eq (node : Node) (w : Watch) : node.watch w = w.sees node.awaits := by
  have inParts : ∀ part ∈ node.parts, ∀ w, part.node.watch w = w.sees part.node.awaits := by
    intro part listed w
    have smaller := sizeOf_lt_of_mem_parts listed
    exact part.node.watch_eq w
  have own : (if node.waits then w.notice else w) = w.sees node.waits := by
    cases node.waits with
    | false => exact w.sees_false.symm
    | true => exact w.notice_eq
  have parts (w : Watch) : node.parts.attach.foldl (fun w part => part.val.node.watch w) w =
      w.sees (node.parts.any fun part => part.node.awaits) :=
    calc node.parts.attach.foldl (fun w part => part.val.node.watch w) w
      _ = node.parts.foldl (fun w part => part.node.watch w) w :=
        List.foldl_attach (f := fun (w : Watch) (part : Place) => part.node.watch w)
      _ = w.sees (node.parts.any fun part => part.node.awaits) := Watch.foldl_sees inParts w
  rw [watch, own, parts, parts, awaits_eq_parts]
  -- a function is left with what was seen before it was entered
  cases node.isFunction with
  | false => rw [if_neg Bool.false_ne_true, Watch.sees_sees, Bool.not_false, Bool.true_and]
  | true =>
    rw [if_pos rfl, Watch.sees_enter, Watch.leave_enter, Bool.not_true, Bool.false_and,
      Bool.or_false]
termination_by sizeOf node

end Node

namespace Program

variable {p : Program}

theorem Holds.exists_waits {place : Place} (held : p.Holds place)
    (outside : place.outsideFunctions = true) (awaits : place.node.awaits = true) :
    ∃ inner, p.Holds inner ∧ inner.outsideFunctions = true ∧ inner.node.waits = true := by
  rw [Node.awaits_eq, Bool.or_eq_true, List.any_eq_true] at awaits
  rcases awaits with own | ⟨part, listed, inPart⟩
  · exact ⟨place, held, outside, own⟩
  · rw [Bool.and_eq_true] at inPart
    obtain ⟨between, waiting⟩ := inPart
    have smaller := Node.sizeOf_lt_of_mem_parts listed
    -- one step down: no function is between the part and the node, nor around the node
    have around : (⟨part.node, part.around ++ place.around⟩ : Place).outsideFunctions = true := by
      simp only [Place.outsideFunctions, List.all_append, Bool.and_eq_true]
      exact ⟨between, outside⟩
    exact (held.part listed).exists_waits around waiting
termination_by sizeOf place.node

theorem anyAwaits_iff :
    Statement.anyAwaits p.body = true ↔
      ∃ place, p.Holds place ∧ place.outsideFunctions = true ∧ place.node.waits = true := by
  constructor
  · intro awaits
    rw [Statement.anyAwaits_eq, List.any_eq_true] at awaits
    obtain ⟨statement, listed, waiting⟩ := awaits
    exact (Holds.outermost listed).exists_waits rfl waiting
  · rintro ⟨place, held, outside, own⟩
    apply held.anyAwaits outside
    rw [Node.awaits_eq, own, Bool.true_or]

def watch (p : Program) : Watch :=
  p.body.foldl (fun w statement => (Node.statement statement).watch w) .start

theorem watch_eq (p : Program) : p.watch = ⟨0, Statement.anyAwaits p.body⟩ := by
  have each : ∀ statement ∈ p.body, ∀ w,
      (Node.statement statement).watch w = w.sees statement.awaits :=
    fun statement _ w => (Node.statement statement).watch_eq w
  rw [watch, Watch.foldl_sees each, Statement.anyAwaits_eq]
  rfl

end Program

end Script

open Script

namespace Analysis

theorem ofText_eq_watch (goal : Goal) (text : List Char) :
    ofText goal text =
      match Program.parse? goal text with
      | none => .error .notGrammatical
      | some p => if p.watch.seen then .error .awaitsAtTopLevel else .ok (ofProgram text p) := by
  unfold ofText
  cases Program.parse? goal text with
  | none => rfl
  | some p => simp only [Program.watch_eq]

theorem message_ne (path : Path) :
    Refusal.message path .notGrammatical ≠ Refusal.message path .awaitsAtTopLevel := by
  intro same
  have texts := congrArg String.toList same
  simp only [Refusal.message, String.toList_append] at texts
  exact absurd (List.append_cancel_left texts) (by decide)

theorem analyzer_eq_watch (path : Path) (text : String) :
    analyzer path text =
      match Program.parse? (goalOf path) text.toList with
      | none => .error (path.text ++ ": syntax error")
      | some p =>
        if p.watch.seen then .error (path.text ++ ": top-level await cannot be bundled")
        else .ok (ofProgram text.toList p) := by
  unfold analyzer
  rw [ofText_eq_watch]
  cases Program.parse? (goalOf path) text.toList with
  | none => rfl
  | some p =>
    cases waits : p.watch.seen with
    | false => simp only [waits]; rfl
    | true => simp only [waits]; rfl

theorem refused_iff_seen (path : Path) (text : String) :
    analyzer path text = .error (path.text ++ ": top-level await cannot be bundled") ↔
      ∃ p, Program.parse? (goalOf path) text.toList = some p ∧ p.watch.seen = true := by
  rw [analyzer_eq_watch]
  cases parsed : Program.parse? (goalOf path) text.toList with
  | none =>
    constructor
    · intro refused
      exact absurd (Except.error.inj refused) (message_ne path)
    · rintro ⟨p, found, _⟩
      cases found
  | some p =>
    constructor
    · intro refused
      cases seen : p.watch.seen with
      | false =>
        simp only [seen] at refused
        cases refused
      | true => exact ⟨p, rfl, seen⟩
    · rintro ⟨q, found, seen⟩
      cases found
      exact if_pos seen

/-- A text is refused for waiting at the top level exactly if it is grammatical and its tree has
an `await`, a `for await` or an `await using` at a place that no function or arrow function stands
around. A grammatical text is refused for nothing else; this is what the watch over the tree
decides, which leaves every node at the depth that it came with. -/
theorem topLevelAwait_refused_iff (path : Path) (text : String) :
    (analyzer path text = .error (path.text ++ ": top-level await cannot be bundled") ↔
      ∃ p, Program.parse? (goalOf path) text.toList = some p ∧
        ∃ place, p.Holds place ∧ place.outsideFunctions = true ∧ place.node.waits = true) ∧
    (analyzer path text =
      match Program.parse? (goalOf path) text.toList with
      | none => .error (path.text ++ ": syntax error")
      | some p =>
        if p.watch.seen then .error (path.text ++ ": top-level await cannot be bundled")
        else .ok (ofProgram text.toList p)) ∧
    (∀ p : Program, p.watch.depth = 0) ∧
    ∀ (node : Node) (w : Watch), (node.watch w).depth = w.depth := by
  refine ⟨?_, analyzer_eq_watch path text, fun p => ?_, fun node w => ?_⟩
  · rw [refused_iff_seen]
    apply exists_congr
    intro p
    apply and_congr_right
    intro _
    rw [Program.watch_eq]
    exact Program.anyAwaits_iff
  · rw [Program.watch_eq]
  · rw [Node.watch_eq]
    rfl

example :
    (["class A extends (await b) \x7b\x7d", "class A \x7b [await k]() \x7b\x7d \x7d",
      "class A \x7b static \x7b await v; \x7d \x7d",
      "class A \x7b async m() \x7b await v; \x7d \x7d"].map fun text =>
        (Program.parse? .module text.toList).map fun p => Statement.anyAwaits p.body) =
      [some true, some true, some true, some false] := by
  decide +kernel

end Analysis

end ModuleBundle
