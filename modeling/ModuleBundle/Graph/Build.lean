import ModuleBundle.Graph
import ModuleBundle.Graph.Discovery

/-!
Building a graph from its entry. The modules that are loaded but not yet visited wait in a
queue. A build in turn takes one module from the queue at a time and loads what it discovers
on the spot; a build together visits all modules that wait before it loads, at the same
time, what they discovered. The numbers are given out in the same order either way.
-/

set_option autoImplicit false

namespace ModuleBundle

/-- In which order loads that run together come to their ends. -/
structure Completion where
  /-- The loads, each with its position, the first to end in front. -/
  order : List Pending → List (Pending × Nat)
  perm : ∀ pending, (order pending).Perm pending.zipIdx

def Completion.inOrder : Completion := ⟨fun pending => pending.zipIdx, fun _ => .refl _⟩

inductive Schedule where
  | inTurn
  | together (completion : Completion)

structure Progress where
  known : Knowledge
  /-- The modules visited, in the order of their numbers. -/
  visited : List Asset
  /-- The modules loaded but not visited, the next one first. -/
  waiting : List Asset

def Progress.start (entry : Asset) : Progress := ⟨⟨⟨[entry.path]⟩, .empty⟩, [], [entry]⟩

def failureOf : Except BundleError Asset → Option BundleError
  | .error e => some e
  | .ok _ => none

/-- What loads that ended in some order gave: the failure that came first to light, or every
module at the position of its load. -/
def gather (results : List (Nat × Except BundleError Asset)) :
    Except BundleError (List Asset) :=
  match results.findSome? fun result => failureOf result.2 with
  | some e => .error e
  | none =>
    .ok ((List.range results.length).filterMap fun position =>
      (results.lookup position).bind Except.toOption)

namespace Workspace

/-- Visits the module that has waited longest, and lets what it discovers wait. -/
def turn (w : Workspace) (p : Progress) : Session Progress :=
  match p.waiting with
  | [] => return p
  | asset :: waiting => do
    let visit ← w.visit (Pending.load w) p.known [asset]
    return ⟨visit.known, p.visited ++ visit.visited, waiting ++ visit.found⟩

def turns (w : Workspace) : Nat → Progress → Session Progress
  | 0, p => return p
  | n + 1, p => do w.turns n (← w.turn p)

def attempt (w : Workspace) :
    List (Pending × Nat) → StateM Journal (List (Nat × Except BundleError Asset))
  | [] => return []
  | (pending, position) :: rest => do
    let result ← (pending.load w).run
    return (position, result) :: (← w.attempt rest)

def loadTogether (w : Workspace) (completion : Completion) (pending : List Pending) :
    Session (List Asset) := do
  let results ← w.attempt (completion.order pending)
  ofExcept (gather results)

/-- Visits all modules that wait before anything that they discover is loaded. -/
def round (w : Workspace) (completion : Completion) (p : Progress) : Session Progress := do
  let visit ← w.visit (fun pending => return pending) p.known p.waiting
  let waiting ← w.loadTogether completion visit.found
  return ⟨visit.known, p.visited ++ visit.visited, waiting⟩

/-- Visits a generation: the modules that wait now. -/
def advance (w : Workspace) : Schedule → Progress → Session Progress
  | .inTurn, p => w.turns p.waiting.length p
  | .together completion, p => w.round completion p

/-- Goes on until no module waits, if that takes at most `limit` generations. -/
def traverse (w : Workspace) (schedule : Schedule) : Nat → Progress → Session (Option (List Asset))
  | 0, p => return if p.waiting = [] then some p.visited else none
  | limit + 1, p => do
    if p.waiting = [] then return some p.visited
    else w.traverse schedule limit (← w.advance schedule p)

def graph (w : Workspace) (schedule : Schedule) (limit : Nat) (reference : Path) :
    Session (Option Graph) := do
  let entry ← w.loadEntry 0 reference
  let assets? ← w.traverse schedule limit (.start entry)
  return assets?.bind Graph.ofAssets?

end Workspace

inductive Outcome where
  | finished (graph : Graph)
  | failed (error : BundleError)
  /-- More generations than were allowed for. -/
  | unfinished
  deriving DecidableEq, Repr

def Outcome.of : Except BundleError (Option Graph) → Outcome
  | .ok (some graph) => finished graph
  | .ok none => unfinished
  | .error e => failed e

structure Build where
  outcome : Outcome
  journal : Journal
  deriving DecidableEq, Repr

def Build.run (w : Workspace) (schedule : Schedule) (limit : Nat) (reference : Path) : Build :=
  let (ended, journal) := (w.graph schedule limit reference).run.run []
  ⟨.of ended, journal⟩

end ModuleBundle
