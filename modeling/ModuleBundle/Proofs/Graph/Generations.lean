import Mathlib.Data.List.Basic
import ModuleBundle.Graph.Build
import ModuleBundle.Proofs.Graph.Discovery

/-!
Generations. What a build comes to after the modules that wait were all visited is settled by
what waited; it is not a matter of the schedule. For a build in turn this holds wherever the
queue is cut: taking the modules in front of the cut, one at a time, leaves those behind it in
front of all that was discovered.
-/

set_option autoImplicit false

namespace ModuleBundle

open Session

/-- How far a build has come, apart from the resolutions that it remembers. -/
structure Stage where
  seen : Seen
  visited : List Asset
  waiting : List Asset

def Progress.stage (p : Progress) : Stage := ⟨p.known.seen, p.visited, p.waiting⟩

def Stage.progress (s : Stage) (cache : ResolutionCache) : Progress :=
  ⟨⟨s.seen, cache⟩, s.visited, s.waiting⟩

namespace Workspace

def discovered (w : Workspace) (s : Stage) : List Pending := (w.survey s.seen s.waiting).pending

/-- The stage at which what was discovered waits, unless something cannot be loaded. -/
def next (w : Workspace) (s : Stage) : Except BundleError Stage :=
  (⟨(w.survey s.seen s.waiting).seen, s.visited ++ (w.survey s.seen s.waiting).visited, ·⟩) <$>
    (w.discovered s).mapM (Pending.outcome w)

/-- Something that is discovered cannot be loaded, and `e` says why. -/
def Fails (w : Workspace) (s : Stage) (e : BundleError) : Prop :=
  ∃ p ∈ w.discovered s, p.outcome w = .error e

variable {w : Workspace}

theorem turn_appends (p : Progress) : (w.turn p).Appends := by
  unfold turn
  split
  · exact .pure _
  · exact .bind (visit_appends (Pending.load_appends w) _ _) fun _ => .pure _

theorem turns_appends (n : Nat) (p : Progress) : (w.turns n p).Appends := by
  induction n generalizing p with
  | zero => exact .pure _
  | succ n ih => exact .bind (turn_appends p) ih

theorem turns_add (m n : Nat) (p : Progress) : w.turns (m + n) p = w.turns m p >>= w.turns n := by
  induction m generalizing p with
  | zero => simp only [Nat.zero_add, turns, pure_bind]
  | succ m ih => simp only [Nat.succ_add, turns, bind_assoc, ih]

theorem turns_add_outcome (m n : Nat) (p : Progress) :
    (w.turns (m + n) p).outcome = (w.turns m p).outcome >>= fun q => (w.turns n q).outcome := by
  rw [turns_add]
  exact outcome_bind (turns_appends m p) (turns_appends n)

theorem turns_of_empty (n : Nat) {p : Progress} (empty : p.waiting = []) : w.turns n p = pure p := by
  induction n with
  | zero => rfl
  | succ n ih =>
    have still : w.turn p = pure p := by
      unfold turn
      rw [empty]
    rw [turns, still, pure_bind, ih]

theorem turn_shortens {p q : Progress} (turned : (w.turn p).outcome = .ok q) :
    p.waiting.length ≤ q.waiting.length + 1 := by
  unfold turn at turned
  split at turned
  · obtain rfl := Except.ok.inj turned
    omega
  · rename_i asset waiting queued
    rw [outcome_bind_pure (visit_appends (Pending.load_appends w) _ _)] at turned
    cases visited : (w.visit (Pending.load w) p.known [asset]).outcome with
    | error e => simp [visited] at turned
    | ok visit =>
      rw [visited] at turned
      obtain rfl := Except.ok.inj turned
      simp only [queued, List.length_cons, List.length_append]
      omega

theorem turns_shorten {n : Nat} {p q : Progress} (turned : (w.turns n p).outcome = .ok q) :
    p.waiting.length ≤ q.waiting.length + n := by
  induction n generalizing p with
  | zero =>
    obtain rfl := Except.ok.inj turned
    omega
  | succ n ih =>
    rw [turns, outcome_bind (turn_appends p) (turns_appends n)] at turned
    cases first : (w.turn p).outcome with
    | error e => simp [first, bind, Except.bind] at turned
    | ok between =>
      rw [first] at turned
      have here := turn_shortens first
      have later := ih turned
      omega

theorem survey_append (seen : Seen) (front back : List Asset) :
    w.survey seen (front ++ back) =
      let first := w.survey seen front
      let others := w.survey first.seen back
      ⟨first.visited ++ others.visited, others.seen, first.pending ++ others.pending⟩ := by
  induction front generalizing seen with
  | nil => rfl
  | cons asset rest ih => simp only [List.cons_append, survey, ih, List.append_assoc]

theorem turn_outcome {known : Knowledge} (sound : known.cache.Sound w.fileSystem w.extensions)
    (asset : Asset) :
    ∃ cache : ResolutionCache, cache.Sound w.fileSystem w.extensions ∧ ∀ visited waiting,
      (w.turn ⟨known, visited, asset :: waiting⟩).outcome =
        let found := w.survey known.seen [asset]
        (⟨⟨found.seen, cache⟩, visited ++ found.visited, waiting ++ ·⟩) <$>
          found.pending.mapM (Pending.outcome w) := by
  obtain ⟨cache, settled, first⟩ := visit_outcome (Pending.load_appends w) sound [asset]
  refine ⟨cache, settled, fun visited waiting => ?_⟩
  simp only [turn]
  rw [outcome_bind_pure (visit_appends (Pending.load_appends w) _ _), first]
  exact Functor.map_map _ _ _

/-- Where the queue is cut does not matter: what the modules in front discover comes to wait
behind the others. -/
theorem turns_outcome {known : Knowledge} (sound : known.cache.Sound w.fileSystem w.extensions)
    (front : List Asset) :
    ∃ cache : ResolutionCache, cache.Sound w.fileSystem w.extensions ∧ ∀ visited back,
      (w.turns front.length ⟨known, visited, front ++ back⟩).outcome =
        let found := w.survey known.seen front
        (⟨⟨found.seen, cache⟩, visited ++ found.visited, back ++ ·⟩) <$>
          found.pending.mapM (Pending.outcome w) := by
  induction front generalizing known with
  | nil =>
    refine ⟨known.cache, sound, fun visited back => ?_⟩
    simp only [turns, List.length_nil, List.nil_append, survey, List.append_nil, List.mapM_nil,
      outcome_pure, map_pure]
    rfl
  | cons asset rest ih =>
    obtain ⟨between, kept, first⟩ := turn_outcome sound asset
    obtain ⟨cache, settled, others⟩ := @ih ⟨(w.survey known.seen [asset]).seen, between⟩ kept
    refine ⟨cache, settled, fun visited back => ?_⟩
    have along : w.survey known.seen (asset :: rest) = _ := survey_append known.seen [asset] rest
    simp only [List.length_cons, turns, List.cons_append, along]
    rw [outcome_bind (turn_appends _) (turns_appends _), first]
    refine map_mapM_bind fun children => ?_
    -- What the first module discovers waits behind those at the back when the others have their turns.
    rw [List.append_assoc, others]
    simp only [List.append_assoc]

theorem advance_inTurn {p : Progress} (sound : p.known.cache.Sound w.fileSystem w.extensions) :
    ∃ cache : ResolutionCache, cache.Sound w.fileSystem w.extensions ∧
      (w.advance .inTurn p).outcome = (Stage.progress · cache) <$> w.next p.stage := by
  obtain ⟨cache, settled, turned⟩ := turns_outcome sound p.waiting
  refine ⟨cache, settled, ?_⟩
  have whole := turned p.visited []
  rw [List.append_nil] at whole
  rw [next, Functor.map_map]
  exact whole

end Workspace

end ModuleBundle
