import ModuleBundle.Proofs.Graph.Together

/-!
Schedules agree. A build goes through the same generations whatever its schedule, so it ends
with the same graph; where it fails, the failure belongs to the first generation in which
something cannot be loaded. Only which of several failures of this generation comes to light
is left to the schedule.
-/

set_option autoImplicit false

namespace ModuleBundle

open Session

namespace Workspace

/-- The stages that a build of an entry comes to, with the distance from the entry of the
modules that wait. -/
inductive Generation (w : Workspace) (reference : Path) : Nat → Stage → Prop where
  | entry {asset : Asset} (loaded : (w.loadEntry 0 reference).outcome = .ok asset) :
      w.Generation reference 0 (Progress.start asset).stage
  | later {depth : Nat} {s t : Stage} (before : w.Generation reference depth s)
      (waiting : s.waiting ≠ []) (advanced : w.next s = .ok t) :
      w.Generation reference (depth + 1) t

/-- The modules of a build that comes to a stage at which no module waits. -/
def Completes (w : Workspace) (reference : Path) (assets : List Asset) : Prop :=
  ∃ depth s, w.Generation reference depth s ∧ s.waiting = [] ∧ s.visited = assets

/-- Whatever the schedule, a build that is at the stage `s` ends as `ends` says. -/
def Ends (w : Workspace) (limit : Nat) (s : Stage)
    (ends : Except BundleError (Option (List Asset)) → Prop) : Prop :=
  ∀ schedule (p : Progress), p.stage = s → p.known.cache.Sound w.fileSystem w.extensions →
    ends (w.traverse schedule limit p).outcome

variable {w : Workspace} {reference : Path} {limit : Nat} {s later : Stage}
  {ends : Except BundleError (Option (List Asset)) → Prop}

theorem traverse_appends (schedule : Schedule) (limit : Nat) (p : Progress) :
    (w.traverse schedule limit p).Appends := by
  induction limit generalizing p with
  | zero => exact .pure _
  | succ limit ih =>
    unfold traverse
    split_ifs
    · exact .pure _
    · exact .bind (advance_appends schedule p) ih

theorem traverse_succ (schedule : Schedule) (limit : Nat) {p : Progress} (waiting : p.waiting ≠ []) :
    w.traverse schedule (limit + 1) p = w.advance schedule p >>= w.traverse schedule limit :=
  if_neg waiting

theorem traverse_succ_outcome (schedule : Schedule) {p : Progress} (waiting : p.waiting ≠ []) :
    (w.traverse schedule (limit + 1) p).outcome =
      (w.advance schedule p).outcome >>= fun later => (w.traverse schedule limit later).outcome := by
  rw [traverse_succ schedule limit waiting]
  exact outcome_bind (advance_appends schedule p) (traverse_appends schedule limit)

theorem traverse_of_empty (schedule : Schedule) (limit : Nat) {p : Progress}
    (empty : p.waiting = []) : w.traverse schedule limit p = pure (some p.visited) := by
  cases limit <;> simp only [traverse, if_pos empty]

theorem turns_of_traverse {p : Progress} {assets : List Asset}
    (finished : (w.traverse .inTurn limit p).outcome = .ok (some assets)) :
    ∃ n q, (w.turns n p).outcome = .ok q ∧ q.waiting = [] ∧ q.visited = assets := by
  induction limit generalizing p with
  | zero =>
    simp only [traverse, outcome_pure, Except.ok.injEq] at finished
    split_ifs at finished with empty
    exact ⟨0, p, rfl, empty, Option.some.inj finished⟩
  | succ limit ih =>
    by_cases empty : p.waiting = []
    · rw [traverse_of_empty .inTurn _ empty] at finished
      exact ⟨0, p, rfl, empty, Option.some.inj (Except.ok.inj finished)⟩
    · rw [traverse_succ_outcome .inTurn empty] at finished
      cases advanced : (w.advance .inTurn p).outcome with
      | error e => simp [advanced, bind, Except.bind] at finished
      | ok later =>
        rw [advanced] at finished
        obtain ⟨n, q, turned, ended⟩ := ih finished
        -- a generation in turn is one turn for each module that waits
        refine ⟨p.waiting.length + n, q, ?_, ended⟩
        rw [turns_add_outcome]
        exact (congrArg (· >>= _) advanced).trans turned

theorem traverse_of_turns {n : Nat} {p q : Progress} (turned : (w.turns n p).outcome = .ok q)
    (done : q.waiting = []) :
    ∃ limit, (w.traverse .inTurn limit p).outcome = .ok (some q.visited) := by
  -- The turns are cut where a generation ends, so what is left of them gets shorter.
  induction n using Nat.strongRecOn generalizing p with
  | ind n ih =>
    by_cases empty : p.waiting = []
    · rw [turns_of_empty n empty] at turned
      obtain rfl := Except.ok.inj turned
      exact ⟨0, by rw [traverse_of_empty .inTurn _ empty]; rfl⟩
    · have some : 0 < p.waiting.length := List.length_pos_iff.mpr empty
      have enough : p.waiting.length ≤ n := by simpa [done] using turns_shorten turned
      obtain ⟨rest, rfl⟩ := Nat.exists_eq_add_of_le enough
      rw [turns_add_outcome] at turned
      cases advanced : (w.turns p.waiting.length p).outcome with
      | error e => simp [advanced, bind, Except.bind] at turned
      | ok later =>
        rw [advanced] at turned
        obtain ⟨limit, finished⟩ := ih rest (by omega) turned
        refine ⟨limit + 1, ?_⟩
        rw [traverse_succ_outcome .inTurn empty]
        exact (congrArg (· >>= _) advanced).trans finished

/-- A build in turn is its queue, run until it is empty; generations are only counted. -/
theorem traverse_inTurn_iff (p : Progress) (assets : List Asset) :
    (∃ limit, (w.traverse .inTurn limit p).outcome = .ok (some assets)) ↔
      ∃ n q, (w.turns n p).outcome = .ok q ∧ q.waiting = [] ∧ q.visited = assets := by
  constructor
  · rintro ⟨limit, finished⟩
    exact turns_of_traverse finished
  · rintro ⟨n, q, turned, done, rfl⟩
    exact traverse_of_turns turned done

theorem ends_of_empty (empty : s.waiting = []) (holds : ends (.ok (some s.visited))) :
    w.Ends limit s ends := by
  rintro schedule p rfl _
  rw [traverse_of_empty schedule limit empty]
  exact holds

theorem Ends.earlier (next : w.Ends limit later ends) (waiting : s.waiting ≠ [])
    (advanced : w.next s = .ok later) : w.Ends (limit + 1) s ends := by
  rintro schedule p rfl sound
  obtain ⟨cache, settled, came⟩ := advance_outcome schedule sound
  simp only [advanced] at came
  rw [traverse_succ_outcome schedule waiting, came]
  exact next schedule (later.progress cache) rfl settled

theorem ends_of_error {e : BundleError} (waiting : s.waiting ≠ []) (failed : w.next s = .error e) :
    w.Ends (limit + 1) s fun ended => ∃ e, w.Fails s e ∧ ended = .error e := by
  rintro schedule p rfl sound
  obtain ⟨_, _, came⟩ := advance_outcome schedule sound
  simp only [failed] at came
  obtain ⟨e, here, came⟩ := came
  refine ⟨e, here, ?_⟩
  rw [traverse_succ_outcome schedule waiting, came]
  rfl

theorem traverse_outcome (limit : Nat) {depth : Nat} (reached : w.Generation reference depth s) :
    (∃ result : Option (List Asset),
      (∀ assets, result = some assets → w.Completes reference assets) ∧
      w.Ends limit s (· = .ok result)) ∨
    ∃ last t, w.Generation reference last t ∧
      w.Ends limit s fun ended => ∃ e, w.Fails t e ∧ ended = .error e := by
  -- The first generation that cannot be loaded decides; before it all schedules are at one stage.
  induction limit generalizing depth s with
  | zero =>
    refine .inl ⟨if s.waiting = [] then some s.visited else none, fun assets finished => ?_, ?_⟩
    · split_ifs at finished with empty
      exact ⟨depth, s, reached, empty, Option.some.inj finished⟩
    · rintro schedule p rfl _
      rfl
  | succ limit ih =>
    by_cases empty : s.waiting = []
    · refine .inl ⟨some s.visited, fun assets finished => ?_, ends_of_empty empty rfl⟩
      exact ⟨depth, s, reached, empty, Option.some.inj finished⟩
    · cases advanced : w.next s with
      | ok later =>
        rcases ih (reached.later empty advanced) with ⟨result, complete, ended⟩ | ⟨last, t, there, failed⟩
        · exact .inl ⟨result, complete, ended.earlier empty advanced⟩
        · exact .inr ⟨last, t, there, failed.earlier empty advanced⟩
      | error e => exact .inr ⟨depth, s, reached, ends_of_error empty advanced⟩

theorem graph_outcome (schedule : Schedule) (limit : Nat) (reference : Path) :
    (w.graph schedule limit reference).outcome =
      (w.loadEntry 0 reference).outcome >>= fun entry =>
        (·.bind Graph.ofAssets?) <$> (w.traverse schedule limit (.start entry)).outcome := by
  rw [graph, outcome_bind (loadEntry_appends reference)
    fun _ => .bind (traverse_appends schedule limit _) fun _ => .pure _]
  simp only [outcome_bind_pure (traverse_appends schedule limit _)]

end Workspace

theorem Graph.assets_of_ofAssets? {assets : List Asset} {g : Graph}
    (made : Graph.ofAssets? assets = some g) : g.assets = assets := by
  cases assets with
  | nil => cases made
  | cons entry others =>
    obtain rfl := Option.some.inj made
    rfl

theorem Outcome.of_eq_finished_iff {ended : Except BundleError (Option Graph)} {g : Graph} :
    Outcome.of ended = .finished g ↔ ended = .ok (some g) := by
  rcases ended with _ | _ | _ <;> simp [Outcome.of]

namespace Build

variable {w : Workspace}

theorem run_outcome (w : Workspace) (schedule : Schedule) (limit : Nat) (reference : Path) :
    (run w schedule limit reference).outcome = .of (w.graph schedule limit reference).outcome := rfl

theorem run_cases (w : Workspace) (limit : Nat) (reference : Path) :
    (∃ outcome : Outcome,
      (∀ e, outcome = .failed e → (w.loadEntry 0 reference).outcome = .error e) ∧
      (∀ g, outcome = .finished g → w.Completes reference g.assets) ∧
      ∀ schedule, (run w schedule limit reference).outcome = outcome) ∨
    ∃ depth s, w.Generation reference depth s ∧
      ∀ schedule, ∃ e, w.Fails s e ∧ (run w schedule limit reference).outcome = .failed e := by
  simp only [run_outcome, Workspace.graph_outcome]
  cases loaded : (w.loadEntry 0 reference).outcome with
  | error e =>
    refine .inl ⟨.failed e, fun other same => ?_, nofun, fun _ => rfl⟩
    rw [Outcome.failed.inj same]
  | ok entry =>
    have sound : (Progress.start entry).known.cache.Sound w.fileSystem w.extensions :=
      ResolutionCache.empty_sound
    -- either no generation fails, or the first that does is the same for every schedule
    rcases Workspace.traverse_outcome limit (.entry loaded) with
      ⟨result, complete, ended⟩ | ⟨last, t, there, failed⟩
    · refine .inl ⟨.of (.ok (result.bind Graph.ofAssets?)), ?_, fun g finished => ?_, fun schedule => ?_⟩
      · cases result.bind Graph.ofAssets? <;> nofun
      · obtain ⟨assets, ended, made⟩ :=
          Option.bind_eq_some_iff.mp (Except.ok.inj (Outcome.of_eq_finished_iff.mp finished))
        rw [Graph.assets_of_ofAssets? made]
        exact complete assets ended
      · change Outcome.of (_ <$> (w.traverse schedule limit (.start entry)).outcome) = _
        rw [ended schedule _ rfl sound]
        rfl
    · refine .inr ⟨last, t, there, fun schedule => ?_⟩
      obtain ⟨e, here, came⟩ := failed schedule _ rfl sound
      refine ⟨e, here, ?_⟩
      change Outcome.of (_ <$> (w.traverse schedule limit (.start entry)).outcome) = _
      rw [came]
      rfl

theorem completes_of_finished {schedule : Schedule} {limit : Nat} {reference : Path} {g : Graph}
    (finished : (run w schedule limit reference).outcome = .finished g) :
    w.Completes reference g.assets := by
  rcases run_cases w limit reference with ⟨outcome, _, complete, ended⟩ | ⟨_, _, _, failed⟩
  · exact complete g ((ended schedule).symm.trans finished)
  · obtain ⟨e, _, came⟩ := failed schedule
    cases finished.symm.trans came

/-- Whatever order loads that run together end in, the build gives the graph that a build in
turn gives. Where that fails, this fails too, for the entry in the same way and else in the same
generation; the failures differ only if the generation has several. -/
theorem together_agrees_with_inTurn (w : Workspace) (completion : Completion) (limit : Nat)
    (reference : Path) :
    (∀ g, (run w .inTurn limit reference).outcome = .finished g →
      (run w (.together completion) limit reference).outcome = .finished g) ∧
    (∀ e, (run w .inTurn limit reference).outcome = .failed e →
      ∃ other, (run w (.together completion) limit reference).outcome = .failed other ∧
        ((w.loadEntry 0 reference).outcome = .error e ∧ other = e ∨
          ∃ depth s, w.Generation reference depth s ∧ w.Fails s e ∧ w.Fails s other ∧
            ((∀ p ∈ w.discovered s, ∀ q ∈ w.discovered s, (∃ e, p.outcome w = .error e) →
              (∃ e, q.outcome w = .error e) → p = q) → other = e))) ∧
    ((run w .inTurn limit reference).outcome = .unfinished →
      (run w (.together completion) limit reference).outcome = .unfinished) := by
  rcases run_cases w limit reference with ⟨outcome, entry, _, ended⟩ | ⟨depth, s, reached, failed⟩
  · rw [ended, ended]
    exact ⟨fun g finished => finished,
      fun e same => ⟨e, same, .inl ⟨entry e same, rfl⟩⟩, fun unfinished => unfinished⟩
  -- both fail in one generation, each where some load of it fails
  · obtain ⟨e, ⟨p, first, here⟩, inTurn⟩ := failed .inTurn
    obtain ⟨other, ⟨q, second, there⟩, together⟩ := failed (.together completion)
    rw [inTurn, together]
    refine ⟨nofun, fun e' same => ⟨other, rfl, .inr ?_⟩, nofun⟩
    obtain rfl := Outcome.failed.inj same
    refine ⟨depth, s, reached, ⟨p, first, here⟩, ⟨q, second, there⟩, fun only => ?_⟩
    obtain rfl := only p first q second ⟨_, here⟩ ⟨_, there⟩
    exact Except.error.inj (there.symm.trans here)

end Build

end ModuleBundle
