import ModuleBundle.Proofs.Graph.Generations
import ModuleBundle.Proofs.Results

/-!
Loading together. In whatever order the loads come to their ends, they give the modules in the
order of their numbers, or else the failure of one of them.
-/

set_option autoImplicit false

namespace ModuleBundle

open Session

section

variable {pending : List Pending} {loads : List (Pending × Nat)}
  {outcome : Pending → Except BundleError Asset}

theorem mem_of_perm_zipIdx (perm : loads.Perm pending.zipIdx) {load : Pending × Nat} :
    load ∈ loads ↔ pending[load.2]? = some load.1 := by
  rw [perm.mem_iff, List.mem_zipIdx_iff_getElem?]

theorem lookup_results (perm : loads.Perm pending.zipIdx) (position : Nat) :
    (loads.map fun load => (load.2, outcome load.1)).lookup position =
      (pending.map outcome)[position]? := by
  -- However the loads are ordered, each has a position of its own.
  have distinct : ((loads.map fun load => (load.2, outcome load.1)).map Prod.fst).Nodup := by
    rw [List.map_map, ((perm.map (Prod.fst ∘ _)).nodup_iff)]
    change (pending.zipIdx.map Prod.snd).Nodup
    rw [List.zipIdx_map_snd]
    exact List.nodup_range'
  ext result
  rw [lookup_eq_some_iff_mem distinct, List.mem_map, List.getElem?_map, Option.map_eq_some_iff]
  constructor
  · rintro ⟨load, member, same⟩
    obtain ⟨rfl, rfl⟩ := Prod.mk.inj same
    exact ⟨load.1, (mem_of_perm_zipIdx perm).mp member, rfl⟩
  · rintro ⟨p, found, rfl⟩
    exact ⟨(p, position), (mem_of_perm_zipIdx perm).mpr found, rfl⟩

theorem failureOf_eq_some_iff {result : Except BundleError Asset} {e : BundleError} :
    failureOf result = some e ↔ result = .error e := by
  cases result <;> simp [failureOf]

theorem gather_ok (perm : loads.Perm pending.zipIdx) {assets : List Asset}
    (loaded : pending.mapM outcome = .ok assets) :
    gather (loads.map fun load => (load.2, outcome load.1)) = .ok assets := by
  have each : pending.map outcome = assets.map .ok := mapM_eq_ok_iff.mp loaded
  have same : loads.length = assets.length := by
    have sizes := congrArg List.length each
    simpa [perm.length_eq] using sizes
  unfold gather
  split
  · -- A failure that came to light would be one of the results, and all of these are modules.
    rename_i e found
    obtain ⟨result, member, failed⟩ := List.exists_of_findSome?_eq_some found
    obtain ⟨load, listed, rfl⟩ := List.mem_map.mp member
    have here : outcome load.1 ∈ pending.map outcome :=
      List.mem_map_of_mem (List.mem_of_getElem? ((mem_of_perm_zipIdx perm).mp listed))
    rw [each] at here
    obtain ⟨asset, _, ended⟩ := List.mem_map.mp here
    cases ended.trans (failureOf_eq_some_iff.mp failed)
  -- looking the results up by their positions undoes the order of the ends
  · simp only [lookup_results perm, each, List.length_map, same, List.getElem?_map]
    have found (position : Nat) : (assets[position]?.map (@Except.ok BundleError Asset)).bind
        Except.toOption = assets[position]? := by
      cases assets[position]? <;> rfl
    simp only [found, filterMap_range_getElem?]

theorem gather_error (perm : loads.Perm pending.zipIdx) {e : BundleError}
    (failed : pending.mapM outcome = .error e) :
    ∃ p ∈ pending, ∃ other, outcome p = .error other ∧
      gather (loads.map fun load => (load.2, outcome load.1)) = .error other := by
  unfold gather
  split
  · rename_i other found
    obtain ⟨result, member, ended⟩ := List.exists_of_findSome?_eq_some found
    obtain ⟨load, listed, rfl⟩ := List.mem_map.mp member
    exact ⟨load.1, List.mem_of_getElem? ((mem_of_perm_zipIdx perm).mp listed), other,
      failureOf_eq_some_iff.mp ended, rfl⟩
  · rename_i none
    obtain ⟨p, member, ended⟩ := exists_of_mapM_eq_error failed
    obtain ⟨position, found⟩ := List.mem_iff_getElem?.mp member
    have listed : (p, position) ∈ loads := (mem_of_perm_zipIdx perm).mpr found
    have silent := List.findSome?_eq_none_iff.mp none _ (List.mem_map_of_mem listed)
    cases (failureOf_eq_some_iff.mpr ended).symm.trans silent

end

namespace Workspace

variable {w : Workspace}

theorem attempt_run (loads : List (Pending × Nat)) :
    ∃ events, ∀ journal, w.attempt loads journal =
      (loads.map fun load => (load.2, load.1.outcome w), journal ++ events) := by
  induction loads with
  | nil => exact ⟨[], fun journal => by simp [attempt]; rfl⟩
  | cons load rest ih =>
    obtain ⟨p, position⟩ := load
    obtain ⟨later, others⟩ := ih
    obtain ⟨result, events, run⟩ := p.load_appends w
    have same : p.outcome w = result := congrArg Prod.fst (run [])
    refine ⟨events ++ later, fun journal => ?_⟩
    have last := others (journal ++ events)
    change (let answer := (p.load w).run.run journal
      let results := w.attempt rest answer.2
      ((position, answer.1) :: results.1, results.2)) = _
    simp only [run, last, List.map_cons, same, List.append_assoc]

/-- Loading together ends in a way that depends on the loads and on the order of their ends. -/
theorem loadTogether_run (completion : Completion) (pending : List Pending) :
    ∃ events, ∀ journal, (w.loadTogether completion pending).run.run journal =
      (gather ((completion.order pending).map fun load => (load.2, load.1.outcome w)),
        journal ++ events) := by
  obtain ⟨events, run⟩ := attempt_run (completion.order pending)
  refine ⟨events, fun journal => ?_⟩
  change (let answer := w.attempt (completion.order pending) journal
    (ofExcept (gather answer.1) : Session (List Asset)).run.run answer.2) = _
  rw [run]
  dsimp only
  cases gather _ <;> rfl

theorem loadTogether_appends (completion : Completion) (pending : List Pending) :
    (w.loadTogether completion pending).Appends := by
  obtain ⟨events, run⟩ := loadTogether_run completion pending
  exact ⟨_, events, run⟩

theorem loadTogether_outcome (completion : Completion) (pending : List Pending) :
    (w.loadTogether completion pending).outcome =
      gather ((completion.order pending).map fun load => (load.2, load.1.outcome w)) := by
  obtain ⟨events, run⟩ := loadTogether_run completion pending
  exact congrArg Prod.fst (run [])

theorem round_appends (completion : Completion) (p : Progress) : (w.round completion p).Appends :=
  .bind (visit_appends .pure _ _) fun _ => .bind (loadTogether_appends _ _) fun _ => .pure _

theorem visit_pure_outcome {known : Knowledge}
    (sound : known.cache.Sound w.fileSystem w.extensions) (assets : List Asset) :
    ∃ cache : ResolutionCache, cache.Sound w.fileSystem w.extensions ∧
      (w.visit (fun pending => pure pending) known assets).outcome =
        let found := w.survey known.seen assets
        .ok ⟨found.visited, ⟨found.seen, cache⟩, found.pending⟩ := by
  obtain ⟨cache, settled, visited⟩ := visit_outcome Appends.pure sound assets
  refine ⟨cache, settled, ?_⟩
  let found := w.survey known.seen assets
  have kept : found.pending.mapM (fun pending => (pure pending : Session Pending).outcome) =
      .ok found.pending := by
    rw [mapM_eq_ok_iff]
    rfl
  rw [visited]
  change _ <$> found.pending.mapM _ = _
  rw [kept]
  rfl

theorem round_outcome (completion : Completion) {p : Progress}
    (sound : p.known.cache.Sound w.fileSystem w.extensions) :
    ∃ cache : ResolutionCache, cache.Sound w.fileSystem w.extensions ∧
      (w.round completion p).outcome =
        let found := w.survey p.known.seen p.waiting
        (⟨⟨found.seen, cache⟩, p.visited ++ found.visited, ·⟩) <$>
          gather ((completion.order found.pending).map fun load => (load.2, load.1.outcome w)) := by
  obtain ⟨cache, settled, surveyed⟩ := visit_pure_outcome sound p.waiting
  refine ⟨cache, settled, ?_⟩
  rw [round, outcome_bind (visit_appends .pure _ _)
    fun _ => .bind (loadTogether_appends _ _) fun _ => .pure _, surveyed]
  exact (outcome_bind_pure (loadTogether_appends _ _) _).trans
    (congrArg _ (loadTogether_outcome completion (w.survey p.known.seen p.waiting).pending))

/-- Every schedule comes to the same stage, or fails where something discovered cannot be
loaded. -/
theorem advance_outcome (schedule : Schedule) {p : Progress}
    (sound : p.known.cache.Sound w.fileSystem w.extensions) :
    ∃ cache : ResolutionCache, cache.Sound w.fileSystem w.extensions ∧
      match w.next p.stage with
      | .ok later => (w.advance schedule p).outcome = .ok (later.progress cache)
      | .error _ => ∃ e, w.Fails p.stage e ∧ (w.advance schedule p).outcome = .error e := by
  cases schedule with
  | inTurn =>
    obtain ⟨cache, settled, ended⟩ := advance_inTurn sound
    refine ⟨cache, settled, ?_⟩
    rw [ended]
    cases loaded : (w.discovered p.stage).mapM (Pending.outcome w) with
    | ok assets =>
      simp only [next, loaded]
      rfl
    | error e =>
      simp only [next, loaded]
      exact ⟨e, exists_of_mapM_eq_error loaded, rfl⟩
  | together completion =>
    obtain ⟨cache, settled, ended⟩ := round_outcome completion sound
    refine ⟨cache, settled, ?_⟩
    simp only [advance, ended]
    have perm := completion.perm (w.discovered p.stage)
    cases loaded : (w.discovered p.stage).mapM (Pending.outcome w) with
    | ok assets =>
      simp only [next, loaded]
      exact congrArg _ (gather_ok perm loaded)
    | error e =>
      -- which of several failures is told depends on the order of the ends
      obtain ⟨q, member, other, failed, gathered⟩ := gather_error perm loaded
      simp only [next, loaded]
      exact ⟨other, ⟨q, member, failed⟩, congrArg _ gathered⟩

theorem advance_appends (schedule : Schedule) (p : Progress) : (w.advance schedule p).Appends := by
  cases schedule with
  | inTurn => exact turns_appends _ _
  | together completion => exact round_appends completion p

end Workspace

end ModuleBundle
