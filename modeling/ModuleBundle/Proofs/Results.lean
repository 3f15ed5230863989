import Mathlib.Data.List.Nodup

/-!
Lists of results. Steps that may fail give a list if none of them fails, and a failure of one
of them otherwise; results that are kept with their positions can be put back in order.
-/

set_option autoImplicit false

namespace ModuleBundle

variable {α β γ δ ε : Type}

theorem exists_of_map_eq_ok {finish : α → β} {result : Except ε α} {output : β}
    (ended : finish <$> result = .ok output) : ∃ value, result = .ok value ∧ output = finish value := by
  cases result with
  | error e => cases ended
  | ok value => exact ⟨value, rfl, (Except.ok.inj ended).symm⟩

theorem mapM_eq_ok_iff {step : α → Except ε β} {inputs : List α} {outputs : List β} :
    inputs.mapM step = .ok outputs ↔ inputs.map step = outputs.map .ok := by
  induction inputs generalizing outputs with
  | nil => cases outputs <;> simp [pure, Except.pure]
  | cons first rest ih =>
    rw [List.mapM_cons, List.map_cons]
    cases here : step first with
    | error e => cases outputs <;> simp [bind, Except.bind]
    | ok output =>
      cases outputs with
      | nil => cases rest.mapM step <;> simp [bind, Except.bind, pure, Except.pure]
      | cons other others =>
        rw [List.map_cons, List.cons.injEq, ← ih]
        cases rest.mapM step <;> simp [bind, Except.bind, pure, Except.pure]

theorem exists_of_mem_outputs {step : α → Except ε β} {inputs : List α} {outputs : List β}
    (ended : inputs.map step = outputs.map .ok) {output : β} (member : output ∈ outputs) :
    ∃ input ∈ inputs, step input = .ok output := by
  have listed : .ok output ∈ inputs.map step := ended ▸ List.mem_map_of_mem member
  exact List.mem_map.mp listed

theorem map_outputs {step : α → Except ε β} {inputs : List α} {outputs : List β} {before : α → γ}
    {after : β → γ} (ended : inputs.map step = outputs.map .ok)
    (keeps : ∀ input output, step input = .ok output → after output = before input) :
    outputs.map after = inputs.map before := by
  induction inputs generalizing outputs with
  | nil =>
    obtain rfl := List.map_eq_nil_iff.mp ended.symm
    rfl
  | cons input inputs ih =>
    cases outputs with
    | nil => cases ended
    | cons output outputs =>
      obtain ⟨here, later⟩ := List.cons.inj ended
      rw [List.map_cons, List.map_cons, keeps input output here, ih later]

theorem exists_of_mapM_eq_error {step : α → Except ε β} {inputs : List α} {e : ε}
    (failed : inputs.mapM step = .error e) : ∃ input ∈ inputs, step input = .error e := by
  induction inputs with
  | nil => simp [pure, Except.pure] at failed
  | cons first rest ih =>
    rw [List.mapM_cons] at failed
    cases here : step first with
    | error other =>
      rw [here] at failed
      obtain rfl := Except.error.inj failed
      exact ⟨first, List.mem_cons_self, here⟩
    | ok output =>
      cases later : rest.mapM step with
      | error other =>
        simp only [here, later, bind, Except.bind, Except.error.injEq] at failed
        obtain ⟨input, member, same⟩ := ih (failed ▸ later)
        exact ⟨input, List.mem_cons_of_mem first member, same⟩
      | ok outputs => simp [here, later, bind, Except.bind, pure, Except.pure] at failed

/-- Where every step gives its output, or fails for an output that is bad, all of them give
theirs and none is bad, or they fail for the first that is. -/
theorem mapM_ok_or_first_bad {step : α → Except ε β} (output : α → β) (bad : β → Bool)
    (Tells : ε → β → Prop) {inputs : List α}
    (ends : ∀ input ∈ inputs, step input = .ok (output input) ∧ bad (output input) = false ∨
      ∃ e, step input = .error e ∧ bad (output input) = true ∧ Tells e (output input)) :
    inputs.mapM step = .ok (inputs.map output) ∧ (inputs.map output).find? bad = none ∨
      ∃ e first, inputs.mapM step = .error e ∧ (inputs.map output).find? bad = some first ∧
        Tells e first := by
  induction inputs with
  | nil => exact .inl ⟨rfl, rfl⟩
  | cons input rest ih =>
    obtain ⟨here, later⟩ := List.forall_mem_cons.mp ends
    rw [List.mapM_cons, List.map_cons, List.find?_cons]
    rcases here with ⟨taken, good⟩ | ⟨e, lost, broken, tells⟩
    · rw [taken, good]
      rcases ih later with ⟨others, none⟩ | ⟨e, first, failed, found, tells⟩
      · rw [others]
        exact .inl ⟨rfl, none⟩
      · rw [failed]
        exact .inr ⟨e, first, rfl, found, tells⟩
    · rw [lost, broken]
      exact .inr ⟨e, output input, rfl, rfl, tells⟩

theorem map_mapM_bind {step : α → Except ε β} {first second : List α} {made : List β → γ}
    {next : γ → Except ε δ} {whole : List β → δ}
    (later : ∀ outputs, next (made outputs) = (whole <| outputs ++ ·) <$> second.mapM step) :
    (made <$> first.mapM step) >>= next = whole <$> (first ++ second).mapM step := by
  rw [List.mapM_append]
  cases first.mapM step with
  | error e => rfl
  | ok outputs =>
    refine (later outputs).trans ?_
    cases second.mapM step <;> rfl

theorem lookup_cons_ite [BEq α] [LawfulBEq α] [DecidableEq α] (entry : α × β)
    (rest : List (α × β)) (key : α) :
    (entry :: rest).lookup key = if key = entry.1 then some entry.2 else rest.lookup key := by
  obtain ⟨known, value⟩ := entry
  rw [List.lookup_cons]
  split_ifs with same
  · rw [beq_iff_eq.mpr same]
  · rw [beq_false_of_ne same]

theorem lookup_eq_some_iff_mem [BEq α] [LawfulBEq α] {entries : List (α × β)}
    (distinct : (entries.map Prod.fst).Nodup) (key : α) (value : β) :
    entries.lookup key = some value ↔ (key, value) ∈ entries := by
  induction entries with
  | nil => simp
  | cons first rest ih =>
    obtain ⟨known, other⟩ := first
    obtain ⟨absent, others⟩ := List.nodup_cons.mp distinct
    by_cases same : known = key
    · subst same
      have none : (known, value) ∉ rest := fun member => absent (List.mem_map.mpr ⟨_, member, rfl⟩)
      simp [none, eq_comm]
    · have differ : (key == known) = false := beq_eq_false_iff_ne.mpr (Ne.symm same)
      simp [List.lookup_cons, differ, Ne.symm same, ih others]

theorem filterMap_range_getElem? (values : List α) :
    (List.range values.length).filterMap (fun position => values[position]?) = values := by
  induction values with
  | nil => rfl
  | cons first rest ih =>
    rw [List.length_cons, List.range_succ_eq_map, List.filterMap_cons_some List.getElem?_cons_zero,
      List.filterMap_map]
    exact congrArg (first :: ·) ih

end ModuleBundle
