import ModuleBundle.Loading

/-!
How steps of a build end. Steps add to the journal and never read it, so they end the same
way whatever was asked before them, and their ends compose like results that may be failures.
-/

set_option autoImplicit false

namespace ModuleBundle.Session

variable {α β : Type}

def outcome (steps : Session α) : Except BundleError α := (steps.run.run []).1

/-- The steps only add to the journal, and what they add does not depend on it. -/
def Appends (steps : Session α) : Prop :=
  ∃ result events, ∀ journal, steps.run.run journal = (result, journal ++ events)

theorem run_bind (first : Session α) (next : α → Session β) (journal : Journal) :
    (first >>= next).run.run journal = match first.run.run journal with
      | (.ok value, journal) => (next value).run.run journal
      | (.error error, journal) => (.error error, journal) := by
  simp only [ExceptT.run_bind, StateT.run_bind]
  rcases first.run.run journal with ⟨_ | _, _⟩ <;> rfl

theorem Appends.pure (value : α) : (pure value : Session α).Appends :=
  ⟨.ok value, [], fun journal => Prod.ext rfl (List.append_nil journal).symm⟩

theorem Appends.throw (error : BundleError) : (throw error : Session α).Appends :=
  ⟨.error error, [], fun journal => Prod.ext rfl (List.append_nil journal).symm⟩

theorem Appends.record (events : List Event) : (record events).Appends :=
  ⟨.ok (), events, fun _ => rfl⟩

theorem Appends.bind {first : Session α} {next : α → Session β} (here : first.Appends)
    (later : ∀ value, (next value).Appends) : (first >>= next).Appends := by
  obtain ⟨result, events, run⟩ := here
  cases result with
  | error error => exact ⟨.error error, events, fun journal => by simp only [run_bind, run]⟩
  | ok value =>
    obtain ⟨last, more, go⟩ := later value
    exact ⟨last, events ++ more, fun journal => by
      simp only [run_bind, run, go, List.append_assoc]⟩

theorem outcome_pure (value : α) : (pure value : Session α).outcome = .ok value := rfl

theorem outcome_bind {first : Session α} {next : α → Session β} (here : first.Appends)
    (later : ∀ value, (next value).Appends) :
    (first >>= next).outcome = first.outcome >>= fun value => (next value).outcome := by
  obtain ⟨result, events, run⟩ := here
  simp only [outcome, run_bind, run]
  cases result with
  | error error => rfl
  | ok value =>
    obtain ⟨last, more, go⟩ := later value
    simp only [go, bind, Except.bind]

theorem outcome_bind_pure {first : Session α} (here : first.Appends) (finish : α → β) :
    (first >>= fun value => pure (finish value)).outcome = finish <$> first.outcome := by
  rw [outcome_bind here fun _ => .pure _]
  cases first.outcome <;> rfl

theorem outcome_record_bind (events : List Event) {next : Session β} (later : next.Appends) :
    (record events >>= fun _ => next).outcome = next.outcome := by
  rw [outcome_bind (.record events) fun _ => later]
  rfl

end ModuleBundle.Session
