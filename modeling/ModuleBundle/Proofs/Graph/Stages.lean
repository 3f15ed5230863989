import ModuleBundle.Proofs.Graph.Agreement
import ModuleBundle.Proofs.Graph.Survey

/-!
What holds at every stage. The modules that were loaded so far, visited or still waiting, stand
at the positions of their numbers and under the keys seen; each but the entry was loaded for a
specifier of a module in front of it, and each that was visited has its mapping.
-/

set_option autoImplicit false

namespace ModuleBundle

open Session

def Stage.modules (s : Stage) : List Asset := (s.visited ++ s.waiting).map Asset.loaded

namespace Workspace

/-- The module was loaded for a specifier of a module in front of it. -/
def Stems (w : Workspace) (visited : List Asset) (b : Asset) : Prop :=
  ∃ a ∈ visited, a.id < b.id ∧ ∃ specifier ∈ a.specifiers,
    Pending.outcome w ⟨b.id, specifier, a.path.parent, w.resolution a.path.parent specifier⟩ = .ok b

structure Consistent (w : Workspace) (reference : Path) (s : Stage) : Prop where
  keys : s.seen.keys = s.modules.map Asset.path
  ids : s.modules.map Asset.id = List.range s.modules.length
  distinct : s.seen.Distinct
  fresh : ∀ a ∈ s.waiting, a.mapping = []
  linked : ∀ a ∈ s.visited, w.Linked s.seen a
  entry : ∃ entry others, s.modules = entry :: others ∧ (w.loadEntry 0 reference).outcome = .ok entry ∧
    ∀ b ∈ others, w.Stems s.visited b

variable {w : Workspace} {reference : Path} {s t : Stage}

theorem next_eq_ok (advanced : w.next s = .ok t) :
    ∃ found, (w.discovered s).map (Pending.outcome w) = found.map .ok ∧
      t = ⟨(w.survey s.seen s.waiting).seen, s.visited ++ (w.survey s.seen s.waiting).visited, found⟩ := by
  unfold next at advanced
  cases loaded : (w.discovered s).mapM (Pending.outcome w) with
  | error e => simp [loaded] at advanced
  | ok found =>
    rw [loaded] at advanced
    exact ⟨found, mapM_eq_ok_iff.mp loaded, (Except.ok.inj advanced).symm⟩

theorem map_loaded {assets : List Asset} (fresh : ∀ a ∈ assets, a.mapping = []) :
    assets.map Asset.loaded = assets := by
  refine (List.map_congr_left fun a member => ?_).trans (List.map_id assets)
  exact congrArg ({ a with mapping := · }) (fresh a member).symm

section

variable {pending : List Pending} {found : List Asset}

theorem fresh_of_loaded (loaded : pending.map (Pending.outcome w) = found.map .ok) :
    ∀ b ∈ found, b.mapping = [] := by
  intro b member
  obtain ⟨p, _, ended⟩ := exists_of_mem_outputs loaded member
  rw [(Pending.outcome_ok ended).1]

theorem ids_of_loaded (loaded : pending.map (Pending.outcome w) = found.map .ok) :
    found.map Asset.id = pending.map Pending.id :=
  map_outputs loaded fun p b ended => by rw [(Pending.outcome_ok ended).1]

theorem paths_of_loaded (loaded : pending.map (Pending.outcome w) = found.map .ok) :
    found.map Asset.path = pending.map (·.resolution.key) :=
  map_outputs loaded fun p b ended => by rw [(Pending.outcome_ok ended).1]

end

theorem consistent_entry {asset : Asset} (loaded : (w.loadEntry 0 reference).outcome = .ok asset) :
    w.Consistent reference (Progress.start asset).stage := by
  obtain ⟨path, _, rfl, _⟩ := loadEntry_ok loaded
  exact {
    keys := rfl
    ids := rfl
    distinct := List.pairwise_singleton _ _
    fresh := fun a member => by rw [List.mem_singleton.mp member]
    linked := nofun
    entry := ⟨_, [], rfl, loaded, nofun⟩ }

namespace Consistent

theorem size (holds : w.Consistent reference s) : s.seen.size = s.modules.length := by
  rw [Seen.size, holds.keys, List.length_map]

theorem id_lt (holds : w.Consistent reference s) {a : Asset} (member : a ∈ s.modules) :
    a.id < s.modules.length := by
  have numbered : a.id ∈ s.modules.map Asset.id := List.mem_map_of_mem member
  rw [holds.ids] at numbered
  exact List.mem_range.mp numbered

theorem surveys (holds : w.Consistent reference s) :
    w.Surveys s.seen s.waiting (w.survey s.seen s.waiting) :=
  survey_spec holds.distinct holds.fresh

theorem stems (holds : w.Consistent reference s) {p : Pending} (listed : p ∈ w.discovered s)
    {b : Asset} (ended : p.outcome w = .ok b) :
    w.Stems (w.survey s.seen s.waiting).visited b := by
  obtain ⟨a, visited, importer, specified, resolved⟩ := holds.surveys.named p listed
  have number : b.id = p.id := by rw [(Pending.outcome_ok ended).1]
  have before : a.id < b.id := by
    have waited : a.loaded ∈ s.waiting := holds.surveys.loaded ▸ List.mem_map_of_mem visited
    have present : a.loaded ∈ s.modules := by
      rw [Stage.modules, List.map_append, map_loaded holds.fresh]
      exact List.mem_append_right _ waited
    have above : p.id ∈ (w.discovered s).map Pending.id := List.mem_map_of_mem listed
    rw [discovered, holds.surveys.ids, holds.size] at above
    have low := holds.id_lt present
    have high := (List.mem_range'_1.mp above).1
    rw [number]
    exact low.trans_le high
  refine ⟨a, visited, before, p.specifier, specified, ?_⟩
  rw [number, ← resolved, ← importer]
  exact ended

theorem modules_next (holds : w.Consistent reference s) (advanced : w.next s = .ok t) :
    t.modules = s.modules ++ t.waiting := by
  obtain ⟨found, loaded, rfl⟩ := next_eq_ok advanced
  simp only [Stage.modules, List.map_append, holds.surveys.loaded, map_loaded holds.fresh,
    map_loaded (fresh_of_loaded loaded)]

theorem next (holds : w.Consistent reference s) (advanced : w.next s = .ok t) :
    w.Consistent reference t := by
  have modules := holds.modules_next advanced
  obtain ⟨found, loaded, rfl⟩ := next_eq_ok advanced
  have spec := holds.surveys
  have fresh := fresh_of_loaded loaded
  dsimp only at modules
  -- the survey numbers what it discovers from where the modules so far end
  have numbers : found.map Asset.id = List.range' s.modules.length found.length := by
    have sizes : found.length = (w.discovered s).length := by
      simpa using congrArg List.length (ids_of_loaded loaded)
    rw [ids_of_loaded loaded, sizes, ← holds.size]
    exact spec.ids
  obtain ⟨entry, others, here, started, stems⟩ := holds.entry
  exact {
    keys := by
      rw [modules, List.map_append, paths_of_loaded loaded, ← holds.keys]
      exact spec.keys
    ids := by
      rw [modules, List.map_append, holds.ids, numbers, List.length_append, List.range_eq_range',
        List.range_eq_range', ← List.range'_append_1, Nat.zero_add]
    distinct := spec.distinct
    fresh
    linked := by
      intro a member
      rcases List.mem_append.mp member with member | member
      · exact (holds.linked a member).before ⟨_, spec.keys⟩
      · exact spec.linked a member
    entry := by
      refine ⟨entry, others ++ found, by rw [modules, here]; rfl, started, fun b member => ?_⟩
      rcases List.mem_append.mp member with member | member
      · obtain ⟨a, visited, stem⟩ := stems b member
        exact ⟨a, List.mem_append_left _ visited, stem⟩
      · obtain ⟨p, listed, ended⟩ := exists_of_mem_outputs loaded member
        obtain ⟨a, visited, stem⟩ := holds.stems listed ended
        exact ⟨a, List.mem_append_right _ visited, stem⟩ }

end Consistent

theorem Generation.consistent {depth : Nat} (reached : w.Generation reference depth s) :
    w.Consistent reference s := by
  induction reached with
  | entry loaded => exact consistent_entry loaded
  | later _ _ advanced ih => exact ih.next advanced

end Workspace

end ModuleBundle
