import ModuleBundle.Proofs.Graph.Closure

/-!
One module for one key. No two modules of a finished graph stand under the same path, and a
specifier leads to the module whose path is the key of its resolution, wherever the specifier
is written and however far the build had come when it was followed.
-/

set_option autoImplicit false

namespace ModuleBundle

theorem Path.same_eq_false_iff (p q : Path) : p.same q = false ↔ p.components ≠ q.components := by
  rw [← Bool.not_eq_true, Path.same_iff]

namespace Workspace.Closed

variable {w : Workspace} {reference : Path} {assets : List Asset} {a b : Asset}
  {specifier other : String}

theorem exists_of_lookup (closed : w.Closed reference assets) (member : a ∈ assets)
    (listed : specifier ∈ a.specifiers) : ∃ b ∈ assets, a.mapping.lookup specifier = some b.id ∧
      b.path.components = (w.resolution a.path.parent specifier).key.components := by
  obtain ⟨b, present, mapped, same⟩ := closed.exists_of_specifier member listed
  exact ⟨b, present, (closed.linked a member).sorted.lookup_eq_some_iff.mpr mapped, same⟩

theorem lookup_eq_iff (closed : w.Closed reference assets) (first : a ∈ assets)
    (listed : specifier ∈ a.specifiers) (second : b ∈ assets) (named : other ∈ b.specifiers) :
    a.mapping.lookup specifier = b.mapping.lookup other ↔
      (w.resolution a.path.parent specifier).key.components =
        (w.resolution b.path.parent other).key.components := by
  obtain ⟨c, here, toC, atC⟩ := closed.exists_of_lookup first listed
  obtain ⟨d, there, toD, atD⟩ := closed.exists_of_lookup second named
  rw [toC, toD, ← atC, ← atD]
  constructor
  · intro ids
    rw [closed.eq_of_id here there (Option.some.inj ids)]
  · intro paths
    rw [closed.eq_of_path here there paths]

end Workspace.Closed

namespace Graph

/-- Paths tell the modules apart, and specifiers lead to the same module exactly where their
resolutions have the same key. -/
structure Deduplicated (w : Workspace) (g : Graph) : Prop where
  distinct : g.assets.Pairwise fun a b => a.path.same b.path = false
  bound : ∀ a ∈ g.assets, ∀ specifier ∈ a.specifiers, ∃ b ∈ g.assets,
    a.mapping.lookup specifier = some b.id ∧
      ∀ c ∈ g.assets, c.path.same (w.resolution a.path.parent specifier).key = true ↔ c = b
  lookup_eq_iff : ∀ a ∈ g.assets, ∀ specifier ∈ a.specifiers, ∀ b ∈ g.assets, ∀ other ∈ b.specifiers,
    a.mapping.lookup specifier = b.mapping.lookup other ↔
      (w.resolution a.path.parent specifier).key.same (w.resolution b.path.parent other).key = true

theorem deduplicated_of_finished {w : Workspace} {schedule : Schedule} {limit : Nat}
    {reference : Path} {g : Graph}
    (finished : (Build.run w schedule limit reference).outcome = .finished g) :
    g.Deduplicated w := by
  have closed := (Build.completes_of_finished finished).closed
  refine ⟨?_, ?_, ?_⟩
  · refine (List.pairwise_map.mp closed.distinct).imp fun {a b} differ => ?_
    exact (Path.same_eq_false_iff a.path b.path).mpr differ
  · intro a member specifier listed
    obtain ⟨b, present, leads, same⟩ := closed.exists_of_lookup member listed
    refine ⟨b, present, leads, fun c other => ?_⟩
    rw [Path.same_iff, ← same]
    exact ⟨closed.eq_of_path other present, fun same => congrArg (·.path.components) same⟩
  · intro a first specifier listed b second other named
    rw [Path.same_iff]
    exact closed.lookup_eq_iff first listed second named

theorem sampleGraph_deduplicated :
    (Build.run sample .inTurn 3 ⟨"/main"⟩).outcome = .finished sampleGraph ∧
      sampleGraph.Deduplicated sample :=
  ⟨sample_finished, deduplicated_of_finished sample_finished⟩

end Graph

end ModuleBundle
