import ModuleBundle.Proofs.Graph.Discovery
import ModuleBundle.Proofs.Graph.Numbering

/-!
What discovery gives. Modules are discovered with consecutive numbers under keys that were not
seen before, each for a specifier that leads to it, and a module's mapping leads every one of
its specifiers, and nothing else, to the number of the specifier's key.
-/

set_option autoImplicit false

namespace ModuleBundle

/-- A module as it was loaded, before its specifiers were followed. -/
def Asset.loaded (a : Asset) : Asset := { a with mapping := [] }

namespace Workspace

/-- What `d` must be to have followed specifiers from `importer`. -/
structure Discovers (w : Workspace) (importer : Path) (seen : Seen) (mapping : Mapping)
    (specifiers : List String) (d : Discovery) : Prop where
  keys : d.seen.keys = seen.keys ++ d.pending.map (·.resolution.key)
  ids : d.pending.map Pending.id = List.range' seen.size d.pending.length
  distinct : d.seen.Distinct
  named : ∀ p ∈ d.pending, p.importer = importer ∧ p.specifier ∈ specifiers ∧
    p.resolution = w.resolution importer p.specifier
  found : ∀ specifier ∈ specifiers, ∃ id, d.seen.id? (w.resolution importer specifier).key = some id
  sorted : d.mapping.Sorted
  mapped : ∀ specifier id, (specifier, id) ∈ d.mapping ↔
    if specifier ∈ specifiers then d.seen.id? (w.resolution importer specifier).key = some id
    else (specifier, id) ∈ mapping

variable {w : Workspace} {importer : Path} {seen next : Seen} {mapping : Mapping}
  {specifier : String} {rest : List String} {d : Discovery} {id : Nat}

theorem Discovers.before (found : w.Discovers importer seen mapping rest d) : seen.Before d.seen :=
  ⟨_, found.keys⟩

theorem Discovers.size (found : w.Discovers importer seen mapping rest d) :
    d.seen.size = seen.size + d.pending.length := by
  simp [Seen.size, found.keys]

theorem Discovers.cons (others : w.Discovers importer seen (mapping.insert specifier id) rest d)
    (sorted : mapping.Sorted) (here : seen.id? (w.resolution importer specifier).key = some id) :
    w.Discovers importer seen mapping (specifier :: rest) d where
  keys := others.keys
  ids := others.ids
  distinct := others.distinct
  named p member := by
    obtain ⟨same, listed, resolved⟩ := others.named p member
    exact ⟨same, List.mem_cons_of_mem _ listed, resolved⟩
  found other member := by
    rcases List.mem_cons.mp member with rfl | member
    · exact ⟨id, Seen.id?_before others.before here⟩
    · exact others.found other member
  sorted := others.sorted
  -- the later of two entries under one specifier counts, and both lead to the same module
  mapped other value := by
    have still := Seen.id?_before others.before here
    rw [others.mapped, sorted.mem_insert_iff]
    by_cases listed : other ∈ rest
    · simp [listed]
    · by_cases same : other = specifier
      · simp [same, still, eq_comm]
      · simp [same, listed]

theorem Discovers.push (listed : specifier ∈ rest)
    (others : w.Discovers importer (seen.push (w.resolution importer specifier).key) mapping rest d) :
    w.Discovers importer seen mapping rest { d with
      pending := ⟨seen.size, specifier, importer, w.resolution importer specifier⟩ :: d.pending } where
  keys := by
    rw [others.keys, Seen.push, List.append_assoc]
    rfl
  ids := by
    have later := others.ids
    simp only [Seen.size, Seen.push, List.length_append, List.length_singleton] at later
    simp only [List.map_cons, List.length_cons, List.range'_succ, later]
    rfl
  distinct := others.distinct
  named p member := by
    rcases List.mem_cons.mp member with rfl | member
    · exact ⟨rfl, listed, rfl⟩
    · exact others.named p member
  found := others.found
  sorted := others.sorted
  mapped := others.mapped

theorem discover_spec (distinct : seen.Distinct) (sorted : mapping.Sorted) (specifiers : List String) :
    w.Discovers importer seen mapping specifiers (w.discover importer seen mapping specifiers) := by
  induction specifiers generalizing seen mapping with
  | nil =>
    exact {
      keys := (List.append_nil _).symm
      ids := rfl
      distinct
      named := nofun
      found := nofun
      sorted
      mapped := fun _ _ => by simp [discover] }
  | cons specifier rest ih =>
    cases here : seen.id? (w.resolution importer specifier).key with
    | some id =>
      simp only [discover, here]
      exact (ih distinct (sorted.insert specifier id)).cons sorted here
    | none =>
      -- The key is pushed before the rest is followed, so it is found where the rest ends.
      simp only [discover, here]
      have others := ih (distinct.push here) (sorted.insert specifier seen.size)
      exact (others.cons sorted (Seen.id?_push_self here)).push List.mem_cons_self

/-- A module whose specifiers were all followed: each leads to the number of its key. -/
structure Linked (w : Workspace) (seen : Seen) (a : Asset) : Prop where
  sorted : a.mapping.Sorted
  found : ∀ specifier ∈ a.specifiers, ∃ id,
    seen.id? (w.resolution a.path.parent specifier).key = some id
  mapped : ∀ specifier id, (specifier, id) ∈ a.mapping ↔ specifier ∈ a.specifiers ∧
    seen.id? (w.resolution a.path.parent specifier).key = some id

theorem Linked.before {a : Asset} (linked : w.Linked seen a) (before : seen.Before next) :
    w.Linked next a where
  sorted := linked.sorted
  found specifier listed := by
    obtain ⟨id, here⟩ := linked.found specifier listed
    exact ⟨id, Seen.id?_before before here⟩
  mapped specifier id := by
    rw [linked.mapped]
    refine and_congr_right fun listed => ?_
    obtain ⟨other, here⟩ := linked.found specifier listed
    rw [here, Seen.id?_before before here]

theorem Discovers.linked {a : Asset}
    (found : w.Discovers a.path.parent seen [] a.specifiers d) :
    w.Linked d.seen { a with mapping := d.mapping } where
  sorted := found.sorted
  found := found.found
  mapped specifier id := by
    refine (found.mapped specifier id).trans ?_
    change _ ↔ specifier ∈ a.specifiers ∧ _
    by_cases listed : specifier ∈ a.specifiers <;> simp [listed]

/-- What `s` must be to have visited modules. -/
structure Surveys (w : Workspace) (seen : Seen) (assets : List Asset) (s : Survey) : Prop where
  keys : s.seen.keys = seen.keys ++ s.pending.map (·.resolution.key)
  ids : s.pending.map Pending.id = List.range' seen.size s.pending.length
  distinct : s.seen.Distinct
  loaded : s.visited.map Asset.loaded = assets
  linked : ∀ a ∈ s.visited, w.Linked s.seen a
  named : ∀ p ∈ s.pending, ∃ a ∈ s.visited, p.importer = a.path.parent ∧
    p.specifier ∈ a.specifiers ∧ p.resolution = w.resolution a.path.parent p.specifier

theorem Surveys.cons {asset : Asset} {assets : List Asset} {s : Survey}
    (first : w.Discovers asset.path.parent seen [] asset.specifiers d)
    (others : w.Surveys d.seen assets s) (fresh : asset.mapping = []) :
    w.Surveys seen (asset :: assets) ⟨{ asset with mapping := d.mapping } :: s.visited, s.seen,
      d.pending ++ s.pending⟩ where
  keys := by
    rw [others.keys, first.keys, List.map_append, List.append_assoc]
  ids := by
    simp only [List.map_append, first.ids, others.ids, first.size, List.length_append,
      List.range'_append_1]
  distinct := others.distinct
  loaded := by
    rw [List.map_cons, others.loaded]
    exact congrArg (· :: assets) (congrArg ({ asset with mapping := · }) fresh.symm)
  linked := by
    intro a member
    rcases List.mem_cons.mp member with rfl | member
    · exact first.linked.before ⟨_, others.keys⟩
    · exact others.linked a member
  named := by
    intro p member
    rcases List.mem_append.mp member with member | member
    · obtain ⟨importer, listed, resolved⟩ := first.named p member
      exact ⟨_, List.mem_cons_self, importer, listed, resolved⟩
    · obtain ⟨a, visited, named⟩ := others.named p member
      exact ⟨a, List.mem_cons_of_mem _ visited, named⟩

theorem survey_spec (distinct : seen.Distinct) {assets : List Asset}
    (fresh : ∀ a ∈ assets, a.mapping = []) : w.Surveys seen assets (w.survey seen assets) := by
  induction assets generalizing seen with
  | nil =>
    exact {
      keys := (List.append_nil _).symm
      ids := rfl
      distinct
      loaded := rfl
      linked := nofun
      named := nofun }
  | cons asset rest ih =>
    have empty : asset.mapping = [] := fresh asset List.mem_cons_self
    have first : w.Discovers asset.path.parent seen [] asset.specifiers _ :=
      discover_spec distinct .nil asset.specifiers
    have others := ih first.distinct fun a member => fresh a (List.mem_cons_of_mem _ member)
    simp only [survey, empty]
    exact .cons first others empty

end Workspace

end ModuleBundle
