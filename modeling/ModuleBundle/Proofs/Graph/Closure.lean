import ModuleBundle.FileSystem.Memory
import ModuleBundle.Proofs.Graph.Stages

/-!
Finished graphs. They are dense, since the modules stand at the positions of their numbers, and
closed, since every specifier of a module leads to one of them; and each module but the entry
is there because one in front of it leads to it.
-/

set_option autoImplicit false

namespace ModuleBundle

namespace Workspace

/-- What the modules of a finished build must be. -/
structure Closed (w : Workspace) (reference : Path) (assets : List Asset) : Prop where
  ids : assets.map Asset.id = List.range assets.length
  distinct : Seen.Distinct ⟨assets.map Asset.path⟩
  linked : ∀ a ∈ assets, w.Linked ⟨assets.map Asset.path⟩ a
  entry : ∃ entry others, assets.map Asset.loaded = entry :: others ∧
    (w.loadEntry 0 reference).outcome = .ok entry ∧ ∀ b ∈ others, w.Stems assets b

variable {w : Workspace} {reference : Path} {assets : List Asset} {a b : Asset}

theorem Completes.closed (complete : w.Completes reference assets) : w.Closed reference assets := by
  obtain ⟨depth, s, reached, empty, rfl⟩ := complete
  have holds := reached.consistent
  have modules : s.modules = s.visited.map Asset.loaded := by
    rw [Stage.modules, empty, List.append_nil]
  have seen : s.seen = ⟨s.visited.map Asset.path⟩ := by
    have keys := holds.keys
    rw [modules, List.map_map] at keys
    exact congrArg Seen.mk keys
  exact {
    ids := by
      have ids := holds.ids
      rw [modules, List.map_map, List.length_map] at ids
      exact ids
    distinct := seen ▸ holds.distinct
    linked := seen ▸ holds.linked
    entry := modules ▸ holds.entry }

namespace Closed

theorem id_eq (closed : w.Closed reference assets) {position : Nat}
    (found : assets[position]? = some a) : a.id = position := by
  have numbered : (assets.map Asset.id)[position]? = some a.id := by
    rw [List.getElem?_map, found]
    rfl
  rw [closed.ids] at numbered
  obtain ⟨bound, same⟩ := List.getElem?_eq_some_iff.mp numbered
  rw [← same, List.getElem_range]

theorem getElem?_id (closed : w.Closed reference assets) (member : a ∈ assets) :
    assets[a.id]? = some a := by
  obtain ⟨position, found⟩ := List.mem_iff_getElem?.mp member
  rw [closed.id_eq found]
  exact found

theorem id?_eq_some_iff (closed : w.Closed reference assets) (key : Path) (id : Nat) :
    Seen.id? ⟨assets.map Asset.path⟩ key = some id ↔
      ∃ b, assets[id]? = some b ∧ b.path.components = key.components := by
  rw [closed.distinct.id?_eq_some_iff]
  simp only [List.getElem?_map, Option.map_eq_some_iff]
  constructor
  · rintro ⟨_, ⟨b, found, rfl⟩, same⟩
    exact ⟨b, found, same⟩
  · rintro ⟨b, found, same⟩
    exact ⟨_, ⟨b, found, rfl⟩, same⟩

theorem mem_mapping_iff (closed : w.Closed reference assets) (member : a ∈ assets)
    (specifier : String) (id : Nat) :
    (specifier, id) ∈ a.mapping ↔ specifier ∈ a.specifiers ∧ ∃ b, assets[id]? = some b ∧
      b.path.components = (w.resolution a.path.parent specifier).key.components := by
  rw [(closed.linked a member).mapped, closed.id?_eq_some_iff]

theorem exists_of_specifier (closed : w.Closed reference assets) (member : a ∈ assets)
    {specifier : String} (listed : specifier ∈ a.specifiers) : ∃ b ∈ assets,
      (specifier, b.id) ∈ a.mapping ∧
        b.path.components = (w.resolution a.path.parent specifier).key.components := by
  obtain ⟨id, here⟩ := (closed.linked a member).found specifier listed
  obtain ⟨b, found, same⟩ := (closed.id?_eq_some_iff _ id).mp here
  refine ⟨b, List.mem_of_getElem? found, ?_, same⟩
  rw [closed.id_eq found]
  exact (closed.mem_mapping_iff member specifier id).mpr ⟨listed, b, found, same⟩

theorem eq_of_id (closed : w.Closed reference assets) (first : a ∈ assets) (second : b ∈ assets)
    (same : a.id = b.id) : a = b := by
  have found := closed.getElem?_id first
  rw [same, closed.getElem?_id second] at found
  exact (Option.some.inj found).symm

theorem eq_of_path (closed : w.Closed reference assets) (first : a ∈ assets) (second : b ∈ assets)
    (same : a.path.components = b.path.components) : a = b := by
  have here := (closed.id?_eq_some_iff b.path a.id).mpr ⟨a, closed.getElem?_id first, same⟩
  have there := (closed.id?_eq_some_iff b.path b.id).mpr ⟨b, closed.getElem?_id second, rfl⟩
  exact closed.eq_of_id first second (Option.some.inj (here.symm.trans there))

theorem entry_or_stems (closed : w.Closed reference assets) (member : b ∈ assets) :
    b.id = 0 ∧ (w.loadEntry 0 reference).outcome = .ok b.loaded ∨ w.Stems assets b.loaded := by
  obtain ⟨entry, others, same, loaded, stems⟩ := closed.entry
  have listed : b.loaded ∈ entry :: others := same ▸ List.mem_map_of_mem member
  rcases List.mem_cons.mp listed with rfl | listed
  · obtain ⟨path, _, here, _⟩ := loadEntry_ok loaded
    have zero : b.loaded.id = 0 := by rw [here]
    exact .inl ⟨zero, loaded⟩
  · exact .inr (stems _ listed)

theorem mem_mapping_of_stems (closed : w.Closed reference assets) (member : b ∈ assets)
    (stems : w.Stems assets b.loaded) :
    ∃ a ∈ assets, a.id < b.id ∧ ∃ specifier, (specifier, b.id) ∈ a.mapping := by
  obtain ⟨a, listed, before, specifier, specified, loaded⟩ := stems
  have found : b.path = (w.resolution a.path.parent specifier).key :=
    congrArg Asset.path (Pending.outcome_ok loaded).1
  refine ⟨a, listed, before, specifier, (closed.mem_mapping_iff listed specifier b.id).mpr ?_⟩
  exact ⟨specified, b, closed.getElem?_id member, congrArg Path.components found⟩

theorem mem_keys_iff (closed : w.Closed reference assets) (member : a ∈ assets) (specifier : String) :
    specifier ∈ a.mapping.map Prod.fst ↔ specifier ∈ a.specifiers := by
  constructor
  · intro listed
    obtain ⟨⟨_, id⟩, mapped, rfl⟩ := List.mem_map.mp listed
    exact ((closed.mem_mapping_iff member _ id).mp mapped).1
  · intro listed
    obtain ⟨b, _, mapped, _⟩ := closed.exists_of_specifier member listed
    exact List.mem_map_of_mem mapped

theorem id_lt (closed : w.Closed reference assets) (member : a ∈ assets) {id : Nat}
    (listed : id ∈ a.mapping.map Prod.snd) : id < assets.length := by
  obtain ⟨⟨specifier, _⟩, mapped, rfl⟩ := List.mem_map.mp listed
  obtain ⟨_, b, found, _⟩ := (closed.mem_mapping_iff member specifier _).mp mapped
  obtain ⟨bound, _⟩ := List.getElem?_eq_some_iff.mp found
  exact bound

theorem mapping_eq_nil (closed : w.Closed reference assets) (member : a ∈ assets)
    (none : a.specifiers = []) : a.mapping = [] := by
  refine List.eq_nil_iff_forall_not_mem.mpr fun ⟨specifier, id⟩ mapped => ?_
  have listed := ((closed.mem_mapping_iff member specifier id).mp mapped).1
  rw [none] at listed
  exact List.not_mem_nil listed

end Closed

end Workspace

theorem Asset.inert_of_isPlaceholder {a : Asset} (placeholder : a.isPlaceholder = true) :
    a.specifiers = [] ∧ a.body = "" := by
  obtain ⟨_, _, content, _⟩ := a
  cases content with
  | script analysis => exact absurd placeholder Bool.false_ne_true
  | placeholder failure => exact ⟨rfl, rfl⟩

namespace Graph

/-- Numbers are positions, and mappings lead every specifier, and nothing else, to a module of
the graph. -/
structure WellFormed (g : Graph) : Prop where
  dense : ∀ position a, g.get? position = some a → a.id = position
  mapped : ∀ a ∈ g.assets, ∀ specifier, specifier ∈ a.mapping.map Prod.fst ↔ specifier ∈ a.specifiers
  once : ∀ a ∈ g.assets, (a.mapping.map Prod.fst).Nodup
  bounded : ∀ a ∈ g.assets, ∀ id ∈ a.mapping.map Prod.snd, id < g.size
  requested : ∀ b ∈ g.assets, b.id ≠ 0 →
    ∃ a ∈ g.assets, a.id < b.id ∧ ∃ specifier, (specifier, b.id) ∈ a.mapping
  inert : ∀ a ∈ g.assets, a.isPlaceholder = true → a.specifiers = [] ∧ a.body = "" ∧ a.mapping = []

theorem entry_loaded {w : Workspace} {reference : Path} {g : Graph}
    (closed : w.Closed reference g.assets) :
    (w.loadEntry 0 reference).outcome = .ok g.entry.loaded := by
  obtain ⟨entry, others, same, loaded, _⟩ := closed.entry
  have first : g.entry.loaded = entry := (List.cons.inj same).1
  rw [first]
  exact loaded

/-- A graph that was finished is well-formed, and starts with what was loaded for the entry. -/
theorem wellFormed_of_finished {w : Workspace} {schedule : Schedule} {limit : Nat} {reference : Path}
    {g : Graph} (finished : (Build.run w schedule limit reference).outcome = .finished g) :
    g.WellFormed ∧ g.assets ≠ [] ∧ (w.loadEntry 0 reference).outcome = .ok g.entry.loaded := by
  have closed := (Build.completes_of_finished finished).closed
  refine ⟨?_, List.cons_ne_nil _ _, entry_loaded closed⟩
  exact {
    dense := fun position a found => closed.id_eq found
    mapped := fun a member => closed.mem_keys_iff member
    once := fun a member => (closed.linked a member).sorted.nodup
    bounded := fun a member id => closed.id_lt member
    requested := fun b member other => by
      rcases closed.entry_or_stems member with ⟨first, _⟩ | stems
      · exact absurd first other
      · exact closed.mem_mapping_of_stems member stems
    inert := fun a member placeholder => by
      obtain ⟨none, empty⟩ := Asset.inert_of_isPlaceholder placeholder
      exact ⟨none, empty, closed.mapping_eq_nil member none⟩ }

def sampleFiles : MemoryFiles :=
  .ofList [(⟨"/main.js"⟩, "require('./a')"), (⟨"/a.js"⟩, "require('./main.js'); require('b')")] []

def sample : Workspace := ⟨sampleFiles.fileSystem, .default, Analysis.analyzer, .lenient⟩

def sampleGraph : Graph :=
  ⟨⟨0, ⟨"/main.js"⟩, .script ⟨["./a"], "require('./a')"⟩, [("./a", 1)]⟩,
    [⟨1, ⟨"/a.js"⟩, .script ⟨["./main.js", "b"], "require('./main.js'); require('b')"⟩,
      [("./main.js", 0), ("b", 2)]⟩,
    ⟨2, ⟨"b"⟩, .placeholder (.unresolved ⟨⟨"b"⟩, []⟩), []⟩]⟩

theorem sample_finished :
    (Build.run sample .inTurn 3 ⟨"/main"⟩).outcome = .finished sampleGraph := by
  decide +kernel

theorem sampleGraph_wellFormed :
    (Build.run sample .inTurn 3 ⟨"/main"⟩).outcome = .finished sampleGraph ∧
      sampleGraph.WellFormed ∧ sampleGraph.assets ≠ [] ∧
      (sample.loadEntry 0 ⟨"/main"⟩).outcome = .ok sampleGraph.entry.loaded :=
  ⟨sample_finished, wellFormed_of_finished sample_finished⟩

end Graph

end ModuleBundle
