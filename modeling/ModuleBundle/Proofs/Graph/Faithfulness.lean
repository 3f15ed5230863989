import ModuleBundle.Proofs.Graph.Deduplication
import ModuleBundle.Proofs.Resolution.Trees

/-!
What specifiers are bound to. Files and references without a file share the keys by which
modules are told apart, and a package is known by its bare name, which is also a relative path.
So a specifier without a file is bound to a stand-in only as long as its key is no file's; this
is the exact condition, and a build with a relative entry can violate it.
-/

set_option autoImplicit false

namespace ModuleBundle

namespace Resolution

variable {r : Resolution}

theorem key_of_ok {path : Path} (resolved : r.resolved = .ok path) : r.key = path := by
  rw [key, resolved]

end Resolution

namespace Workspace

variable {w : Workspace} {reference : Path} {assets : List Asset} {b : Asset} {r : Resolution}

theorem contentFor_ok {path : Path} (resolved : r.resolved = .ok path) :
    w.contentFor r = w.contentOf path := by
  rw [contentFor, resolved]

theorem contentFor_error {e : Unresolved} (resolved : r.resolved = .error e) :
    w.contentFor r = .placeholder (.unresolved e) := by
  rw [contentFor, resolved]

theorem contentOf_ne_unresolved (path : Path) (e : Unresolved) :
    w.contentOf path ≠ .placeholder (.unresolved e) := by
  unfold contentOf
  split
  · nofun
  · split <;> nofun

theorem Closed.made (closed : w.Closed reference assets) (member : b ∈ assets) :
    b.id = 0 ∧ b.content = w.contentOf b.path ∨
      ∃ a ∈ assets, ∃ specifier ∈ a.specifiers, b.path = (w.resolution a.path.parent specifier).key ∧
        b.content = w.contentFor (w.resolution a.path.parent specifier) := by
  rcases closed.entry_or_stems member with ⟨first, loaded⟩ | ⟨a, listed, _, specifier, named, loaded⟩
  · obtain ⟨path, _, same, _⟩ := loadEntry_ok loaded
    refine .inl ⟨first, ?_⟩
    have content : b.content = w.contentOf path := congrArg Asset.content same
    have here : b.path = path := congrArg Asset.path same
    rw [content, here]
  · have same := (Pending.outcome_ok loaded).1
    exact .inr ⟨a, listed, specifier, named, congrArg Asset.path same, congrArg Asset.content same⟩

theorem Closed.strict (closed : w.Closed reference assets) (member : b ∈ assets)
    (strict : w.mode = .strict) : b.isPlaceholder = false := by
  rcases closed.entry_or_stems member with ⟨_, loaded⟩ | ⟨_, _, _, _, _, loaded⟩
  · obtain ⟨_, _, _, only⟩ := loadEntry_ok loaded
    exact only strict
  · exact (Pending.outcome_ok loaded).2 strict

end Workspace

namespace Graph

/-- A specifier that leads to a file is bound to what was made from this file, and one that
leads to none is bound to a stand-in. -/
def Faithful (w : Workspace) (g : Graph) : Prop :=
  ∀ a ∈ g.assets, ∀ specifier ∈ a.specifiers, ∃ b ∈ g.assets,
    a.mapping.lookup specifier = some b.id ∧
      match (w.resolution a.path.parent specifier).resolved with
      | .ok path => b.path.same path = true ∧ b.content = w.contentOf b.path
      | .error _ => ∃ e, b.content = .placeholder (.unresolved e)

/-- What the specifiers of a graph lead to. -/
def resolutions (w : Workspace) (g : Graph) : List Resolution :=
  g.assets.flatMap fun a => a.specifiers.map (w.resolution a.path.parent)

/-- No reference without a file is spelled like the entry's file or a file that another
specifier leads to. -/
def KeysApart (w : Workspace) (g : Graph) : Prop :=
  ∀ r ∈ g.resolutions w, r.resolved.isOk = false →
    g.entry.path.same r.key = false ∧
      ∀ other ∈ g.resolutions w, other.resolved.isOk = true → other.key.same r.key = false

instance (w : Workspace) (g : Graph) : Decidable (g.KeysApart w) :=
  inferInstanceAs (Decidable (∀ r ∈ g.resolutions w, _))

variable {w : Workspace} {reference : Path} {g : Graph}

theorem mem_resolutions_iff {r : Resolution} : r ∈ g.resolutions w ↔
    ∃ a ∈ g.assets, ∃ specifier ∈ a.specifiers, w.resolution a.path.parent specifier = r := by
  simp [resolutions]

theorem resolution_mem (w : Workspace) {a : Asset} (member : a ∈ g.assets) {specifier : String}
    (listed : specifier ∈ a.specifiers) : w.resolution a.path.parent specifier ∈ g.resolutions w :=
  mem_resolutions_iff.mpr ⟨a, member, specifier, listed, rfl⟩

theorem eq_entry (closed : w.Closed reference g.assets) {b : Asset} (member : b ∈ g.assets)
    (first : b.id = 0) : b = g.entry := by
  have found := closed.getElem?_id member
  rw [first] at found
  exact (Option.some.inj found).symm

theorem faithful_of_keysApart (closed : w.Closed reference g.assets) (apart : g.KeysApart w) :
    g.Faithful w := by
  intro a member specifier listed
  obtain ⟨b, present, leads, same⟩ := closed.exists_of_lookup member listed
  have here := resolution_mem w member listed
  refine ⟨b, present, leads, ?_⟩
  cases resolved : (w.resolution a.path.parent specifier).resolved with
  | ok path =>
    refine ⟨(Path.same_iff _ _).mpr (same.trans (by rw [Resolution.key_of_ok resolved])), ?_⟩
    rcases closed.made present with ⟨_, content⟩ | ⟨c, there, other, named, key, content⟩
    · exact content
    · cases found : (w.resolution c.path.parent other).resolved with
      | ok file => rw [content, Workspace.contentFor_ok found, key, Resolution.key_of_ok found]
      | error e =>
        -- This module would stand in for a missing file and be found under the key of one.
        have missing := resolution_mem w there named
        have differ := (apart _ missing (by rw [found]; rfl)).2 _ here (by rw [resolved]; rfl)
        rw [← key] at differ
        exact absurd same.symm ((Path.same_eq_false_iff _ _).mp differ)
  | error e =>
    obtain ⟨notEntry, noFile⟩ := apart _ here (by rw [resolved]; rfl)
    rcases closed.made present with ⟨first, _⟩ | ⟨c, there, other, named, key, content⟩
    · rw [eq_entry closed present first] at same
      exact absurd same ((Path.same_eq_false_iff _ _).mp notEntry)
    · cases found : (w.resolution c.path.parent other).resolved with
      | ok file =>
        have file := resolution_mem w there named
        rw [key] at same
        exact absurd same ((Path.same_eq_false_iff _ _).mp (noFile _ file (by rw [found]; rfl)))
      | error e => exact ⟨e, content.trans (Workspace.contentFor_error found)⟩

theorem entry_content (closed : w.Closed reference g.assets) :
    g.entry.content = w.contentOf g.entry.path := by
  obtain ⟨path, _, same, _⟩ := Workspace.loadEntry_ok (entry_loaded closed)
  have content : g.entry.content = w.contentOf path := congrArg Asset.content same
  have here : g.entry.path = path := congrArg Asset.path same
  rw [content, here]

theorem Faithful.unresolved (faithful : g.Faithful w) (closed : w.Closed reference g.assets)
    {r : Resolution} (listed : r ∈ g.resolutions w) (missing : r.resolved.isOk = false) {b : Asset}
    (present : b ∈ g.assets) (same : b.path.components = r.key.components) :
    ∃ e, b.content = .placeholder (.unresolved e) := by
  obtain ⟨a, member, specifier, named, rfl⟩ := mem_resolutions_iff.mp listed
  obtain ⟨c, there, leads, bound⟩ := faithful a member specifier named
  obtain ⟨d, placed, also, key⟩ := closed.exists_of_lookup member named
  have found : b = c := by
    rw [closed.eq_of_path present placed (same.trans key.symm)]
    exact closed.eq_of_id placed there (Option.some.inj (also.symm.trans leads))
  cases resolved : (w.resolution a.path.parent specifier).resolved with
  | ok path => simp [resolved, Except.isOk, Except.toBool] at missing
  | error e =>
    rw [resolved] at bound
    rwa [found]

theorem Faithful.resolved (faithful : g.Faithful w) {r : Resolution} (listed : r ∈ g.resolutions w)
    (present : r.resolved.isOk = true) :
    ∃ b ∈ g.assets, b.path.components = r.key.components ∧ b.content = w.contentOf b.path := by
  obtain ⟨a, member, specifier, named, rfl⟩ := mem_resolutions_iff.mp listed
  obtain ⟨b, there, _, bound⟩ := faithful a member specifier named
  cases resolved : (w.resolution a.path.parent specifier).resolved with
  | ok path =>
    simp only [resolved, Path.same_iff] at bound
    exact ⟨b, there, bound.1.trans (by rw [Resolution.key_of_ok resolved]), bound.2⟩
  | error e => simp [resolved, Except.isOk, Except.toBool] at present

theorem keysApart_of_faithful (closed : w.Closed reference g.assets) (faithful : g.Faithful w) :
    g.KeysApart w := by
  intro r listed missing
  constructor
  · refine (Path.same_eq_false_iff _ _).mpr fun same => ?_
    obtain ⟨e, content⟩ := faithful.unresolved closed listed missing List.mem_cons_self same
    exact w.contentOf_ne_unresolved _ e ((entry_content closed).symm.trans content)
  · intro other named found
    refine (Path.same_eq_false_iff _ _).mpr fun same => ?_
    obtain ⟨b, present, key, solid⟩ := faithful.resolved named found
    obtain ⟨e, content⟩ := faithful.unresolved closed listed missing present (key.trans same)
    exact w.contentOf_ne_unresolved _ e (solid.symm.trans content)

theorem found_of_isOk {m : MemoryFiles} (tree : m.Tree) (kept : w.fileSystem = m.fileSystem)
    (plain : w.extensions.Plain) {r : Resolution} (listed : r ∈ g.resolutions w)
    (present : r.resolved.isOk = true) :
    m.isFile r.key = true ∧ w.extensions.recognizes r.key = true := by
  obtain ⟨a, _, specifier, _, rfl⟩ := mem_resolutions_iff.mp listed
  unfold Workspace.resolution Resolution.ofSpecifier at present ⊢
  split_ifs at present ⊢
  · cases resolved : resolve w.fileSystem w.extensions (Resolution.candidateOf a.path.parent specifier) with
    | ok path =>
      simp only [Resolution.key, resolved]
      exact tree.resolve_eq_ok plain (kept ▸ resolved)
    | error e => simp [resolved, Except.isOk, Except.toBool] at present
  · cases present

theorem keysApart_of_tree (closed : w.Closed reference g.assets) {m : MemoryFiles} (tree : m.Tree)
    (kept : w.fileSystem = m.fileSystem) (plain : w.extensions.Plain) : g.KeysApart w := by
  intro r listed missing
  have apart {path : Path} (file : m.isFile path = true)
      (known : w.extensions.recognizes path = true) : path.same r.key = false := by
    obtain ⟨a, _, specifier, _, rfl⟩ := mem_resolutions_iff.mp listed
    rw [Path.same_eq_false_iff]
    unfold Workspace.resolution at missing ⊢
    rw [kept] at missing ⊢
    exact tree.key_ne missing file known
  constructor
  · obtain ⟨path, resolved, same, _⟩ := Workspace.loadEntry_ok (entry_loaded closed)
    have here : g.entry.path = path := congrArg Asset.path same
    rw [here]
    obtain ⟨file, known⟩ := tree.resolve_eq_ok plain (kept ▸ resolved)
    exact apart file known
  · intro other named present
    obtain ⟨file, known⟩ := found_of_isOk tree kept plain named present
    exact apart file known

theorem resolved_of_faithful (closed : w.Closed reference g.assets) (strict : w.mode = .strict)
    (faithful : g.Faithful w) {r : Resolution} (listed : r ∈ g.resolutions w) :
    r.resolved.isOk = true := by
  refine eq_true_of_ne_false fun missing => ?_
  obtain ⟨a, member, specifier, named, rfl⟩ := mem_resolutions_iff.mp listed
  obtain ⟨b, present, _, same⟩ := closed.exists_of_lookup member named
  obtain ⟨e, content⟩ := faithful.unresolved closed listed missing present same
  have solid := closed.strict present strict
  simp [Asset.isPlaceholder, Asset.failure?, content] at solid

/-- A finished graph is faithful exactly if no reference without a file shares its key with a
file; of a strict build, exactly if every specifier leads to a file. Over files that lie as in a
tree, with plain extensions, it always is. -/
theorem faithful_iff_keysApart {schedule : Schedule} {limit : Nat}
    (finished : (Build.run w schedule limit reference).outcome = .finished g) :
    (g.Faithful w ↔ g.KeysApart w) ∧
      (w.mode = .strict → (g.Faithful w ↔ ∀ r ∈ g.resolutions w, r.resolved.isOk = true)) ∧
      ∀ m : MemoryFiles, m.Tree → w.fileSystem = m.fileSystem → w.extensions.Plain →
        g.Faithful w := by
  have closed := (Build.completes_of_finished finished).closed
  refine ⟨⟨keysApart_of_faithful closed, faithful_of_keysApart closed⟩, fun strict => ⟨?_, ?_⟩, ?_⟩
  · intro faithful r listed
    exact resolved_of_faithful closed strict faithful listed
  · intro complete
    refine faithful_of_keysApart closed fun r listed missing => ?_
    exact absurd (complete r listed) (by simp [missing])
  · intro m tree kept plain
    exact faithful_of_keysApart closed (keysApart_of_tree closed tree kept plain)

theorem sampleGraph_faithful :
    (Build.run sample .inTurn 3 ⟨"/main"⟩).outcome = .finished sampleGraph ∧
      sampleFiles.Tree ∧ sample.extensions.Plain ∧ sampleGraph.Faithful sample := by
  have tree : sampleFiles.Tree := by decide +kernel
  have plain : sample.extensions.Plain := by decide +kernel
  obtain ⟨_, _, faithful⟩ := faithful_iff_keysApart sample_finished
  exact ⟨sample_finished, tree, plain, faithful sampleFiles tree rfl plain⟩

/-- With a relative entry, a file can have the name of a package. -/
def clash : Workspace :=
  let files := MemoryFiles.ofList
    [(⟨"main.js"⟩, "require('./foo.js'); require('foo.js')"), (⟨"foo.js"⟩, "")] []
  ⟨files.fileSystem, .default, Analysis.analyzer, .strict⟩

def clashGraph : Graph :=
  ⟨⟨0, ⟨"main.js"⟩, .script ⟨["./foo.js", "foo.js"], "require('./foo.js'); require('foo.js')"⟩,
      [("./foo.js", 1), ("foo.js", 1)]⟩,
    [⟨1, ⟨"foo.js"⟩, .script ⟨[], ""⟩, []⟩]⟩

theorem clashGraph_not_faithful :
    (Build.run clash .inTurn 2 ⟨"main.js"⟩).outcome = .finished clashGraph ∧
      ¬ clashGraph.Faithful clash := by
  refine ⟨by decide +kernel, fun faithful => ?_⟩
  obtain ⟨b, present, _, bound⟩ := faithful _ List.mem_cons_self "foo.js" (by decide)
  have missing : (clash.resolution clashGraph.entry.path.parent "foo.js").resolved =
      .error ⟨⟨"foo.js"⟩, []⟩ := rfl
  simp only [missing] at bound
  obtain ⟨e, content⟩ := bound
  have solid : ∀ b ∈ clashGraph.assets, b.isPlaceholder = false := by decide
  have script := solid b present
  simp [Asset.isPlaceholder, Asset.failure?, content] at script

end Graph

end ModuleBundle
