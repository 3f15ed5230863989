import ModuleBundle.Proofs.Graph.LoadedOnce

/-!
Builds over files in memory end. A generation either loads a file that no earlier one did, or
waits for nothing but stand-ins, which need no other modules, and is the last but one. So the
number of files bounds the generations, the files loaded and the calls of the analyzer, whatever
the analyzer says that modules need.
-/

set_option autoImplicit false

namespace ModuleBundle

open Session

theorem Session.bind_congr {α β : Type} {first : Session α} {next other : α → Session β}
    (here : first.Appends) (same : ∀ value, first.outcome = .ok value → next value = other value) :
    first >>= next = first >>= other := by
  funext journal
  change (first >>= next).run.run journal = (first >>= other).run.run journal
  rw [run_bind, run_bind, here.run_eq]
  cases ended : first.outcome with
  | error e => rfl
  | ok value => simp only [same value ended]

theorem Asset.specifiers_of_file? {a : Asset} (missing : a.file? = none) : a.specifiers = [] := by
  obtain ⟨e, content⟩ := Asset.file?_eq_none_iff.mp missing
  simp only [specifiers, content]

namespace Workspace

variable {w : Workspace} {reference : Path} {s : Stage}

theorem Consistent.unseen_files (holds : w.Consistent reference s) : w.Unseen ⟨[]⟩ s.files := by
  refine ⟨?_, fun file member => ?_⟩
  · have keys := holds.distinct
    rw [Seen.Distinct, holds.keys] at keys
    exact keys.sublist (Asset.files_sublist_paths _)
  · obtain ⟨a, present, made⟩ := List.mem_filterMap.mp member
    obtain ⟨entry, others, same, loaded, stems⟩ := holds.entry
    rw [same] at present
    rcases List.mem_cons.mp present with rfl | present
    · obtain ⟨path, resolved, whole, _⟩ := loadEntry_ok loaded
      have here : a.path = path := congrArg Asset.path whole
      rw [← (Asset.file?_eq_some_iff.mp made).1, here]
      exact ⟨reference, resolved⟩
    · obtain ⟨_, _, _, _, _, ended⟩ := stems a present
      exact found_of_file? ((Pending.file?_of_outcome ended).symm.trans made)

theorem Consistent.discovered_of_bare (holds : w.Consistent reference s)
    (bare : s.waiting.filterMap Asset.file? = []) : w.discovered s = [] := by
  refine List.eq_nil_iff_forall_not_mem.mpr fun p listed => ?_
  obtain ⟨a, visited, _, specified, _⟩ := holds.surveys.named p listed
  have waited : a.loaded ∈ s.waiting := holds.surveys.loaded ▸ List.mem_map_of_mem visited
  have missing : a.loaded.file? = none := List.filterMap_eq_nil_iff.mp bare _ waited
  have none : a.specifiers = [] := Asset.specifiers_of_file? missing
  rw [none] at specified
  exact List.not_mem_nil specified

theorem ofAssets?_ne_none {schedule : Schedule} {limit : Nat} {entry : Asset} {assets : List Asset}
    (loaded : (w.loadEntry 0 reference).outcome = .ok entry)
    (ended : (w.traverse schedule limit (.start entry)).outcome = .ok (some assets)) :
    Graph.ofAssets? assets ≠ none := by
  rcases traverse_outcome limit (.entry loaded) with ⟨result, complete, ends⟩ | ⟨_, _, _, failed⟩
  · have same := ends schedule (.start entry) rfl ResolutionCache.empty_sound
    obtain ⟨first, others, whole, _⟩ :=
      (complete assets (Except.ok.inj (same.symm.trans ended))).closed.entry
    cases assets with
    | nil => cases whole
    | cons a rest => nofun
  · obtain ⟨e, _, error⟩ := failed schedule (.start entry) rfl ResolutionCache.empty_sound
    cases error.symm.trans ended

end Workspace

namespace MemoryFiles

open Workspace

variable {m : MemoryFiles} {w : Workspace} {reference path : Path} {s t : Stage}

theorem isFile_of_resolve (kept : w.fileSystem = m.fileSystem)
    (resolved : resolve w.fileSystem w.extensions reference = .ok path) :
    m.isFile path = true ∧ path ∈ m.files.map Prod.fst := by
  rw [kept] at resolved
  obtain ⟨candidate, _, found, rfl⟩ := resolve_eq_ok resolved
  obtain ⟨contents, member⟩ := exists_of_isFile found
  exact ⟨(m.isFile_clean candidate).trans found, List.mem_map_of_mem member⟩

theorem length_le_of_unseen (kept : w.fileSystem = m.fileSystem) {files : List Path}
    (unseen : w.Unseen ⟨[]⟩ files) : files.length ≤ m.files.length := by
  have nodup : files.Nodup := unseen.apart.nodup
  have within : files ⊆ m.files.map Prod.fst := by
    intro file member
    obtain ⟨reference, resolved⟩ := unseen.found file member
    exact (isFile_of_resolve kept resolved).2
  rw [← List.length_map Prod.fst]
  exact (List.subperm_of_subset nodup within).length_le

/-- How many more generations there can be: the waiting one, one for each file that is not yet
loaded, and one without files. -/
def generationsLeft (m : MemoryFiles) (s : Stage) : Nat :=
  if s.waiting = [] then 0
  else if s.waiting.filterMap Asset.file? = [] then 1
  else m.files.length - s.files.length + 2

theorem generationsLeft_next (kept : w.fileSystem = m.fileSystem)
    (holds : w.Consistent reference s) (waiting : s.waiting ≠ []) (advanced : w.next s = .ok t) :
    m.generationsLeft t < m.generationsLeft s := by
  have bound := length_le_of_unseen kept (holds.next advanced).unseen_files
  have files : t.files = s.files ++ t.waiting.filterMap Asset.file? := by
    rw [Stage.files, holds.modules_next advanced, List.filterMap_append, Stage.files]
  have counted := congrArg List.length files
  rw [List.length_append] at counted
  unfold generationsLeft
  rw [if_neg waiting]
  -- stand-ins need no modules, so where only they wait, nothing waits afterwards
  by_cases bare : s.waiting.filterMap Asset.file? = []
  · have none : t.waiting = [] := by
      obtain ⟨found, loaded, rfl⟩ := next_eq_ok advanced
      rw [holds.discovered_of_bare bare] at loaded
      exact List.map_eq_nil_iff.mp loaded.symm
    rw [if_pos none, if_pos bare]
    exact Nat.one_pos
  · rw [if_neg bare]
    split_ifs with empty plain
    · omega
    · omega
    · -- a file that waits now was not among those loaded before
      have more : 0 < (t.waiting.filterMap Asset.file?).length := List.length_pos_iff.mpr plain
      omega

/-- With as many generations as are left, a traversal comes to its end, and more of them change
nothing. -/
theorem traverse_settled (kept : w.fileSystem = m.fileSystem) (schedule : Schedule) {limit : Nat}
    {p : Progress} (holds : w.Consistent reference p.stage)
    (sound : p.known.cache.Sound w.fileSystem w.extensions)
    (enough : m.generationsLeft p.stage ≤ limit) :
    (w.traverse schedule limit p).outcome ≠ .ok none ∧
      ∀ extra, w.traverse schedule (limit + extra) p = w.traverse schedule limit p := by
  -- on the limit: each generation is one less that is left
  induction limit generalizing p with
  | zero =>
    have empty : p.waiting = [] := by
      by_contra waiting
      have some : 0 < m.generationsLeft p.stage := by
        unfold generationsLeft
        rw [if_neg (show p.stage.waiting ≠ [] from waiting)]
        split_ifs <;> omega
      omega
    rw [traverse_of_empty schedule _ empty]
    exact ⟨nofun, fun extra => traverse_of_empty schedule _ empty⟩
  | succ limit ih =>
    by_cases waiting : p.waiting = []
    · rw [traverse_of_empty schedule _ waiting]
      exact ⟨nofun, fun extra => traverse_of_empty schedule _ waiting⟩
    obtain ⟨cache, settled, came⟩ := advance_outcome schedule sound
    cases advanced : w.next p.stage with
    | error e =>
      simp only [advanced] at came
      obtain ⟨e, _, failed⟩ := came
      refine ⟨?_, fun extra => ?_⟩
      · rw [traverse_succ_outcome schedule waiting, failed]
        nofun
      · rw [Nat.succ_add, traverse_succ _ _ waiting, traverse_succ _ _ waiting]
        exact bind_congr (advance_appends schedule p) fun later ended => nomatch failed.symm.trans ended
    | ok later =>
      simp only [advanced] at came
      have less := generationsLeft_next kept holds waiting advanced
      obtain ⟨ends, same⟩ := ih (p := later.progress cache) (holds.next advanced) settled
        (Nat.le_of_lt_succ (less.trans_le enough))
      refine ⟨?_, fun extra => ?_⟩
      · rw [traverse_succ_outcome schedule waiting, came]
        exact ends
      · rw [Nat.succ_add, traverse_succ _ _ waiting, traverse_succ _ _ waiting]
        refine bind_congr (advance_appends schedule p) fun value ended => ?_
        obtain rfl := Except.ok.inj (came.symm.trans ended)
        exact same extra

theorem generationsLeft_le (m : MemoryFiles) (s : Stage) : m.generationsLeft s ≤ m.generationLimit := by
  unfold generationsLeft generationLimit
  split_ifs <;> omega

theorem graph_settled (kept : w.fileSystem = m.fileSystem) (schedule : Schedule) (reference : Path) :
    (w.graph schedule m.generationLimit reference).outcome ≠ .ok none ∧
      ∀ extra, w.graph schedule (m.generationLimit + extra) reference =
        w.graph schedule m.generationLimit reference := by
  have settled {entry : Asset} (loaded : (w.loadEntry 0 reference).outcome = .ok entry) :=
    traverse_settled kept schedule (consistent_entry loaded) ResolutionCache.empty_sound
      (m.generationsLeft_le _)
  constructor
  · rw [graph_outcome]
    cases loaded : (w.loadEntry 0 reference).outcome with
    | error e => nofun
    | ok entry =>
      intro unfinished
      obtain ⟨result, ended, none⟩ := exists_of_map_eq_ok unfinished
      cases result with
      | none => exact (settled loaded).1 ended
      | some assets => exact ofAssets?_ne_none loaded ended none.symm
  · intro extra
    refine bind_congr (loadEntry_appends reference) fun entry loaded => ?_
    rw [(settled loaded).2]

end MemoryFiles

namespace Graph

/-- The modules of a graph come from the files of a tree, at most one from each, or stand in for
references that lead to none. -/
structure Grounded (m : MemoryFiles) (w : Workspace) (g : Graph) : Prop where
  files : (g.assets.filterMap Asset.file?).length ≤ m.files.length
  found : ∀ a ∈ g.assets, ∀ path, a.file? = some path →
    a.path = path ∧ m.isFile path = true ∧ a.content = w.contentOf path
  missing : ∀ a ∈ g.assets, a.file? = none → a.specifiers = [] ∧ a.mapping = [] ∧
    ∃ r ∈ g.resolutions w, ∃ e, r.resolved = .error e ∧ a.path = r.key ∧
      a.content = .placeholder (.unresolved e)
  size : g.size ≤ m.files.length + (g.resolutions w).countP fun r => !r.resolved.isOk

variable {m : MemoryFiles} {w : Workspace} {reference : Path} {g : Graph} {a : Asset}

theorem exists_missing (closed : w.Closed reference g.assets) (member : a ∈ g.assets)
    (bare : a.file? = none) :
    ∃ r ∈ g.resolutions w, ∃ e, r.resolved = .error e ∧ a.path = r.key ∧
      a.content = .placeholder (.unresolved e) := by
  rcases closed.made member with ⟨_, content⟩ | ⟨b, there, specifier, named, key, content⟩
  · cases (Asset.file?_of_contentOf content).symm.trans bare
  · refine ⟨_, resolution_mem w there named, ?_⟩
    cases resolved : (w.resolution b.path.parent specifier).resolved with
    | ok path =>
      rw [Workspace.contentFor_ok resolved] at content
      cases (Asset.file?_of_contentOf content).symm.trans bare
    | error e => exact ⟨e, rfl, key, content.trans (Workspace.contentFor_error resolved)⟩

theorem countP_le (closed : w.Closed reference g.assets) :
    (g.assets.countP fun a => a.file?.isNone) ≤ (g.resolutions w).countP fun r => !r.resolved.isOk := by
  have nodup : ((g.assets.filter fun a => a.file?.isNone).map Asset.path).Nodup :=
    closed.distinct.nodup.sublist (List.filter_sublist.map _)
  have within : ((g.assets.filter fun a => a.file?.isNone).map Asset.path) ⊆
      ((g.resolutions w).filter fun r => !r.resolved.isOk).map Resolution.key := by
    intro path listed
    obtain ⟨a, member, rfl⟩ := List.mem_map.mp listed
    obtain ⟨present, bare⟩ := List.mem_filter.mp member
    obtain ⟨r, named, e, resolved, key, _⟩ :=
      exists_missing closed present (Option.isNone_iff_eq_none.mp bare)
    refine List.mem_map.mpr ⟨r, List.mem_filter.mpr ⟨named, ?_⟩, key.symm⟩
    rw [resolved]
    rfl
  have bound := (List.subperm_of_subset nodup within).length_le
  rwa [List.length_map, List.length_map, ← List.countP_eq_length_filter,
    ← List.countP_eq_length_filter] at bound

theorem size_eq (g : Graph) :
    g.size = (g.assets.filterMap Asset.file?).length + g.assets.countP fun a => a.file?.isNone := by
  have parts := List.length_eq_countP_add_countP (fun a : Asset => a.file?.isSome) (l := g.assets)
  rw [size, List.length_filterMap_eq_countP, parts]
  exact congrArg _ (List.countP_congr fun a _ => by simp)

end Graph

theorem Outcome.of_eq_unfinished_iff {ended : Except BundleError (Option Graph)} :
    Outcome.of ended = .unfinished ↔ ended = .ok none := by
  rcases ended with _ | _ | _ <;> simp [Outcome.of]

namespace Build

/-- Over files in memory every build ends, and it would not do anything else if it were allowed
more generations. It has no more texts analyzed than there are files, and neither do its modules
outnumber the files and the references without one. -/
theorem ends_over_memory (m : MemoryFiles) (extensions : Extensions) (analyzer : Analyzer)
    (mode : Mode) (schedule : Schedule) (reference : Path) :
    let w : Workspace := ⟨m.fileSystem, extensions, analyzer, mode⟩
    let build := run w schedule m.generationLimit reference
    build.outcome ≠ .unfinished ∧
    (∀ extra, run w schedule (m.generationLimit + extra) reference = build) ∧
    build.journal.analyses.length ≤ m.files.length ∧
    ∀ g, build.outcome = .finished g → g.Grounded m w := by
  intro w build
  obtain ⟨ends, same⟩ := MemoryFiles.graph_settled (w := w) rfl schedule reference
  obtain ⟨files, _, analyses, unseen, finished⟩ := exists_loaded w schedule m.generationLimit reference
  have bound := MemoryFiles.length_le_of_unseen (w := w) rfl unseen
  refine ⟨?_, fun extra => ?_, ?_, fun g ended => ?_⟩
  · exact fun unfinished => ends (Outcome.of_eq_unfinished_iff.mp unfinished)
  · unfold run
    rw [same]
    rfl
  · rw [analyses.length_eq]
    exact (List.length_filterMap_le _ _).trans bound
  · have closed := (completes_of_finished ended).closed
    have perm := finished g ended
    exact {
      files := perm.length_eq ▸ bound
      found := fun a member path made => by
        obtain ⟨placed, content⟩ := closed.content_of_file? member made
        obtain ⟨_, resolved⟩ := exists_reference ended member made
        exact ⟨placed, (MemoryFiles.isFile_of_resolve (w := w) rfl resolved).1, content⟩
      missing := fun a member bare => by
        have none := Asset.specifiers_of_file? bare
        exact ⟨none, closed.mapping_eq_nil member none, Graph.exists_missing closed member bare⟩
      size := by
        rw [g.size_eq]
        exact Nat.add_le_add (perm.length_eq ▸ bound) (Graph.countP_le closed) }

end Build

end ModuleBundle
