import Mathlib.Data.List.TakeDrop
import Mathlib.Data.List.TakeWhile
import ModuleBundle.Proofs.FileSystem.Memory
import ModuleBundle.Proofs.Loading.Loaded

/-!
The files that a reference may stand for. They are looked for one after the other, and the first
that is there is the answer; where none is, all of them are told. Over files in memory what was
found is clean, is a file, and can be read unless it is locked.
-/

set_option autoImplicit false

namespace ModuleBundle

namespace Path

/-- Behind the last dot of its file name a path has `extension`, and something in front of it. -/
def HasExtension (p : Path) (extension : String) : Prop :=
  ∃ stem, stem ≠ [] ∧ '.' ∉ extension.toList ∧
    p.components.getLast? = some (.name (stem ++ '.' :: extension.toList))

theorem extensionOf_append {stem extension : List Char} (named : stem ≠ [])
    (dotless : '.' ∉ extension) : extensionOf (stem ++ '.' :: extension) = some extension := by
  have cut : (stem ++ '.' :: extension).reverse.span (· ≠ '.') =
      (extension.reverse, '.' :: stem.reverse) := by
    have none : ∀ c ∈ extension.reverse, decide (c ≠ '.') = true := by
      intro c member
      exact decide_eq_true fun dot => dotless (dot ▸ List.mem_reverse.mp member)
    rw [List.reverse_append, List.reverse_cons, List.append_assoc, List.span_eq_takeWhile_dropWhile,
      List.takeWhile_append_of_pos none, List.dropWhile_append_of_pos none]
    simp
  unfold extensionOf
  rw [cut]
  cases reversed : stem.reverse with
  | nil => exact absurd (List.reverse_eq_nil_iff.mp reversed) named
  | cons c cs => simp

theorem exists_of_extensionOf {fileName extension : List Char}
    (ends : extensionOf fileName = some extension) :
    ∃ stem, stem ≠ [] ∧ '.' ∉ extension ∧ fileName = stem ++ '.' :: extension := by
  -- The name is read from its end, and the first dot there is its last.
  have whole := fileName.reverse.takeWhile_append_dropWhile (p := (· ≠ '.'))
  have dotless : '.' ∉ fileName.reverse.takeWhile (· ≠ '.') := fun member => by
    simpa using List.mem_takeWhile_imp member
  have stops := fileName.reverse.head?_dropWhile_not (· ≠ '.')
  unfold extensionOf at ends
  rw [List.span_eq_takeWhile_dropWhile] at ends
  generalize fileName.reverse.takeWhile (· ≠ '.') = reversed at ends whole dotless
  generalize fileName.reverse.dropWhile (· ≠ '.') = rest at ends whole stops
  match rest with
  | [] => cases ends
  | [_] => cases ends
  | dot :: c :: cs =>
    obtain rfl := Option.some.inj ends
    obtain rfl : dot = '.' := by simpa using stops
    refine ⟨(c :: cs).reverse, by simp, mt List.mem_reverse.mp dotless, ?_⟩
    rw [← List.reverse_reverse fileName, ← whole, List.reverse_append, List.reverse_cons,
      List.append_assoc, List.singleton_append]

theorem extension_eq_some_iff {p : Path} {extension : String} :
    p.extension = some extension ↔ p.HasExtension extension := by
  constructor
  · intro ends
    unfold Path.extension at ends
    split at ends
    · rename_i text last
      obtain ⟨found, cut, rfl⟩ := Option.map_eq_some_iff.mp ends
      obtain ⟨stem, named, dotless, rfl⟩ := exists_of_extensionOf cut
      exact ⟨stem, named, by simpa using dotless, by simpa using last⟩
    · cases ends
  · rintro ⟨stem, named, dotless, last⟩
    simp only [Path.extension, last, extensionOf_append named dotless, Option.map_some,
      String.ofList_toList]

end Path

theorem Extensions.recognizes_iff {extensions : Extensions} {p : Path} :
    extensions.recognizes p = true ↔ ∃ extension ∈ extensions.list, p.HasExtension extension := by
  simp only [← Path.extension_eq_some_iff, recognizes]
  cases p.extension <;> simp

section

variable {fs : FileSystem} {extensions : Extensions} {reference path : Path} {e : Unresolved}

/-- What a reference may stand for, the preferred files first: in a directory the index files; else
itself if it has one of the extensions; and else what it is with one of them appended. -/
inductive LooksFor (fs : FileSystem) (extensions : Extensions) (reference : Path) :
    List Path → Prop where
  | index (directory : fs.isDirectory reference = true) :
      LooksFor fs extensions reference
        (extensions.list.map fun extension => reference.join ⟨"index." ++ extension⟩)
  | itself {extension : String} (other : fs.isDirectory reference = false)
      (listed : extension ∈ extensions.list) (ends : reference.HasExtension extension) :
      LooksFor fs extensions reference [reference]
  | appended (other : fs.isDirectory reference = false)
      (bare : ∀ extension ∈ extensions.list, ¬ reference.HasExtension extension) :
      LooksFor fs extensions reference
        (extensions.list.map fun extension => ⟨reference.text ++ "." ++ extension⟩)

theorem looksFor_iff (paths : List Path) :
    LooksFor fs extensions reference paths ↔ paths = candidates fs extensions reference := by
  constructor
  · rintro (directory | ⟨other, listed, ends⟩ | ⟨other, bare⟩)
    · exact (if_pos directory).symm
    · have known := Extensions.recognizes_iff.mpr ⟨_, listed, ends⟩
      simp [candidates, other, known]
    · have unknown : extensions.recognizes reference = false := by
        refine eq_false_of_ne_true fun known => ?_
        obtain ⟨extension, listed, ends⟩ := Extensions.recognizes_iff.mp known
        exact bare extension listed ends
      simp [candidates, other, unknown, Path.appendExtension]
  · rintro rfl
    unfold candidates
    split_ifs with directory known
    · exact .index directory
    · obtain ⟨extension, listed, ends⟩ := Extensions.recognizes_iff.mp known
      exact .itself (eq_false_of_ne_true directory) listed ends
    · refine .appended (eq_false_of_ne_true directory) fun extension listed ends => known ?_
      exact Extensions.recognizes_iff.mpr ⟨extension, listed, ends⟩

theorem resolve_eq_ok_iff :
    resolve fs extensions reference = .ok path ↔
      ∃ before candidate after, candidates fs extensions reference = before ++ candidate :: after ∧
        (∀ other ∈ before, fs.isFile other = false) ∧ fs.isFile candidate = true ∧
        path = fs.canonical candidate := by
  unfold resolve
  constructor
  · intro resolved
    cases found : (candidates fs extensions reference).find? fs.isFile with
    | none => simp [found] at resolved
    | some candidate =>
      simp only [found, Except.ok.injEq] at resolved
      obtain ⟨here, before, after, same, missed⟩ := List.find?_eq_some_iff_append.mp found
      refine ⟨before, candidate, after, same, fun other member => ?_, here, resolved.symm⟩
      simpa using missed other member
  · rintro ⟨before, candidate, after, same, missed, here, rfl⟩
    have found : (candidates fs extensions reference).find? fs.isFile = some candidate := by
      refine List.find?_eq_some_iff_append.mpr ⟨here, before, after, same, fun other member => ?_⟩
      simp [missed other member]
    simp only [found]

theorem resolve_eq_error_iff :
    resolve fs extensions reference = .error e ↔
      (∀ candidate ∈ candidates fs extensions reference, fs.isFile candidate = false) ∧
        e = ⟨reference, candidates fs extensions reference⟩ := by
  unfold resolve
  cases found : (candidates fs extensions reference).find? fs.isFile with
  | none =>
    have missed : ∀ candidate ∈ candidates fs extensions reference, fs.isFile candidate = false := by
      simpa using found
    simp only [found, Except.error.injEq]
    exact ⟨fun same => ⟨missed, same.symm⟩, fun both => both.2.symm⟩
  | some candidate =>
    have here : fs.isFile candidate = true := List.find?_some found
    have listed := List.mem_of_find?_eq_some found
    simp only [found, reduceCtorEq, false_iff]
    exact fun both => Bool.false_ne_true ((both.1 candidate listed).symm.trans here)

theorem resolve_eq_ok (resolved : resolve fs extensions reference = .ok path) :
    ∃ candidate ∈ candidates fs extensions reference,
      fs.isFile candidate = true ∧ path = fs.canonical candidate := by
  obtain ⟨before, candidate, after, same, _, here, found⟩ := resolve_eq_ok_iff.mp resolved
  exact ⟨candidate, by simp [same], here, found⟩

end

/-- A file that modules may be loaded from: its path is clean, it is there, and it can be read
unless it is locked, also by a build that comes to it as a dependency. -/
structure MemoryFiles.Loadable (m : MemoryFiles) (path : Path) : Prop where
  clean : m.fileSystem.canonical path = path
  isFile : m.fileSystem.isFile path = true
  read : (∃ contents, m.fileSystem.read path = .ok contents) ∨
    m.fileSystem.read path = .error (.locked path)
  dependency : ∀ (w : Workspace) (id : Nat) (specifier : String) (importer : Path)
    (resolution : Resolution), w.fileSystem = m.fileSystem → resolution.resolved = .ok path →
    (∀ p e, (w.loadDependency id specifier importer resolution).outcome =
      .error (.dependencyUnreadable p e) → p = path ∧ e = .locked path) ∧
    ∀ asset e, (w.loadDependency id specifier importer resolution).outcome = .ok asset →
      asset.content = .placeholder (.unreadable e) → asset.path = path ∧ e = .locked path

namespace MemoryFiles

variable {m : MemoryFiles} {path : Path}

theorem read_of_isFile (clean : path.clean = path) (found : m.isFile path = true) :
    (∃ contents, m.read path = .ok contents) ∨ m.read path = .error (.locked path) := by
  obtain ⟨contents, here⟩ := Option.isSome_iff_exists.mp found
  by_cases locked : path.clean ∈ m.locked
  · exact .inr ((read_of_locked locked).trans (by rw [clean]))
  · exact .inl ⟨contents, read_eq_ok_iff.mpr ⟨locked, here⟩⟩

theorem contentFor_eq_unreadable {w : Workspace} (same : w.fileSystem = m.fileSystem)
    {resolution : Resolution} (resolved : resolution.resolved = .ok path)
    (readable : (∃ contents, m.read path = .ok contents) ∨ m.read path = .error (.locked path))
    {e : FileError} (unreadable : w.contentFor resolution = .placeholder (.unreadable e)) :
    e = .locked path := by
  have asked : w.fileSystem.read path = m.read path := by rw [same]; rfl
  simp only [Workspace.contentFor, resolved, Workspace.contentOf, asked] at unreadable
  rcases readable with ⟨contents, read⟩ | read
  · rw [read] at unreadable
    cases analyzed : w.analyzer path contents <;> simp [analyzed] at unreadable
  · rw [read] at unreadable
    cases unreadable
    rfl

theorem loadable_of_isFile (clean : path.clean = path) (found : m.isFile path = true) :
    m.Loadable path := by
  have readable := read_of_isFile clean found
  refine ⟨clean, found, readable, fun w id specifier importer resolution same leads => ?_⟩
  have known : resolution.key = path := by simp only [Resolution.key, leads]
  rw [Workspace.loadDependency_outcome, known]
  constructor
  · intro p e failed
    cases content : w.contentFor resolution with
    | script analysis => simp [content, Workspace.settle] at failed
    | placeholder failure =>
      cases mode : w.mode with
      | lenient => simp [content, Workspace.settle, mode] at failed
      | strict =>
        simp only [content, Workspace.settle, mode, Except.error.injEq] at failed
        -- of the three ways to fail only one is told as unreadable
        cases failure with
        | unresolved other => cases failed
        | refused message => cases failed
        | unreadable other =>
          cases failed
          exact ⟨rfl, contentFor_eq_unreadable same leads readable content⟩
  · intro asset e loaded unreadable
    obtain ⟨rfl, _⟩ := Workspace.settle_ok loaded
    exact ⟨rfl, contentFor_eq_unreadable same leads readable unreadable⟩

theorem loadable_of_resolve {extensions : Extensions} {reference : Path}
    (resolved : resolve m.fileSystem extensions reference = .ok path) (changes : List Change) :
    (changes.foldl Change.apply m).Loadable path := by
  obtain ⟨candidate, _, here, rfl⟩ := resolve_eq_ok resolved
  have found : m.isFile candidate.clean = true := (m.isFile_clean candidate).trans here
  exact loadable_of_isFile (Path.clean_clean candidate) (Change.isFile_foldl_apply changes found)

end MemoryFiles

/-- A reference stands for the first file that it looks for; it stands for none, and all that was
looked for is told, exactly where none of them is there. What it stands for in memory can be
loaded, then and after any changes. -/
theorem resolves_to_first (extensions : Extensions) (reference : Path) :
    (∀ fs : FileSystem, ∃ paths, LooksFor fs extensions reference paths ∧
      (∀ path, resolve fs extensions reference = .ok path ↔
        ∃ before candidate after, paths = before ++ candidate :: after ∧
          (∀ other ∈ before, fs.isFile other = false) ∧ fs.isFile candidate = true ∧
          path = fs.canonical candidate) ∧
      ∀ e, resolve fs extensions reference = .error e ↔
        (∀ candidate ∈ paths, fs.isFile candidate = false) ∧ e = ⟨reference, paths⟩) ∧
    ∀ (m : MemoryFiles) (path : Path), resolve m.fileSystem extensions reference = .ok path →
      ∀ changes : List MemoryFiles.Change,
        (changes.foldl MemoryFiles.Change.apply m).Loadable path :=
  ⟨fun _ => ⟨_, (looksFor_iff _).mpr rfl, fun _ => resolve_eq_ok_iff, fun _ => resolve_eq_error_iff⟩,
    fun _ _ resolved => MemoryFiles.loadable_of_resolve resolved⟩

theorem lockedIndex_loadable :
    let m := MemoryFiles.ofChanges [.insertLocked ⟨"/lib/./index.mjs"⟩, .insert ⟨"/lib/a.js"⟩ ""]
    resolve m.fileSystem .default ⟨"/x/..//lib"⟩ = .ok ⟨"/lib/index.mjs"⟩ ∧
      m.Loadable ⟨"/lib/index.mjs"⟩ := by
  intro m
  have resolved : resolve m.fileSystem .default ⟨"/x/..//lib"⟩ = .ok ⟨"/lib/index.mjs"⟩ := by
    decide +kernel
  exact ⟨resolved, (resolves_to_first .default ⟨"/x/..//lib"⟩).2 m _ resolved []⟩

end ModuleBundle
