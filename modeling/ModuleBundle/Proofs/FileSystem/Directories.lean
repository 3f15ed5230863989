import ModuleBundle.Proofs.FileSystem.Memory
import ModuleBundle.Resolution

/-!
Directories of files in memory. A file makes a directory of every path above it, however that is
spelled, with one exception: the working directory is a dot once it is clean, and no clean path
begins with a dot. A directory with an index file stands for it.
-/

set_option autoImplicit false

namespace ModuleBundle

def Component.IsName (c : Component) : Prop := ∃ text, c = .name text

instance : DecidablePred Component.IsName
  | .name text => .isTrue ⟨text, rfl⟩
  | .root | .here | .parent => .isFalse fun ⟨_, same⟩ => nomatch same

namespace Path

def Descends (p : Path) : Prop := p.components ≠ [] ∧ ∀ c ∈ p.components, c.IsName

instance : DecidablePred Descends := fun _ => inferInstanceAs (Decidable (_ ∧ _))

variable {p q : Path}

theorem cleanComponents_append_names (cs : List Component) {names : List Component}
    (named : ∀ c ∈ names, c.IsName) :
    cleanComponents (cs ++ names) = cleanComponents cs ++ names := by
  induction names using List.reverseRecOn with
  | nil => rw [List.append_nil, List.append_nil]
  | append_singleton names last ih =>
    obtain ⟨before, here⟩ := List.forall_mem_append.mp named
    obtain ⟨text, rfl⟩ := here last List.mem_cons_self
    rw [← List.append_assoc, cleanComponents_concat, ih before, List.append_assoc]

theorem innerOf_eq_componentsOf {text : List Char} (rootless : .root ∉ componentsOf text)
    (dotless : .here ∉ componentsOf text) : innerOf text = componentsOf text := by
  cases text with
  | nil => rfl
  | cons c cs =>
    by_cases slash : c = '/'
    · rw [slash, componentsOf_root] at rootless
      exact absurd List.mem_cons_self rootless
    · rw [componentsOf_relative cs slash] at dotless ⊢
      unfold innerOf
      cases cut : segmentsOf (c :: cs) with
      | nil => rfl
      | cons first rest =>
        rw [cut, relativeOf] at dotless
        rw [relativeOf]
        split_ifs at dotless ⊢ with dot
        · exact absurd List.mem_cons_self dotless
        · rfl

theorem Descends.components_join (down : q.Descends) (directory : Path) :
    (directory.join q).components = directory.components ++ q.components := by
  have rootless : .root ∉ q.components := fun member => absurd (down.2 _ member) (by decide)
  have dotless : .here ∉ q.components := fun member => absurd (down.2 _ member) (by decide)
  have relative : ¬ q.isAbsolute = true := fun absolute => rootless ((isAbsolute_iff q).mp absolute)
  rw [Path.components_join]
  by_cases none : directory.components = []
  · rw [if_pos (.inr none), none, List.nil_append]
  · rw [if_neg (not_or.mpr ⟨relative, none⟩)]
    exact congrArg _ (innerOf_eq_componentsOf rootless dotless)

/-- Only the working directory has a clean path without components of its own. -/
theorem clean_eq_dot_iff : p.clean = ⟨"."⟩ ↔ cleanComponents p.components = [] := by
  refine ⟨fun dot => ?_, clean_of_nil⟩
  by_contra some
  have here : .here ∈ cleanComponents p.components := by
    rw [← components_clean some, dot]
    decide
  exact (cleaned_components p).here_not_mem (List.mem_reverse.mp here)

end Path

namespace MemoryFiles

variable {m : MemoryFiles} {p q : Path}

theorem isDirectory_of_isFile {names : List Component} (found : m.isFile p = true)
    (below : p.components = q.components ++ names) (some : names ≠ [])
    (named : ∀ c ∈ names, c.IsName) (apart : q.clean ≠ ⟨"."⟩) :
    m.isDirectory q = true := by
  obtain ⟨contents, member⟩ := exists_of_isFile found
  have present : Path.cleanComponents q.components ≠ [] := mt Path.clean_eq_dot_iff.mpr apart
  have kept : Path.cleanComponents p.components = Path.cleanComponents q.components ++ names := by
    rw [below, Path.cleanComponents_append_names _ named]
  have file : p.clean.components = q.clean.components ++ names := by
    rw [Path.components_clean (by simp [kept, some]), kept, Path.components_clean present]
  have differ : p.clean ≠ q.clean := by
    intro same
    rw [same] at file
    exact some (List.self_eq_append_right.mp file)
  have starts : p.clean.startsWith q.clean = true := by
    rw [Path.startsWith, List.isPrefixOf_iff_prefix, file]
    exact List.prefix_append _ _
  exact List.any_eq_true.mpr ⟨(p.clean, contents), member, by simp [differ, starts]⟩

theorem WellKept.isDirectory_dot (wellKept : m.WellKept) (dot : q.clean = ⟨"."⟩) :
    m.isDirectory q = false := by
  refine List.any_eq_false.mpr fun file member below => ?_
  rw [dot, Bool.and_eq_true, decide_eq_true_eq] at below
  obtain ⟨differ, starts⟩ := below
  have clean : file.1.clean = file.1 := wellKept.clean file.1 (List.mem_map_of_mem member)
  have some : Path.cleanComponents file.1.components ≠ [] := by
    intro none
    exact differ (clean.symm.trans (Path.clean_of_nil none))
  have here : .here ∈ file.1.clean.components := by
    rw [clean]
    exact (List.isPrefixOf_iff_prefix.mp starts).subset List.mem_cons_self
  rw [Path.components_clean some] at here
  exact (Path.cleaned_components file.1).here_not_mem (List.mem_reverse.mp here)

end MemoryFiles

theorem Path.extension_of_clean_eq_dot {p : Path} (dot : p.clean = ⟨"."⟩) : p.extension = none := by
  unfold extension
  split
  · rename_i text last
    have kept := getLast?_components_clean last
    rw [dot] at kept
    cases kept
  · rfl

def indexOf (directory : Path) (extension : String) : Path :=
  directory.join ⟨indexStem ++ "." ++ extension⟩

theorem candidates_of_isDirectory {fs : FileSystem} {reference : Path}
    (directory : fs.isDirectory reference = true) (extensions : Extensions) :
    candidates fs extensions reference = extensions.list.map (indexOf reference) := if_pos directory

theorem resolve_of_isDirectory {fs : FileSystem} {reference : Path} {extension : String}
    (directory : fs.isDirectory reference = true)
    (found : fs.isFile (indexOf reference extension) = true) (others : List String) :
    resolve fs ⟨extension :: others⟩ reference = .ok (fs.canonical (indexOf reference extension)) := by
  unfold resolve
  rw [candidates_of_isDirectory directory, List.map_cons]
  simp only [List.find?_cons_of_pos found]

namespace MemoryFiles

/-- How a path stands as a directory: the files below it make it one unless it is the working
directory, and as one it stands for its index file. The working directory never stands for one. -/
structure StandsAsDirectory (m : MemoryFiles) (directory : Path) : Prop where
  isDirectory_iff : ∀ other : Path, other.Descends → m.isFile (directory.join other) = true →
    (m.isDirectory directory = true ↔ directory.clean ≠ ⟨"."⟩)
  resolve_index : ∀ extension others, m.isFile (indexOf directory extension) = true →
    (m.isDirectory directory = true ∨
      Path.Descends ⟨indexStem ++ "." ++ extension⟩ ∧ directory.clean ≠ ⟨"."⟩) →
    resolve m.fileSystem ⟨extension :: others⟩ directory = .ok (indexOf directory extension).clean
  candidates_dot : directory.clean = ⟨"."⟩ → ∀ extensions : Extensions,
    candidates m.fileSystem extensions directory = extensions.list.map directory.appendExtension

theorem standsAsDirectory_ofChanges (changes : List Change) (directory : Path) :
    (ofChanges changes).StandsAsDirectory directory := by
  have wellKept := wellKept_ofChanges changes
  have made (other : Path) (down : other.Descends)
      (found : (ofChanges changes).isFile (directory.join other) = true)
      (apart : directory.clean ≠ ⟨"."⟩) : (ofChanges changes).isDirectory directory = true :=
    isDirectory_of_isFile found (down.components_join directory) down.1 down.2 apart
  refine ⟨fun other down found => ⟨fun held dot => ?_, made other down found⟩, ?_, ?_⟩
  · exact Bool.false_ne_true ((wellKept.isDirectory_dot dot).symm.trans held)
  · rintro extension others found (held | ⟨down, apart⟩)
    · exact resolve_of_isDirectory held found others
    · exact resolve_of_isDirectory (made _ down found apart) found others
  · intro dot extensions
    have none : (ofChanges changes).fileSystem.isDirectory directory = false :=
      wellKept.isDirectory_dot dot
    have unnamed := Path.extension_of_clean_eq_dot dot
    simp [candidates, none, Extensions.recognizes, unnamed]

theorem library_standsAsDirectory :
    let m := ofChanges [.insertLocked ⟨"../lib/./index.js"⟩]
    let directory : Path := ⟨"x/../../lib//"⟩
    Path.Descends ⟨"index.js"⟩ ∧ m.isFile (directory.join ⟨"index.js"⟩) = true ∧
      m.isDirectory directory = true ∧
      resolve m.fileSystem .default directory = .ok ⟨"../lib/index.js"⟩ := by
  have stands := standsAsDirectory_ofChanges [.insertLocked ⟨"../lib/./index.js"⟩] ⟨"x/../../lib//"⟩
  have down : Path.Descends ⟨"index.js"⟩ := by decide
  have apart : Path.clean ⟨"x/../../lib//"⟩ ≠ ⟨"."⟩ := by decide +kernel
  have found : (ofChanges [.insertLocked ⟨"../lib/./index.js"⟩]).isFile
      (Path.join ⟨"x/../../lib//"⟩ ⟨"index.js"⟩) = true := by decide +kernel
  have clean : (indexOf ⟨"x/../../lib//"⟩ "js").clean = ⟨"../lib/index.js"⟩ := by decide +kernel
  refine ⟨down, found, (stands.isDirectory_iff _ down found).mpr apart, ?_⟩
  exact (stands.resolve_index "js" ["jsx", "mjs", "cjs"] found (.inr ⟨down, apart⟩)).trans
    (congrArg Except.ok clean)

/-- A file in the working directory makes no directory of it, neither as a dot nor as the empty
path, and its index file is not found by either. -/
theorem workingDirectory_not_directory :
    let m := ofChanges [.insert ⟨"index.js"⟩ ""]
    Path.Descends ⟨"index.js"⟩ ∧
      ∀ directory ∈ [(⟨"."⟩ : Path), ⟨""⟩],
        m.isFile (directory.join ⟨"index.js"⟩) = true ∧ m.isDirectory directory = false ∧
        resolve m.fileSystem .default directory =
          .error ⟨directory, Extensions.default.list.map directory.appendExtension⟩ := by
  decide +kernel

end MemoryFiles

end ModuleBundle
