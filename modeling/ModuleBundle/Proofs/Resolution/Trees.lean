import Mathlib.Data.List.TakeDrop
import ModuleBundle.Proofs.FileSystem.Directories
import ModuleBundle.Proofs.Resolution.Candidates

/-!
Files kept like a real tree. Where all files have absolute paths, none is a directory, and the
extensions are plain, a file that was found has one of the extensions itself, so that a
reference spelled like it would have found it.
-/

set_option autoImplicit false

namespace ModuleBundle

theorem Resolution.isPath_of_isAbsolute {specifier : String}
    (absolute : Path.isAbsolute ⟨specifier⟩ = true) : isPath specifier = true := by
  obtain ⟨rest, cut⟩ := List.head?_eq_some_iff.mp (of_decide_eq_true absolute)
  have spelled : specifier.toList = '/' :: rest := cut
  simp [isPath, spelled]

/-- An extension that is not empty and holds neither a dot nor a slash. -/
def PlainExtension (extension : String) : Prop :=
  extension.toList ≠ [] ∧ '.' ∉ extension.toList ∧ '/' ∉ extension.toList

namespace Path

variable {extension : String} {stem : List Char} {p : Path}

theorem inner_name (plain : PlainExtension extension) (whole : '/' ∉ stem) :
    Inner (.name (stem ++ '.' :: extension.toList)) := by
  obtain ⟨present, dotless, slashless⟩ := plain
  obtain ⟨c, member⟩ := List.exists_mem_of_ne_nil _ present
  have other : c ≠ '.' := fun dot => dotless (dot ▸ member)
  have held : c ∈ stem ++ '.' :: extension.toList := by simp [member]
  have notDot : stem ++ '.' :: extension.toList ≠ ['.'] := by
    intro dot
    rw [dot] at held
    exact other (List.mem_singleton.mp held)
  have notDots : stem ++ '.' :: extension.toList ≠ ['.', '.'] := by
    intro dots
    rw [dots] at held
    simp [other] at held
  refine ⟨by simp [Component.spell, whole, slashless], ?_⟩
  simp [Component.spell, innerComponent?, notDots, notDot]

theorem getLast?_components_join_index (reference : Path) (plain : PlainExtension extension) :
    (reference.join ⟨indexStem ++ "." ++ extension⟩).components.getLast? =
      some (.name (indexStem.toList ++ '.' :: extension.toList)) := by
  have spelled : (indexStem ++ "." ++ extension).toList = indexStem.toList ++ '.' :: extension.toList := by
    simp [String.toList_append]
  have inner := inner_name plain (show '/' ∉ indexStem.toList by decide)
  have alone : components ⟨indexStem ++ "." ++ extension⟩ =
      [.name (indexStem.toList ++ '.' :: extension.toList)] := by
    rw [components, spelled]
    exact componentsOf_spell_inner inner
  have behind : innerOf (indexStem ++ "." ++ extension).toList =
      [.name (indexStem.toList ++ '.' :: extension.toList)] := by
    rw [spelled]
    exact innerOf_spell_inner inner
  rw [components_join]
  split_ifs
  · rw [alone]
    rfl
  · rw [behind, List.getLast?_concat]

theorem exists_components_appendExtension (reference : Path) (plain : PlainExtension extension) :
    ∃ front stem, (reference.appendExtension extension).components =
        front ++ [.name (stem ++ '.' :: extension.toList)] ∧
      (stem = [] → reference.components = front) := by
  have spelled : (reference.appendExtension extension).text.toList =
      reference.text.toList ++ '.' :: extension.toList := by
    simp [appendExtension, String.toList_append]
  unfold components
  rw [spelled]
  by_cases slash : '/' ∈ reference.text.toList
  · obtain ⟨reversed, rest, cut, whole⟩ := List.eq_append_cons_of_mem (List.mem_reverse.mpr slash)
    have split : reference.text.toList = rest.reverse ++ '/' :: reversed.reverse := by
      rw [← List.reverse_reverse reference.text.toList, cut]
      simp
    have inner := inner_name plain (show '/' ∉ reversed.reverse by simpa using whole)
    refine ⟨leadingOf rest.reverse, reversed.reverse, ?_, fun empty => ?_⟩
    · rw [split, List.append_assoc, List.cons_append, componentsOf_append]
      exact congrArg _ (innerOf_spell_inner inner)
    · rw [split, empty, componentsOf_append]
      exact List.append_nil _
  -- the whole reference is the name
  · have inner := inner_name plain slash
    refine ⟨[], reference.text.toList, componentsOf_spell_inner inner, fun empty => ?_⟩
    rw [empty]
    rfl

end Path

namespace Extensions

def Plain (extensions : Extensions) : Prop := ∀ extension ∈ extensions.list, PlainExtension extension

instance (extensions : Extensions) : Decidable extensions.Plain :=
  inferInstanceAs (Decidable (∀ extension ∈ extensions.list,
    extension.toList ≠ [] ∧ '.' ∉ extension.toList ∧ '/' ∉ extension.toList))

variable {extensions : Extensions} {p : Path}

theorem recognizes_clean (known : extensions.recognizes p = true) :
    extensions.recognizes p.clean = true := by
  obtain ⟨extension, listed, stem, named, dotless, last⟩ := recognizes_iff.mp known
  exact recognizes_iff.mpr
    ⟨extension, listed, stem, named, dotless, Path.getLast?_components_clean last⟩

theorem recognizes_congr {q : Path} (same : p.components = q.components) :
    extensions.recognizes p = extensions.recognizes q := by
  simp only [recognizes, Path.extension, same]

end Extensions

namespace MemoryFiles

variable {m : MemoryFiles} {extensions : Extensions} {p q : Path}

/-- The files lie as in a tree: under absolute paths, and not where directories are. -/
def Tree (m : MemoryFiles) : Prop :=
  ∀ file ∈ m.files, file.1.isAbsolute = true ∧ m.isDirectory file.1 = false

instance (m : MemoryFiles) : Decidable m.Tree := inferInstanceAs (Decidable (∀ file ∈ m.files, _))

theorem Tree.isAbsolute_clean (tree : m.Tree) (found : m.isFile p = true) :
    p.clean.isAbsolute = true := by
  obtain ⟨contents, member⟩ := exists_of_isFile found
  exact (tree (p.clean, contents) member).1

theorem Tree.isDirectory_eq_false (tree : m.Tree) (found : m.isFile p = true) :
    m.isDirectory p = false := by
  obtain ⟨contents, member⟩ := exists_of_isFile found
  exact (m.isDirectory_clean p).symm.trans (tree (p.clean, contents) member).2

theorem Tree.isDirectory (tree : m.Tree) {text : List Char} (found : m.isFile p = true)
    (below : p.components = q.components ++ [.name text]) : m.isDirectory q = true := by
  refine isDirectory_of_isFile found below (List.cons_ne_nil _ _)
    (List.forall_mem_singleton.mpr ⟨text, rfl⟩) fun dot => ?_
  -- No file under an absolute path lies in the working directory.
  have kept : Path.cleanComponents p.components = [.name text] := by
    rw [below, Path.cleanComponents_concat, Path.clean_eq_dot_iff.mp dot, List.nil_append]
  have rooted := (Path.isAbsolute_iff p.clean).mp (tree.isAbsolute_clean found)
  rw [Path.components_clean (by simp [kept]), kept] at rooted
  simp at rooted

theorem Tree.resolve_eq_ok (tree : m.Tree) (plain : extensions.Plain) {reference : Path}
    (resolved : resolve m.fileSystem extensions reference = .ok p) :
    m.isFile p = true ∧ extensions.recognizes p = true := by
  obtain ⟨candidate, listed, found, rfl⟩ := ModuleBundle.resolve_eq_ok resolved
  refine ⟨(m.isFile_clean candidate).trans found, Extensions.recognizes_clean ?_⟩
  unfold candidates at listed
  split_ifs at listed with directory recognized
  · obtain ⟨extension, known, rfl⟩ := List.mem_map.mp listed
    have last := Path.getLast?_components_join_index reference (plain extension known)
    exact Extensions.recognizes_iff.mpr
      ⟨extension, known, indexStem.toList, by decide, (plain extension known).2.1, last⟩
  · rw [List.mem_singleton.mp listed]
    exact recognized
  · obtain ⟨extension, known, rfl⟩ := List.mem_map.mp listed
    obtain ⟨front, stem, same, empty⟩ :=
      Path.exists_components_appendExtension reference (plain extension known)
    -- Without a name in front of its dot, the file would lie in a directory that the reference names.
    have named : stem ≠ [] := by
      intro none
      rw [← empty none] at same
      exact directory (tree.isDirectory found same)
    refine Extensions.recognizes_iff.mpr ⟨extension, known, stem, named, ?_⟩
    exact ⟨(plain extension known).2.1, by rw [same, List.getLast?_concat]⟩

theorem Tree.resolve_eq_error (tree : m.Tree) {reference : Path} {e : Unresolved}
    (resolved : resolve m.fileSystem extensions reference = .error e)
    (found : m.isFile reference = true) : extensions.recognizes reference = false := by
  refine eq_false_of_ne_true fun recognized => ?_
  have directory : m.fileSystem.isDirectory reference = false :=
    tree.isDirectory_eq_false found
  have listed : reference ∈ candidates m.fileSystem extensions reference := by
    simp [candidates, directory, recognized]
  exact Bool.false_ne_true (((resolve_eq_error_iff.mp resolved).1 reference listed).symm.trans found)

theorem Tree.key_ne (tree : m.Tree) {importer : Path} {specifier : String}
    (missing : (Resolution.ofSpecifier m.fileSystem extensions importer specifier).resolved.isOk = false)
    (found : m.isFile p = true) (recognized : extensions.recognizes p = true) :
    p.components ≠ (Resolution.ofSpecifier m.fileSystem extensions importer specifier).key.components := by
  intro same
  unfold Resolution.ofSpecifier at missing same
  split_ifs at missing same with path
  · cases resolved : resolve m.fileSystem extensions (Resolution.candidateOf importer specifier) with
    | ok other => simp [resolved, Except.isOk, Except.toBool] at missing
    | error e =>
      simp only [Resolution.key, resolved] at same
      have unknown := tree.resolve_eq_error resolved ((isFile_congr same).symm.trans found)
      exact Bool.false_ne_true (unknown.symm.trans ((Extensions.recognizes_congr same).symm.trans recognized))
  · -- A package's name does not begin with a slash.
    simp only [Resolution.key, Resolution.candidateOf, if_neg path] at same
    have absolute := tree.isAbsolute_clean ((isFile_congr same).symm.trans found)
    exact path (Resolution.isPath_of_isAbsolute (Path.isAbsolute_of_clean absolute))

end MemoryFiles

end ModuleBundle
