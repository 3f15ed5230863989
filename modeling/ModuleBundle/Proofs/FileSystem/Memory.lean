import Mathlib.Data.List.Induction
import ModuleBundle.FileSystem.Memory
import ModuleBundle.Proofs.Path.Cleaning
import ModuleBundle.Proofs.Results

/-!
Files in memory after any changes. They are a map on clean paths: there is a file once something
was put under its path, however that was spelled; it is withheld once it was put there locked, and
else it holds what was put there last.
-/

set_option autoImplicit false

namespace ModuleBundle

/-- A file system gives the same answers about two paths. -/
structure FileSystem.AnswersAlike (fs : FileSystem) (p q : Path) : Prop where
  isFile : fs.isFile p = fs.isFile q
  isDirectory : fs.isDirectory p = fs.isDirectory q
  read : fs.read p = fs.read q
  canonical : fs.canonical p = fs.canonical q

theorem exists_last {α : Type} {as : List α} {holds : α → Prop} (some : ∃ a ∈ as, holds a) :
    ∃ before a after, as = before ++ a :: after ∧ holds a ∧ ∀ b ∈ after, ¬ holds b := by
  induction as with
  | nil => simp at some
  | cons first rest ih =>
    by_cases later : ∃ a ∈ rest, holds a
    · obtain ⟨before, a, after, same, here, none⟩ := ih later
      exact ⟨first :: before, a, after, by rw [same, List.cons_append], here, none⟩
    · have here : holds first := by
        obtain ⟨a, member, held⟩ := some
        rcases List.mem_cons.mp member with rfl | member
        · exact held
        · exact absurd ⟨a, member, held⟩ later
      exact ⟨[], first, rest, rfl, here, fun b member held => later ⟨b, member, held⟩⟩

namespace MemoryFiles

variable {m : MemoryFiles} {p q : Path}

theorem isFile_congr (same : p.components = q.components) : m.isFile p = m.isFile q := by
  simp only [isFile, contents?, Path.clean_congr same]

theorem isFile_clean (m : MemoryFiles) (p : Path) : m.isFile p.clean = m.isFile p := by
  simp only [isFile, contents?, Path.clean_clean]

theorem isDirectory_clean (m : MemoryFiles) (p : Path) : m.isDirectory p.clean = m.isDirectory p := by
  simp only [isDirectory, Path.clean_clean]

theorem exists_of_isFile (found : m.isFile p = true) : ∃ contents, (p.clean, contents) ∈ m.files := by
  obtain ⟨contents, here⟩ := Option.isSome_iff_exists.mp found
  obtain ⟨before, after, same, _⟩ := List.lookup_eq_some_iff.mp here
  exact ⟨contents, by simp [same]⟩

theorem answersAlike (m : MemoryFiles) (same : p.clean = q.clean) : m.fileSystem.AnswersAlike p q where
  isFile := by simp only [fileSystem, isFile, contents?, same]
  isDirectory := by simp only [fileSystem, isDirectory, same]
  read := by simp only [fileSystem, read, contents?, same]
  canonical := same

theorem read_of_locked (locked : p.clean ∈ m.locked) : m.read p = .error (.locked p.clean) :=
  if_pos (List.contains_iff_mem.mpr locked)

theorem read_of_not_locked (unlocked : p.clean ∉ m.locked) :
    m.read p = match m.contents? p with
      | some contents => .ok contents
      | none => .error (.absent p.clean) :=
  if_neg (mt List.contains_iff_mem.mp unlocked)

theorem read_eq_locked_iff : m.read p = .error (.locked p.clean) ↔ p.clean ∈ m.locked := by
  by_cases locked : p.clean ∈ m.locked
  · simp [read_of_locked locked, locked]
  · rw [read_of_not_locked locked]
    cases m.contents? p <;> simp [locked]

theorem read_eq_ok_iff {contents : String} :
    m.read p = .ok contents ↔ p.clean ∉ m.locked ∧ m.contents? p = some contents := by
  by_cases locked : p.clean ∈ m.locked
  · simp [read_of_locked locked, locked]
  · rw [read_of_not_locked locked]
    cases m.contents? p <;> simp [locked]

theorem read_eq_absent_iff :
    m.read p = .error (.absent p.clean) ↔ p.clean ∉ m.locked ∧ m.contents? p = none := by
  by_cases locked : p.clean ∈ m.locked
  · simp [read_of_locked locked, locked]
  · rw [read_of_not_locked locked]
    cases m.contents? p <;> simp [locked]

theorem lookup_put (key path : Path) (contents : String) (files : List (Path × String)) :
    (put path contents files).lookup key =
      if key = path then some contents else files.lookup key := by
  induction files with
  | nil => rw [put, lookup_cons_ite]
  | cons file rest ih =>
    unfold put
    split_ifs with same other other
    · rw [lookup_cons_ite, if_pos other]
    · rw [lookup_cons_ite, lookup_cons_ite, if_neg other, same, if_neg other]
    · rw [lookup_cons_ite, ih, if_pos other, if_neg fun first => same (first.symm.trans other)]
    · rw [lookup_cons_ite, lookup_cons_ite, ih, if_neg other]

theorem keys_put (path : Path) (contents : String) (files : List (Path × String)) :
    (put path contents files).map Prod.fst =
      if path ∈ files.map Prod.fst then files.map Prod.fst else files.map Prod.fst ++ [path] := by
  induction files with
  | nil => rfl
  | cons file rest ih =>
    unfold put
    split_ifs with same kept kept
    · rw [List.map_cons, List.map_cons, same]
    · exact absurd (List.mem_map.mpr ⟨file, List.mem_cons_self, same⟩) kept
    · have later : path ∈ rest.map Prod.fst :=
        (List.mem_cons.mp kept).resolve_left fun first => same first.symm
      rw [List.map_cons, List.map_cons, ih, if_pos later]
    · have absent : path ∉ rest.map Prod.fst := fun member => kept (List.mem_cons_of_mem _ member)
      rw [List.map_cons, List.map_cons, ih, if_neg absent, List.cons_append]

/-- What may be done to files in memory. -/
inductive Change where
  | insert (path : Path) (contents : String)
  | insertLocked (path : Path)
  deriving DecidableEq, Repr

namespace Change

def path : Change → Path
  | insert path _ => path
  | insertLocked path => path

/-- What comes to be kept under the path, also where it is withheld. -/
def contents : Change → String
  | insert _ contents => contents
  | insertLocked _ => ""

def apply (m : MemoryFiles) : Change → MemoryFiles
  | insert path contents => m.insert path contents
  | insertLocked path => m.insertLocked path

theorem apply_files (m : MemoryFiles) (change : Change) :
    (change.apply m).files = put change.path.clean change.contents m.files := by
  cases change <;> rfl

theorem mem_apply_locked {change : Change} :
    p ∈ (change.apply m).locked ↔ p ∈ m.locked ∨ ∃ q, change = insertLocked q ∧ q.clean = p := by
  cases change with
  | insert path contents => simp [apply, MemoryFiles.insert]
  | insertLocked path => simp [apply, MemoryFiles.insertLocked, or_comm, eq_comm]

theorem contents?_apply (m : MemoryFiles) (change : Change) (q : Path) :
    (change.apply m).contents? q =
      if q.clean = change.path.clean then some change.contents else m.contents? q := by
  rw [contents?, apply_files, lookup_put, contents?]

theorem isFile_foldl_apply (changes : List Change) (found : m.isFile p = true) :
    (changes.foldl apply m).isFile p = true := by
  induction changes generalizing m with
  | nil => exact found
  | cons change rest ih =>
    refine ih ?_
    rw [isFile, contents?_apply]
    split_ifs
    · rfl
    · exact found

end Change

def ofChanges (changes : List Change) : MemoryFiles := changes.foldl Change.apply empty

theorem ofChanges_append_singleton (changes : List Change) (change : Change) :
    ofChanges (changes ++ [change]) = change.apply (ofChanges changes) := List.foldl_append

/-- Every file is kept once, under its clean path, and what is withheld is a file. -/
structure WellKept (m : MemoryFiles) : Prop where
  clean : ∀ path ∈ m.files.map Prod.fst, path.clean = path
  distinct : (m.files.map Prod.fst).Nodup
  kept : ∀ path ∈ m.locked, path ∈ m.files.map Prod.fst

theorem mem_keys_put {path : Path} {contents : String} {files : List (Path × String)} :
    q ∈ (put path contents files).map Prod.fst ↔ q ∈ files.map Prod.fst ∨ q = path := by
  rw [keys_put]
  split_ifs with kept
  · exact ⟨.inl, fun either => either.elim id fun same => same ▸ kept⟩
  · simp

theorem WellKept.apply (wellKept : m.WellKept) (change : Change) : (change.apply m).WellKept where
  clean path member := by
    rw [change.apply_files] at member
    rcases mem_keys_put.mp member with member | rfl
    · exact wellKept.clean path member
    · exact Path.clean_clean change.path
  distinct := by
    rw [change.apply_files, keys_put]
    split_ifs with kept
    · exact wellKept.distinct
    · exact List.nodup_append.mpr ⟨wellKept.distinct, List.nodup_singleton _, by
        rintro path member _ last rfl
        exact kept (List.mem_singleton.mp last ▸ member)⟩
  kept path member := by
    rw [change.apply_files]
    refine mem_keys_put.mpr ?_
    rcases Change.mem_apply_locked.mp member with member | ⟨locked, rfl, same⟩
    · exact .inl (wellKept.kept path member)
    · exact .inr same.symm

theorem wellKept_ofChanges (changes : List Change) : (ofChanges changes).WellKept := by
  induction changes using List.reverseRecOn with
  | nil => exact ⟨by simp [ofChanges, empty], by simp [ofChanges, empty], by simp [ofChanges, empty]⟩
  | append_singleton changes change ih =>
    rw [ofChanges_append_singleton]
    exact ih.apply change

theorem mem_locked_ofChanges {changes : List Change} :
    p ∈ (ofChanges changes).locked ↔ ∃ q, .insertLocked q ∈ changes ∧ q.clean = p := by
  induction changes using List.reverseRecOn with
  | nil => simp [ofChanges, empty]
  | append_singleton changes change ih =>
    rw [ofChanges_append_singleton, Change.mem_apply_locked, ih]
    simp only [List.mem_append, List.mem_singleton, or_and_right, exists_or, eq_comm]

theorem contents?_of_untouched {changes : List Change}
    (untouched : ∀ change ∈ changes, change.path.clean ≠ q.clean) :
    (ofChanges changes).contents? q = none := by
  induction changes using List.reverseRecOn with
  | nil => rfl
  | append_singleton changes change ih =>
    obtain ⟨before, here⟩ := List.forall_mem_append.mp untouched
    have apart := (here change List.mem_cons_self).symm
    rw [ofChanges_append_singleton, Change.contents?_apply, if_neg apart, ih before]

/-- A file holds what was put under its path last. -/
theorem contents?_of_last (before : List Change) {change : Change} {after : List Change}
    (here : change.path.clean = q.clean) (last : ∀ later ∈ after, later.path.clean ≠ q.clean) :
    (ofChanges (before ++ change :: after)).contents? q = some change.contents := by
  induction after using List.reverseRecOn with
  | nil => rw [ofChanges_append_singleton, Change.contents?_apply, if_pos here.symm]
  | append_singleton after later ih =>
    obtain ⟨others, apart⟩ := List.forall_mem_append.mp last
    have differ := (apart later List.mem_cons_self).symm
    rw [← List.cons_append, ← List.append_assoc, ofChanges_append_singleton, Change.contents?_apply,
      if_neg differ, ih others]

/-- Files that answer for the changes that were made: which there are, what is withheld and what
the others hold, by clean paths alone. -/
structure AnswersFor (m : MemoryFiles) (changes : List Change) : Prop where
  isFile_iff : ∀ q, m.isFile q = true ↔ ∃ change ∈ changes, change.path.clean = q.clean
  locked_iff : ∀ q, m.read q = .error (.locked q.clean) ↔
    ∃ p, .insertLocked p ∈ changes ∧ p.clean = q.clean
  ok_iff : ∀ q contents, m.read q = .ok contents ↔
    (∀ p, .insertLocked p ∈ changes → p.clean ≠ q.clean) ∧
      ∃ before p after, changes = before ++ .insert p contents :: after ∧ p.clean = q.clean ∧
        ∀ other more, .insert other more ∈ after → other.clean ≠ q.clean
  absent_iff : ∀ q, m.read q = .error (.absent q.clean) ↔
    ∀ change ∈ changes, change.path.clean ≠ q.clean
  wellKept : m.WellKept
  canonical : ∀ q, m.fileSystem.canonical (m.fileSystem.canonical q) = m.fileSystem.canonical q
  canonicalAlike : ∀ q, m.fileSystem.AnswersAlike (m.fileSystem.canonical q) q
  alike : ∀ p q, p.clean = q.clean → m.fileSystem.AnswersAlike p q

theorem contents?_ofChanges_eq_none_iff {changes : List Change} :
    (ofChanges changes).contents? q = none ↔ ∀ change ∈ changes, change.path.clean ≠ q.clean := by
  refine ⟨fun none => ?_, contents?_of_untouched⟩
  by_contra touched
  push Not at touched
  obtain ⟨before, change, after, rfl, here, last⟩ := exists_last touched
  cases none.symm.trans (contents?_of_last before here last)

theorem read_ofChanges_eq_ok_iff {changes : List Change} {contents : String} :
    (ofChanges changes).read q = .ok contents ↔
      (∀ p, .insertLocked p ∈ changes → p.clean ≠ q.clean) ∧
        ∃ before p after, changes = before ++ .insert p contents :: after ∧ p.clean = q.clean ∧
          ∀ other more, .insert other more ∈ after → other.clean ≠ q.clean := by
  rw [read_eq_ok_iff, mem_locked_ofChanges]
  push Not
  refine and_congr_right fun unlocked => ⟨fun held => ?_, ?_⟩
  · have touched : ∃ change ∈ changes, change.path.clean = q.clean := by
      by_contra untouched
      push Not at untouched
      cases held.symm.trans (contents?_of_untouched untouched)
    obtain ⟨before, change, after, rfl, here, last⟩ := exists_last touched
    have same := held.symm.trans (contents?_of_last before here last)
    cases change with
    | insertLocked path => exact absurd here (unlocked path (by simp))
    | insert path written =>
      obtain rfl := Option.some.inj same
      exact ⟨before, path, after, rfl, here, fun other more member => last (.insert other more) member⟩
  · rintro ⟨before, p, after, rfl, here, last⟩
    -- What comes later under the path would be an insertion, since nothing was locked there.
    refine contents?_of_last before here fun later member => ?_
    cases later with
    | insertLocked path => exact unlocked path (by simp [member])
    | insert path written => exact last path written member

/-- After any changes the files answer for them. -/
theorem answersFor_ofChanges (changes : List Change) : (ofChanges changes).AnswersFor changes where
  isFile_iff q := by
    rw [isFile, ← Option.not_isNone, Bool.not_eq_true', ← Bool.not_eq_true, Option.isNone_iff_eq_none,
      contents?_ofChanges_eq_none_iff]
    push Not
    rfl
  locked_iff q := read_eq_locked_iff.trans mem_locked_ofChanges
  ok_iff q contents := read_ofChanges_eq_ok_iff
  absent_iff q := by
    rw [read_eq_absent_iff, contents?_ofChanges_eq_none_iff, mem_locked_ofChanges]
    refine and_iff_right_of_imp fun untouched => ?_
    rintro ⟨p, member, same⟩
    exact untouched (.insertLocked p) member same
  wellKept := wellKept_ofChanges changes
  canonical := Path.clean_clean
  canonicalAlike q := answersAlike _ (Path.clean_clean q)
  alike p q same := answersAlike _ same

/-- What is locked stays so, also where contents are put under its path later. -/
example : (ofChanges [.insertLocked ⟨"/a/./b"⟩, .insert ⟨"/a/c/../b/"⟩ "x"]).read ⟨"//a/b"⟩ =
    .error (.locked ⟨"/a/b"⟩) := by decide +kernel

end MemoryFiles

end ModuleBundle
