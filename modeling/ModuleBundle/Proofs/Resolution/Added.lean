import ModuleBundle.Proofs.Resolution.Trees
import ModuleBundle.Proofs.Results

/-!
Files that are added. One more file changes the answer to no question but whether there is a file
under its own path, what it holds, and whether the paths above it are directories. A reference
that asks none of these leads where it led before.
-/

set_option autoImplicit false

namespace ModuleBundle

/-- The candidates for a reference that are looked for: those up to the first that is a file. -/
def probed (fs : FileSystem) (extensions : Extensions) (reference : Path) : List Path :=
  let paths := candidates fs extensions reference
  paths.take (paths.findIdx fs.isFile + 1)

def Path.Above (p q : Path) : Prop := p.components <+: q.components ∧ p.components ≠ q.components

instance (p q : Path) : Decidable (p.Above q) := inferInstanceAs (Decidable (_ ∧ _))

/-- Two file systems lead a reference to the same file, with the same contents, or to none. -/
structure FileSystem.AgreeOn (fs other : FileSystem) (extensions : Extensions) (reference : Path) :
    Prop where
  resolve : resolve other extensions reference = resolve fs extensions reference
  read : ∀ path, ModuleBundle.resolve fs extensions reference = .ok path →
    other.read path = fs.read path

section

variable {α : Type} {p q : α → Bool} {a : α} {as : List α}

theorem find?_congr_seen (same : ∀ a ∈ as.take (as.findIdx p + 1), q a = p a) :
    as.find? q = as.find? p := by
  induction as with
  | nil => rfl
  | cons a as ih =>
    have here : q a = p a := same a (by simp)
    cases hit : p a with
    | true => rw [List.find?_cons_of_pos hit, List.find?_cons_of_pos (here.trans hit)]
    | false =>
      rw [List.findIdx_cons, hit, cond_false, List.take_succ_cons] at same
      rw [List.find?_cons_of_neg (by simp [here, hit]), List.find?_cons_of_neg (by simp [hit])]
      exact ih fun b member => same b (List.mem_cons_of_mem a member)

theorem mem_seen_of_find? (found : as.find? p = some a) : a ∈ as.take (as.findIdx p + 1) := by
  induction as with
  | nil => cases found
  | cons b as ih =>
    rw [List.findIdx_cons]
    cases hit : p b with
    | true =>
      rw [List.find?_cons_of_pos hit] at found
      obtain rfl := Option.some.inj found
      exact List.mem_cons_self
    | false =>
      rw [List.find?_cons_of_neg (by simp [hit])] at found
      rw [cond_false, List.take_succ_cons]
      exact List.mem_cons_of_mem b (ih found)

end

section

variable {fs other : FileSystem} {extensions : Extensions} {reference : Path}

theorem candidates_congr (directory : other.isDirectory reference = fs.isDirectory reference) :
    candidates other extensions reference = candidates fs extensions reference := by
  rw [candidates, candidates, directory]

theorem resolve_congr (directory : other.isDirectory reference = fs.isDirectory reference)
    (files : ∀ candidate ∈ probed fs extensions reference,
      other.isFile candidate = fs.isFile candidate)
    (canonical : other.canonical = fs.canonical) :
    resolve other extensions reference = resolve fs extensions reference := by
  simp only [resolve, candidates_congr directory, canonical]
  rw [find?_congr_seen files]

theorem resolve_mem_probed {path : Path} (resolved : resolve fs extensions reference = .ok path) :
    ∃ candidate ∈ probed fs extensions reference, path = fs.canonical candidate := by
  unfold resolve at resolved
  cases found : (candidates fs extensions reference).find? fs.isFile with
  | none => simp [found] at resolved
  | some candidate =>
    simp only [found, Except.ok.injEq] at resolved
    exact ⟨candidate, mem_seen_of_find? found, resolved.symm⟩

end

namespace MemoryFiles

variable {m : MemoryFiles} {f p : Path} {contents : String}

theorem any_put (test : Path → Bool) (path : Path) (contents : String)
    (files : List (Path × String)) :
    (put path contents files).any (fun file => test file.1) =
      (files.any (fun file => test file.1) || test path) := by
  induction files with
  | nil => simp [put]
  | cons file rest ih =>
    unfold put
    split_ifs with same
    · simp only [List.any_cons, same]
      cases test path <;> simp
    · rw [List.any_cons, List.any_cons, ih, Bool.or_assoc]

theorem contents?_insert (apart : p.clean ≠ f.clean) :
    (m.insert f contents).contents? p = m.contents? p :=
  (lookup_put p.clean f.clean contents m.files).trans (if_neg apart)

theorem isFile_insert (apart : p.clean ≠ f.clean) :
    (m.insert f contents).isFile p = m.isFile p := by
  rw [isFile, isFile, contents?_insert apart]

theorem read_insert (apart : p.clean ≠ f.clean) : (m.insert f contents).read p = m.read p := by
  rw [read, read, contents?_insert apart]
  rfl

theorem isDirectory_insert (known : p.clean.Above f.clean → m.isDirectory p = true) :
    (m.insert f contents).isDirectory p = m.isDirectory p := by
  have added : (m.insert f contents).isDirectory p =
      (m.isDirectory p || (f.clean ≠ p.clean && f.clean.startsWith p.clean)) :=
    any_put (fun path => path ≠ p.clean && path.startsWith p.clean) f.clean contents m.files
  rw [added]
  cases below : decide (f.clean ≠ p.clean) && f.clean.startsWith p.clean with
  | false => exact Bool.or_false _
  | true =>
    obtain ⟨differ, starts⟩ := Bool.and_eq_true_iff.mp below
    have above : p.clean.Above f.clean := by
      refine ⟨List.isPrefixOf_iff_prefix.mp starts, fun same => of_decide_eq_true differ ?_⟩
      -- clean paths with the same components are spelled alike
      rw [← Path.clean_clean f, ← Path.clean_clean p]
      exact Path.clean_congr same.symm
    rw [known above, Bool.true_or]

theorem agreeOn_insert {extensions : Extensions} {reference : Path}
    (unprobed : ∀ candidate ∈ probed m.fileSystem extensions reference, candidate.clean ≠ f.clean)
    (above : reference.clean.Above f.clean → m.isDirectory reference = true) :
    m.fileSystem.AgreeOn (m.insert f contents).fileSystem extensions reference where
  resolve := resolve_congr (isDirectory_insert above)
    (fun candidate probed => isFile_insert (unprobed candidate probed)) rfl
  read path resolved := by
    obtain ⟨candidate, looked, rfl⟩ := resolve_mem_probed resolved
    have apart : candidate.clean.clean ≠ f.clean := by
      rw [Path.clean_clean]
      exact unprobed candidate looked
    exact read_insert apart

end MemoryFiles

end ModuleBundle
