import ModuleBundle.Proofs.Path.Joining
import ModuleBundle.Proofs.Results
import ModuleBundle.Resolution.Cache

/-!
Remembered resolutions. A resolution depends on the components of the directory only, so one
that was remembered under another spelling of the directory is the one that would be found.
-/

set_option autoImplicit false

namespace ModuleBundle

theorem Resolution.candidateOf_congr {first second : Path}
    (same : first.components = second.components) (specifier : String) :
    candidateOf first specifier = candidateOf second specifier := by
  simp only [candidateOf, Path.clean_congr (Path.components_join_congr same ⟨specifier⟩)]

theorem Resolution.ofSpecifier_congr (fs : FileSystem) (extensions : Extensions) {first second : Path}
    (same : first.components = second.components) (specifier : String) :
    ofSpecifier fs extensions first specifier = ofSpecifier fs extensions second specifier := by
  simp only [ofSpecifier, candidateOf_congr same]

namespace ResolutionCache

variable {fs : FileSystem} {extensions : Extensions}

theorem resolveFrom_fst_eq_getD (cache : ResolutionCache) (directory : Path) (specifier : String) :
    (cache.resolveFrom fs extensions directory specifier).1 =
      (cache.entries.lookup (.of directory specifier)).getD
        (.ofSpecifier fs extensions directory specifier) := by
  unfold resolveFrom
  cases cache.entries.lookup (.of directory specifier) <;> rfl

theorem lookup_resolveFrom (cache : ResolutionCache) (directory : Path) (specifier : String)
    (key : CacheKey) :
    (cache.resolveFrom fs extensions directory specifier).2.entries.lookup key =
      (cache.entries.lookup key).or
        (if CacheKey.of directory specifier = key then
          some (.ofSpecifier fs extensions directory specifier) else none) := by
  unfold resolveFrom
  cases known : cache.entries.lookup (.of directory specifier) with
  | some found =>
    split_ifs with same
    · rw [← same, known, Option.some_or]
    · exact Option.or_none.symm
  | none =>
    rw [lookup_cons_ite, if_congr eq_comm rfl rfl]
    split_ifs with same
    · rw [← same, known, Option.none_or]
    · exact Option.or_none.symm

/-- Every entry is what resolving anew gives, from every spelling of its directory. -/
def Sound (fs : FileSystem) (extensions : Extensions) (cache : ResolutionCache) : Prop :=
  ∀ entry ∈ cache.entries, ∀ directory : Path, directory.components = entry.1.directory →
    entry.2 = .ofSpecifier fs extensions directory entry.1.specifier

theorem empty_sound : empty.Sound fs extensions := by
  intro entry member
  simp [empty] at member

theorem resolveFrom_fst {cache : ResolutionCache} (sound : cache.Sound fs extensions)
    (directory : Path) (specifier : String) :
    (cache.resolveFrom fs extensions directory specifier).1 =
      .ofSpecifier fs extensions directory specifier := by
  unfold resolveFrom
  split
  · rename_i known found
    obtain ⟨before, after, same, _⟩ := List.lookup_eq_some_iff.mp found
    have member : (CacheKey.of directory specifier, known) ∈ cache.entries := by simp [same]
    exact sound _ member directory rfl
  · rfl

theorem resolveFrom_snd {cache : ResolutionCache} (sound : cache.Sound fs extensions)
    (directory : Path) (specifier : String) :
    (cache.resolveFrom fs extensions directory specifier).2.Sound fs extensions := by
  unfold resolveFrom
  split
  · exact sound
  · intro entry member other same
    rcases List.mem_cons.mp member with rfl | member
    · exact Resolution.ofSpecifier_congr fs extensions same.symm specifier
    · exact sound entry member other same

end ResolutionCache

end ModuleBundle
