import Mathlib.Data.String.Basic
import ModuleBundle.Graph.Discovery
import ModuleBundle.Proofs.Results

/-!
Numbers of modules. A key, once seen, keeps its number however many keys come after it, and
keys that differ have different numbers. A mapping holds each specifier once, in order.
-/

set_option autoImplicit false

namespace ModuleBundle

theorem Path.same_iff (p q : Path) : p.same q = true ↔ p.components = q.components := by
  simp [same]

namespace Seen

def Distinct (s : Seen) : Prop := s.keys.Pairwise fun p q => p.components ≠ q.components

def Before (s t : Seen) : Prop := ∃ more, t.keys = s.keys ++ more

theorem id?_before {s t : Seen} (before : s.Before t) {key : Path} {id : Nat}
    (found : s.id? key = some id) : t.id? key = some id := by
  obtain ⟨more, same⟩ := before
  unfold id? at found ⊢
  rw [same, List.findIdx?_append, found]
  rfl

theorem id?_eq_none_iff (s : Seen) (key : Path) :
    s.id? key = none ↔ ∀ known ∈ s.keys, known.components ≠ key.components := by
  simp [id?, List.findIdx?_eq_none_iff, Path.same]

theorem id?_push_self {s : Seen} {key : Path} (fresh : s.id? key = none) :
    (s.push key).id? key = some s.size := by
  unfold id? at fresh
  simp only [id?, push, List.findIdx?_append, fresh]
  simp [size, Path.same]

theorem Distinct.push {s : Seen} (distinct : s.Distinct) {key : Path} (fresh : s.id? key = none) :
    (s.push key).Distinct := by
  refine List.pairwise_append.mpr ⟨distinct, List.pairwise_singleton _ _, ?_⟩
  intro known member other last
  obtain rfl := List.mem_singleton.mp last
  exact (id?_eq_none_iff s other).mp fresh known member

theorem Distinct.nodup {s : Seen} (distinct : s.Distinct) : s.keys.Nodup :=
  List.Pairwise.imp (fun differ same => differ (congrArg Path.components same)) distinct

theorem Distinct.id?_eq_some_iff {s : Seen} (distinct : s.Distinct) (key : Path) (id : Nat) :
    s.id? key = some id ↔ ∃ known, s.keys[id]? = some known ∧ known.components = key.components := by
  simp only [id?, List.findIdx?_eq_some_iff_getElem, Path.same_iff]
  constructor
  · rintro ⟨bound, same, _⟩
    exact ⟨s.keys[id], List.getElem?_eq_getElem bound, same⟩
  · rintro ⟨known, found, same⟩
    obtain ⟨bound, rfl⟩ := List.getElem?_eq_some_iff.mp found
    refine ⟨bound, same, fun earlier before other => ?_⟩
    have apart := List.pairwise_iff_getElem.mp distinct earlier id (before.trans bound) bound before
    exact apart (other.trans same.symm)

end Seen

namespace Mapping

def Sorted (mapping : Mapping) : Prop := mapping.Pairwise fun first second => first.1 < second.1

variable {mapping : Mapping} {specifier : String} {id : Nat}

theorem mem_of_mem_insert {entry : String × Nat} (member : entry ∈ mapping.insert specifier id) :
    entry = (specifier, id) ∨ entry ∈ mapping := by
  induction mapping with
  | nil => simpa [insert] using member
  | cons first rest ih =>
    simp only [insert] at member
    split_ifs at member <;> grind

theorem Sorted.insert (sorted : mapping.Sorted) (specifier : String) (id : Nat) :
    (mapping.insert specifier id).Sorted := by
  induction mapping with
  | nil => exact List.pairwise_singleton _ _
  | cons first rest ih =>
    obtain ⟨below, others⟩ := List.pairwise_cons.mp sorted
    simp only [Mapping.insert]
    split_ifs with same less
    · exact List.pairwise_cons.mpr ⟨fun entry member => same ▸ below entry member, others⟩
    · refine List.pairwise_cons.mpr ⟨fun entry member => ?_, sorted⟩
      rcases List.mem_cons.mp member with rfl | member
      · exact less
      · exact less.trans (below entry member)
    · refine List.pairwise_cons.mpr ⟨fun entry member => ?_, ih others⟩
      rcases mem_of_mem_insert member with rfl | member
      · exact lt_of_le_of_ne (not_lt.mp less) (Ne.symm same)
      · exact below entry member

theorem Sorted.mem_insert_iff (sorted : mapping.Sorted) (key : String) (value : Nat) :
    (key, value) ∈ mapping.insert specifier id ↔
      if key = specifier then value = id else (key, value) ∈ mapping := by
  induction mapping with
  | nil => by_cases same : key = specifier <;> simp [Mapping.insert, same]
  | cons first rest ih =>
    obtain ⟨below, others⟩ := List.pairwise_cons.mp sorted
    have absent : ∀ other ≤ first.1, (other, value) ∉ rest := fun other least member =>
      absurd (below _ member) (not_lt.mpr least)
    have tail := ih others
    simp only [Mapping.insert]
    split_ifs at tail ⊢ <;> grind

theorem Sorted.nodup (sorted : mapping.Sorted) : (mapping.map Prod.fst).Nodup :=
  List.pairwise_map.mpr (sorted.imp ne_of_lt)

theorem Sorted.lookup_eq_some_iff (sorted : mapping.Sorted) :
    mapping.lookup specifier = some id ↔ (specifier, id) ∈ mapping :=
  lookup_eq_some_iff_mem sorted.nodup specifier id

end Mapping

end ModuleBundle
