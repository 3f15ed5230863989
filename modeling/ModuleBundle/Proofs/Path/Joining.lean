import ModuleBundle.Path

/-!
Joined paths, read by their components. How a directory is spelled leaves no trace in what is
joined onto it: the components of the whole are those of the parts, behind each other.
-/

set_option autoImplicit false

namespace ModuleBundle

theorem stretches_ne_nil (separator : Char) (text : List Char) : stretches separator text ≠ [] := by
  cases text with
  | nil => simp [stretches]
  | cons c cs =>
    simp only [stretches]
    split
    · simp
    · split <;> simp

theorem stretches_append (separator : Char) (first rest : List Char) :
    stretches separator (first ++ separator :: rest) =
      stretches separator first ++ stretches separator rest := by
  induction first with
  | nil => simp [stretches]
  | cons c cs ih =>
    simp only [List.cons_append, stretches, ih]
    by_cases cut : c = separator
    · simp [cut]
    · rw [if_neg cut, if_neg cut]
      cases pieces : stretches separator cs with
      | nil => exact absurd pieces (stretches_ne_nil separator cs)
      | cons piece others => simp

namespace Path

def innerOf (text : List Char) : List Component := (segmentsOf text).filterMap innerComponent?

def leadingOf (text : List Char) : List Component :=
  if text = [] then [.root] else componentsOf text

/-- What the segments of a relative path contribute; only the first dot counts. -/
def relativeOf : List (List Char) → List Component
  | [] => []
  | first :: rest =>
    if first = ['.'] then .here :: rest.filterMap innerComponent?
    else (first :: rest).filterMap innerComponent?

theorem segmentsOf_append (first rest : List Char) :
    segmentsOf (first ++ '/' :: rest) = segmentsOf first ++ segmentsOf rest :=
  stretches_append '/' first rest

theorem innerOf_append (first rest : List Char) :
    innerOf (first ++ '/' :: rest) = innerOf first ++ innerOf rest := by
  rw [innerOf, segmentsOf_append, List.filterMap_append, innerOf, innerOf]

theorem componentsOf_root (text : List Char) : componentsOf ('/' :: text) = .root :: innerOf text := by
  simp [componentsOf, innerOf, segmentsOf, stretches, innerComponent?]

theorem componentsOf_relative {c : Char} (cs : List Char) (relative : c ≠ '/') :
    componentsOf (c :: cs) = relativeOf (segmentsOf (c :: cs)) := by
  unfold componentsOf
  split
  · rename_i slash
    exact absurd (List.cons.inj slash).1 relative
  · rename_i none _
    rw [none, relativeOf]
  · rename_i some _
    rw [some, relativeOf]

theorem relativeOf_append {first : List (List Char)} (present : first ≠ [])
    (rest : List (List Char)) :
    relativeOf (first ++ rest) = relativeOf first ++ rest.filterMap innerComponent? := by
  cases first with
  | nil => contradiction
  | cons segment others =>
    simp only [List.cons_append, relativeOf]
    split
    · rw [List.filterMap_append, List.cons_append]
    · rw [← List.cons_append, List.filterMap_append]

theorem componentsOf_append (first rest : List Char) :
    componentsOf (first ++ '/' :: rest) = leadingOf first ++ innerOf rest := by
  cases first with
  | nil => simp [leadingOf, componentsOf_root]
  | cons c cs =>
    rw [leadingOf, if_neg (List.cons_ne_nil c cs)]
    by_cases slash : c = '/'
    · rw [slash, List.cons_append, componentsOf_root, componentsOf_root, innerOf_append,
        List.cons_append]
    · have present : segmentsOf (c :: cs) ≠ [] := stretches_ne_nil '/' (c :: cs)
      rw [List.cons_append, componentsOf_relative _ slash, componentsOf_relative _ slash,
        ← List.cons_append, segmentsOf_append, relativeOf_append present, innerOf]

theorem componentsOf_eq_nil_iff (text : List Char) : componentsOf text = [] ↔ text = [] := by
  cases text with
  | nil => simp [componentsOf, segmentsOf, stretches, innerComponent?]
  | cons c cs =>
    simp only [List.cons_ne_nil, iff_false]
    by_cases slash : c = '/'
    · simp [slash, componentsOf_root]
    · rw [componentsOf_relative cs slash]
      have pieces : ∃ segment others, segmentsOf (c :: cs) = (c :: segment) :: others := by
        simp only [segmentsOf, stretches, if_neg slash]
        split <;> simp
      obtain ⟨segment, others, same⟩ := pieces
      rw [same, relativeOf]
      split
      · simp
      · rename_i dot
        by_cases dots : c :: segment = ['.', '.'] <;> simp [innerComponent?, dot, dots]

/-- What is joined onto a directory comes behind the directory's components. -/
theorem components_join (directory other : Path) :
    (directory.join other).components =
      if other.isAbsolute ∨ directory.components = [] then other.components
      else directory.components ++ innerOf other.text.toList := by
  rcases directory with ⟨text⟩
  rcases other with ⟨name⟩
  by_cases absolute : isAbsolute ⟨name⟩
  · simp [join, absolute]
  · simp only [join, absolute, components, componentsOf_eq_nil_iff]
    rcases List.eq_nil_or_concat text.toList with none | ⟨front, last, spelled⟩
    · simp [none]
    · have present : text.toList ≠ [] := by simp [spelled]
      by_cases slash : last = '/'
      · -- The slash that would be put between is there already.
        have ends : text.toList.getLast?.all (· = '/') = true := by simp [spelled, slash]
        have alone : componentsOf text.toList = leadingOf front := by
          rw [spelled, slash, List.concat_eq_append, componentsOf_append]
          exact List.append_nil _
        have cut : componentsOf (text.toList ++ name.toList) =
            componentsOf text.toList ++ innerOf name.toList := by
          rw [alone, ← componentsOf_append, spelled, slash]
          simp
        simp [ends, present, cut]
      -- a slash is put between the two
      · have ends : text.toList.getLast?.all (· = '/') = false := by simp [spelled, slash]
        have cut : componentsOf (text.toList ++ '/' :: name.toList) =
            componentsOf text.toList ++ innerOf name.toList := by
          rw [componentsOf_append, leadingOf, if_neg present]
        simp [ends, present, cut]

theorem components_join_congr {first second : Path} (same : first.components = second.components)
    (other : Path) : (first.join other).components = (second.join other).components := by
  rw [components_join, components_join, same]

theorem clean_congr {first second : Path} (same : first.components = second.components) :
    first.clean = second.clean := by
  rw [clean, clean, same]

end Path

end ModuleBundle
