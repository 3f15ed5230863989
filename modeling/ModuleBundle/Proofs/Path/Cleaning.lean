import Mathlib.Data.List.Basic
import ModuleBundle.Proofs.Path.Joining

/-!
Cleaned paths. The components of a path are read back from their spelling; once needless steps
are left out none is left, so that cleaning twice is cleaning once, and the file name stays.
-/

set_option autoImplicit false

namespace ModuleBundle

theorem not_mem_of_mem_stretches {separator : Char} {text stretch : List Char}
    (member : stretch ∈ stretches separator text) : separator ∉ stretch := by
  induction text generalizing stretch with
  | nil =>
    rw [List.mem_singleton.mp member]
    exact List.not_mem_nil
  | cons c cs ih =>
    simp only [stretches] at member
    split_ifs at member with cut
    · rcases List.mem_cons.mp member with rfl | member
      · exact List.not_mem_nil
      · exact ih member
    · split at member
      · rw [List.mem_singleton.mp member]
        simpa using Ne.symm cut
      · rename_i first rest pieces
        rcases List.mem_cons.mp member with rfl | member
        · have absent : separator ∉ first := ih (pieces ▸ List.mem_cons_self)
          simp [absent, Ne.symm cut]
        · exact ih (pieces ▸ List.mem_cons_of_mem _ member)

theorem stretches_of_not_mem {separator : Char} {text : List Char} (absent : separator ∉ text) :
    stretches separator text = [text] := by
  induction text with
  | nil => rfl
  | cons c cs ih =>
    obtain ⟨differ, others⟩ := not_or.mp (mt List.mem_cons.mpr absent)
    simp only [stretches, if_neg (Ne.symm differ), ih others]

namespace Path

def Inner (c : Component) : Prop :=
  '/' ∉ Component.spell c ∧ innerComponent? (Component.spell c) = some c

theorem spell_of_innerComponent? {segment : List Char} {c : Component}
    (read : innerComponent? segment = some c) : Component.spell c = segment := by
  unfold innerComponent? at read
  split_ifs at read with _ dots
  · obtain rfl := Option.some.inj read
    exact dots.symm
  · obtain rfl := Option.some.inj read
    rfl

theorem inner_of_mem_filterMap {segments : List (List Char)} (whole : ∀ segment ∈ segments, '/' ∉ segment)
    {c : Component} (member : c ∈ segments.filterMap innerComponent?) : Inner c := by
  obtain ⟨segment, piece, read⟩ := List.mem_filterMap.mp member
  have same := spell_of_innerComponent? read
  exact ⟨same ▸ whole segment piece, same.symm ▸ read⟩

theorem spell_cons (c : Component) {rest : List Component} (more : rest ≠ []) :
    spell (c :: rest) = Component.spell c ++ '/' :: spell rest := by
  cases rest with
  | nil => contradiction
  | cons d rest => cases c <;> rfl

theorem spell_singleton {c : Component} (inner : Inner c) : spell [c] = Component.spell c := by
  cases c with
  | root => cases inner.2
  | here => rfl
  | parent => rfl
  | name text => rfl

theorem innerOf_spell_inner {c : Component} (inner : Inner c) : innerOf (Component.spell c) = [c] := by
  rw [innerOf, segmentsOf, stretches_of_not_mem inner.1]
  simp [inner.2]

theorem innerOf_spell {cs : List Component} (inner : ∀ c ∈ cs, Inner c) : innerOf (spell cs) = cs := by
  induction cs with
  | nil => rfl
  | cons c rest ih =>
    have first : Inner c := inner c List.mem_cons_self
    have others := ih fun d member => inner d (List.mem_cons_of_mem c member)
    rcases eq_or_ne rest [] with rfl | more
    · rw [spell_singleton first, innerOf_spell_inner first]
    · rw [spell_cons c more, innerOf_append, others, innerOf_spell_inner first]
      rfl

theorem componentsOf_spell_inner {c : Component} (inner : Inner c) :
    componentsOf (Component.spell c) = [c] := by
  obtain ⟨whole, read⟩ := inner
  have noDot : Component.spell c ≠ ['.'] := by
    intro dot
    rw [dot] at read
    cases read
  cases spelled : Component.spell c with
  | nil =>
    rw [spelled] at read
    cases read
  | cons first others =>
    rw [spelled] at whole read noDot
    have relative : first ≠ '/' := fun slash => whole (slash ▸ List.mem_cons_self)
    rw [componentsOf_relative others relative, segmentsOf, stretches_of_not_mem whole, relativeOf,
      if_neg noDot]
    simp [read]

theorem componentsOf_spell {cs : List Component} (inner : ∀ c ∈ cs, Inner c) :
    componentsOf (spell cs) = cs := by
  cases cs with
  | nil => rfl
  | cons c rest =>
    have first : Inner c := inner c List.mem_cons_self
    have others : ∀ d ∈ rest, Inner d := fun d member => inner d (List.mem_cons_of_mem c member)
    rcases eq_or_ne rest [] with rfl | more
    · rw [spell_singleton first, componentsOf_spell_inner first]
    · have present : Component.spell c ≠ [] := by
        intro empty
        have alone := componentsOf_spell_inner first
        rw [empty] at alone
        cases alone
      rw [spell_cons c more, componentsOf_append, leadingOf, if_neg present,
        componentsOf_spell_inner first, innerOf_spell others]
      rfl

theorem componentsOf_spell_root {cs : List Component} (inner : ∀ c ∈ cs, Inner c) :
    componentsOf (spell (.root :: cs)) = .root :: cs := by
  rcases eq_or_ne cs [] with rfl | more
  · rfl
  · rw [spell_cons .root more]
    exact (componentsOf_root _).trans (congrArg (.root :: ·) (innerOf_spell inner))

/-- Components behind each other without needless steps, the last one first. -/
inductive Cleaned : List Component → Prop where
  | root : Cleaned [.root]
  | upwards (steps : Nat) : Cleaned (List.replicate steps .parent)
  | name (text : List Char) {done : List Component} (before : Cleaned done) :
      Cleaned (.name text :: done)

theorem Cleaned.step {done : List Component} (cleaned : Cleaned done) {c : Component}
    (first : c = .root → done = []) : Cleaned (cleanStep done c) := by
  cases c with
  | root =>
    rw [first rfl]
    exact .root
  | here => exact cleaned
  | name text => exact .name text cleaned
  | parent =>
    cases cleaned with
    | root => exact .root
    | name text before => exact before
    | upwards steps =>
      cases steps with
      | zero => exact .upwards 1
      | succ steps => exact .upwards (steps + 2)

theorem Cleaned.fold {done : List Component} (cleaned : Cleaned done) :
    done.reverse.foldl cleanStep [] = done := by
  induction cleaned with
  | root => rfl
  | upwards steps =>
    rw [List.reverse_replicate]
    induction steps with
    | zero => rfl
    | succ steps ih =>
      rw [List.replicate_succ', List.foldl_append, ih, ← List.replicate_succ']
      cases steps <;> rfl
  | name text before ih =>
    rw [List.reverse_cons, List.foldl_append, ih]
    rfl

theorem cleaned_foldl {cs done : List Component} (cleaned : Cleaned done) (rootless : .root ∉ cs) :
    Cleaned (cs.foldl cleanStep done) := by
  induction cs generalizing done with
  | nil => exact cleaned
  | cons c cs ih =>
    obtain ⟨differ, others⟩ := not_or.mp (mt List.mem_cons.mpr rootless)
    exact ih (cleaned.step fun same => absurd same.symm differ) others

theorem mem_cleanStep {done : List Component} {c d : Component} (member : d ∈ cleanStep done c) :
    d ∈ done ∨ d = c := by
  cases c with
  | parent =>
    simp only [cleanStep] at member
    split at member
    · exact .inl member
    · exact .inl (List.mem_cons_of_mem _ member)
    · exact (List.mem_cons.mp member).symm
  | here => exact .inl member
  | root => exact (List.mem_cons.mp member).symm
  | name text => exact (List.mem_cons.mp member).symm

theorem mem_of_mem_foldl {cs done : List Component} {d : Component}
    (member : d ∈ cs.foldl cleanStep done) : d ∈ done ∨ d ∈ cs := by
  induction cs generalizing done with
  | nil => exact .inl member
  | cons c cs ih =>
    rcases ih member with member | member
    · rcases mem_cleanStep member with member | rfl
      · exact .inl member
      · exact .inr List.mem_cons_self
    · exact .inr (List.mem_cons_of_mem c member)

theorem mem_of_mem_cleanComponents {cs : List Component} {d : Component}
    (member : d ∈ cleanComponents cs) : d ∈ cs := by
  rcases mem_of_mem_foldl (List.mem_reverse.mp member) with none | member
  · cases none
  · exact member

theorem components_cases (p : Path) :
    (p.isAbsolute = true ∧ ∃ cs, p.components = .root :: cs ∧ ∀ c ∈ cs, Inner c) ∨
      p.isAbsolute = false ∧
        ((∃ cs, p.components = .here :: cs ∧ ∀ c ∈ cs, Inner c) ∨ ∀ c ∈ p.components, Inner c) := by
  unfold isAbsolute components
  cases p.text.toList with
  | nil => exact .inr ⟨rfl, .inr nofun⟩
  | cons first others =>
    have whole : ∀ text, ∀ segment ∈ segmentsOf text, '/' ∉ segment :=
      fun text segment => not_mem_of_mem_stretches
    by_cases slash : first = '/'
    · rw [slash, componentsOf_root]
      exact .inl ⟨rfl, _, rfl, fun c => inner_of_mem_filterMap (whole _)⟩
    · rw [componentsOf_relative others slash]
      refine .inr ⟨by simpa using slash, ?_⟩
      have pieces := whole (first :: others)
      -- of the segments only the first may stand for a dot
      cases cut : segmentsOf (first :: others) with
      | nil => exact .inr nofun
      | cons segment rest =>
        rw [cut] at pieces
        rw [relativeOf]
        split_ifs with dot
        · exact .inl ⟨_, rfl, fun c => inner_of_mem_filterMap fun piece member =>
            pieces piece (List.mem_cons_of_mem _ member)⟩
        · exact .inr fun c => inner_of_mem_filterMap pieces

theorem root_not_mem {cs : List Component} (inner : ∀ c ∈ cs, Inner c) : .root ∉ cs :=
  fun member => by cases (inner _ member).2

theorem isAbsolute_iff (p : Path) : p.isAbsolute = true ↔ .root ∈ p.components := by
  rcases p.components_cases with ⟨absolute, cs, same, _⟩ | ⟨relative, ⟨cs, same, inner⟩ | inner⟩
  · simp [absolute, same]
  · simp [relative, same, root_not_mem inner]
  · simp [relative, root_not_mem inner]

theorem cleaned_components (p : Path) : Cleaned (p.components.foldl cleanStep []) := by
  rcases p.components_cases with ⟨_, cs, same, inner⟩ | ⟨_, ⟨cs, same, inner⟩ | inner⟩
  · rw [same]
    change Cleaned (cs.foldl cleanStep [.root])
    exact cleaned_foldl .root (root_not_mem inner)
  · rw [same]
    change Cleaned (cs.foldl cleanStep [])
    exact cleaned_foldl (.upwards 0) (root_not_mem inner)
  · exact cleaned_foldl (.upwards 0) (root_not_mem inner)

theorem Cleaned.root_cases {done : List Component} (cleaned : Cleaned done) :
    (∃ names, done.reverse = .root :: names ∧ .root ∉ names) ∨ .root ∉ done := by
  induction cleaned with
  | root => exact .inl ⟨[], rfl, List.not_mem_nil⟩
  | upwards steps => exact .inr fun member => by cases List.eq_of_mem_replicate member
  | name text before ih =>
    rcases ih with ⟨names, same, absent⟩ | absent
    · refine .inl ⟨names ++ [.name text], by rw [List.reverse_cons, same]; rfl, ?_⟩
      simpa using absent
    · exact .inr (by simpa using absent)

theorem Cleaned.here_not_mem {done : List Component} (cleaned : Cleaned done) : .here ∉ done := by
  induction cleaned with
  | root => simp
  | upwards steps => exact fun member => by cases List.eq_of_mem_replicate member
  | name text before ih => simpa using ih

theorem clean_of_nil {p : Path} (none : cleanComponents p.components = []) : p.clean = ⟨"."⟩ := by
  rw [clean, none]

theorem components_clean {p : Path} (some : cleanComponents p.components ≠ []) :
    p.clean.components = cleanComponents p.components := by
  have made : p.clean = ofComponents (cleanComponents p.components) := by
    unfold clean
    split
    · contradiction
    · rfl
  -- Cleaning invents no component, and drops the dot that may stand in front.
  have inner : ∀ c ∈ cleanComponents p.components, c ≠ .root → Inner c := by
    intro c member notRoot
    have notHere : c ≠ .here := fun same =>
      (cleaned_components p).here_not_mem (List.mem_reverse.mp (same ▸ member))
    have listed := mem_of_mem_cleanComponents member
    rcases p.components_cases with ⟨_, cs, same, inner⟩ | ⟨_, ⟨cs, same, inner⟩ | inner⟩
    · rw [same] at listed
      exact inner c ((List.mem_cons.mp listed).resolve_left notRoot)
    · rw [same] at listed
      exact inner c ((List.mem_cons.mp listed).resolve_left notHere)
    · exact inner c listed
  rw [made, ofComponents, components, String.toList_ofList]
  rcases (cleaned_components p).root_cases with ⟨names, same, absent⟩ | absent
  · have spelled : cleanComponents p.components = .root :: names := same
    rw [spelled] at inner ⊢
    refine componentsOf_spell_root fun c member => inner c (List.mem_cons_of_mem _ member) ?_
    exact fun root => absent (root ▸ member)
  · refine componentsOf_spell fun c member => inner c member ?_
    exact fun root => absent (List.mem_reverse.mp (root ▸ member))

theorem clean_clean (p : Path) : p.clean.clean = p.clean := by
  rcases eq_or_ne (cleanComponents p.components) [] with none | some
  · rw [clean_of_nil none]
    rfl
  · have again : cleanComponents p.clean.components = cleanComponents p.components := by
      rw [components_clean some]
      exact congrArg List.reverse (cleaned_components p).fold
    rw [clean, again, ← clean]

theorem cleanComponents_concat (cs : List Component) (text : List Char) :
    cleanComponents (cs ++ [.name text]) = cleanComponents cs ++ [.name text] := by
  rw [cleanComponents, List.foldl_append]
  exact List.reverse_cons

theorem getLast?_components_clean {p : Path} {text : List Char}
    (named : p.components.getLast? = some (.name text)) :
    p.clean.components.getLast? = some (.name text) := by
  obtain ⟨cs, same⟩ := List.getLast?_eq_some_iff.mp named
  have kept := congrArg cleanComponents same
  rw [cleanComponents_concat] at kept
  rw [components_clean (by simp [kept]), kept, List.getLast?_concat]

theorem isAbsolute_of_clean {p : Path} (absolute : p.clean.isAbsolute = true) : p.isAbsolute = true := by
  rw [isAbsolute_iff] at absolute ⊢
  rcases eq_or_ne (cleanComponents p.components) [] with none | some
  · rw [clean_of_nil none] at absolute
    exact absurd absolute (by decide)
  · rw [components_clean some] at absolute
    exact mem_of_mem_cleanComponents absolute

end Path

end ModuleBundle
