import Mathlib.Data.List.Pairwise
import Mathlib.Tactic.SplitIfs
import ModuleBundle.Proofs.Lowering.Splicing

/-!
Edits in layers. Where no two edits overlap without one lying inside of the other, the outermost
ones are applied, each in the place of its span, and what lies between them is kept. An edit
without any span of its own, an insertion, is not inside of what begins or ends where it stands.
-/

set_option autoImplicit false

namespace ModuleBundle

open Script (Span)

namespace Script.Span

def Inside (inner outer : Span) : Prop :=
  outer.start < inner.start ∧ inner.start < outer.stop ∧ inner.stop ≤ outer.stop

/-- Two spans have nothing in common, or one lies inside of the other. -/
def Layered (a b : Span) : Prop := a.Apart b ∨ a.Inside b ∨ b.Inside a

instance (a b : Span) : Decidable (a.Inside b) := inferInstanceAs (Decidable (_ ∧ _))

instance (a b : Span) : Decidable (a.Layered b) := inferInstanceAs (Decidable (_ ∨ _))

theorem Layered.symm {a b : Span} (layered : a.Layered b) : b.Layered a := by
  rcases layered with apart | inside | around
  · exact .inl apart.symm
  · exact .inr (.inr inside)
  · exact .inr (.inl around)

end Script.Span

namespace Edit

def Outermost (edits : List Edit) (edit : Edit) : Prop :=
  ∀ other ∈ edits, ¬ edit.span.Inside other.span

instance (edits : List Edit) : DecidablePred (Outermost edits) := fun edit =>
  inferInstanceAs (Decidable (∀ other ∈ edits, ¬ edit.span.Inside other.span))

/-- A text from `offset` on, cut up at the spans of edits that follow each other: the first text
with what stands there, the second with what the edits put there, and both with all the rest. -/
inductive Rewritten : Nat → List Edit → List Char → List Char → Prop
  | rest {offset : Nat} {text : List Char} : Rewritten offset [] text text
  | next {offset : Nat} {edit : Edit} {edits : List Edit} {kept old text body : List Char}
      (before : edit.span.start = offset + kept.length)
      (within : edit.span.stop = edit.span.start + old.length)
      (behind : Rewritten edit.span.stop edits text body) :
      Rewritten offset (edit :: edits) (kept ++ (old ++ text)) (kept ++ (edit.text.toList ++ body))

def applied (cursor : Nat) : List Edit → List Edit
  | [] => []
  | edit :: rest =>
    if edit.span.start < cursor then applied cursor rest
    else edit :: applied edit.span.stop rest

variable {edits : List Edit} {text : List Char}

theorem rewritten_splice {cursor : Nat}
    (fits : ∀ edit ∈ edits, edit.span.start ≤ edit.span.stop ∧
      edit.span.stop ≤ cursor + text.length) :
    Rewritten cursor (applied cursor edits) text (splice text cursor edits) := by
  -- by induction on the edits: each that is applied moves the cursor to its end
  induction edits generalizing cursor text with
  | nil => exact .rest
  | cons edit rest ih =>
    obtain ⟨⟨ordered, inText⟩, others⟩ := List.forall_mem_cons.mp fits
    unfold applied splice
    split_ifs with passed
    · exact ih others
    · have left : ∀ other ∈ rest, other.span.start ≤ other.span.stop ∧
          other.span.stop ≤ edit.span.stop + (text.drop (edit.span.stop - cursor)).length := by
        intro other listed
        have := others other listed
        rw [List.length_drop]
        omega
      have cut : text = text.take (edit.span.start - cursor) ++
          ((text.drop (edit.span.start - cursor)).take (edit.span.stop - edit.span.start) ++
            text.drop (edit.span.stop - cursor)) := by
        have reached : edit.span.stop - cursor =
            edit.span.start - cursor + (edit.span.stop - edit.span.start) := by omega
        rw [reached, ← List.drop_drop, List.take_append_drop, List.take_append_drop]
      have keeps : edit.span.start = cursor + (text.take (edit.span.start - cursor)).length := by
        rw [List.length_take]
        omega
      have replaces : edit.span.stop = edit.span.start +
          ((text.drop (edit.span.start - cursor)).take
            (edit.span.stop - edit.span.start)).length := by
        rw [List.length_take, List.length_drop]
        omega
      have whole := Rewritten.next keeps replaces (ih left)
      rwa [← cut] at whole

theorem starts_of_before {first second : Edit} (before : first.before second = true) :
    first.span.start ≤ second.span.start := by
  rcases before_iff.mp before with earlier | ⟨same, _⟩
  · exact Nat.le_of_lt earlier
  · exact Nat.le_of_eq same

theorem inside_of_before {first second : Edit} (before : first.before second = true)
    (ordered : second.span.start ≤ second.span.stop) (layered : first.span.Layered second.span)
    (starts : second.span.start < first.span.stop) : second.span.Inside first.span := by
  have sorted := before_iff.mp before
  rcases layered with apart | inside | inside
  · rcases apart with ahead | behind <;> omega
  · have := inside.1
    omega
  · exact inside

theorem applied_eq_filter {Hidden : Edit → Prop} [DecidablePred Hidden] {cursor : Nat}
    (sorted : edits.Pairwise (·.before · = true))
    (ordered : ∀ edit ∈ edits, edit.span.start ≤ edit.span.stop)
    (layered : edits.Pairwise fun a b => a.span.Layered b.span)
    (passed : ∀ edit ∈ edits, edit.span.start < cursor → Hidden edit ∧ edit.span.stop ≤ cursor)
    (ahead : ∀ edit ∈ edits, cursor ≤ edit.span.start →
      (Hidden edit ↔ ∃ other ∈ edits, edit.span.Inside other.span)) :
    applied cursor edits = edits.filter fun edit => ¬ Hidden edit := by
  -- what begins in front of the cursor lies inside of the edit that moved the cursor there
  induction edits generalizing cursor with
  | nil => rfl
  | cons edit rest ih =>
    obtain ⟨least, sorted⟩ := List.pairwise_cons.mp sorted
    obtain ⟨around, layered⟩ := List.pairwise_cons.mp layered
    obtain ⟨stops, ordered⟩ := List.forall_mem_cons.mp ordered
    obtain ⟨herePassed, passed⟩ := List.forall_mem_cons.mp passed
    obtain ⟨hereAhead, ahead⟩ := List.forall_mem_cons.mp ahead
    unfold applied
    split_ifs with dropped
    · obtain ⟨hidden, ends⟩ := herePassed dropped
      rw [List.filter_cons_of_neg (by simpa using hidden)]
      refine ih sorted ordered layered passed fun other listed below => ?_
      simp only [ahead other listed below, List.mem_cons, exists_eq_or_imp]
      refine or_iff_right fun inside => ?_
      exact Nat.not_lt.mpr (Nat.le_trans ends below) inside.2.1
    · have reached := Nat.le_of_not_lt dropped
      have plain : ¬ Hidden edit := by
        rw [hereAhead reached]
        rintro ⟨other, listed, begins, _⟩
        rcases List.mem_cons.mp listed with rfl | listed
        · exact Nat.lt_irrefl _ begins
        · exact Nat.not_lt.mpr (starts_of_before (least other listed)) begins
      have behind (other : Edit) (listed : other ∈ rest) : cursor ≤ other.span.start :=
        Nat.le_trans reached (starts_of_before (least other listed))
      rw [List.filter_cons_of_pos (by simpa using plain)]
      refine congrArg (edit :: ·) (ih sorted ordered layered (fun other listed starts => ?_)
        fun other listed below => ?_)
      · have inside := inside_of_before (least other listed) (ordered other listed)
          (around other listed) starts
        have within : ∃ outer ∈ edit :: rest, other.span.Inside outer.span :=
          ⟨edit, List.mem_cons_self, inside⟩
        exact ⟨(ahead other listed (behind other listed)).mpr within, inside.2.2⟩
      · simp only [ahead other listed (behind other listed), List.mem_cons, exists_eq_or_imp]
        refine or_iff_right fun inside => ?_
        exact Nat.not_lt.mpr below inside.2.1

/-- Edits in layers from `cursor` on replace the outermost spans, each by its text, and keep all
other characters once and in order. -/
theorem rewritten_sort {cursor : Nat}
    (fits : ∀ edit ∈ edits, cursor ≤ edit.span.start ∧ edit.span.start ≤ edit.span.stop ∧
      edit.span.stop ≤ cursor + text.length)
    (layered : edits.Pairwise fun a b => a.span.Layered b.span) :
    Rewritten cursor ((sort edits).filter (Outermost edits)) text
      (splice text cursor (sort edits)) := by
  have perm := sort_perm edits
  have same : applied cursor (sort edits) = (sort edits).filter (Outermost edits) := by
    -- no edit starts in front of the cursor, so only those inside of others are dropped
    have hidden (edit : Edit) : ¬ Outermost edits edit ↔
        ∃ other ∈ sort edits, edit.span.Inside other.span := by
      simp only [Outermost, not_forall, not_not, mem_sort, exists_prop]
    have ahead (edit : Edit) (listed : edit ∈ sort edits) : ¬ edit.span.start < cursor :=
      Nat.not_lt.mpr (fits edit (mem_sort.mp listed)).1
    have filtered : applied cursor (sort edits) =
        (sort edits).filter fun edit => ¬ ¬ Outermost edits edit :=
      applied_eq_filter (sort_pairwise edits)
        (fun edit listed => (fits edit (mem_sort.mp listed)).2.1)
        (layered.perm perm.symm Span.Layered.symm)
        (fun edit listed begins => absurd begins (ahead edit listed)) fun edit _ _ => hidden edit
    rw [filtered]
    exact List.filter_congr fun edit _ => by simp
  rw [← same]
  exact rewritten_splice fun edit listed => (fits edit (mem_sort.mp listed)).2

theorem rewritten_apply (fits : ∀ edit ∈ edits, edit.span.start ≤ edit.span.stop ∧
      edit.span.stop ≤ text.length)
    (layered : edits.Pairwise fun a b => a.span.Layered b.span) :
    Rewritten 0 ((sort edits).filter (Outermost edits)) text (apply edits text) := by
  refine rewritten_sort (fun edit listed => ⟨Nat.zero_le _, ?_⟩) layered
  rw [Nat.zero_add]
  exact fits edit listed

example :
    let edits : List Edit := [⟨⟨4, 5⟩, "x"⟩, .remove ⟨2, 6⟩, .insert 2 "<", .insert 6 ">"]
    ((sort edits).filter (Outermost edits), String.ofList (apply edits "ab[cd]ef".toList)) =
      ([.insert 2 "<", .remove ⟨2, 6⟩, .insert 6 ">"], "ab<>ef") := by
  decide +kernel

end Edit

end ModuleBundle
