import ModuleBundle.Lowering.Edit

/-!
What becomes of one place of a text under many edits. Sorted edits can be cut wherever none
of them reaches across, so a span that all others keep off is replaced by its own edit, or
stays as it is when it has none.
-/

set_option autoImplicit false

namespace ModuleBundle

open Script (Span)

namespace Script.Span

def Apart (a b : Span) : Prop := a.stop ≤ b.start ∨ b.stop ≤ a.start

def Within (inner outer : Span) : Prop :=
  outer.start ≤ inner.start ∧ inner.stop ≤ outer.stop

instance (a b : Span) : Decidable (a.Apart b) := inferInstanceAs (Decidable (_ ∨ _))

instance (a b : Span) : Decidable (a.Within b) := inferInstanceAs (Decidable (_ ∧ _))

theorem Apart.symm {a b : Span} (apart : a.Apart b) : b.Apart a := Or.symm apart

end Script.Span

namespace Edit

variable {edits : List Edit} {text : List Char}

/-! Sorting. -/

theorem before_iff {first second : Edit} :
    first.before second = true ↔ first.span.start < second.span.start ∨
      (first.span.start = second.span.start ∧ first.span.stop ≤ second.span.stop) := by
  simp [before]

theorem before_trans {a b c : Edit} (first : a.before b = true) (second : b.before c = true) :
    a.before c = true := by
  rw [before_iff] at *
  omega

theorem before_of_not {a b : Edit} (behind : ¬ a.before b = true) : b.before a = true := by
  rw [before_iff] at *
  omega

theorem insertSorted_perm (edit : Edit) (sorted : List Edit) :
    (insertSorted edit sorted).Perm (edit :: sorted) := by
  induction sorted with
  | nil => exact .refl _
  | cons first rest ih =>
    unfold insertSorted
    split
    · exact .refl _
    · exact (ih.cons first).trans (.swap edit first rest)

theorem sort_perm (edits : List Edit) : (sort edits).Perm edits := by
  induction edits with
  | nil => exact .refl _
  | cons edit rest ih => exact (insertSorted_perm edit (sort rest)).trans (ih.cons edit)

theorem mem_sort {edit : Edit} : edit ∈ sort edits ↔ edit ∈ edits := (sort_perm edits).mem_iff

theorem insertSorted_pairwise (edit : Edit) {sorted : List Edit}
    (ordered : sorted.Pairwise (·.before · = true)) :
    (insertSorted edit sorted).Pairwise (·.before · = true) := by
  induction sorted with
  | nil => exact List.pairwise_singleton _ edit
  | cons first rest ih =>
    obtain ⟨least, ordered⟩ := List.pairwise_cons.mp ordered
    unfold insertSorted
    split
    next inFront =>
      refine List.pairwise_cons.mpr ⟨?_, List.pairwise_cons.mpr ⟨least, ordered⟩⟩
      intro other listed
      rcases List.mem_cons.mp listed with rfl | listed
      · exact inFront
      · exact before_trans inFront (least other listed)
    next behind =>
      refine List.pairwise_cons.mpr ⟨?_, ih ordered⟩
      intro other listed
      rcases List.mem_cons.mp ((insertSorted_perm edit rest).mem_iff.mp listed) with rfl | listed
      · exact before_of_not behind
      · exact least other listed

theorem sort_pairwise (edits : List Edit) : (sort edits).Pairwise (·.before · = true) := by
  induction edits with
  | nil => exact .nil
  | cons edit rest ih => exact insertSorted_pairwise edit ih

/-! Cutting a text. -/

theorem splice_append {front back : List Edit} {offset cursor : Nat} (text : List Char)
    (ahead : cursor ≤ offset)
    (inFront : ∀ edit ∈ front, edit.span.start ≤ edit.span.stop ∧ edit.span.stop ≤ offset)
    (inBack : ∀ edit ∈ back, offset ≤ edit.span.start ∧ edit.span.start ≤ edit.span.stop) :
    splice text cursor (front ++ back) =
      splice (text.take (offset - cursor)) cursor front ++
        splice (text.drop (offset - cursor)) offset back := by
  -- by induction on the edits in front: each moves the cursor, which stays at or below the offset
  induction front generalizing text cursor with
  | nil =>
    cases back with
    | nil => simp only [List.nil_append, splice, List.take_append_drop]
    | cons edit rest =>
      obtain ⟨above, ordered⟩ := inBack edit List.mem_cons_self
      have fromCursor : ¬ edit.span.start < cursor := by omega
      have fromOffset : ¬ edit.span.start < offset := by omega
      have gap : text.take (edit.span.start - cursor) =
          text.take (offset - cursor) ++
            (text.drop (offset - cursor)).take (edit.span.start - offset) := by
        rw [← List.take_add]
        congr 1
        omega
      have behind : offset - cursor + (edit.span.stop - offset) = edit.span.stop - cursor := by
        omega
      simp only [List.nil_append, splice, fromCursor, fromOffset, ↓reduceIte, gap,
        List.drop_drop, behind, List.append_assoc]
  | cons edit rest ih =>
    obtain ⟨ordered, below⟩ := inFront edit List.mem_cons_self
    have inRest := fun other (listed : other ∈ rest) =>
      inFront other (List.mem_cons_of_mem edit listed)
    by_cases passed : edit.span.start < cursor
    · -- an edit inside the one before it is dropped on either side
      simp only [List.cons_append, splice, passed, ↓reduceIte]
      exact ih text ahead inRest
    · have gap : min (edit.span.start - cursor) (offset - cursor) = edit.span.start - cursor := by
        omega
      have inside : offset - cursor - (edit.span.stop - cursor) = offset - edit.span.stop := by
        omega
      have behind : edit.span.stop - cursor + (offset - edit.span.stop) = offset - cursor := by
        omega
      simp only [List.cons_append, splice, passed, ↓reduceIte, List.take_take, gap,
        ih (text.drop (edit.span.stop - cursor)) below inRest, List.drop_take, inside,
        List.drop_drop, behind, List.append_assoc]

/-! One span. -/

/-- The text of an edit stands in place of its span, between what the edits in front of it
make of the text up to there and what those behind it make of the rest. -/
def Replaces (edits : List Edit) (text : List Char) (edit : Edit) : Prop :=
  ∃ front back, sort edits = front ++ edit :: back ∧
    apply edits text = splice (text.take edit.span.start) 0 front ++
      (edit.text.toList ++ splice (text.drop edit.span.stop) edit.span.stop back)

/-- The text of a span stands as it was, between what the edits make of the rest. -/
def Keeps (edits : List Edit) (text : List Char) (span : Span) : Prop :=
  ∃ front back, sort edits = front ++ back ∧
    apply edits text = splice (text.take span.start) 0 front ++
      ((text.take span.stop).drop span.start ++ splice (text.drop span.stop) span.stop back)

theorem Replaces.mem {edit : Edit} (replaces : Replaces edits text edit) : edit ∈ edits := by
  obtain ⟨front, back, sorted, _⟩ := replaces
  rw [← mem_sort, sorted]
  exact List.mem_append_cons_self

/-- An edit is applied if all others end in front of it or start behind its start. Those that
start inside of it are dropped. -/
theorem replaces_of_outermost {edit : Edit} (listed : edit ∈ edits)
    (nonempty : edit.span.start < edit.span.stop)
    (ordered : ∀ other ∈ edits, other.span.start ≤ other.span.stop)
    (others : ∀ other ∈ edits, other = edit ∨ other.span.stop ≤ edit.span.start ∨
      edit.span.start < other.span.start) :
    Replaces edits text edit := by
  obtain ⟨front, back, sorted, first⟩ := List.eq_append_cons_of_mem (mem_sort.mpr listed)
  have pairwise := sort_pairwise edits
  rw [sorted, List.pairwise_append, List.pairwise_cons] at pairwise
  obtain ⟨_, ⟨behind, _⟩, across⟩ := pairwise
  have known {other : Edit} (inSorted : other ∈ front ++ edit :: back) : other ∈ edits :=
    mem_sort.mp (sorted ▸ inSorted)
  have inFront (other : Edit) (h : other ∈ front) :
      other.span.start ≤ other.span.stop ∧ other.span.stop ≤ edit.span.start := by
    have inEdits := known (List.mem_append_left _ h)
    refine ⟨ordered other inEdits, ?_⟩
    rcases others other inEdits with rfl | below | above
    · exact absurd h first
    · exact below
    · -- what starts behind the edit's start is not sorted in front of it
      have := before_iff.mp (across other h edit List.mem_cons_self)
      omega
  have inBack (other : Edit) (h : other ∈ edit :: back) :
      edit.span.start ≤ other.span.start ∧ other.span.start ≤ other.span.stop := by
    refine ⟨?_, ordered other (known (List.mem_append_right _ h))⟩
    rcases List.mem_cons.mp h with rfl | h
    · exact Nat.le_refl _
    · have := before_iff.mp (behind other h)
      omega
  -- so no edit reaches across the start of this one, and the text can be cut there
  refine ⟨front, back, sorted, ?_⟩
  have cut := splice_append text (Nat.zero_le edit.span.start) inFront inBack
  have reached : edit.span.stop - edit.span.start + edit.span.start = edit.span.stop :=
    Nat.sub_add_cancel (Nat.le_of_lt nonempty)
  rw [apply, sorted, cut]
  simp only [splice, Nat.lt_irrefl, ↓reduceIte, Nat.sub_zero, Nat.sub_self, List.take_zero,
    List.nil_append, List.drop_drop, Nat.add_comm edit.span.start, reached]

theorem replaces_of_apart {edit : Edit} (listed : edit ∈ edits)
    (nonempty : edit.span.start < edit.span.stop)
    (ordered : ∀ other ∈ edits, other.span.start ≤ other.span.stop)
    (apart : ∀ other ∈ edits, other = edit ∨ other.span.Apart edit.span) :
    Replaces edits text edit := by
  refine replaces_of_outermost listed nonempty ordered fun other known => ?_
  rcases apart other known with same | below | above
  · exact .inl same
  · exact .inr (.inl below)
  · exact .inr (.inr (Nat.lt_of_lt_of_le nonempty above))

theorem exists_cut {span : Span} {sorted : List Edit}
    (pairwise : sorted.Pairwise (·.before · = true))
    (apart : ∀ other ∈ sorted, other.span.Apart span) :
    ∃ front back, sorted = front ++ back ∧ (∀ other ∈ front, other.span.stop ≤ span.start) ∧
      ∀ other ∈ back, span.stop ≤ other.span.start := by
  induction sorted with
  | nil => exact ⟨[], [], rfl, nofun, nofun⟩
  | cons edit rest ih =>
    obtain ⟨least, pairwise⟩ := List.pairwise_cons.mp pairwise
    obtain ⟨here, apart⟩ := List.forall_mem_cons.mp apart
    rcases here with below | above
    · obtain ⟨front, back, rfl, inFront, inBack⟩ := ih pairwise apart
      exact ⟨edit :: front, back, rfl, List.forall_mem_cons.mpr ⟨below, inFront⟩, inBack⟩
    · refine ⟨[], edit :: rest, rfl, nofun, List.forall_mem_cons.mpr ⟨above, ?_⟩⟩
      intro other listed
      have := before_iff.mp (least other listed)
      omega

theorem keeps_of_apart {span : Span} (ordered : span.start ≤ span.stop)
    (others : ∀ other ∈ edits, other.span.start ≤ other.span.stop)
    (apart : ∀ other ∈ edits, other.span.Apart span) : Keeps edits text span := by
  obtain ⟨front, back, sorted, inFront, inBack⟩ :=
    exists_cut (sort_pairwise edits) fun other listed => apart other (mem_sort.mp listed)
  have known {other : Edit} (inSorted : other ∈ front ++ back) : other ∈ edits :=
    mem_sort.mp (sorted ▸ inSorted)
  refine ⟨front, back, sorted, ?_⟩
  have behind : splice text 0 (front ++ back) =
      splice (text.take span.stop) 0 front ++ splice (text.drop span.stop) span.stop back := by
    refine splice_append text (Nat.zero_le _) (fun other h => ?_) fun other h => ?_
    · exact ⟨others other (known (List.mem_append_left _ h)), Nat.le_trans (inFront other h) ordered⟩
    · exact ⟨inBack other h, others other (known (List.mem_append_right _ h))⟩
  -- in front of the span's end no edit is left that reaches into the span
  have inside : splice (text.take span.stop) 0 (front ++ []) =
      splice ((text.take span.stop).take span.start) 0 front ++
        splice ((text.take span.stop).drop span.start) span.start [] :=
    splice_append _ (Nat.zero_le _)
      (fun other h => ⟨others other (known (List.mem_append_left _ h)), inFront other h⟩) nofun
  rw [List.append_nil, List.take_take, Nat.min_eq_left ordered] at inside
  rw [apply, sorted, behind, inside, splice, List.append_assoc]

end Edit

end ModuleBundle
