import ModuleBundle.Analysis

/-!
Records of a module. Every statement of a module contributes to its linkage by itself, given
the number of its record; whatever the linkage lists is listed by one statement. The numbers
only grow, so that no two statements bind a record of one number.
-/

set_option autoImplicit false

namespace ModuleBundle.Script

namespace Statement

/-- Statements with the numbers that their records have or would have. -/
def numbered (n : Nat) : List Statement → List (Nat × Statement)
  | [] => []
  | statement :: rest =>
    (n, statement) :: numbered (if statement.bindsRecord then n + 1 else n) rest

variable {n k : Nat} {statement : Statement} {body : List Statement}

theorem le_of_mem_numbered (listed : (k, statement) ∈ numbered n body) : n ≤ k := by
  induction body generalizing n with
  | nil => cases listed
  | cons first rest ih =>
    rcases List.mem_cons.mp listed with same | listed
    · cases same
      exact Nat.le_refl _
    · have := ih listed
      split at this <;> omega

theorem map_snd_numbered (n : Nat) (body : List Statement) :
    (numbered n body).map Prod.snd = body := by
  induction body generalizing n with
  | nil => rfl
  | cons first rest ih => rw [numbered, List.map_cons, ih]

theorem mem_of_mem_numbered (listed : (k, statement) ∈ numbered n body) : statement ∈ body :=
  map_snd_numbered n body ▸ List.mem_map_of_mem listed

theorem exists_number (listed : statement ∈ body) : ∃ k, (k, statement) ∈ numbered n body := by
  rw [← map_snd_numbered n body] at listed
  obtain ⟨⟨k, _⟩, member, rfl⟩ := List.mem_map.mp listed
  exact ⟨k, member⟩

theorem numbered_pairwise (n : Nat) (body : List Statement) :
    (numbered n body).Pairwise fun first second =>
      first.2.bindsRecord = true → first.1 < second.1 := by
  induction body generalizing n with
  | nil => exact .nil
  | cons first rest ih =>
    refine List.pairwise_cons.mpr ⟨fun entry listed binds => ?_, ih _⟩
    have := le_of_mem_numbered listed
    rw [if_pos binds] at this
    exact this

theorem linkageOfList_eq {α : Type} (part : Linkage → List α) (empty : part .empty = [])
    (append : ∀ a b, part (a ++ b) = part a ++ part b) (n : Nat) (body : List Statement) :
    part (linkageOfList n body) =
      (numbered n body).flatMap fun entry => part (entry.2.linkage entry.1) := by
  induction body generalizing n with
  | nil => exact empty
  | cons first rest ih => rw [linkageOfList, append, ih, numbered, List.flatMap_cons]

/-! What one statement contributes. -/

theorem defaultLinkage_plain (span : Span) (inner : Statement) :
    (inner.defaultLinkage span).requires = [] ∧ (inner.defaultLinkage span).imports = [] ∧
      ∀ e ∈ (inner.defaultLinkage span).exports, ∃ name, e.origin = .name name := by
  have one (name : String) : ∀ e ∈ [Export.mk "default" (.name name)], ∃ n, e.origin = .name n :=
    List.forall_mem_singleton.mpr ⟨name, rfl⟩
  cases inner with
  | function value =>
    obtain ⟨own, name, isAsync, isGenerator, start, parameters, body⟩ := value
    cases name <;> exact ⟨rfl, rfl, one _⟩
  | classNode value =>
    obtain ⟨own, name, decorators, heritage, members⟩ := value
    cases name <;> exact ⟨rfl, rfl, one _⟩
  | expression own value => exact ⟨rfl, rfl, one _⟩
  | _ => exact ⟨rfl, rfl, nofun⟩

theorem linkage_exportDefault (n : Nat) (span : Span) (inner : Statement) :
    (exportDefault span inner).linkage n = inner.defaultLinkage span :=
  rfl

theorem mem_requires {line : RequireLine} (listed : line ∈ (statement.linkage n).requires) :
    (∃ specifier, line = .run specifier) ∨
      (statement.bindsRecord = true ∧
        ((∃ specifier, line = .bind n specifier) ∨ line = .hold n ∨ line = .copy n)) := by
  cases statement with
  | importDeclaration d =>
    obtain ⟨span, specifiers, source⟩ := d
    cases specifiers with
    | none => exact .inl ⟨_, List.mem_singleton.mp listed⟩
    | some list =>
      refine .inr ⟨rfl, ?_⟩
      rcases List.mem_cons.mp listed with rfl | holds
      · exact .inl ⟨_, rfl⟩
      · obtain ⟨specifier, _, own⟩ := List.mem_flatMap.mp holds
        cases specifier with
        | default name => exact .inr (.inl (List.mem_singleton.mp own))
        | whole name => cases own
        | named imported name => cases own
  | exportList span specifiers source =>
    cases source with
    | none => cases listed
    | some source => exact .inr ⟨rfl, .inl ⟨_, List.mem_singleton.mp listed⟩⟩
  | exportAll span name source =>
    refine .inr ⟨rfl, ?_⟩
    cases name with
    | some name => exact .inl ⟨_, List.mem_singleton.mp listed⟩
    | none =>
      rcases List.mem_cons.mp listed with rfl | copies
      · exact .inl ⟨_, rfl⟩
      · exact .inr (.inr (List.mem_singleton.mp copies))
  | exportDefault span inner =>
    rw [linkage_exportDefault, (defaultLinkage_plain span inner).1] at listed
    cases listed
  | _ => cases listed

theorem exported_reading {e : Export} {value : Reading}
    (exported : e ∈ (statement.linkage n).exports) (reads : e.origin = .reading value) :
    statement.bindsRecord = true ∧ ∃ imported, value = .member n imported := by
  cases statement with
  | importDeclaration d =>
    obtain ⟨span, specifiers, source⟩ := d
    cases specifiers <;> cases exported
  | exportList span specifiers source =>
    cases source with
    | none =>
      obtain ⟨specifier, _, rfl⟩ := List.mem_map.mp exported
      cases reads
    | some source =>
      obtain ⟨specifier, _, rfl⟩ := List.mem_map.mp exported
      cases reads
      exact ⟨rfl, _, rfl⟩
  | exportAll span name source =>
    cases name with
    | none => cases exported
    | some name =>
      cases List.mem_singleton.mp exported
      cases reads
  | exportDeclaration span start inner =>
    obtain ⟨name, _, rfl⟩ := List.mem_map.mp exported
    cases reads
  | exportDefault span inner =>
    rw [linkage_exportDefault] at exported
    obtain ⟨name, plain⟩ := (defaultLinkage_plain span inner).2.2 e exported
    cases plain.symm.trans reads
  | _ => cases exported

end Statement

namespace Program

def numbered (p : Program) : List (Nat × Statement) := Statement.numbered 0 p.body

variable {p : Program}

theorem flatMap_numbered {α : Type} (p : Program) (listed : Statement → List α) :
    (p.numbered.flatMap fun entry => listed entry.2) = p.body.flatMap listed := by
  rw [← List.flatMap_map Prod.snd listed, numbered, Statement.map_snd_numbered]

theorem linkage_edits (p : Program) :
    p.linkage.edits = p.numbered.flatMap fun entry => (entry.2.linkage entry.1).edits :=
  Statement.linkageOfList_eq Linkage.edits rfl (fun _ _ => rfl) 0 p.body

theorem linkage_exports (p : Program) :
    p.linkage.exports = p.numbered.flatMap fun entry => (entry.2.linkage entry.1).exports :=
  Statement.linkageOfList_eq Linkage.exports rfl (fun _ _ => rfl) 0 p.body

theorem linkage_requires (p : Program) :
    p.linkage.requires = p.numbered.flatMap fun entry => (entry.2.linkage entry.1).requires :=
  Statement.linkageOfList_eq Linkage.requires rfl (fun _ _ => rfl) 0 p.body

theorem linkage_imports (p : Program) :
    p.linkage.imports = p.numbered.flatMap fun entry => (entry.2.linkage entry.1).imports :=
  Statement.linkageOfList_eq Linkage.imports rfl (fun _ _ => rfl) 0 p.body

end Program

end ModuleBundle.Script
