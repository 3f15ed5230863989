import Mathlib.Data.List.Flatten
import ModuleBundle.Analysis

/-!
What parsers answer. A parser yields a property if each of its answers has it, whatever the
text; sequences, choices and loops of parsers hand the property on. Every kind of statement but
imports and exports is told apart by the keyword it starts with, and an import names the
default export of its module at most once.
-/

set_option autoImplicit false

namespace ModuleBundle.Script

namespace Parse

variable {α β γ : Type}

theorem run_bind (first : Parse α) (next : α → Parse β) (context : Context) (state : State) :
    ((first >>= next) context).run state =
      match (first context).run state with
      | (some value, after) => (next value context).run after
      | (none, after) => (none, after) := by
  simp only [Bind.bind, ReaderT.bind, OptionT.bind, OptionT.run, OptionT.mk, StateT.bind]
  rcases first context state with ⟨_ | value, after⟩
  · rfl
  · rfl

/-- Whatever a parser answers has a property. -/
def Yields (post : α → Prop) (parse : Parse α) : Prop :=
  ∀ (context : Context) (state : State), ∀ value ∈ ((parse context).run state).1, post value

namespace Yields

variable {pre : α → Prop} {post : β → Prop}

@[grind ←]
theorem pure {value : β} (here : post value) : Yields post (Pure.pure value : Parse β) := by
  intro context state found answered
  cases answered
  exact here

@[grind ←]
theorem reject : Yields post (Parse.reject : Parse β) := by
  intro context state found answered
  cases answered

theorem bind {first : Parse α} {next : α → Parse β} (before : Yields pre first)
    (after : ∀ value, pre value → Yields post (next value)) : Yields post (first >>= next) := by
  intro context state found answered
  rw [run_bind] at answered
  have earlier := before context state
  rcases ran : (first context).run state with ⟨_ | value, rest⟩
  · rw [ran] at answered
    cases answered
  · rw [ran] at answered earlier
    exact after value (earlier value rfl) context rest found answered

@[grind ←]
theorem andThen {first : Parse α} {next : α → Parse β}
    (after : ∀ value, Yields post (next value)) : Yields post (first >>= next) := by
  have anything : Yields (fun _ => True) first := fun _ _ _ _ => trivial
  exact bind anything fun value _ => after value

/-- Collecting goes backwards, so that a list is reversed in the end. -/
theorem reverse {parse : Parse (List β)}
    (each : Yields (fun list => ∀ value ∈ list, post value) parse) :
    Yields (fun list => ∀ value ∈ list, post value) (do return (← parse).reverse) :=
  bind each fun _ all => pure fun value listed => all value (List.mem_reverse.mp listed)

theorem ite {c : Prop} [Decidable c] {first second : Parse β} (whenTrue : Yields post first)
    (whenFalse : Yields post second) : Yields post (if c then first else second) := by
  split
  · exact whenTrue
  · exact whenFalse

theorem mono {weaker : β → Prop} {parse : Parse β} (yields : Yields post parse)
    (implies : ∀ value, post value → weaker value) : Yields weaker parse := by
  intro context state value answered
  exact implies value (yields context state value answered)

theorem iterate {inv : α → Prop} {step : α → Parse (α ⊕ β)}
    (each : ∀ value, inv value → Yields (Sum.elim inv post) (step value)) (bound : Nat)
    (value : α) (here : inv value) : Yields post (Parse.iterate step bound value) := by
  induction bound generalizing value with
  | zero => exact reject
  | succ bound ih =>
    refine bind (each value here) fun answer left => ?_
    cases answer with
    | inl next => exact ih next left
    | inr result => exact pure left

theorem loop {inv : α → Prop} {step : α → Parse (α ⊕ β)} {start : α} (first : inv start)
    (each : ∀ value, inv value → Yields (Sum.elim inv post) (step value)) :
    Yields post (Parse.loop step start) := by
  unfold Parse.loop
  refine andThen fun context => andThen fun offset => ?_
  exact iterate each _ start first

theorem commaSeparated {close : Mark} {element : Parse β} (each : Yields post element) :
    Yields (fun list => ∀ value ∈ list, post value) (Parse.commaSeparated close element) := by
  unfold Parse.commaSeparated
  refine reverse (loop nofun fun list (all : ∀ value ∈ list, post value) => ?_)
  refine andThen fun closed => ite (pure all) ?_
  refine bind each fun value here => ?_
  have longer : ∀ other ∈ value :: list, post other :=
    List.forall_mem_cons.mpr ⟨here, all⟩
  refine andThen fun comma => ite (pure longer) ?_
  exact andThen fun _ => pure longer

end Yields

end Parse

/-! What holds of statements and imports. -/

@[grind] def Statement.Unlinked (statement : Statement) : Prop := statement.isLink = false

attribute [grind] Statement.isLink

@[grind] def ImportSpecifier.isDefault : ImportSpecifier → Bool
  | .default _ => true
  | _ => false

def Statement.NamesDefaultOnce : Statement → Prop
  | .importDeclaration d =>
    ∀ specifiers ∈ d.specifiers, specifiers.countP ImportSpecifier.isDefault ≤ 1
  | _ => True

theorem Statement.Unlinked.namesDefaultOnce {statement : Statement}
    (unlinked : statement.Unlinked) : statement.NamesDefaultOnce := by
  cases statement with
  | importDeclaration d => cases unlinked
  | _ => trivial

namespace Grammar

open Parse (Yields)
open Statement (Unlinked)

variable (g : Grammar)

@[grind ←]
theorem expressionStatement_yields : Yields Unlinked g.expressionStatement := by
  unfold expressionStatement
  refine .andThen fun first => .andThen fun e => .andThen fun next => ?_
  split <;> grind

@[grind ←]
theorem conditional_yields : Yields Unlinked g.conditional := by
  unfold conditional
  grind

@[grind ←]
theorem doLoop_yields : Yields Unlinked g.doLoop := by
  unfold doLoop
  grind

@[grind ←]
theorem keywordLoop_yields (keyword : String) (form : StatementForm) :
    Yields Unlinked (g.keywordLoop keyword form) := by
  unfold keywordLoop
  grind

@[grind ←]
theorem loopRest_yields (awaits : Bool) (head : List Statement) :
    Yields Unlinked (g.loopRest awaits head) := by
  unfold loopRest
  refine .andThen fun _ => .andThen fun _ => ?_
  extract_lets afterTest
  have onward (test : List Expression) : Yields Unlinked (afterTest test) := by
    refine .andThen fun _ => .andThen fun _ => ?_
    grind
  clear_value afterTest
  grind

@[grind ←]
theorem eachRest_yields (awaits : Bool) (head : Statement) :
    Yields Unlinked (g.eachRest awaits head) := by
  unfold eachRest
  grind

@[grind ←]
theorem declarationRest_yields (start : Nat) (kind : DeclarationKind) (standing : Standing) :
    Yields Unlinked (g.declarationRest start kind standing) := by
  unfold declarationRest
  grind

@[grind ←]
theorem declaredLoopRest_yields (awaits : Bool) (kind : DeclarationKind) (start : Nat)
    (found : List Pattern) :
    Yields Unlinked (g.declaredLoopRest awaits kind start found) := by
  unfold declaredLoopRest
  grind

@[grind ←]
theorem loopOverDeclaration_yields (awaits : Bool) (kind : DeclarationKind) :
    Yields Unlinked (g.loopOverDeclaration awaits kind) := by
  unfold loopOverDeclaration
  grind

@[grind ←]
theorem loopOverExpression_yields (awaits : Bool) :
    Yields Unlinked (g.loopOverExpression awaits) := by
  unfold loopOverExpression
  grind

@[grind ←]
theorem loopOverResource_yields (awaits : Bool) : Yields Unlinked (g.loopOverResource awaits) := by
  unfold loopOverResource
  grind

@[grind ←]
theorem forLoop_yields : Yields Unlinked g.forLoop := by
  unfold forLoop
  refine .andThen fun _ => .andThen fun awaits => ?_
  extract_lets rest
  have onward (u : Unit) : Yields Unlinked (rest u) := by
    refine .andThen fun _ => .andThen fun next => ?_
    split <;> grind
  grind

@[grind ←]
theorem switch_yields : Yields Unlinked g.switch := by
  unfold switch
  grind

@[grind ←]
theorem tryBlock_yields : Yields Unlinked g.tryBlock := by
  unfold tryBlock
  refine .andThen fun _ => .andThen fun body => .andThen fun _ => ?_
  extract_lets afterHandlers
  have onward (handlers : List Statement) : Yields Unlinked (afterHandlers handlers) := by
    refine .andThen fun _ => ?_
    grind
  clear_value afterHandlers
  grind

@[grind ←]
theorem jump_yields : Yields Unlinked jump := by
  unfold jump
  grind

@[grind ←]
theorem throws_yields : Yields Unlinked g.throws := by
  unfold throws
  grind

@[grind ←]
theorem returns_yields : Yields Unlinked g.returns := by
  unfold returns
  refine .andThen fun _ => .andThen fun context => ?_
  split
  · exact .reject
  · refine .andThen fun _ => ?_
    grind

@[grind ←]
theorem functionDeclaration_yields (standing : Standing) :
    Yields Unlinked (g.functionDeclaration standing) := by
  unfold functionDeclaration
  grind

@[grind ←]
theorem classDeclaration_yields (standing : Standing) (start : Nat) (decorators : List Expression) :
    Yields Unlinked (g.classDeclaration standing start decorators) := by
  unfold classDeclaration
  grind

@[grind ←]
theorem letStatement_yields (standing : Standing) : Yields Unlinked (g.letStatement standing) := by
  unfold letStatement
  grind

@[grind ←]
theorem keywordStatement_yields (standing : Standing) (word : String) :
    Yields Unlinked (g.keywordStatement standing word) := by
  unfold keywordStatement
  refine .andThen fun first => ?_
  extract_lets start
  -- one case for each keyword
  refine .ite g.conditional_yields <| .ite g.doLoop_yields <| .ite (g.keywordLoop_yields _ _) <|
    .ite (g.keywordLoop_yields _ _) <| .ite g.forLoop_yields <| .ite g.switch_yields <|
    .ite g.tryBlock_yields <| .ite g.throws_yields <| .ite g.returns_yields <| .ite jump_yields ?_
  grind

/-! Imports. -/

theorem importSpecifier_yields :
    Yields (fun specifier => specifier.isDefault = false) importSpecifier := by
  unfold importSpecifier
  refine .andThen fun current => .andThen fun imported => .andThen fun renamed => ?_
  grind

theorem importSpecifiers_yields :
    Yields (fun list => ∀ specifier ∈ list, specifier.isDefault = false) importSpecifiers := by
  unfold importSpecifiers
  exact .andThen fun _ => .commaSeparated importSpecifier_yields

theorem wholeSpecifier_yields :
    Yields (fun specifier => specifier.isDefault = false) wholeSpecifier := by
  unfold wholeSpecifier
  exact .andThen fun _ => .andThen fun _ => .andThen fun name => .pure rfl

theorem importClause_yields (name : Option String) :
    Yields (fun list => list.countP ImportSpecifier.isDefault ≤ 1) (importClause name) := by
  unfold importClause
  extract_lets default rest
  have once : default.countP ImportSpecifier.isDefault ≤ 1 := by
    cases name <;> simp [default, ImportSpecifier.isDefault]
  -- what follows the name it begins with is listed by another keyword
  have others {list : List ImportSpecifier} (named : ∀ s ∈ list, s.isDefault = false) :
      (default ++ list).countP ImportSpecifier.isDefault ≤ 1 := by
    have none : list.countP ImportSpecifier.isDefault = 0 :=
      List.countP_eq_zero.mpr fun specifier listed => by simp [named specifier listed]
    rw [List.countP_append, none]
    exact once
  have onward (goesOn : Bool) :
      Yields (fun list => list.countP ImportSpecifier.isDefault ≤ 1) (rest goesOn) := by
    refine .ite (.pure once) (.andThen fun star => .ite ?_ ?_)
    · refine .bind wholeSpecifier_yields fun specifier named => .pure (others ?_)
      exact List.forall_mem_singleton.mpr named
    · exact .bind importSpecifiers_yields fun list named => .pure (others named)
  exact .ite (.andThen onward) (.andThen onward)

theorem importDeclaration_yields : Yields Statement.NamesDefaultOnce importDeclaration := by
  unfold importDeclaration
  refine .andThen fun first => .andThen fun _ => .andThen fun name => .andThen fun next => ?_
  split
  · refine .andThen fun source => .andThen fun _ => .andThen fun _ => .andThen fun stop => .pure ?_
    exact nofun
  · refine .bind (importClause_yields name) fun specifiers once => ?_
    refine .andThen fun source => .andThen fun _ => .andThen fun stop => .pure ?_
    rintro _ ⟨⟩
    exact once

/-! Statements among others. -/

theorem exportAll_yields (start : Nat) : Yields Statement.NamesDefaultOnce (exportAll start) := by
  unfold exportAll
  refine .andThen fun _ => .andThen fun renamed => ?_
  extract_lets rest
  have onward (name : Option String) : Yields Statement.NamesDefaultOnce (rest name) :=
    .andThen fun source => .andThen fun _ => .andThen fun stop => .pure trivial
  refine .ite ?_ (.andThen onward)
  exact .andThen fun name => .andThen onward

theorem exportList_yields (start : Nat) : Yields Statement.NamesDefaultOnce (exportList start) := by
  unfold exportList
  refine .andThen fun _ => .andThen fun found => .andThen fun source => .ite ?_ .reject
  exact .andThen fun _ => .andThen fun stop => .pure trivial

theorem exportStatement_yields (decorators : List Expression) :
    Yields Statement.NamesDefaultOnce (g.exportStatement decorators) := by
  unfold exportStatement
  refine .andThen fun first => .andThen fun _ => .andThen fun star => .ite (exportAll_yields _) ?_
  refine .andThen fun brace => .ite (exportList_yields _) (.andThen fun isDefault => .ite ?_ ?_)
  · exact .andThen fun declaration => .andThen fun stop => .pure trivial
  · exact .andThen fun next => .andThen fun declaration => .andThen fun stop => .pure trivial

theorem statementAt_yields (standing : Standing) :
    Yields Statement.NamesDefaultOnce (g.statementAt standing) := by
  have unlinked {parse : Parse Statement} (yields : Yields Unlinked parse) :
      Yields Statement.NamesDefaultOnce parse :=
    yields.mono fun _ => Statement.Unlinked.namesDefaultOnce
  unfold statementAt
  refine .andThen fun first => ?_
  split
  · exact .andThen fun body => .pure trivial
  · exact .andThen fun _ => .pure trivial
  · unfold decorated
    refine .andThen fun next => .andThen fun decorators => .andThen fun exported => .ite ?_ ?_
    · exact g.exportStatement_yields decorators
    · exact unlinked (g.classDeclaration_yields _ _ _)
  · refine .ite (g.exportStatement_yields []) (.ite (.andThen fun next => ?_) ?_)
    · split
      · exact unlinked g.expressionStatement_yields
      · exact unlinked g.expressionStatement_yields
      · exact importDeclaration_yields
    · exact unlinked (g.keywordStatement_yields _ _)
  · exact unlinked g.expressionStatement_yields

theorem topLevel_yields :
    Yields (fun body => ∀ statement ∈ body, statement.NamesDefaultOnce)
      (Program.topLevel g.next) := by
  unfold Program.topLevel
  refine .reverse (.loop nofun fun found all => .andThen fun finished => .ite (.pure all) ?_)
  refine .bind (g.statementAt_yields .outermost) fun statement here => .pure ?_
  exact List.forall_mem_cons.mpr ⟨here, all⟩

end Grammar

namespace Program

theorem splitDirectives_suffix (statements : List Statement) :
    (splitDirectives statements).2 <:+ statements := by
  induction statements with
  | nil => exact List.suffix_rfl
  | cons statement rest ih =>
    unfold splitDirectives
    split
    · exact ih.trans (List.suffix_cons statement rest)
    · exact List.suffix_rfl

/-- What reading a text has checked: no name is exported twice, and no declaration imports a
default export twice by that keyword. -/
theorem checked_of_parsed {goal : Goal} {text : List Char} {p : Program}
    (parsed : parse? goal text = some p) :
    (p.body.flatMap Statement.exportedNames).Nodup ∧
      ∀ statement ∈ p.body, statement.NamesDefaultOnce := by
  unfold parse? at parsed
  extract_lets size context at parsed
  rcases cut : splitHashbang text with ⟨hashbang, rest⟩
  rw [cut] at parsed
  dsimp -zeta only at parsed
  extract_lets offset start at parsed
  rcases ran : ((topLevel (Grammar.nested (size + 2))) context).run start with ⟨found, state⟩
  rw [ran] at parsed
  obtain ⟨statements, rfl, checked⟩ := Option.bind_eq_some_iff.mp parsed
  -- the parser itself has looked for names that are exported twice
  extract_lets exported at checked
  split at checked
  · next covered =>
    cases checked
    have each := (Grammar.nested (size + 1)).topLevel_yields context start statements
      (congrArg Prod.fst ran)
    have suffix := splitDirectives_suffix statements
    exact ⟨(suffix.sublist.flatMap _).nodup covered.2, fun statement listed =>
      each statement (suffix.mem listed)⟩
  · cases checked

end Program

end ModuleBundle.Script
