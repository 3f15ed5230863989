import ModuleBundle.Proofs.Script.StatementPositions

/-!
The order of statements in a text. A directive, an import or an export ends where reading goes on,
and what is read from there on lies behind. So they stand in the text as they are listed, and all
that can be edited in a program lies behind its last directive, and behind its first line if that
starts with `#!`.
-/

set_option autoImplicit false

namespace ModuleBundle.Script

@[grind]
def Statement.span? : Statement → Option Span
  | .importDeclaration d => some d.span
  | .exportList span _ _ => some span
  | .exportAll span _ _ => some span
  | .exportDeclaration span _ _ => some span
  | .exportDefault span _ => some span
  | .expression span (.string _ _) => some span
  | _ => none

theorem Statement.span?_of_directive {statement : Statement} {span : Span}
    (directive : statement.directive? = some span) : statement.span? = some span := by
  cases statement with
  | expression own value =>
    cases value with
    | string literal text => exact directive
    | _ => cases directive
  | _ => cases directive

section

variable {offset : Nat} {statement : Statement} (here : Behind offset statement) {span : Span}
include here

theorem Statement.le_linkSite {start stop : Nat} {others : List Span}
    (first : (Node.statement statement).linkSites = ⟨start, stop⟩ :: others) : offset ≤ start := by
  have sites := (Node.behind_iff.mp here.1).1
  exact (sites ⟨start, stop⟩ (List.mem_append_left _ (first ▸ List.mem_cons_self))).1

theorem Statement.le_start (own : statement.span? = some span) : offset ≤ span.start := by
  cases statement with
  | importDeclaration d =>
    obtain ⟨whole, specifiers, source⟩ := d
    cases own
    cases specifiers <;> exact le_linkSite here rfl
  | exportList whole specifiers source =>
    cases own
    cases source <;> exact le_linkSite here rfl
  | exportAll whole name source =>
    cases own
    cases name <;> exact le_linkSite here rfl
  | exportDeclaration whole declarationStart inner =>
    cases own
    exact le_linkSite here rfl
  | exportDefault whole inner =>
    cases own
    cases inner with
    | function value =>
      obtain ⟨whole, name, isAsync, isGenerator, start, parameters, body⟩ := value
      cases name <;> exact le_linkSite here rfl
    | classNode value =>
      obtain ⟨whole, name, decorators, heritage, members⟩ := value
      cases name <;> exact le_linkSite here rfl
    | _ => exact le_linkSite here rfl
  | expression whole value =>
    cases value with
    | string literal text =>
      cases own
      exact here.2.1
    | _ => cases own
  | _ => cases own

end

namespace Parse

variable {α : Type}

def EndsSpans (parse : Parse Statement) : Prop :=
  ∀ (context : Context) (state : State) (value : Statement) (after : State),
    (parse context).run state = (some value, after) →
      ∀ span ∈ value.span?, span.stop = after.lastStop

namespace EndsSpans

variable {first second : Parse Statement}

@[grind ←]
theorem pure {value : Statement} (none : value.span? = none) : EndsSpans (Pure.pure value) := by
  intro context state found after ran span own
  cases ran
  rw [none] at own
  cases own

@[grind ←]
theorem reject : EndsSpans Parse.reject := by
  intro context state found after ran
  cases ran

@[grind ←]
theorem andThen {parse : Parse α} {next : α → Parse Statement}
    (after : ∀ value, EndsSpans (next value)) : EndsSpans (parse >>= next) := by
  intro context state value last ran
  rw [run_bind] at ran
  rcases here : (parse context).run state with ⟨_ | found, rest⟩
  · rw [here] at ran
    cases ran
  · rw [here] at ran
    exact after found context rest value last ran

theorem ite {c : Prop} [Decidable c] (whenTrue : EndsSpans first)
    (whenFalse : EndsSpans second) : EndsSpans (if c then first else second) := by
  split
  · exact whenTrue
  · exact whenFalse

theorem lastStop {make : Nat → Statement}
    (ends : ∀ stop, ∀ span ∈ (make stop).span?, span.stop = stop) :
    EndsSpans (Parse.lastStop >>= fun stop => Pure.pure (make stop)) := by
  intro context state value after ran
  cases ran
  exact ends state.lastStop

theorem expression (start : Nat) (e : Expression) : EndsSpans (do
    return .expression ⟨start, ← Parse.lastStop⟩ e) := by
  refine lastStop fun stop span own => ?_
  cases e with
  | string literal text =>
    cases own
    rfl
  | _ => cases own

end EndsSpans

end Parse

namespace Grammar

open Parse (EndsSpans)

variable (g : Grammar)

@[grind ←]
theorem expressionStatement_ends : EndsSpans g.expressionStatement := by
  unfold expressionStatement
  refine .andThen fun first => .andThen fun e => .andThen fun next => ?_
  split
  · grind
  · exact .andThen fun _ => .expression _ _

@[grind ←]
theorem conditional_ends : EndsSpans g.conditional := by
  unfold conditional
  grind

@[grind ←]
theorem doLoop_ends : EndsSpans g.doLoop := by
  unfold doLoop
  grind

@[grind ←]
theorem keywordLoop_ends (keyword : String) (form : StatementForm) :
    EndsSpans (g.keywordLoop keyword form) := by
  unfold keywordLoop
  grind

@[grind ←]
theorem loopRest_ends (awaits : Bool) (head : List Statement) :
    EndsSpans (g.loopRest awaits head) := by
  unfold loopRest
  refine .andThen fun _ => .andThen fun _ => ?_
  extract_lets afterTest
  have onward (test : List Expression) : EndsSpans (afterTest test) := by
    refine .andThen fun _ => .andThen fun _ => ?_
    grind
  clear_value afterTest
  grind

@[grind ←]
theorem eachRest_ends (awaits : Bool) (head : Statement) :
    EndsSpans (g.eachRest awaits head) := by
  unfold eachRest
  grind

@[grind ←]
theorem declarationRest_ends (start : Nat) (kind : DeclarationKind) (standing : Standing) :
    EndsSpans (g.declarationRest start kind standing) := by
  unfold declarationRest
  grind

@[grind ←]
theorem declaredLoopRest_ends (awaits : Bool) (kind : DeclarationKind) (start : Nat)
    (found : List Pattern) : EndsSpans (g.declaredLoopRest awaits kind start found) := by
  unfold declaredLoopRest
  grind

@[grind ←]
theorem loopOverExpression_ends (awaits : Bool) : EndsSpans (g.loopOverExpression awaits) := by
  unfold loopOverExpression
  grind

@[grind ←]
theorem forLoop_ends : EndsSpans g.forLoop := by
  unfold forLoop
  refine .andThen fun _ => .andThen fun awaits => ?_
  extract_lets rest
  have onward (u : Unit) : EndsSpans (rest u) := by
    refine .andThen fun _ => .andThen fun next => ?_
    split <;> grind [loopOverDeclaration, loopOverResource]
  grind

@[grind ←]
theorem switch_ends : EndsSpans g.switch := by
  unfold switch
  grind

@[grind ←]
theorem tryBlock_ends : EndsSpans g.tryBlock := by
  unfold tryBlock
  refine .andThen fun _ => .andThen fun body => .andThen fun _ => ?_
  extract_lets afterHandlers
  have onward (handlers : List Statement) : EndsSpans (afterHandlers handlers) := by
    refine .andThen fun _ => ?_
    grind
  clear_value afterHandlers
  grind

@[grind ←]
theorem jump_ends : EndsSpans jump := by
  unfold jump
  grind

@[grind ←]
theorem throws_ends : EndsSpans g.throws := by
  unfold throws
  grind

@[grind ←]
theorem returns_ends : EndsSpans g.returns := by
  unfold returns
  refine .andThen fun _ => .andThen fun context => .ite .reject (.andThen fun _ => ?_)
  grind

@[grind ←]
theorem functionDeclaration_ends (standing : Standing) :
    EndsSpans (g.functionDeclaration standing) := by
  unfold functionDeclaration
  grind

@[grind ←]
theorem classDeclaration_ends (standing : Standing) (start : Nat) (decorators : List Expression) :
    EndsSpans (g.classDeclaration standing start decorators) := by
  unfold classDeclaration
  grind

@[grind ←]
theorem letStatement_ends (standing : Standing) : EndsSpans (g.letStatement standing) := by
  unfold letStatement
  refine .andThen fun first => .andThen fun next => .ite ?_ (.ite ?_ ?_)
  · exact .andThen fun e => .andThen fun _ => .expression _ _
  · exact .andThen fun e => .expression _ _
  · grind

@[grind ←]
theorem keywordStatement_ends (standing : Standing) (word : String) :
    EndsSpans (g.keywordStatement standing word) := by
  unfold keywordStatement
  refine .andThen fun first => ?_
  extract_lets start
  -- one case for each keyword
  refine .ite g.conditional_ends <| .ite g.doLoop_ends <| .ite (g.keywordLoop_ends _ _) <|
    .ite (g.keywordLoop_ends _ _) <| .ite g.forLoop_ends <| .ite g.switch_ends <|
    .ite g.tryBlock_ends <| .ite g.throws_ends <| .ite g.returns_ends <| .ite jump_ends ?_
  grind

/-! Imports and exports end with the last token that they are read of. -/

@[grind ←]
theorem importDeclaration_ends : EndsSpans importDeclaration := by
  unfold importDeclaration
  refine .andThen fun first => .andThen fun _ => .andThen fun name => .andThen fun next => ?_
  refine .ite ?_ ?_
  · refine .andThen fun source => .andThen fun _ => .andThen fun _ => .lastStop fun stop => ?_
    simp [Statement.span?]
  · refine .andThen fun specifiers => .andThen fun source => .andThen fun _ => ?_
    exact .lastStop fun stop => by simp [Statement.span?]

@[grind ←]
theorem exportAll_ends (start : Nat) : EndsSpans (exportAll start) := by
  unfold exportAll
  refine .andThen fun _ => .andThen fun renamed => ?_
  extract_lets rest
  have onward (name : Option String) : EndsSpans (rest name) := by
    refine .andThen fun source => .andThen fun _ => .lastStop fun stop => ?_
    simp [Statement.span?]
  clear_value rest
  grind

@[grind ←]
theorem exportList_ends (start : Nat) : EndsSpans (exportList start) := by
  unfold exportList
  refine .andThen fun _ => .andThen fun found => .andThen fun source => .ite ?_ .reject
  exact .andThen fun _ => .lastStop fun stop => by simp [Statement.span?]

@[grind ←]
theorem exportStatement_ends (decorators : List Expression) :
    EndsSpans (g.exportStatement decorators) := by
  unfold exportStatement
  refine .andThen fun first => .andThen fun _ => .andThen fun star => .ite (exportAll_ends _) ?_
  refine .andThen fun brace => .ite (exportList_ends _) (.andThen fun isDefault => .ite ?_ ?_)
  · exact .andThen fun inner => .lastStop fun stop => by simp [Statement.span?]
  · refine .andThen fun declared => .andThen fun inner => .lastStop fun stop => ?_
    simp [Statement.span?]

theorem statementAt_ends (standing : Standing) : EndsSpans (g.statementAt standing) := by
  unfold statementAt decorated
  grind

end Grammar

namespace Parse

variable {α β : Type}

theorem of_run_iterate {P : α → State → Prop} {Q : β → State → Prop} {step : α → Parse (α ⊕ β)}
    {context : Context}
    (each : ∀ value state answer after, P value state →
      (step value context).run state = (some answer, after) →
        Sum.elim (P · after) (Q · after) answer)
    (bound : Nat) {value : α} {state : State} (here : P value state) {result : β} {after : State}
    (ran : (iterate step bound value context).run state = (some result, after)) :
    Q result after := by
  -- on the bound: a step that goes on keeps the invariant, one that ends gives the result
  induction bound generalizing value state with
  | zero => cases ran
  | succ bound ih =>
    rw [iterate, run_bind] at ran
    rcases stepped : (step value context).run state with ⟨_ | answer, next⟩
    · rw [stepped] at ran
      cases ran
    · rw [stepped] at ran
      have known := each value state answer next here stepped
      cases answer with
      | inl further => exact ih known ran
      | inr result =>
        cases ran
        exact known

theorem run_loop (step : α → Parse (α ⊕ β)) (start : α) (context : Context) (state : State) :
    (loop step start context).run state =
      (iterate step (context.size + 1 - state.lastStop) start context).run state := rfl

end Parse

/-! Statements one after another. -/

/-- Where a statement with a span ends, the other one has not begun. -/
def Statement.Follows (later earlier : Statement) : Prop :=
  ∀ span ∈ earlier.span?, Behind span.stop later

namespace Grammar

/-- Outermost statements, read one after another from one state to the other. -/
inductive ReadsAll (g : Grammar) (context : Context) : State → List Statement → State → Prop
  | nil (state : State) : ReadsAll g context state [] state
  | cons {state next after : State} {statement : Statement} {rest : List Statement}
      (first : (g.statement .outermost context).run state = (some statement, next))
      (others : ReadsAll g context next rest after) :
      ReadsAll g context state (statement :: rest) after

namespace ReadsAll

variable {g : Grammar} {context : Context} {state middle after : State}
  {statements front back : List Statement}

theorem append (first : g.ReadsAll context state front middle)
    (second : g.ReadsAll context middle back after) :
    g.ReadsAll context state (front ++ back) after := by
  induction first with
  | nil => exact second
  | cons read _ ih => exact .cons read (ih second)

theorem exists_middle (reads : g.ReadsAll context state (front ++ back) after) :
    ∃ middle, g.ReadsAll context state front middle ∧ g.ReadsAll context middle back after := by
  induction front generalizing state with
  | nil => exact ⟨state, .nil state, reads⟩
  | cons statement rest ih =>
    cases reads with
    | cons first others =>
      obtain ⟨middle, inFront, inBack⟩ := ih others
      exact ⟨middle, .cons first inFront, inBack⟩

theorem behind (reads : g.ReadsAll context state statements after) (keeps : g.AllKeep)
    {offset : Nat} (starts : Behind offset state) :
    Behind offset statements ∧ Behind offset after := by
  induction reads with
  | nil => exact ⟨by simp, starts⟩
  | cons first _ ih =>
    obtain ⟨here, goesOn⟩ := keeps.statement .outermost context _ starts _ _ first
    exact (ih goesOn).imp_left fun others => (behind_cons _).mpr ⟨here, others⟩

theorem follows (reads : g.ReadsAll context state statements after) (keeps : g.AllKeep)
    (ends : ∀ standing, Parse.EndsSpans (g.statement standing)) {offset : Nat}
    (starts : Behind offset state) :
    statements.Pairwise fun earlier later => later.Follows earlier := by
  induction reads with
  | nil => exact .nil
  | @cons state next after statement rest first others ih =>
    obtain ⟨_, goesOn⟩ := keeps.statement .outermost context _ starts _ _ first
    refine List.pairwise_cons.mpr ⟨fun later listed span own => ?_, ih goesOn⟩
    -- the span ends where the rest is read from, and that lies behind where its reading starts
    rw [ends .outermost context state statement next first span own]
    exact (others.behind keeps ⟨Nat.le_refl _, goesOn.2⟩).1 later listed

theorem lastStop_eq (reads : g.ReadsAll context state front after)
    (ends : ∀ standing, Parse.EndsSpans (g.statement standing)) {directives : List Span}
    (only : front.map Statement.directive? = directives.map some) :
    after.lastStop = (directives.getLast?.map Span.stop).getD state.lastStop := by
  induction reads generalizing directives with
  | nil =>
    rw [List.map_eq_nil_iff.mp only.symm]
    rfl
  | @cons state next after statement rest first others ih =>
    cases directives with
    | nil => cases only
    | cons directive later =>
      obtain ⟨here, only⟩ := List.cons.inj only
      have stops := ends .outermost context state statement next first directive
        (Statement.span?_of_directive here)
      rw [ih only, List.getLast?_cons, ← stops]
      cases later.getLast? <;> rfl

end ReadsAll

end Grammar

namespace Program

/-- A text is read statement by statement, up to its end. -/
theorem readsAll_of_topLevel {g : Grammar} {context : Context} {state after : State}
    {statements : List Statement}
    (ran : (topLevel g context).run state = (some statements, after)) :
    g.ReadsAll context state statements after ∧ after.token.tag = .finish := by
  rw [topLevel, Parse.run_bind, Parse.run_loop] at ran
  split at ran
  next found rest looped =>
    cases ran
    refine Parse.of_run_iterate (P := fun found here => g.ReadsAll context state found.reverse here)
      (Q := fun found here => g.ReadsAll context state found.reverse here ∧
        here.token.tag = .finish) ?_ _ (.nil state) looped
    -- one step: the text ends here, or one more statement is read
    intro found here answer after reads stepped
    have finishes : (Parse.isFinish context).run here =
      (some (decide (here.token.tag = .finish)), here) := rfl
    rw [Parse.run_bind, finishes] at stepped
    by_cases last : here.token.tag = .finish
    · simp only [last] at stepped
      cases stepped
      exact ⟨reads, last⟩
    · simp only [last] at stepped
      rw [if_neg (by simp), Parse.run_bind] at stepped
      rcases read : (g.statement .outermost context).run here with ⟨_ | statement, rest⟩
      · rw [read] at stepped
        cases stepped
      · rw [read] at stepped
        cases stepped
        simpa using reads.append (.cons read (.nil _))
  next => cases ran

theorem exists_front (statements : List Statement) :
    ∃ front, statements = front ++ (splitDirectives statements).2 ∧
      front.map Statement.directive? = (splitDirectives statements).1.map some := by
  induction statements with
  | nil => exact ⟨[], rfl, rfl⟩
  | cons statement rest ih =>
    unfold splitDirectives
    split
    next span directive =>
      obtain ⟨front, same, directives⟩ := ih
      refine ⟨statement :: front, congrArg (statement :: ·) same, ?_⟩
      rw [List.map_cons, directive, directives, List.map_cons]
    next => exact ⟨[], rfl, rfl⟩

theorem splitHashbang_line {text : List Char} {line : Span}
    (opens : (splitHashbang text).1 = some line) : line.start = 0 ∧ 0 < line.stop := by
  unfold splitHashbang at opens
  split at opens <;> cases opens
  exact ⟨rfl, Nat.succ_pos _⟩

def lineStop (p : Program) : Nat := (p.hashbang.map Span.stop).getD 0

theorem lineStop_of_hashbang {p : Program} {line : Span} (first : p.hashbang = some line) :
    p.lineStop = line.stop := by
  rw [lineStop, first]
  rfl

/-- Where the last directive of a text ends, or the start of the text if there is none. -/
def directivesStop (p : Program) : Nat := (p.directives.getLast?.map Span.stop).getD 0

def bodyStart (p : Program) : Nat := max p.lineStop p.directivesStop

/-- How a text is laid out. It begins with its `#!` line; reading finds nothing but directives from
there to where the body starts, and nothing but the statements of the body from there to the end. All
that is edited in them lies there, and behind the statements with a span in front of it. -/
structure Laid (p : Program) : Prop where
  hashbang : ∀ line ∈ p.hashbang, line.start = 0 ∧ 0 < line.stop
  directives : p.directives ≠ [] → p.lineStop ≤ p.directivesStop
  reads : ∃ depth context start middle after front,
    start.lastStop = p.lineStop ∧ middle.lastStop = p.bodyStart ∧ after.token.tag = .finish ∧
      front.map Statement.directive? = p.directives.map some ∧
      (Grammar.nested depth).ReadsAll context start front middle ∧
      (Grammar.nested depth).ReadsAll context middle p.body after
  body : Behind p.bodyStart p.body
  follows : p.body.Pairwise fun earlier later => later.Follows earlier

theorem Laid.spans_pairwise {p : Program} (laid : p.Laid) :
    (p.body.filterMap Statement.span?).Pairwise fun earlier later => earlier.stop ≤ later.start :=
  List.pairwise_filterMap.mpr <| laid.follows.imp fun follows earlier first _ second =>
    Statement.le_start (follows earlier first) second

theorem bodyStart_eq {p : Program} {stop : Nat}
    (stops : stop = (p.directives.getLast?.map Span.stop).getD p.lineStop)
    (goesOn : p.lineStop ≤ stop) :
    (p.directives ≠ [] → p.lineStop ≤ p.directivesStop) ∧ stop = p.bodyStart := by
  unfold bodyStart directivesStop
  cases last : p.directives.getLast? with
  | none =>
    rw [last] at stops
    exact ⟨absurd (List.getLast?_eq_none_iff.mp last), stops.trans (Nat.max_zero _).symm⟩
  | some directive =>
    rw [last] at stops
    obtain rfl : stop = directive.stop := stops
    exact ⟨fun _ => goesOn, (Nat.max_eq_right goesOn).symm⟩

theorem laid_of_parsed {goal : Goal} {text : List Char} {p : Program}
    (parsed : parse? goal text = some p) : p.Laid := by
  unfold parse? at parsed
  extract_lets size context at parsed
  rcases cut : splitHashbang text with ⟨hashbang, rest⟩
  rw [cut] at parsed
  dsimp -zeta only at parsed
  extract_lets offset start at parsed
  rcases ran : ((topLevel (Grammar.nested (size + 2))) context).run start with ⟨found, state⟩
  rw [ran] at parsed
  obtain ⟨statements, rfl, checked⟩ := Option.bind_eq_some_iff.mp parsed
  extract_lets exported at checked
  split at checked
  · cases checked
    have starts : Behind offset start := ⟨Nat.le_refl _, Token.scan_behind _ _ _ _⟩
    have keeps := Grammar.nested_keeps (size + 2)
    have ends := (Grammar.nested (size + 1)).statementAt_ends
    -- reading all of the text is reading its directives and then, from where they end, the rest
    obtain ⟨reads, finished⟩ := readsAll_of_topLevel ran
    obtain ⟨front, same, only⟩ := exists_front statements
    rw [same] at reads
    obtain ⟨middle, inFront, inBody⟩ := reads.exists_middle
    obtain ⟨_, goesOn⟩ := inFront.behind keeps starts
    have fromMiddle : Behind middle.lastStop middle := ⟨Nat.le_refl _, goesOn.2⟩
    obtain ⟨directives, stops⟩ := bodyStart_eq (p := ⟨hashbang, _, (splitDirectives statements).2⟩)
      (inFront.lastStop_eq ends only) goesOn.1
    exact
      { hashbang line first := splitHashbang_line ((congrArg Prod.fst cut).trans first)
        directives
        reads := ⟨size + 2, _, _, _, _, front, rfl, stops, finished, only, inFront, inBody⟩
        body := stops ▸ (inBody.behind keeps fromMiddle).1
        follows := inBody.follows keeps ends fromMiddle }
  · cases checked

end Program

end ModuleBundle.Script
