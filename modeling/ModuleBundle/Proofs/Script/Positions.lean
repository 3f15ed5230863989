import ModuleBundle.Proofs.Script.Answers
import ModuleBundle.Proofs.Script.Scanning

/-!
Positions in a text. A token that is scanned at an offset starts there or behind, and reading goes
on behind the token. So all that a parser answers that was started behind an offset lies behind
the offset itself, if each parser that it is made of has only that to answer.
-/

set_option autoImplicit false

namespace ModuleBundle.Script

/-! Tokens. -/

theorem Trivia.le_skip (html : Bool) (gap : Gap) (newline : Bool) (offset : Nat) (cs : List Char) :
    offset ≤ (skip html gap newline offset cs).offset := by
  have moved := skip_add html gap newline 0 offset cs
  rw [Nat.zero_add] at moved
  rw [moved]
  exact Nat.le_add_left _ _

theorem Word.length_le_width {pending : Nat} {cs : List Char} {word : Word}
    (found : tail? pending cs = some word) : word.text.length ≤ word.width := by
  fun_induction tail? pending cs generalizing word with
  | case1 => cases found; exact Nat.le_refl _
  | case2 pending head cs ih =>
    obtain ⟨inner, tailed, rfl⟩ := Option.map_eq_some_iff.mp found
    exact Nat.le_succ_of_le (ih tailed)
  | case3 digits ih =>
    obtain ⟨⟨code, width⟩, escape, goesOn⟩ := Option.bind_eq_some_iff.mp found
    obtain ⟨part, goesOn⟩ := Option.ite_none_right_eq_some.mp goesOn
    obtain ⟨inner, tailed, rfl⟩ := Option.map_eq_some_iff.mp goesOn
    exact Nat.succ_le_succ (ih width tailed)
  | case4 => cases found
  | case5 c cs plain part ih =>
    obtain ⟨inner, tailed, rfl⟩ := Option.map_eq_some_iff.mp found
    exact Nat.succ_le_succ (ih tailed)
  | case6 => cases found; exact Nat.le_refl _

theorem Word.width_pos {cs : List Char} {word : Word} (found : scan? cs = some word) :
    0 < word.width := by
  unfold scan? at found
  obtain ⟨tail, tailed, found⟩ := Option.bind_eq_some_iff.mp found
  have letters := length_le_width tailed
  grind

theorem stringTail_width {quote : Char} {pending width : Nat} {value letters : List Letter}
    {cs rest : List Char} {total : Nat}
    (found : stringTail quote pending value width cs = some (letters, total, rest)) :
    width < total := by
  fun_induction stringTail quote pending value width cs <;> grind

theorem Mark.scan_width {cs : List Char} {mark : Mark} {width : Nat}
    (found : scan? cs = some (mark, width)) : 0 < width := by
  have spelled : ∀ entry ∈ spellings, 0 < entry.1.length := by decide
  unfold scan? at found
  split at found
  · split at found <;> cases found <;> decide
  · cases found
    decide
  · obtain ⟨entry, known, same⟩ := Option.map_eq_some_iff.mp found
    cases same
    exact spelled entry (List.mem_of_find?_eq_some known)

def Tag.takesText : Tag → Bool
  | word _ _ => true
  | string _ _ => true
  | mark _ => true
  | _ => false

theorem Tag.scan_width {cs : List Char} (taken : (scan cs).1.takesText = true) :
    0 < (scan cs).2.1 := by
  revert taken
  fun_cases scan cs
  case case2 c rest quote value width after tail =>
    exact fun _ => Nat.zero_lt_of_lt (stringTail_width tail)
  case case8 c rest noString noPrivate noNumber starts word found =>
    rw [found]
    exact fun _ => Word.width_pos found
  case case10 c rest noString noPrivate noNumber noWord value width found =>
    rw [found]
    exact fun _ => Mark.scan_width found
  all_goals simp_all [takesText]

/-! Offsets. -/

/-- What lies behind an offset, said of tokens and of all that is read from them. Behind a lower
offset it lies too. -/
class Positioned (α : Type) where
  Behind : Nat → α → Prop
  mono : ∀ {low high : Nat} {a : α}, low ≤ high → Behind high a → Behind low a

export Positioned (Behind)

instance (priority := low) anywhere {α : Type} : Positioned α where
  Behind _ _ := True
  mono _ _ := trivial

structure Token.LiesBehind (offset : Nat) (token : Token) : Prop where
  starts : offset ≤ token.start
  ordered : token.start ≤ token.stop
  nonempty : token.tag.takesText = true → token.start < token.stop

instance : Positioned Token where
  Behind := Token.LiesBehind
  mono below := fun ⟨starts, ordered, nonempty⟩ => ⟨Nat.le_trans below starts, ordered, nonempty⟩

/-- What has a span lies behind an offset if none of its text stands in front of that; what has no
text, if it stands neither in front of the offset nor there. -/
instance : Positioned Span where
  Behind offset span := offset ≤ span.start ∧ offset < span.stop
  mono below := And.imp (Nat.le_trans below) (Nat.lt_of_le_of_lt below)

@[grind →]
theorem Span.bounds_of_behind {offset : Nat} {span : Span} (here : Behind offset span) :
    offset ≤ span.start ∧ offset < span.stop := here

@[grind ←]
theorem Span.behind_mk {offset start stop : Nat} (starts : offset ≤ start) (stops : offset < stop) :
    Behind offset (mk start stop) := ⟨starts, stops⟩

theorem Token.LiesBehind.span {offset : Nat} {token : Token} (behind : token.LiesBehind offset)
    (taken : token.tag.takesText = true) : Behind offset (Span.mk token.start token.stop) :=
  ⟨behind.starts, Nat.lt_of_le_of_lt behind.starts (behind.nonempty taken)⟩

namespace Token

variable {offset : Nat} {token : Token}

@[grind →]
theorem bounds_of_behind (here : Behind offset token) :
    offset ≤ token.start ∧ token.start ≤ token.stop := ⟨here.starts, here.ordered⟩

@[grind →]
theorem behind_of_word {text : String} {escaped : Bool} (here : Behind offset token)
    (word : token.tag = .word text escaped) : Behind offset (Span.mk token.start token.stop) :=
  here.span (by rw [word]; rfl)

@[grind →]
theorem behind_of_string {value : String} {half : Bool} (here : Behind offset token)
    (string : token.tag = .string value half) : Behind offset (Span.mk token.start token.stop) :=
  here.span (by rw [string]; rfl)

end Token

section

variable {α β : Type} [Positioned α] [Positioned β]

instance : Positioned (List α) where
  Behind offset list := ∀ a ∈ list, Behind offset a
  mono below behind a listed := Positioned.mono below (behind a listed)

instance : Positioned (Option α) where
  Behind offset found := ∀ a ∈ found, Behind offset a
  mono below behind a is := Positioned.mono below (behind a is)

instance : Positioned (α × β) where
  Behind offset pair := Behind offset pair.1 ∧ Behind offset pair.2
  mono below := And.imp (Positioned.mono below) (Positioned.mono below)

instance : Positioned (α ⊕ β) where
  Behind offset := Sum.elim (Behind offset) (Behind offset)
  mono {_ _ answer} below behind := by
    cases answer with
    | inl => exact Positioned.mono (α := α) below behind
    | inr => exact Positioned.mono (α := β) below behind

variable {offset : Nat} {list other : List α}

@[simp, grind =, grind norm]
theorem behind_anywhere {α : Type} (a : α) : @Behind α anywhere offset a ↔ True := Iff.rfl

@[simp, grind =, grind norm]
theorem behind_nil : Behind offset ([] : List α) ↔ True := by simp [Behind]

@[simp, grind =, grind norm]
theorem behind_cons (a : α) : Behind offset (a :: list) ↔ Behind offset a ∧ Behind offset list :=
  List.forall_mem_cons

theorem behind_singleton {a : α} (behind : Behind offset a) : Behind offset [a] :=
  List.forall_mem_singleton.mpr behind

@[simp, grind =, grind norm]
theorem behind_append : Behind offset (list ++ other) ↔ Behind offset list ∧ Behind offset other :=
  List.forall_mem_append

@[simp, grind =, grind norm]
theorem behind_reverse : Behind offset list.reverse ↔ Behind offset list := by
  simp [Behind]

@[simp, grind =, grind norm]
theorem behind_flatMap {γ : Type} (source : List γ) (f : γ → List α) :
    Behind offset (source.flatMap f) ↔ ∀ a ∈ source, Behind offset (f a) :=
  List.forall_mem_flatMap

@[simp, grind =, grind norm]
theorem behind_none : Behind offset (none : Option α) ↔ True := by simp [Behind]

@[simp, grind =, grind norm]
theorem behind_some (a : α) : Behind offset (some a) ↔ Behind offset a := by simp [Behind]

@[simp, grind =, grind norm]
theorem behind_pair (a : α) (b : β) : Behind offset (a, b) ↔ Behind offset a ∧ Behind offset b :=
  Iff.rfl

@[grind norm]
theorem behind_ite {c : Prop} [Decidable c] (first second : α) :
    Behind offset (if c then first else second) ↔
      if c then Behind offset first else Behind offset second := by
  split <;> rfl

@[simp, grind =, grind norm]
theorem behind_inl (a : α) : Behind offset (.inl a : α ⊕ β) ↔ Behind offset a := Iff.rfl

@[simp, grind =, grind norm]
theorem behind_inr (b : β) : Behind offset (.inr b : α ⊕ β) ↔ Behind offset b := Iff.rfl

end

theorem Token.scan_behind (html newline : Bool) (offset : Nat) (cs : List Char) :
    Behind offset (scan html newline offset cs) where
  starts := Trivia.le_skip html .space newline offset cs
  ordered := Nat.le_add_right _ _
  nonempty := by
    intro letters
    cases closes : (Trivia.skip html .space newline offset cs).closed with
    | true =>
      simp only [scan, closes, ↓reduceIte] at letters
      exact Nat.lt_add_of_pos_right (Tag.scan_width letters)
    | false => simp [scan, closes, Tag.takesText] at letters

/-! Parsers. -/

instance : Positioned State where
  Behind offset state := offset ≤ state.lastStop ∧ Behind state.lastStop state.token
  mono below := And.imp_left (Nat.le_trans below)

namespace Parse

variable {α β γ : Type} {high low offset : Nat}

/-- Started behind an offset, a parser answers what has a property, and goes on behind another,
lower offset. -/
def Leads (high low : Nat) (Q : α → Prop) (parse : Parse α) : Prop :=
  ∀ (context : Context) (state : State), Behind high state →
    ∀ (value : α) (after : State), (parse context).run state = (some value, after) →
      Q value ∧ Behind low after

abbrev Keeps [Positioned α] (offset : Nat) (parse : Parse α) : Prop :=
  Leads offset offset (Behind offset) parse

namespace Leads

variable {P : α → Prop} {Q : β → Prop}

@[grind ←]
theorem pure {value : β} (below : low ≤ high) (here : Q value) :
    Leads high low Q (Pure.pure value : Parse β) := by
  intro context state starts found after ran
  cases ran
  exact ⟨here, Positioned.mono below starts⟩

@[grind ←]
theorem reject : Leads high low Q (Parse.reject : Parse β) := by
  intro context state starts found after ran
  cases ran

theorem andThen {first : Parse α} {next : α → Parse β} (before : Leads high high P first)
    (after : ∀ value, P value → Leads high low Q (next value)) :
    Leads high low Q (first >>= next) := by
  intro context state starts value last ran
  rw [run_bind] at ran
  rcases here : (first context).run state with ⟨_ | found, rest⟩
  · rw [here] at ran
    cases ran
  · rw [here] at ran
    obtain ⟨known, goesOn⟩ := before context state starts found rest here
    exact after found known context rest goesOn value last ran

@[grind ←]
theorem bind [Positioned α] {first : Parse α} {next : α → Parse β} (before : Keeps high first)
    (after : ∀ value, Behind high value → Leads high low Q (next value)) :
    Leads high low Q (first >>= next) :=
  andThen before after

theorem ite {c : Prop} [Decidable c] {first second : Parse β}
    (whenTrue : Leads high low Q first) (whenFalse : Leads high low Q second) :
    Leads high low Q (if c then first else second) := by
  split
  · exact whenTrue
  · exact whenFalse

theorem iterate {step : α → Parse (α ⊕ β)}
    (each : ∀ value, P value → Leads high high (Sum.elim P Q) (step value)) (bound : Nat)
    (value : α) (here : P value) : Leads high high Q (Parse.iterate step bound value) := by
  induction bound generalizing value with
  | zero => exact .reject
  | succ bound ih =>
    refine .andThen (each value here) fun answer known => ?_
    cases answer with
    | inl next => exact ih next known
    | inr result => exact .pure (Nat.le_refl _) known

end Leads

/-! What the grammar is made of. -/

@[grind ←]
theorem token_keeps : Keeps offset Parse.token := by
  intro context state starts value after ran
  cases ran
  exact ⟨Positioned.mono starts.1 starts.2, starts⟩

@[grind ←]
theorem context_keeps : Keeps offset Parse.context := by
  intro context state starts value after ran
  cases ran
  exact ⟨trivial, starts⟩

@[grind ←]
theorem Leads.lastStop {Q : α → Prop} {next : Nat → Parse α}
    (after : ∀ stop, high ≤ stop → Leads high low Q (next stop)) :
    Leads high low Q (Parse.lastStop >>= next) := by
  intro context state starts value last ran
  exact after state.lastStop starts.1 context state starts value last ran

@[grind ←]
theorem lastStop_keeps : Keeps offset Parse.lastStop := by
  intro context state starts value after ran
  cases ran
  exact ⟨trivial, starts⟩

@[grind ←]
theorem resume_keeps {stop : Nat} (behind : offset ≤ stop) (rest : List Char) :
    Keeps offset (Parse.resume stop rest) := by
  intro context state starts value after ran
  cases ran
  exact ⟨trivial, behind, Token.scan_behind _ _ _ _⟩

@[grind ←]
theorem get_keeps : Keeps offset (get : Parse State) := by
  intro context state starts value after ran
  cases ran
  exact ⟨starts, starts⟩

theorem modify_keeps {change : State → State} (tokens : ∀ state, (change state).token = state.token)
    (stops : ∀ state, (change state).lastStop = state.lastStop) :
    Keeps offset (modify change : Parse Unit) := by
  intro context state starts value after ran
  cases ran
  refine ⟨trivial, ?_⟩
  simpa [Behind, tokens, stops] using starts

@[grind ←]
theorem advance_keeps : Keeps offset Parse.advance := by
  refine .bind token_keeps fun current behind => ?_
  exact resume_keeps (Nat.le_trans behind.starts behind.ordered) _

theorem Leads.loop {P : α → Prop} {Q : β → Prop} {step : α → Parse (α ⊕ β)} {start : α}
    (first : P start)
    (each : ∀ value, P value → Leads high high (Sum.elim P Q) (step value)) :
    Leads high high Q (Parse.loop step start) := by
  unfold Parse.loop
  refine .bind context_keeps fun context _ => .bind lastStop_keeps fun stop _ => ?_
  exact Leads.iterate each _ start first

section

variable {Q : α → Prop} {parse : Parse α} (leads : Leads high low Q parse)
include leads

@[grind ←]
theorem inContext_leads {change : Context → Context} :
    Leads high low Q (Parse.inContext change parse) :=
  fun context => leads (change context)

@[grind ←]
theorem allowingIn_leads : Leads high low Q (Parse.allowingIn parse) :=
  inContext_leads leads

@[grind ←]
theorem outsideDecorator_leads : Leads high low Q (Parse.outsideDecorator parse) :=
  inContext_leads leads

@[grind ←]
theorem enclosed_leads : Leads high low Q (Parse.enclosed parse) :=
  inContext_leads (inContext_leads leads)

end

theorem behind_advance (context : Context) {state : State} (starts : Behind offset state)
    (taken : state.token.tag.takesText = true) :
    Behind (offset + 1) ((Parse.advance context).run state).2 := by
  have below : offset ≤ state.token.start := Nat.le_trans starts.1 starts.2.starts
  exact ⟨Nat.lt_of_le_of_lt below (starts.2.nonempty taken), Token.scan_behind _ _ _ _⟩

theorem run_eat {asks : Parse Bool} {stands : Prop} [Decidable stands] {context : Context}
    {state : State} (asked : (asks context).run state = (some (decide stands), state)) :
    ((do
      if ← asks then
        Parse.advance
        return true
      else return false : Parse Bool) context).run state =
      if stands then (some true, ((Parse.advance context).run state).2)
      else (some false, state) := by
  rw [run_bind, asked]
  dsimp only
  by_cases holds : stands
  · rw [decide_eq_true holds, if_pos holds]
    rfl
  · rw [decide_eq_false holds, if_neg holds]
    rfl

theorem Leads.keyword {Q : α → Prop} {word : String} {next : Token → Parse α}
    (after : ∀ first, offset ≤ first.start → Leads (offset + 1) offset Q (next first)) :
    Leads offset offset Q (do
      let first ← Parse.token
      Parse.expectWord word
      next first) := by
  intro context state starts value last ran
  have token : (Parse.token context).run state = (some state.token, state) := rfl
  rw [run_bind, token] at ran
  dsimp only at ran
  rw [Parse.expectWord, run_bind, run_bind, Parse.eatWord, run_eat rfl] at ran
  by_cases stands : state.token.tag = .word word false
  · rw [if_pos stands] at ran
    have goesOn := behind_advance context starts (by rw [stands]; rfl)
    exact after _ (Nat.le_trans starts.1 starts.2.starts) context _ goesOn value last ran
  · rw [if_neg stands] at ran
    cases ran

theorem Leads.ifMark {Q : α → Prop} {mark : Mark} {first second : Parse α}
    (whenTrue : Leads (offset + 1) offset Q first) (whenFalse : Leads offset offset Q second) :
    Leads offset offset Q (do if ← Parse.eatMark mark then first else second) := by
  intro context state starts value last ran
  rw [run_bind, Parse.eatMark, run_eat rfl] at ran
  by_cases stands : state.token.tag = .mark mark
  · rw [if_pos stands] at ran
    have goesOn := behind_advance context starts (by rw [stands]; rfl)
    exact whenTrue context _ goesOn value last ran
  · rw [if_neg stands] at ran
    exact whenFalse context _ starts value last ran

variable [Positioned α] [Positioned β]

@[grind ←]
theorem loop_keeps {step : α → Parse (α ⊕ β)} {start : α} (first : Behind offset start)
    (each : ∀ value, Behind offset value → Keeps offset (step value)) :
    Keeps offset (Parse.loop step start) :=
  Leads.loop first each

theorem run_attempt (parse : Parse γ) (context : Context) (state : State) :
    (Parse.attempt parse context).run state =
      match (parse context).run state with
      | (some value, after) => (some (some value), after)
      | (none, failed) => (some none, { state with notArrows := failed.notArrows }) := by
  have got : (get : StateM State State) state = (state, state) := rfl
  simp only [Parse.attempt, OptionT.run, OptionT.mk, Bind.bind, StateT.bind, got]
  rcases parse context state with ⟨_ | found, after⟩
  · rfl
  · rfl

theorem run_lookahead (parse : Parse γ) (context : Context) (state : State) :
    (Parse.lookahead parse context).run state =
      (some ((parse context).run state).1,
        { state with notArrows := ((parse context).run state).2.notArrows }) := by
  have got : (get : StateM State State) state = (state, state) := rfl
  simp only [Parse.lookahead, OptionT.run, OptionT.mk, Bind.bind, StateT.bind, got]
  rfl

@[grind ←]
theorem attempt_keeps {parse : Parse α} (keeps : Keeps offset parse) :
    Keeps offset (Parse.attempt parse) := by
  intro context state starts value after ran
  rw [run_attempt] at ran
  rcases here : (parse context).run state with ⟨_ | found, rest⟩
  · rw [here] at ran
    cases ran
    exact ⟨nofun, starts⟩
  · rw [here] at ran
    cases ran
    obtain ⟨behind, goesOn⟩ := keeps context state starts found _ here
    exact ⟨by simpa using behind, goesOn⟩

@[grind ←]
theorem lookahead_keeps {parse : Parse α} (keeps : Keeps offset parse) :
    Keeps offset (Parse.lookahead parse) := by
  intro context state starts value after ran
  rw [run_lookahead] at ran
  cases ran
  refine ⟨fun found answered => ?_, starts⟩
  exact (keeps context state starts found _ (Prod.ext answered rfl)).1

@[grind ←]
theorem foresees_keeps (parse : Parse Bool) : Keeps offset (Parse.foresees parse) := by
  intro context state starts value after ran
  rw [Parse.foresees, run_bind, run_lookahead] at ran
  cases ran
  exact ⟨trivial, starts⟩

@[grind ←]
theorem peek_keeps : Keeps offset Parse.peek := by
  refine .bind token_keeps fun current behind => .bind context_keeps fun context _ => ?_
  refine .pure (Nat.le_refl _) (Positioned.mono ?_ (Token.scan_behind _ _ _ _))
  exact Nat.le_trans behind.starts behind.ordered

@[grind ←]
theorem isMark_keeps (mark : Mark) : Keeps offset (Parse.isMark mark) := by
  unfold Parse.isMark
  grind

@[grind ←]
theorem eatMark_keeps (mark : Mark) : Keeps offset (Parse.eatMark mark) := by
  unfold Parse.eatMark
  grind

@[grind ←]
theorem expectMark_keeps (mark : Mark) : Keeps offset (Parse.expectMark mark) := by
  unfold Parse.expectMark
  grind

@[grind ←]
theorem isWord_keeps (word : String) : Keeps offset (Parse.isWord word) := by
  unfold Parse.isWord
  grind

@[grind ←]
theorem eatWord_keeps (word : String) : Keeps offset (Parse.eatWord word) := by
  unfold Parse.eatWord
  grind

@[grind ←]
theorem expectWord_keeps (word : String) : Keeps offset (Parse.expectWord word) := by
  unfold Parse.expectWord
  grind

@[grind ←]
theorem isFinish_keeps : Keeps offset Parse.isFinish := by
  unfold Parse.isFinish
  grind

@[grind ←]
theorem endStatement_keeps : Keeps offset Parse.endStatement := by
  unfold Parse.endStatement
  grind

@[grind ←]
theorem atStatementEnd_keeps : Keeps offset Parse.atStatementEnd := by
  unfold Parse.atStatementEnd
  grind

@[grind ←]
theorem commaSeparated_keeps {close : Mark} {element : Parse α} (each : Keeps offset element) :
    Keeps offset (Parse.commaSeparated close element) := by
  unfold Parse.commaSeparated
  refine .bind (loop_keeps (by simp) fun found behind => ?_) fun found behind => ?_
  · grind
  · grind

@[grind ←]
theorem isIdentifier_keeps (word : String) : Keeps offset (Parse.isIdentifier word) := by
  unfold Parse.isIdentifier
  grind

@[grind ←]
theorem identifier_keeps : Keeps offset Parse.identifier := by
  unfold Parse.identifier
  grind

@[grind ←]
theorem bindingName_keeps : Keeps offset Parse.bindingName := by
  unfold Parse.bindingName
  grind

@[grind ←]
theorem identifierName_keeps : Keeps offset Parse.identifierName := by
  unfold Parse.identifierName
  grind

@[grind ←]
theorem string_keeps : Keeps offset Parse.string := by
  unfold Parse.string
  grind

theorem Keeps.named {next : Token → String → Parse α}
    (after : ∀ first text, Behind offset (Span.mk first.start first.stop) →
      Keeps offset (next first text)) :
    Keeps offset (do
      let first ← Parse.token
      let text ← Parse.identifierName
      next first text) := by
  intro context state starts value last ran
  have token : (Parse.token context).run state = (some state.token, state) := rfl
  have behind : Behind offset state.token := Positioned.mono starts.1 starts.2
  rw [run_bind, token] at ran
  dsimp only at ran
  rw [run_bind] at ran
  rcases here : (Parse.identifierName context).run state with ⟨_ | text, rest⟩
  · rw [here] at ran
    cases ran
  · rw [here] at ran
    obtain ⟨_, goesOn⟩ := identifierName_keeps context state starts text rest here
    -- a name is read from a word only, and that takes up text
    have taken : state.token.tag.takesText = true := by
      rw [Parse.identifierName, run_bind, token] at here
      dsimp only at here
      cases tag : state.token.tag with
      | word letters escaped => rfl
      | _ =>
        rw [tag] at here
        cases here
    exact after state.token text (behind.span taken) context rest goesOn value last ran

end Parse

end ModuleBundle.Script
