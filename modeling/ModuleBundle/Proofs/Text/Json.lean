import ModuleBundle.Proofs.Script.ObjectLiteral
import ModuleBundle.Text.Json

/-!
Reading JSON documents of numbers, texts, lists and records. The reader takes blanks between
tokens as they come, and of commas, colons and brackets no more and no fewer than there must be.
What is written for a document over several lines reads as that document, at whatever depth.
-/

set_option autoImplicit false

namespace ModuleBundle.Json

variable {α : Type} {close : Char} {element : List Char → Option (α × List Char)}
  {write : α → List Char} {depth limit : Nat} {cs gap rest : List Char}

/-! Reading. -/

def isBlank (c : Char) : Bool := c = ' ' || c = '\n' || c = '\r' || c = '\t'

def skip (cs : List Char) : List Char := cs.dropWhile isBlank

def more? (close : Char) (element : List Char → Option (α × List Char)) :
    Nat → List Char → Option (List α × List Char)
  | 0, _ => none
  | limit + 1, cs =>
    match skip cs with
    | [] => none
    | c :: rest =>
      if c = close then some ([], rest)
      else if c = ',' then do
        let (first, cs) ← element rest
        let (others, after) ← more? close element limit cs
        return (first :: others, after)
      else none

def elements? (close : Char) (element : List Char → Option (α × List Char)) (limit : Nat)
    (cs : List Char) : Option (List α × List Char) :=
  match skip cs with
  | [] => none
  | c :: rest =>
    if c = close then some ([], rest)
    else do
      let (first, cs) ← element cs
      let (others, after) ← more? close element limit cs
      return (first :: others, after)

def field? (value : List Char → Option (Json × List Char)) (cs : List Char) :
    Option (Field × List Char) := do
  let (name, cs) ← Quoted.read (skip cs)
  match skip cs with
  | ':' :: rest =>
    let (found, after) ← value rest
    return (.mk (String.ofList name) found, after)
  | _ => none

def number? (cs : List Char) : Option (Nat × List Char) :=
  match cs.takeWhile Char.isDigit with
  | [] => none
  | digits => (Script.ObjectLiteral.decimal? digits).map fun n => (n, cs.dropWhile Char.isDigit)

/-- The document at the front of a text and what follows it, with at most `limit` documents in
each other and elements in one. -/
def read? : Nat → List Char → Option (Json × List Char)
  | 0, _ => none
  | limit + 1, cs =>
    match skip cs with
    | '"' :: rest =>
      (Quoted.readRest rest).map fun found => (.text (String.ofList found.1), found.2)
    | '[' :: rest =>
      (elements? ']' (read? limit) limit rest).map fun found => (.list found.1, found.2)
    | '{' :: rest =>
      (elements? '}' (field? (read? limit)) limit rest).map fun found => (.record found.1, found.2)
    | digits => (number? digits).map fun found => (.number found.1, found.2)

def parse? (text : String) : Option Json :=
  match read? (text.length + 1) text.toList with
  | some (json, rest) => if skip rest = [] then some json else none
  | none => none

/-! Blanks. -/

theorem skip_append (blank : ∀ c ∈ gap, isBlank c = true) : skip (gap ++ cs) = skip cs :=
  List.dropWhile_append_of_pos blank

theorem skip_cons {c : Char} (visible : isBlank c = false) : skip (c :: cs) = c :: cs :=
  List.dropWhile_cons_of_neg (by simp [visible])

theorem read?_append (blank : ∀ c ∈ gap, isBlank c = true) :
    read? limit (gap ++ cs) = read? limit cs := by
  cases limit with
  | zero => rfl
  | succ limit => rw [read?, read?, skip_append blank]

theorem field?_append {value : List Char → Option (Json × List Char)}
    (blank : ∀ c ∈ gap, isBlank c = true) : field? value (gap ++ cs) = field? value cs := by
  rw [field?, field?, skip_append blank]

def line (depth : Nat) : List Char := (newLine depth).toList

theorem line_eq (depth : Nat) : line depth = '\n' :: List.replicate (2 * depth) ' ' :=
  String.toList_ofList

theorem isBlank_of_mem_line {c : Char} (member : c ∈ line depth) : isBlank c = true := by
  rw [line_eq] at member
  rcases List.mem_cons.mp member with rfl | space
  · rfl
  · rw [List.eq_of_mem_replicate space]
    rfl

/-! Lists and records on several lines. -/

def later (depth : Nat) (write : α → List Char) (others : List α) : List Char :=
  others.flatMap fun a => ',' :: (line (depth + 1) ++ write a)

/-- What stands behind the opening mark of a list or record at `depth`. -/
def enclosed (depth : Nat) (close : Char) (write : α → List Char) : List α → List Char
  | [] => [close]
  | first :: rest =>
    line (depth + 1) ++ (write first ++ (later depth write rest ++ (line depth ++ [close])))

theorem toList_of_walk {each : α → String} {walk : List α → String} (empty : walk [] = "")
    (step : ∀ first others,
      walk (first :: others) = "," ++ newLine (depth + 1) ++ each first ++ walk others)
    (others : List α) : (walk others).toList = later depth (fun a => (each a).toList) others := by
  have comma : ",".toList = [','] := rfl
  induction others with
  | nil =>
    rw [empty]
    rfl
  | cons first others ih =>
    rw [step, later, List.flatMap_cons, ← later, ← ih]
    simp only [String.toList_append, comma, line, List.append_assoc, List.cons_append,
      List.nil_append]

theorem toList_prettyItems (depth : Nat) (items : List Json) :
    (prettyItems depth items).toList =
      later depth (fun item => (item.pretty (depth + 1)).toList) items :=
  toList_of_walk rfl (fun _ _ => rfl) items

theorem toList_prettyFields (depth : Nat) (fields : List Field) :
    (prettyFields depth fields).toList =
      later depth (fun field => (field.pretty (depth + 1)).toList) fields :=
  toList_of_walk rfl (fun _ _ => rfl) fields

theorem toList_pretty_list (depth : Nat) (items : List Json) :
    ((list items).pretty depth).toList =
      '[' :: enclosed depth ']' (fun item => (item.pretty (depth + 1)).toList) items := by
  have opening : "[".toList = ['['] := rfl
  have closing : "]".toList = [']'] := rfl
  cases items with
  | nil =>
    rw [pretty]
    rfl
  | cons first rest =>
    simp only [pretty, enclosed, String.toList_append, toList_prettyItems, opening, closing, line,
      List.append_assoc, List.cons_append, List.nil_append]

theorem toList_pretty_record (depth : Nat) (fields : List Field) :
    ((record fields).pretty depth).toList =
      '{' :: enclosed depth '}' (fun field => (field.pretty (depth + 1)).toList) fields := by
  have opening : "\x7b".toList = ['{'] := rfl
  have closing : "\x7d".toList = ['}'] := rfl
  cases fields with
  | nil =>
    rw [pretty]
    rfl
  | cons first rest =>
    simp only [pretty, enclosed, String.toList_append, toList_prettyFields, opening, closing, line,
      List.append_assoc, List.cons_append, List.nil_append]

def Stops (cs : List Char) : Prop := ∀ c ∈ cs.head?, ¬ c.isDigit = true

def Opens (cs : List Char) : Prop :=
  ∃ c rest, cs = c :: rest ∧ isBlank c = false ∧ c ≠ ']' ∧ c ≠ '}'

theorem stops_line (depth : Nat) (rest : List Char) : Stops (line depth ++ rest) := by
  rw [line_eq]
  rintro c ⟨⟩
  decide

theorem stops_later (depth limit : Nat) (others : List α) (rest : List Char) :
    Stops (later depth write others ++ (line limit ++ rest)) := by
  cases others with
  | nil => exact stops_line limit rest
  | cons first others =>
    rintro c ⟨⟩
    decide

theorem length_le_later (write : α → List Char) (depth : Nat) (others : List α) :
    others.length ≤ (later depth write others).length := by
  induction others with
  | nil => exact Nat.zero_le _
  | cons first others ih =>
    rw [later, List.flatMap_cons, ← later, List.length_append, List.length_cons, List.length_cons]
    omega

theorem length_lt_later (write : α → List Char) (depth : Nat) {a : α} {others : List α}
    (member : a ∈ others) :
    (write a).length < (later depth write others).length := by
  induction member with
  | head others =>
    rw [later, List.flatMap_cons, List.length_append, List.length_cons, List.length_append]
    omega
  | tail first _ ih =>
    rw [later, List.flatMap_cons, ← later, List.length_append]
    omega

theorem length_le_enclosed (write : α → List Char) (depth : Nat) (close : Char) (all : List α) :
    all.length ≤ (enclosed depth close write all).length ∧
      ∀ a ∈ all, (write a).length < (enclosed depth close write all).length := by
  cases all with
  | nil => exact ⟨Nat.zero_le _, nofun⟩
  | cons first others =>
    have count := length_le_later write depth others
    simp only [enclosed, List.length_append, List.length_cons, List.length_nil]
    refine ⟨by omega, fun a member => ?_⟩
    rcases List.mem_cons.mp member with rfl | member
    · omega
    · have := length_lt_later write depth member
      omega

theorem marks_visible (closes : close = ']' ∨ close = '}') :
    isBlank close = false ∧ ',' ≠ close := by
  rcases closes with rfl | rfl <;> decide

theorem more?_later (closes : close = ']' ∨ close = '}') {others : List α}
    (reads : ∀ a ∈ others, ∀ after, Stops after →
      element (line (depth + 1) ++ (write a ++ after)) = some (a, after))
    (enough : others.length < limit) :
    more? close element limit (later depth write others ++ (line depth ++ close :: rest)) =
      some (others, rest) := by
  obtain ⟨visible, noComma⟩ := marks_visible closes
  have comma : isBlank ',' = false := rfl
  -- every element that is read takes one from the limit
  induction others generalizing limit with
  | nil =>
    cases limit with
    | zero => exact absurd enough (Nat.not_lt_zero _)
    | succ limit =>
      rw [later, List.flatMap_nil, List.nil_append, more?, skip_append fun _ => isBlank_of_mem_line,
        skip_cons visible]
      exact if_pos rfl
  | cons first others ih =>
    cases limit with
    | zero => exact absurd enough (Nat.not_lt_zero _)
    | succ limit =>
      obtain ⟨here, others'⟩ := List.forall_mem_cons.mp reads
      have next := ih others' (Nat.lt_of_succ_lt_succ enough)
      rw [later, List.flatMap_cons, ← later, List.cons_append, List.cons_append, List.append_assoc,
        List.append_assoc, more?, skip_cons comma]
      simp only [if_neg noComma, if_true, here _ (stops_later depth depth others _), next,
        Option.bind_eq_bind, Option.bind_some, Option.pure_def]

theorem elements?_enclosed (closes : close = ']' ∨ close = '}') {all : List α}
    (enough : (enclosed depth close write all).length ≤ limit)
    (opens : ∀ a ∈ all, Opens (write a))
    (reads : ∀ a ∈ all, ∀ after, (write a).length < limit → Stops after →
      element (line (depth + 1) ++ (write a ++ after)) = some (a, after)) :
    elements? close element limit (enclosed depth close write all ++ rest) = some (all, rest) := by
  obtain ⟨visible, _⟩ := marks_visible closes
  obtain ⟨count, shorter⟩ := length_le_enclosed write depth close all
  have each : ∀ a ∈ all, ∀ after, Stops after →
      element (line (depth + 1) ++ (write a ++ after)) = some (a, after) :=
    fun a member after => reads a member after (Nat.lt_of_lt_of_le (shorter a member) enough)
  have few : all.length ≤ limit := Nat.le_trans count enough
  cases all with
  | nil =>
    rw [enclosed, List.singleton_append, elements?, skip_cons visible]
    exact if_pos rfl
  | cons first others =>
    obtain ⟨here, there⟩ := List.forall_mem_cons.mp each
    have more : more? close element limit
        (later depth write others ++ (line depth ++ close :: rest)) = some (others, rest) :=
      more?_later closes there few
    -- the reader tells an element from the closing mark by its first character
    obtain ⟨c, front, opening, plain, noBracket, noBrace⟩ := opens first List.mem_cons_self
    have notClosed : c ≠ close := by
      rcases closes with rfl | rfl
      · exact noBracket
      · exact noBrace
    have skipped : skip (line (depth + 1) ++ (write first ++
        (later depth write others ++ (line depth ++ close :: rest)))) =
          c :: (front ++ (later depth write others ++ (line depth ++ close :: rest))) := by
      rw [skip_append fun _ => isBlank_of_mem_line, opening, List.cons_append, skip_cons plain]
    simp only [enclosed, List.append_assoc, List.singleton_append]
    simp only [elements?, skipped, if_neg notClosed, here _ (stops_later depth depth others _),
      more, Option.bind_eq_bind, Option.bind_some, Option.pure_def]

/-! Documents. -/

theorem isBlank_of_isDigit {c : Char} (digit : c.isDigit = true) : isBlank c = false := by
  refine Bool.eq_false_iff.mpr fun blank => ?_
  simp only [isBlank, Bool.or_eq_true, decide_eq_true_eq] at blank
  rcases blank with ((rfl | rfl) | rfl) | rfl <;> cases digit

theorem exists_digits (n : Nat) :
    ∃ d ds, (toString n).toList = d :: ds ∧ Nat.toDigits 10 n = d :: ds ∧ d.isDigit = true := by
  have digits : (toString n).toList = Nat.toDigits 10 n := String.toList_ofList
  cases written : Nat.toDigits 10 n with
  | nil => exact absurd written Nat.toDigits_ne_nil
  | cons d ds =>
    refine ⟨d, ds, digits.trans written, rfl, ?_⟩
    apply isDigit_of_mem_toString (n := n)
    rw [digits, written]
    exact List.mem_cons_self

theorem number?_toString (n : Nat) (stops : Stops rest) :
    number? ((toString n).toList ++ rest) = some (n, rest) := by
  have all : ∀ c ∈ (toString n).toList, c.isDigit = true := fun _ => isDigit_of_mem_toString
  obtain ⟨taken, left⟩ : rest.takeWhile Char.isDigit = [] ∧ rest.dropWhile Char.isDigit = rest := by
    cases rest with
    | nil => exact ⟨rfl, rfl⟩
    | cons c rest =>
      have other := stops c rfl
      exact ⟨List.takeWhile_cons_of_neg other, List.dropWhile_cons_of_neg other⟩
  obtain ⟨d, ds, written, digits, _⟩ := exists_digits n
  have value := Script.ObjectLiteral.decimal?_toDigits n
  rw [number?, List.takeWhile_append_of_pos all, List.dropWhile_append_of_pos all, taken, left,
    List.append_nil, written]
  rw [digits] at value
  simp only [value, Option.map_some]

theorem opens_quoted (text : String) : Opens (quoted text).toList := by
  rw [quoted, String.toList_ofList]
  exact ⟨'"', _, rfl, rfl, by decide, by decide⟩

theorem opens_pretty (json : Json) (depth : Nat) : Opens (json.pretty depth).toList := by
  cases json with
  | number value =>
    obtain ⟨d, ds, written, _, digit⟩ := exists_digits value
    refine ⟨d, ds, written, isBlank_of_isDigit digit, ?_, ?_⟩
    · rintro rfl
      cases digit
    · rintro rfl
      cases digit
  | text value => exact opens_quoted value
  | list items => exact ⟨'[', _, toList_pretty_list depth items, rfl, by decide, by decide⟩
  | record fields => exact ⟨'{', _, toList_pretty_record depth fields, rfl, by decide, by decide⟩

theorem opens_field (field : Field) (depth : Nat) : Opens (field.pretty depth).toList := by
  obtain ⟨name, value⟩ := field
  obtain ⟨c, front, opening, visible⟩ := opens_quoted name
  refine ⟨c, front ++ (": ".toList ++ (value.pretty depth).toList), ?_, visible⟩
  rw [Field.pretty, String.toList_append, String.toList_append, opening, List.append_assoc,
    List.cons_append]

/-- Whether a document is read from its text at every depth, by a reader that may read as many
documents in each other as the text has characters. -/
def ReadsBack (json : Json) : Prop :=
  ∀ (depth limit : Nat) (rest : List Char), (json.pretty depth).toList.length < limit →
    Stops rest → read? limit ((json.pretty depth).toList ++ rest) = some (json, rest)

theorem number_readsBack (value : Nat) : ReadsBack (.number value) := by
  intro depth limit rest enough stops
  obtain ⟨d, ds, written, _, digit⟩ := exists_digits value
  have read := number?_toString value stops
  cases limit with
  | zero => exact absurd enough (Nat.not_lt_zero _)
  | succ limit =>
    rw [pretty, written, List.cons_append] at *
    rw [read?, skip_cons (isBlank_of_isDigit digit)]
    -- a digit is none of the marks that open a text, a list or a record
    split
    next same => cases (List.cons.inj same).1; cases digit
    next same => cases (List.cons.inj same).1; cases digit
    next same => cases (List.cons.inj same).1; cases digit
    next => rw [read, Option.map_some]

theorem text_readsBack (value : String) : ReadsBack (.text value) := by
  intro depth limit rest enough stops
  have read := Quoted.read_encode value.toList rest
  cases limit with
  | zero => exact absurd enough (Nat.not_lt_zero _)
  | succ limit =>
    have visible : isBlank '"' = false := rfl
    rw [pretty, quoted, String.toList_ofList, Quoted.encode, List.cons_append, read?,
      skip_cons visible]
    change Quoted.readRest (value.toList.flatMap Quoted.escape ++ ['"'] ++ rest) = _ at read
    simp only [read, Option.map_some, String.ofList_toList]

theorem list_readsBack {items : List Json} (each : ∀ item ∈ items, ReadsBack item) :
    ReadsBack (.list items) := by
  intro depth limit rest enough stops
  cases limit with
  | zero => exact absurd enough (Nat.not_lt_zero _)
  | succ limit =>
    have visible : isBlank '[' = false := rfl
    -- behind the opening bracket there is one character less, as the limit is one less for items
    rw [toList_pretty_list, List.length_cons] at enough
    rw [toList_pretty_list, List.cons_append, read?, skip_cons visible]
    have read : elements? ']' (read? limit) limit (enclosed depth ']'
        (fun item => (item.pretty (depth + 1)).toList) items ++ rest) = some (items, rest) :=
      elements?_enclosed (.inl rfl) (Nat.le_of_lt (Nat.lt_of_succ_lt_succ enough))
        (fun item _ => opens_pretty item (depth + 1)) fun item member after short stops =>
          (read?_append fun _ => isBlank_of_mem_line).trans
            (each item member (depth + 1) limit after short stops)
    simp only [read, Option.map_some]

theorem field?_pretty {field : Field}
    (reads : ∃ name value, field = .mk name value ∧ ReadsBack value)
    (short : (field.pretty depth).toList.length < limit) (stops : Stops rest) :
    field? (read? limit) ((field.pretty depth).toList ++ rest) = some (field, rest) := by
  obtain ⟨name, value, rfl, reads⟩ := reads
  have shorter : (value.pretty depth).toList.length < limit := by
    rw [Field.pretty, String.toList_append, List.length_append] at short
    omega
  have colon : ": ".toList = [':', ' '] := rfl
  have quote : isBlank '"' = false := rfl
  have visible : isBlank ':' = false := rfl
  have blank : ∀ c ∈ [' '], isBlank c = true := List.forall_mem_singleton.mpr rfl
  have text : ((Field.mk name value).pretty depth).toList ++ rest =
      Quoted.encode name.toList ++
        (':' :: ([' '] ++ ((value.pretty depth).toList ++ rest))) := by
    simp only [Field.pretty, String.toList_append, quoted, String.toList_ofList, colon,
      List.append_assoc, List.cons_append, List.nil_append]
  -- a quote is no blank, so nothing is skipped in front of the name
  have skipped : skip (Quoted.encode name.toList ++
        (':' :: ([' '] ++ ((value.pretty depth).toList ++ rest)))) =
      Quoted.encode name.toList ++
        (':' :: ([' '] ++ ((value.pretty depth).toList ++ rest))) := by
    rw [Quoted.encode, List.cons_append, skip_cons quote]
  rw [text, field?, skipped, Quoted.read_encode]
  simp only [Option.bind_eq_bind, Option.bind_some, skip_cons visible, read?_append blank,
    reads depth limit rest shorter stops, Option.pure_def, String.ofList_toList]

theorem record_readsBack {fields : List Field}
    (each : ∀ field ∈ fields, ∃ name value, field = .mk name value ∧ ReadsBack value) :
    ReadsBack (.record fields) := by
  intro depth limit rest enough stops
  cases limit with
  | zero => exact absurd enough (Nat.not_lt_zero _)
  | succ limit =>
    have visible : isBlank '{' = false := rfl
    rw [toList_pretty_record, List.length_cons] at enough
    rw [toList_pretty_record, List.cons_append, read?, skip_cons visible]
    have read : elements? '}' (field? (read? limit)) limit (enclosed depth '}'
        (fun field => (field.pretty (depth + 1)).toList) fields ++ rest) = some (fields, rest) :=
      elements?_enclosed (.inr rfl) (Nat.le_of_lt (Nat.lt_of_succ_lt_succ enough))
        (fun field _ => opens_field field (depth + 1)) fun field member after short stops =>
          (field?_append fun _ => isBlank_of_mem_line).trans
            (field?_pretty (each field member) short stops)
    simp only [read, Option.map_some]

mutual

theorem readsBack : (json : Json) → ReadsBack json
  | .number value => number_readsBack value
  | .text value => text_readsBack value
  | .list items => list_readsBack (items_readBack items)
  | .record fields => record_readsBack (values_readBack fields)

theorem items_readBack : (items : List Json) → ∀ item ∈ items, ReadsBack item
  | [] => nofun
  | item :: rest => List.forall_mem_cons.mpr ⟨readsBack item, items_readBack rest⟩

theorem values_readBack : (fields : List Field) →
    ∀ field ∈ fields, ∃ name value, field = .mk name value ∧ ReadsBack value
  | [] => nofun
  | .mk name value :: rest =>
    List.forall_mem_cons.mpr ⟨⟨name, value, rfl, readsBack value⟩, values_readBack rest⟩

end

/-- A document is read back from the text that is written for it. -/
theorem parse?_pretty (json : Json) (depth : Nat) : parse? (json.pretty depth) = some json := by
  have read := readsBack json depth ((json.pretty depth).length + 1) [] ?_ nofun
  · rw [List.append_nil] at read
    simp [parse?, read, skip]
  · rw [String.length_toList]
    exact Nat.lt_succ_self _

example :
    (parse? " [1 ,\"\\u0041\"]\n").map (pretty 0) = some "[\n  1,\n  \"A\"\n]" ∧
      (parse? "[1,]").isNone := by
  decide +kernel

end ModuleBundle.Json
