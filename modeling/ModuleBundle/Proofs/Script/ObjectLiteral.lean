import Mathlib.Logic.Function.Basic
import ModuleBundle.Proofs.Results
import ModuleBundle.Proofs.Script.Scanning

/-!
Object literals whose keys are strings and whose values are decimal integers, read off their
tokens. Every definition gives the object a property of its own, and a later one overrides an
earlier one of the same key; only `__proto__` in front of a colon defines none, since it sets the
prototype.
-/

set_option autoImplicit false

namespace ModuleBundle.Script

/-- A string of a running script, by a text that may stand for halves of surrogate pairs. -/
structure Key where
  text : String
  hasHalf : Bool
  deriving DecidableEq, Repr

namespace Key

def of (text : String) : Key := ⟨text, false⟩

def proto : Key := of "__proto__"

theorem of_inj {first second : String} : of first = of second ↔ first = second := by
  simp [of]

end Key

abbrev OwnProperties := Key → Option Nat

namespace ObjectLiteral

variable {cs rest after : List Char} {key : Key} {value limit : Nat} {first : Key × Nat}
  {definitions : List (Key × Nat)}

/-! Reading. -/

def token (cs : List Char) : Token := Token.scan false false 0 cs

def lexeme (t : Token) : List Char := t.source.take (t.stop - t.start)

def mark? (value : Mark) (cs : List Char) : Option (List Char) :=
  if (token cs).tag = .mark value then some (token cs).rest else none

def key? (cs : List Char) : Option (Key × List Char) :=
  match (token cs).tag with
  | .string text hasHalf => some (⟨text, hasHalf⟩, (token cs).rest)
  | _ => none

/-- The value of a decimal integer, which starts with a zero only if it is zero. -/
def decimal? (digits : List Char) : Option Nat :=
  if digits.all Char.isDigit ∧ (digits.head? ≠ some '0' ∨ digits = ['0']) then
    some (Nat.ofDigitChars 10 digits 0)
  else none

def value? (cs : List Char) : Option (Nat × List Char) :=
  if (token cs).tag = .number then
    (decimal? (lexeme (token cs))).map fun value => (value, (token cs).rest)
  else none

def definition? (cs : List Char) : Option ((Key × Nat) × List Char) := do
  let (key, cs) ← key? cs
  let cs ← mark? .colon cs
  let (value, rest) ← value? cs
  return ((key, value), rest)

def definitions? : Nat → List Char → Option (List (Key × Nat) × List Char)
  | 0, _ => none
  | limit + 1, cs =>
    match mark? .closeBrace cs with
    | some rest => some ([], rest)
    | none => do
      let (first, cs) ← definition? cs
      match mark? .closeBrace cs with
      | some rest => return ([first], rest)
      | none =>
        let (others, rest) ← definitions? limit (← mark? .comma cs)
        return (first :: others, rest)

/-- The definitions of the literal that stands at the front of a text, and what follows it. The
prototype may be set once. -/
def read? (cs : List Char) : Option (List (Key × Nat) × List Char) := do
  let inside ← mark? .openBrace cs
  let (definitions, rest) ← definitions? inside.length inside
  if (definitions.map Prod.fst).count .proto ≤ 1 then return (definitions, rest) else none

/-! Evaluation. -/

/-- What a definition makes of the properties. A number is no prototype, so setting it to one
does nothing. -/
def define (own : OwnProperties) (definition : Key × Nat) : OwnProperties :=
  if definition.1 = .proto then own else Function.update own definition.1 (some definition.2)

def ownProperties (definitions : List (Key × Nat)) : OwnProperties :=
  definitions.foldl define fun _ => none

/-- The properties of the object for which a literal at the front of a text stands, and what
follows it. -/
def evaluate? (cs : List Char) : Option (OwnProperties × List Char) :=
  (read? cs).map fun found => (ownProperties found.1, found.2)

example : (evaluate? "\x7b\"a\": 1, \"\\u0061\": 2, \x7d;".toList).map
    (fun found => (found.1 (.of "a"), found.2)) = some (some 2, [';']) := by
  decide +kernel

theorem define_proto (own : OwnProperties) (first : Key × Nat) : define own first .proto = own .proto := by
  unfold define
  split_ifs with sets
  · rfl
  · exact Function.update_of_ne (Ne.symm sets) _ _

theorem define_of_ne (other : key ≠ first.1) (own : OwnProperties) :
    define own first key = own key := by
  unfold define
  split_ifs with sets
  · rfl
  · exact Function.update_of_ne other _ _

theorem define_self (defines : first.1 ≠ .proto) (own : OwnProperties) :
    define own first first.1 = some first.2 := by
  rw [define, if_neg defines, Function.update_self]

theorem lookup_eq_none (fresh : key ∉ definitions.map Prod.fst) : definitions.lookup key = none := by
  refine List.lookup_eq_none_iff.mpr fun definition member => bne_iff_ne.mpr ?_
  rintro rfl
  exact fresh (List.mem_map_of_mem member)

theorem foldl_define (once : (definitions.map Prod.fst).Nodup) (own : OwnProperties) (key : Key) :
    definitions.foldl define own key =
      if key = .proto then own key else (definitions.lookup key).or (own key) := by
  induction definitions generalizing own with
  | nil => simp
  | cons first others ih =>
    obtain ⟨fresh, once⟩ := List.nodup_cons.mp once
    rw [List.foldl_cons, ih once]
    split_ifs with sets
    · rw [sets, define_proto]
    · by_cases same : key = first.1
      · -- none of the others could override this definition
        subst same
        rw [define_self sets, lookup_eq_none fresh, lookup_cons_ite, if_pos rfl]
        rfl
      · rw [define_of_ne same, lookup_cons_ite, if_neg same]

/-- Where no key is defined twice, a property is what its definition gives; none is defined for
the prototype. -/
theorem ownProperties_apply (once : (definitions.map Prod.fst).Nodup) (key : Key) :
    ownProperties definitions key = if key = .proto then none else definitions.lookup key := by
  rw [ownProperties, foldl_define once]
  simp

/-! What is read. -/

theorem token_blank : (token (' ' :: cs)).tag = (token cs).tag ∧
    (token (' ' :: cs)).rest = (token cs).rest ∧ lexeme (token (' ' :: cs)) = lexeme (token cs) := by
  have moved : token (' ' :: cs) = Token.scan false false (0 + 1) cs := rfl
  rw [moved]
  simp only [token, Token.scan, lexeme, skip_add, Nat.add_sub_cancel_left, and_self]

theorem mark?_blank (mark : Mark) : mark? mark (' ' :: cs) = mark? mark cs := by
  simp only [mark?, token_blank]

theorem definition?_blank : definition? (' ' :: cs) = definition? cs := by
  have key : key? (' ' :: cs) = key? cs := by
    simp only [key?, token_blank]
  rw [definition?, definition?, key]

theorem definitions?_blank : definitions? limit (' ' :: cs) = definitions? limit cs := by
  cases limit with
  | zero => rfl
  | succ limit => rw [definitions?, definitions?, mark?_blank, definition?_blank]

theorem token_encode (cs rest : List Char) :
    (token (Quoted.encode cs ++ rest)).tag = .string (String.ofList cs) false ∧
      (token (Quoted.encode cs ++ rest)).rest = rest := by
  obtain ⟨width, scanned⟩ := scan_encode cs rest
  have start : Trivia.skip false .space false 0 (Quoted.encode cs ++ rest) =
    ⟨false, 0, Quoted.encode cs ++ rest, true⟩ := rfl
  simp only [token, Token.scan, start, scanned, if_true, and_self]

theorem token_toDigits (n : Nat) (closes : Closes rest) :
    (token (Nat.toDigits 10 n ++ rest)).tag = .number ∧
      (token (Nat.toDigits 10 n ++ rest)).rest = rest ∧
        lexeme (token (Nat.toDigits 10 n ++ rest)) = Nat.toDigits 10 n := by
  have scanned := scan_toDigits n closes
  have start : Trivia.skip false .space false 0 (Nat.toDigits 10 n ++ rest) =
      ⟨false, 0, Nat.toDigits 10 n ++ rest, true⟩ := by
    cases digits : Nat.toDigits 10 n with
    | nil => exact absurd digits Nat.toDigits_ne_nil
    | cons d ds =>
      have digit : d.isDigit = true :=
        isDigit_of_mem_toDigits (n := n) (digits ▸ List.mem_cons_self)
      exact skip_of_isDigit digit false false 0 (ds ++ rest)
  simp only [token, Token.scan, lexeme, start, scanned, if_true, Nat.zero_add, Nat.sub_zero,
    List.take_left, and_self]

theorem decimal?_toDigits (n : Nat) : decimal? (Nat.toDigits 10 n) = some n := by
  have all : (Nat.toDigits 10 n).all Char.isDigit = true :=
    List.all_eq_true.mpr fun _ => isDigit_of_mem_toDigits
  have front : (Nat.toDigits 10 n).head? ≠ some '0' ∨ Nat.toDigits 10 n = ['0'] := by
    rcases Nat.eq_zero_or_pos n with rfl | positive
    · exact .inr rfl
    · exact .inl (head?_toDigits_ne_zero positive)
  rw [decimal?, if_pos ⟨all, front⟩, Nat.ofDigitChars_toDigits (by decide) (by decide)]

theorem definition?_quoted (text : String) (value : Nat) (closes : Closes rest) :
    definition? ((quoted text).toList ++ (':' :: ' ' :: ((toString value).toList ++ rest))) =
      some ((Key.of text, value), rest) := by
  have digits : (toString value).toList = Nat.toDigits 10 value := String.toList_ofList
  obtain ⟨string, afterKey⟩ := token_encode text.toList (':' :: ' ' :: ((toString value).toList ++ rest))
  obtain ⟨number, afterValue, lexeme⟩ := token_toDigits value closes
  have key : key? ((quoted text).toList ++ (':' :: ' ' :: ((toString value).toList ++ rest))) =
      some (Key.of text, ':' :: ' ' :: ((toString value).toList ++ rest)) := by
    rw [quoted, String.toList_ofList, key?, string, afterKey, String.ofList_toList, Key.of]
  have colon : mark? .colon (':' :: ' ' :: ((toString value).toList ++ rest)) =
      some (' ' :: ((toString value).toList ++ rest)) := rfl
  have found : value? (' ' :: ((toString value).toList ++ rest)) = some (value, rest) := by
    simp only [value?, token_blank, digits, number, afterValue, lexeme, decimal?_toDigits, if_true,
      Option.map_some]
  simp only [definition?, key, colon, found, Option.bind_eq_bind, Option.bind_some, Option.pure_def]

theorem closeBrace_of_definition (found : (definition? cs).isSome = true) :
    mark? .closeBrace cs = none := by
  refine if_neg fun closes => ?_
  simp [definition?, key?, closes] at found

theorem definitions?_last (found : definition? cs = some (first, '}' :: rest)) :
    definitions? (limit + 1) cs = some ([first], rest) := by
  have goesOn : mark? .closeBrace cs = none :=
    closeBrace_of_definition (found ▸ rfl)
  have closes : mark? .closeBrace ('}' :: rest) = some rest := rfl
  simp only [definitions?, goesOn, found, closes, Option.bind_eq_bind, Option.bind_some,
    Option.pure_def]

theorem definitions?_next (found : definition? cs = some (first, ',' :: ' ' :: after))
    (others : definitions? limit after = some (definitions, rest)) :
    definitions? (limit + 1) cs = some (first :: definitions, rest) := by
  have goesOn : mark? .closeBrace cs = none :=
    closeBrace_of_definition (found ▸ rfl)
  have more : mark? .closeBrace (',' :: ' ' :: after) = none := rfl
  have comma : mark? .comma (',' :: ' ' :: after) = some (' ' :: after) := rfl
  simp only [definitions?, goesOn, found, more, comma, definitions?_blank, others,
    Option.bind_eq_bind, Option.bind_some, Option.pure_def]

end ObjectLiteral

end ModuleBundle.Script
