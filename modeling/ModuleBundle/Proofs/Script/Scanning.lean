import Mathlib.Tactic.IntervalCases
import ModuleBundle.Proofs.Text.Quoted
import ModuleBundle.Script.Token

/-!
Scanning what was written. A quoted text is a string token whose value is the text, and a number
in front of a comma or a brace is a number token of all its digits, whatever follows.
-/

set_option autoImplicit false

namespace ModuleBundle.Script

/-! Strings. -/

theorem hexValue_hexDigit {n : Nat} (small : n < 16) : hexValue (Quoted.hexDigit n) = some n := by
  decide +revert

theorem stringTail_escape (c : Char) (value : List Letter) (width : Nat) (rest : List Char) :
    stringTail '"' 0 value width (Quoted.escape c ++ rest) =
      stringTail '"' 0 (.whole c :: value) (width + (Quoted.escape c).length) rest := by
  unfold Quoted.escape
  split_ifs with quote backslash backspace feed line carriage tab control
  · subst quote
    rfl
  · subst backslash
    rfl
  · subst backspace
    rfl
  · subst feed
    rfl
  · subst line
    rfl
  · subst carriage
    rfl
  · subst tab
    rfl
  · -- a control character is written as its number, and no such number is half a pair
    have high := hexValue_hexDigit (n := c.toNat / 16) (by omega)
    have low := hexValue_hexDigit (n := c.toNat % 16) (by omega)
    have zero : hexValue '0' = some 0 := rfl
    have number : (c.toNat / 16) * 16 + c.toNat % 16 = c.toNat := by omega
    have digits : hexDigits 4 0 ('0' :: '0' :: Quoted.hexDigit (c.toNat / 16) ::
        Quoted.hexDigit (c.toNat % 16) :: rest) = some c.toNat := by
      simp [hexDigits, zero, high, low, number]
    have escape : stringEscape ('u' :: '0' :: '0' :: Quoted.hexDigit (c.toNat / 16) ::
        Quoted.hexDigit (c.toNat % 16) :: rest) = some ([.whole c], 5) := by
      have plain : ¬ (0xd800 ≤ c.toNat ∧ c.toNat < 0xe000) := by omega
      simp [stringEscape, digits, plain]
    simp [stringTail, escape]
  · simp [stringTail, quote, backslash, line, carriage]

theorem stringTail_encode (cs : List Char) (value : List Letter) (width : Nat) (rest : List Char) :
    stringTail '"' 0 value width (cs.flatMap Quoted.escape ++ '"' :: rest) =
      some ((cs.map Letter.whole).reverse ++ value,
        width + (cs.flatMap Quoted.escape).length + 1, rest) := by
  induction cs generalizing value width with
  | nil => rfl
  | cons c cs ih =>
    rw [List.flatMap_cons, List.append_assoc, stringTail_escape, ih]
    simp [Nat.add_assoc]

theorem textOf_whole (cs : List Char) : Letter.textOf (cs.map .whole) = String.ofList cs := by
  have whole : (cs.map Letter.whole).any Letter.isHalf = false := by
    simp [Letter.isHalf]
  unfold Letter.textOf
  rw [whole]
  simp [List.flatMap_map]

theorem scan_encode (cs rest : List Char) :
    ∃ width, Tag.scan (Quoted.encode cs ++ rest) =
      (.string (String.ofList cs) false, width, rest) := by
  have tail := stringTail_encode cs [] 1 rest
  have halves : (cs.map Letter.whole).reverse.any Letter.isHalf = false := by
    simp [Letter.isHalf]
  refine ⟨1 + (cs.flatMap Quoted.escape).length + 1, ?_⟩
  have opened : Quoted.encode cs ++ rest = '"' :: (cs.flatMap Quoted.escape ++ '"' :: rest) := by
    simp [Quoted.encode]
  rw [opened, Tag.scan, if_pos (.inl rfl), tail]
  simp only [List.append_nil, List.reverse_reverse, textOf_whole, halves]

/-! Numbers. -/

def Closes (rest : List Char) : Prop := ∃ c after, rest = c :: after ∧ (c = ',' ∨ c = '}')

theorem digitRun_append {digits rest : List Char} (all : ∀ c ∈ digits, c.isDigit = true)
    (closes : Closes rest) (after : Bool) :
    digitRun Char.isDigit after (digits ++ rest) = some digits.length := by
  induction digits generalizing after with
  | nil =>
    obtain ⟨c, rest, rfl, rfl | rfl⟩ := closes <;> rfl
  | cons c digits ih =>
    obtain ⟨digit, others⟩ := List.forall_mem_cons.mp all
    have other : c ≠ '_' := by
      rintro rfl
      cases digit
    simp [digitRun, digit, ih others]

theorem decimalWidth_append {digits rest : List Char} (all : ∀ c ∈ digits, c.isDigit = true)
    (closes : Closes rest) : decimalWidth (digits ++ rest) = some digits.length := by
  unfold decimalWidth
  rw [digitRun_append all closes false]
  obtain ⟨c, after, rfl, rfl | rfl⟩ := closes <;> simp [fractionWidth, exponentWidth]

theorem head?_toDigits_ne_zero {n : Nat} (positive : 0 < n) : (Nat.toDigits 10 n).head? ≠ some '0' := by
  induction n using Nat.strongRecOn with
  | ind n ih =>
    by_cases small : n < 10
    · rw [Nat.toDigits_of_lt_base small]
      have single : ∀ n < 10, 0 < n → [Nat.digitChar n].head? ≠ some '0' := by decide
      exact single n small positive
    · have front := ih (n / 10) (by omega) (by omega)
      rw [Nat.toDigits_of_base_le (by decide) (by omega)]
      cases digits : Nat.toDigits 10 (n / 10) with
      | nil => simp at digits
      | cons d ds => rwa [digits] at front

theorem numberWidth_of_ne_zero {d : Char} {digits rest : List Char}
    (all : ∀ c ∈ d :: digits, c.isDigit = true) (nonzero : d ≠ '0') (closes : Closes rest) :
    numberWidth (d :: digits ++ rest) = some (d :: digits).length := by
  have width := decimalWidth_append all closes
  have noPoint : d ≠ '.' := by
    rintro rfl
    cases all '.' List.mem_cons_self
  have left : (d :: (digits ++ rest)).drop (d :: digits).length = rest := List.drop_left
  unfold numberWidth
  rw [List.cons_append] at width ⊢
  -- a zero in front could have been a radix or an octal number, a point only a fraction
  split
  · rename_i c after same
    exact absurd (List.cons.inj same).1 nonzero
  · rename_i after same
    exact absurd (List.cons.inj same).1 noPoint
  · simp only [width, Option.bind_eq_bind, Option.bind_some, left]
    obtain ⟨c, after, rfl, rfl | rfl⟩ := closes <;> rfl

theorem isDigit_of_mem_toDigits {n : Nat} {c : Char} (member : c ∈ Nat.toDigits 10 n) :
    c.isDigit = true :=
  Nat.isDigit_of_mem_toDigits (by decide) (by decide) member

theorem numberWidth_toDigits (n : Nat) {rest : List Char} (closes : Closes rest) :
    numberWidth (Nat.toDigits 10 n ++ rest) = some (Nat.toDigits 10 n).length := by
  have all : ∀ c ∈ Nat.toDigits 10 n, c.isDigit = true := fun _ => isDigit_of_mem_toDigits
  rcases Nat.eq_zero_or_pos n with rfl | positive
  · obtain ⟨c, after, rfl, rfl | rfl⟩ := closes <;> rfl
  · have front := head?_toDigits_ne_zero positive
    cases digits : Nat.toDigits 10 n with
    | nil => exact absurd digits Nat.toDigits_ne_nil
    | cons d ds =>
      rw [digits] at all front
      exact numberWidth_of_ne_zero all (fun zero => front (congrArg some zero)) closes

theorem scan_toDigits (n : Nat) {rest : List Char} (closes : Closes rest) :
    Tag.scan (Nat.toDigits 10 n ++ rest) = (.number, (Nat.toDigits 10 n).length, rest) := by
  have width := numberWidth_toDigits n closes
  have left : (Nat.toDigits 10 n ++ rest).drop (Nat.toDigits 10 n).length = rest := List.drop_left
  have all : ∀ c ∈ Nat.toDigits 10 n, c.isDigit = true := fun _ => isDigit_of_mem_toDigits
  cases digits : Nat.toDigits 10 n with
  | nil => exact absurd digits Nat.toDigits_ne_nil
  | cons d ds =>
    rw [digits] at width left all
    have digit := all d List.mem_cons_self
    have noQuote : ¬ (d = '"' ∨ d = '\'') := by
      rintro (rfl | rfl) <;> cases digit
    have noHash : d ≠ '#' := by
      rintro rfl
      cases digit
    rw [List.cons_append] at width left ⊢
    rw [Tag.scan, if_neg noQuote, if_neg noHash, if_pos (.inl digit), width]
    simp only [left]

/-! Tokens. -/

theorem skip_of_isDigit {c : Char} (digit : c.isDigit = true) (html newline : Bool) (offset : Nat)
    (cs : List Char) :
    Trivia.skip html .space newline offset (c :: cs) = ⟨newline, offset, c :: cs, true⟩ := by
  -- the clauses for comments and blanks go by single characters, so each digit is a case
  obtain ⟨low, high⟩ := Char.isDigit_iff_toNat.mp digit
  rw [← Char.ofNat_toNat c]
  generalize c.toNat = code at low high
  change 48 ≤ code at low
  change code ≤ 57 at high
  interval_cases code <;> rfl

theorem skip_add (html : Bool) (gap : Gap) (newline : Bool) (offset more : Nat) (cs : List Char) :
    Trivia.skip html gap newline (offset + more) cs =
      { Trivia.skip html gap newline offset cs with
        offset := (Trivia.skip html gap newline offset cs).offset + more } := by
  fun_induction Trivia.skip html gap newline offset cs <;>
    simp_all [Trivia.skip, Nat.add_right_comm]

end ModuleBundle.Script
