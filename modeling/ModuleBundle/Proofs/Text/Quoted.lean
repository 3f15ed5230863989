import Mathlib.Tactic.SplitIfs
import Std.Data.String.ToNat
import ModuleBundle.Text.Quoted

/-!
Texts that show where they end. A quoted text is read back from its front, whatever follows
it, and so are a number and a line: none of them is the start of a longer one.
-/

set_option autoImplicit false

namespace ModuleBundle

/-- Where two texts that hold only certain items go on with none or another item, they end
together. -/
theorem append_inj_of_stops {α : Type} {p : α → Prop} {first second x y : List α}
    (inFirst : ∀ c ∈ first, p c) (inSecond : ∀ c ∈ second, p c) (afterFirst : ∀ c ∈ x.head?, ¬ p c)
    (afterSecond : ∀ c ∈ y.head?, ¬ p c) (same : first ++ x = second ++ y) :
    first = second ∧ x = y := by
  -- on the first text: where one of the two ends, the other has to end as well
  induction first generalizing second with
  | nil =>
    cases second with
    | nil => exact ⟨rfl, same⟩
    | cons c rest =>
      obtain rfl : x = c :: (rest ++ y) := same
      exact absurd (inSecond c List.mem_cons_self) (afterFirst c rfl)
  | cons c rest ih =>
    cases second with
    | nil =>
      obtain rfl : c :: (rest ++ x) = y := same
      exact absurd (inFirst c List.mem_cons_self) (afterSecond c rfl)
    | cons d others =>
      obtain ⟨rfl, tails⟩ := List.cons.inj same
      obtain ⟨rfl, rest⟩ := ih (fun c member => inFirst c (List.mem_cons_of_mem _ member))
        (fun c member => inSecond c (List.mem_cons_of_mem _ member)) tails
      exact ⟨rfl, rest⟩

theorem isDigit_of_mem_toString {n : Nat} {c : Char} (member : c ∈ (toString n).toList) :
    c.isDigit = true := by
  have digits : (toString n).toList = Nat.toDigits 10 n := String.toList_ofList
  exact Nat.isDigit_of_mem_toDigits (by decide) (by decide) (digits ▸ member)

theorem toString_append_inj {m n : Nat} {x y : List Char}
    (afterFirst : ∀ c ∈ x.head?, ¬ c.isDigit = true)
    (afterSecond : ∀ c ∈ y.head?, ¬ c.isDigit = true)
    (same : (toString m).toList ++ x = (toString n).toList ++ y) : m = n ∧ x = y := by
  obtain ⟨digits, rest⟩ := append_inj_of_stops (fun _ => isDigit_of_mem_toString)
    (fun _ => isDigit_of_mem_toString) afterFirst afterSecond same
  exact ⟨Nat.repr_inj.mp (String.toList_inj.mp digits), rest⟩

namespace Quoted

/-! Reading. -/

def hexValue? (c : Char) : Option Nat :=
  if '0' ≤ c ∧ c ≤ '9' then some (c.toNat - '0'.toNat)
  else if 'a' ≤ c ∧ c ≤ 'f' then some (c.toNat - 'a'.toNat + 10)
  else if 'A' ≤ c ∧ c ≤ 'F' then some (c.toNat - 'A'.toNat + 10)
  else none

def numbered? (digits : List Char) : Option Char :=
  (digits.mapM hexValue?).map fun values =>
    Char.ofNat (values.foldl (fun number value => number * 16 + value) 0)

def escaped? : Char → Option Char
  | '"' => some '"'
  | '\\' => some '\\'
  | '/' => some '/'
  | 'b' => some '\x08'
  | 'f' => some '\x0c'
  | 'n' => some '\n'
  | 'r' => some '\r'
  | 't' => some '\t'
  | _ => none

def prepend (first : Char) (found : List Char × List Char) : List Char × List Char :=
  (first :: found.1, found.2)

def readRest : List Char → Option (List Char × List Char)
  | [] => none
  | '"' :: after => some ([], after)
  | '\\' :: 'u' :: a :: b :: c :: d :: rest =>
    (numbered? [a, b, c, d]).bind fun first => (readRest rest).map (prepend first)
  | '\\' :: mark :: rest => (escaped? mark).bind fun first => (readRest rest).map (prepend first)
  | first :: rest =>
    if first = '\\' ∨ first.toNat < 0x20 then none else (readRest rest).map (prepend first)

/-- Reads a quoted text from the front of a text: what it stands for, and what follows. -/
def read : List Char → Option (List Char × List Char)
  | '"' :: rest => readRest rest
  | _ => none

theorem hexValue?_hexDigit {n : Nat} (small : n < 16) : hexValue? (hexDigit n) = some n := by
  decide +revert

theorem numbered?_hexDigit {c : Char} (control : c.toNat < 0x20) :
    numbered? ['0', '0', hexDigit (c.toNat / 16), hexDigit (c.toNat % 16)] = some c := by
  have high := hexValue?_hexDigit (n := c.toNat / 16) (by omega)
  have low := hexValue?_hexDigit (n := c.toNat % 16) (by omega)
  have zero : hexValue? '0' = some 0 := rfl
  have number : (c.toNat / 16) * 16 + c.toNat % 16 = c.toNat := by omega
  simp [numbered?, high, low, zero, number]

theorem readRest_escape (c : Char) (rest : List Char) :
    readRest (escape c ++ rest) = (readRest rest).map (prepend c) := by
  unfold escape
  split_ifs with quote backslash backspace feed line carriage tab control
  · subst quote
    rfl
  · subst backslash
    rfl
  · subst backspace
    rfl
  · subst feed
    rfl
  · subst line
    rfl
  · subst carriage
    rfl
  · subst tab
    rfl
  · change (numbered? _).bind _ = _
    rw [numbered?_hexDigit control]
    rfl
  · simp [readRest, backslash, control]

theorem read_encode (cs rest : List Char) : read (encode cs ++ rest) = some (cs, rest) := by
  change readRest (cs.flatMap escape ++ ['"'] ++ rest) = _
  induction cs with
  | nil => rfl
  | cons c cs ih =>
    rw [List.flatMap_cons, List.append_assoc, List.append_assoc, readRest_escape,
      ← List.append_assoc, ih]
    rfl

theorem encode_append_inj {cs ds x y : List Char} (same : encode cs ++ x = encode ds ++ y) :
    cs = ds ∧ x = y := by
  have first := read_encode cs x
  rw [same, read_encode] at first
  obtain ⟨texts, rests⟩ := Prod.mk.inj (Option.some.inj first)
  exact ⟨texts.symm, rests.symm⟩

theorem le_of_mem_escape {c d : Char} (member : d ∈ escape c) : 0x20 ≤ d.toNat := by
  unfold escape at member
  split_ifs at member with quote backslash backspace feed line carriage tab control
  all_goals try (revert d; simp; done)
  · have visible : ∀ n < 16, 0x20 ≤ (hexDigit n).toNat := by decide
    have high := visible (c.toNat / 16) (by omega)
    have low := visible (c.toNat % 16) (by omega)
    simp only [List.mem_cons, List.not_mem_nil, or_false] at member
    rcases member with rfl | rfl | rfl | rfl | rfl | rfl
    all_goals first | assumption | decide
  · obtain rfl := List.mem_singleton.mp member
    omega

theorem le_of_mem_encode {cs : List Char} {c : Char} (member : c ∈ encode cs) : 0x20 ≤ c.toNat := by
  rcases List.mem_cons.mp member with rfl | member
  · decide
  · rcases List.mem_append.mp member with inside | last
    · obtain ⟨d, _, written⟩ := List.mem_flatMap.mp inside
      exact le_of_mem_escape written
    · rw [List.mem_singleton.mp last]
      decide

end Quoted

end ModuleBundle
