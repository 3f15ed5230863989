import Mathlib.Algebra.Group.Nat.Even
import Mathlib.Data.List.DropRight
import ModuleBundle.Proofs.Script.ObjectLiteral

/-!
Quoted texts as string literals. Between its two quotes a quoted text has no quote that is not
escaped, so it ends where its literal ends: with an odd number of backslashes in front, a quote is
one of the text. Whatever follows, the literal and the text that it stands for are read back.
-/

set_option autoImplicit false

namespace ModuleBundle

namespace Quoted

variable {pending : Bool} {cs ds before after : List Char}

def endingBackslashes (cs : List Char) : Nat := (cs.rtakeWhile (· = '\\')).length

/-- Of the backslashes that end a text, each second one is escaped by the one in front of it; a
last one without such a partner escapes what follows. -/
def EscapesNext (cs : List Char) : Prop := Odd (endingBackslashes cs)

/-- A literal in double quotes: `inside` shows no control character, and its quotes are escaped
while the closing one is not. -/
structure Delimits (literal inside : List Char) : Prop where
  framed : literal = '"' :: (inside ++ ['"'])
  visible : ∀ c ∈ inside, 0x20 ≤ c.toNat
  escaped : ∀ before after, inside = before ++ '"' :: after → EscapesNext before
  closed : ¬ EscapesNext inside

/-! Escaping, from the front. -/

def pendingBehind (pending : Bool) (cs : List Char) : Bool :=
  cs.foldl (fun pending c => !pending && c = '\\') pending

theorem pendingBehind_append :
    pendingBehind pending (cs ++ ds) = pendingBehind (pendingBehind pending cs) ds :=
  List.foldl_append

theorem pendingBehind_iff (cs : List Char) : pendingBehind false cs = true ↔ EscapesNext cs := by
  unfold EscapesNext endingBackslashes
  -- over the last character, since it is from there that backslashes are counted
  induction cs using List.reverseRecOn with
  | nil => simp [pendingBehind]
  | append_singleton cs c ih =>
    by_cases backslash : c = '\\'
    · have longer : (cs ++ [c]).rtakeWhile (· = '\\') = cs.rtakeWhile (· = '\\') ++ [c] :=
        List.rtakeWhile_concat_pos _ _ _ (decide_eq_true backslash)
      rw [longer, List.length_append, List.length_singleton, Nat.odd_add_one, ← ih,
        pendingBehind_append]
      simp [pendingBehind, backslash]
    · have ended : (cs ++ [c]).rtakeWhile (· = '\\') = [] :=
        List.rtakeWhile_concat_neg _ _ _ (by simpa using backslash)
      rw [ended, pendingBehind_append]
      simp [pendingBehind, backslash]

def QuotesEscaped (pending : Bool) : List Char → Prop
  | [] => True
  | c :: rest => (c = '"' → pending = true) ∧ QuotesEscaped (!pending && c = '\\') rest

theorem quotesEscaped_append :
    QuotesEscaped pending (cs ++ ds) ↔
      QuotesEscaped pending cs ∧ QuotesEscaped (pendingBehind pending cs) ds := by
  induction cs generalizing pending with
  | nil => simp [QuotesEscaped, pendingBehind]
  | cons c rest ih =>
    rw [List.cons_append, QuotesEscaped, ih, QuotesEscaped, and_assoc]
    rfl

theorem QuotesEscaped.escapesNext (escaped : QuotesEscaped false (before ++ '"' :: after)) :
    EscapesNext before := by
  rw [quotesEscaped_append] at escaped
  exact (pendingBehind_iff before).mp (escaped.2.1 rfl)

/-! What is written. -/

theorem hexDigit_plain {n : Nat} (small : n < 16) : hexDigit n ≠ '"' ∧ hexDigit n ≠ '\\' := by
  decide +revert

theorem pair_balanced (mark : Char) :
    QuotesEscaped false ['\\', mark] ∧ pendingBehind false ['\\', mark] = false := by
  simp [QuotesEscaped, pendingBehind]

/-- What is written for a character has its quotes escaped, and leaves no backslash pending. -/
theorem escape_balanced (c : Char) :
    QuotesEscaped false (escape c) ∧ pendingBehind false (escape c) = false := by
  unfold escape
  split_ifs with quote backslash backspace feed line carriage tab control
  iterate 7 exact pair_balanced _
  -- of the six characters of a numbered escape only the first is a backslash
  · obtain ⟨highQuote, highBackslash⟩ := hexDigit_plain (n := c.toNat / 16) (by omega)
    obtain ⟨lowQuote, lowBackslash⟩ := hexDigit_plain (n := c.toNat % 16) (by omega)
    simp [QuotesEscaped, pendingBehind, highQuote, highBackslash, lowQuote, lowBackslash]
  · simp [QuotesEscaped, pendingBehind, quote, backslash]

theorem flatMap_escape_balanced (cs : List Char) :
    QuotesEscaped false (cs.flatMap escape) ∧ pendingBehind false (cs.flatMap escape) = false := by
  induction cs with
  | nil => exact ⟨trivial, rfl⟩
  | cons c rest ih =>
    obtain ⟨here, balanced⟩ := escape_balanced c
    rw [List.flatMap_cons, quotesEscaped_append, pendingBehind_append, balanced]
    exact ⟨⟨here, ih.1⟩, ih.2⟩

theorem encode_delimits (cs : List Char) : Delimits (encode cs) (cs.flatMap escape) := by
  obtain ⟨escaped, balanced⟩ := flatMap_escape_balanced cs
  constructor
  · rfl
  · intro c member
    have written : c ∈ encode cs := List.mem_cons_of_mem _ (List.mem_append_left _ member)
    exact le_of_mem_encode written
  · intro before after split
    rw [split] at escaped
    exact escaped.escapesNext
  · intro escapes
    rw [← pendingBehind_iff, balanced] at escapes
    cases escapes

end Quoted

open Script.ObjectLiteral (token)

/-- A quoted text is a literal between two quotes with no other quote in it that is not escaped,
and no control character. Undoing the escapes gives the text back and leaves what follows, as does
the scanner of scripts; so two texts are the same if literals of theirs begin the same text. -/
theorem quoted_selfDelimiting (text : String) :
    (∃ inside, Quoted.Delimits (quoted text).toList inside) ∧
    (∀ rest, Quoted.read ((quoted text).toList ++ rest) = some (text.toList, rest)) ∧
    (∀ rest, (token ((quoted text).toList ++ rest)).tag = .string text false ∧
      (token ((quoted text).toList ++ rest)).rest = rest) ∧
    ∀ other x y : String, quoted text ++ x = quoted other ++ y → text = other ∧ x = y := by
  have written (text : String) : (quoted text).toList = Quoted.encode text.toList :=
    String.toList_ofList
  refine ⟨?_, fun rest => ?_, fun rest => ?_, fun other x y same => ?_⟩
  · rw [written]
    exact ⟨_, Quoted.encode_delimits text.toList⟩
  · rw [written]
    exact Quoted.read_encode text.toList rest
  · have scanned := Script.ObjectLiteral.token_encode text.toList rest
    rwa [← written, String.ofList_toList] at scanned
  · have texts := congrArg String.toList same
    rw [String.toList_append, String.toList_append, written, written] at texts
    obtain ⟨first, second⟩ := Quoted.encode_append_inj texts
    exact ⟨String.toList_inj.mp first, String.toList_inj.mp second⟩

def trickyText : String := "\"\\\"\x01\n😀\\\\"

theorem trickyText_selfDelimiting :
    quoted trickyText = "\"\\\"\\\\\\\"\\u0001\\n😀\\\\\\\\\"" ∧
      quoted trickyText ++ "\"x" = quoted ("\"\\\"\x01\n" ++ "😀\\\\") ++ "\"x" ∧
      trickyText = "\"\\\"\x01\n" ++ "😀\\\\" ∧ "\"x" = "\"x" :=
  have same : quoted trickyText ++ "\"x" = quoted ("\"\\\"\x01\n" ++ "😀\\\\") ++ "\"x" := by
    decide +kernel
  ⟨by decide +kernel, same, (quoted_selfDelimiting trickyText).2.2.2 _ _ _ same⟩

end ModuleBundle
