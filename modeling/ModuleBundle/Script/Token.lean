import ModuleBundle.Script.Letters

/-!
Tokens of a script and the scanners that cut them off the front of the text. A scanner
reads a list of characters and answers how many it takes; positions are counted in
characters. Which scanner applies where an operator and an expression look alike
(a slash, a template's middle, the inside of an element) is left to the grammar.
-/

set_option autoImplicit false

namespace ModuleBundle.Script

/-- Punctuators, told apart as far as the grammar does. -/
inductive Mark where
  | openBrace | closeBrace | openParen | closeParen | openBracket | closeBracket
  | semicolon | comma | dot | ellipsis | question | optionalDot | colon | arrow
  | atSign | backtick | bang | tilde | plusPlus | minusMinus
  | assign | slashAssign | compoundAssign
  | coalesce | or | and | bitOr | bitXor | bitAnd | equality
  | less | greater | lessEqual | greaterEqual | shift
  | plus | minus | star | slash | percent | power
  deriving DecidableEq, Repr

/-- Longer spellings stand before their beginnings. -/
def Mark.spellings : List (List Char × Mark) :=
  [(">>>=", .compoundAssign),
   ("...", .ellipsis), ("===", .equality), ("!==", .equality), ("**=", .compoundAssign),
   ("<<=", .compoundAssign), (">>=", .compoundAssign), (">>>", .shift),
   ("&&=", .compoundAssign), ("||=", .compoundAssign), ("??=", .compoundAssign),
   ("=>", .arrow), ("==", .equality), ("!=", .equality), ("<=", .lessEqual),
   (">=", .greaterEqual), ("&&", .and), ("||", .or), ("??", .coalesce),
   ("++", .plusPlus), ("--", .minusMinus), ("+=", .compoundAssign), ("-=", .compoundAssign),
   ("*=", .compoundAssign), ("/=", .slashAssign), ("%=", .compoundAssign),
   ("&=", .compoundAssign), ("|=", .compoundAssign), ("^=", .compoundAssign),
   ("<<", .shift), (">>", .shift), ("**", .power),
   ("\x7b", .openBrace), ("\x7d", .closeBrace), ("(", .openParen), (")", .closeParen),
   ("[", .openBracket), ("]", .closeBracket), (";", .semicolon), (",", .comma),
   ("<", .less), (">", .greater), ("+", .plus), ("-", .minus), ("*", .star),
   ("/", .slash), ("%", .percent), ("&", .bitAnd), ("|", .bitOr), ("^", .bitXor),
   ("!", .bang), ("~", .tilde), ("?", .question), (":", .colon), ("=", .assign),
   (".", .dot), ("@", .atSign), ("`", .backtick)].map fun entry => (entry.1.toList, entry.2)

/-- A question mark and a dot are one punctuator unless a digit follows. -/
def Mark.scan? (cs : List Char) : Option (Mark × Nat) :=
  match cs with
  | '?' :: '.' :: c :: _ => if c.isDigit then some (.question, 1) else some (.optionalDot, 2)
  | ['?', '.'] => some (.optionalDot, 2)
  | _ =>
    (spellings.find? fun entry => entry.1.isPrefixOf cs).map fun entry =>
      (entry.2, entry.1.length)

inductive Tag where
  | word (text : String) (escaped : Bool)
  | privateName (text : String)
  | number
  /-- A string by its value's text, which may stand for halves of surrogate pairs. -/
  | string (value : String) (hasHalf : Bool)
  | mark (value : Mark)
  | finish
  /-- No token starts here. -/
  | invalid
  deriving DecidableEq, Repr

structure Token where
  tag : Tag
  start : Nat
  stop : Nat
  /-- A line ends between the token before and this one. -/
  newline : Bool
  /-- The text from the token's first character on. -/
  source : List Char
  /-- The text after the token. -/
  rest : List Char

def hexValue (c : Char) : Option Nat :=
  if c.isDigit then some (c.toNat - '0'.toNat)
  else if 'a' ≤ c ∧ c ≤ 'f' then some (c.toNat - 'a'.toNat + 10)
  else if 'A' ≤ c ∧ c ≤ 'F' then some (c.toNat - 'A'.toNat + 10)
  else none

def hexDigits : Nat → Nat → List Char → Option Nat
  | 0, value, _ => some value
  | _ + 1, _, [] => none
  | count + 1, value, c :: rest => do
    let digit ← hexValue c
    hexDigits count (value * 16 + digit) rest

def bracedHex : Nat → Nat → List Char → Option (Nat × Nat)
  | _, _, [] => none
  | value, width, c :: rest =>
    if c = '}' then
      if width = 0 then none else some (value, width + 1)
    else do
      let digit ← hexValue c
      let value := value * 16 + digit
      if value > 0x10ffff then none else bracedHex value (width + 1) rest

def unicodeEscape : List Char → Option (Nat × Nat)
  | '{' :: rest => (bracedHex 0 0 rest).map fun found => (found.1, found.2 + 1)
  | cs => (hexDigits 4 0 cs).map fun value => (value, 4)

structure Word where
  text : List Char
  escaped : Bool
  width : Nat
  rest : List Char

def Word.push (c : Char) (escaped : Bool) (word : Word) : Word :=
  { word with text := c :: word.text, escaped := escaped || word.escaped, width := word.width + 1 }

/-- The rest of an identifier; `pending` characters still belong to an escape. -/
def Word.tail? : Nat → List Char → Option Word
  | _, [] => some ⟨[], false, 0, []⟩
  | pending + 1, _ :: cs => (tail? pending cs).map fun word => { word with width := word.width + 1 }
  | 0, c :: cs =>
    if c = '\\' then
      match cs with
      | 'u' :: digits => do
        let (code, width) ← unicodeEscape digits
        let letter := Char.ofNat code
        if isIdentifierPart letter then (tail? (width + 1) cs).map (push letter true) else none
      | _ => none
    else if isIdentifierPart c then (tail? 0 cs).map (push c false)
    else some ⟨[], false, 0, c :: cs⟩

def Word.scan? (cs : List Char) : Option Word := do
  let word ← tail? 0 cs
  match word.text with
  | [] => none
  | first :: _ => if isIdentifierStart first then some word else none

def octalEscape : List Char → Nat × Nat
  | a :: b :: c :: _ =>
    if isOctal b then
      if isOctal c ∧ a ≤ '3' then ((digit a * 8 + digit b) * 8 + digit c, 3)
      else (digit a * 8 + digit b, 2)
    else (digit a, 1)
  | [a, b] => if isOctal b then (digit a * 8 + digit b, 2) else (digit a, 1)
  | [a] => (digit a, 1)
  | [] => (0, 0)
where
  digit (c : Char) : Nat := c.toNat - '0'.toNat
  isOctal (c : Char) : Bool := '0' ≤ c && c ≤ '7'

/-- A unit of a string's value: a character, or half a surrogate pair without the other. -/
inductive Letter where
  | whole (char : Char)
  | half (code : Nat)
  deriving DecidableEq, Repr

namespace Letter

def isHalf : Letter → Bool
  | half _ => true
  | whole _ => false

def replaced (code : Nat) : List Char :=
  '\ufffd' :: [code / 4096 % 16, code / 256 % 16, code / 16 % 16, code % 16].map Nat.digitChar

/-- The text of a value. No character is half a pair, so each half is written as the
replacement character and its code; where there is one, the value's own replacement
characters are written so too. -/
def textOf (letters : List Letter) : String :=
  let halves := letters.any isHalf
  String.ofList <| letters.flatMap fun
    | whole c => if halves && c = '\ufffd' then replaced c.toNat else [c]
    | half code => replaced code

end Letter

/-- What an escape of half a pair with the code `code` stands for before `cs`, and how many
of `cs` belong to it: one character with the escape after it, if that is the other half. -/
def surrogateEscape (code : Nat) (cs : List Char) : Option (Letter × Nat) :=
  if 0xdc00 ≤ code then some (.half code, 0)
  else
    match cs with
    | '\\' :: 'u' :: more => do
      let low ← hexDigits 4 0 more
      if 0xdc00 ≤ low ∧ low < 0xe000 then
        some (.whole (Char.ofNat (0x10000 + (code - 0xd800) * 0x400 + (low - 0xdc00))), 6)
      else some (.half code, 0)
    | _ => some (.half code, 0)

def stringEscape : List Char → Option (List Letter × Nat)
  | [] => none
  | 'n' :: _ => some ([.whole '\n'], 1)
  | 't' :: _ => some ([.whole '\t'], 1)
  | 'r' :: _ => some ([.whole '\r'], 1)
  | 'b' :: _ => some ([.whole '\x08'], 1)
  | 'v' :: _ => some ([.whole '\x0b'], 1)
  | 'f' :: _ => some ([.whole '\x0c'], 1)
  | 'x' :: cs => (hexDigits 2 0 cs).map fun value => ([.whole (Char.ofNat value)], 3)
  | 'u' :: '{' :: cs => do
    let (code, width) ← unicodeEscape ('{' :: cs)
    if 0xd800 ≤ code ∧ code < 0xe000 then some ([.half code], width + 1)
    else some ([.whole (Char.ofNat code)], width + 1)
  | 'u' :: cs => do
    let code ← hexDigits 4 0 cs
    if 0xd800 ≤ code ∧ code < 0xe000 then
      let (letter, width) ← surrogateEscape code (cs.drop 4)
      some ([letter], width + 5)
    else some ([.whole (Char.ofNat code)], 5)
  | '\r' :: '\n' :: _ => some ([], 2)
  | c :: cs =>
    if isLineTerminator c then some ([], 1)
    else if '0' ≤ c ∧ c ≤ '7' then
      let (value, width) := octalEscape (c :: cs)
      some ([.whole (Char.ofNat value)], width)
    else some ([.whole c], 1)

/-- The rest of a string literal after its opening quote: its value, reversed onto
`value`, its width and the text after the closing quote. -/
def stringTail (quote : Char) :
    Nat → List Letter → Nat → List Char → Option (List Letter × Nat × List Char)
  | _, _, _, [] => none
  | pending + 1, value, width, _ :: cs => stringTail quote pending value (width + 1) cs
  | 0, value, width, c :: cs =>
    if c = quote then some (value, width + 1, cs)
    else if c = '\\' then
      match stringEscape cs with
      | some (letters, taken) => stringTail quote taken (letters ++ value) (width + 1) cs
      | none => none
    else if c = '\n' ∨ c = '\r' then none
    else stringTail quote 0 (.whole c :: value) (width + 1) cs

def templateEscape : List Char → Bool
  | 'u' :: cs => (unicodeEscape cs).isSome
  | 'x' :: cs => (hexDigits 2 0 cs).isSome
  | '0' :: c :: _ => !c.isDigit
  | '0' :: [] => true
  | c :: _ => !c.isDigit
  | [] => true

structure Chunk where
  closed : Bool
  /-- All its escapes are well formed. -/
  cooked : Bool
  width : Nat
  rest : List Char

def Chunk.scan? : Bool → Bool → Nat → List Char → Option Chunk
  | _, _, _, [] => none
  | true, cooked, width, _ :: cs => scan? false cooked (width + 1) cs
  | false, cooked, width, c :: cs =>
    if c = '`' then some ⟨true, cooked, width + 1, cs⟩
    else if c = '\\' then scan? true (cooked && templateEscape cs) (width + 1) cs
    else
      match c, cs with
      | '$', '{' :: rest => some ⟨false, cooked, width + 2, rest⟩
      | _, _ => scan? false cooked (width + 1) cs

/-- The body of a regular expression after its opening slash, with the closing one. A
slash inside a class or after a backslash does not close it. -/
def regexBody : Bool → Bool → Nat → List Char → Option (Nat × List Char)
  | _, _, _, [] => none
  | escaped, inClass, width, c :: cs =>
    if isLineTerminator c then none
    else if escaped then regexBody false inClass (width + 1) cs
    else if c = '\\' then regexBody true inClass (width + 1) cs
    else if c = '[' then regexBody false true (width + 1) cs
    else if c = ']' then regexBody false false (width + 1) cs
    else if c = '/' ∧ inClass = false then some (width + 1, cs)
    else regexBody false inClass (width + 1) cs

def regexFlags : List Char → List Char → Nat → Option (Nat × List Char)
  | _, [], width => some (width, [])
  | seen, c :: cs, width =>
    if c.isAlphanum ∨ c = '$' ∨ c = '_' then
      if c ∈ ['d', 'g', 'i', 'm', 's', 'u', 'v', 'y'] ∧ c ∉ seen ∧
          !(c = 'u' ∧ 'v' ∈ seen) ∧ !(c = 'v' ∧ 'u' ∈ seen) then
        regexFlags (c :: seen) cs (width + 1)
      else none
    else some (width, c :: cs)

def regexTail (cs : List Char) : Option (Nat × List Char) := do
  let (width, cs) ← regexBody false false 0 cs
  regexFlags [] cs width

def digitRun (isDigit : Char → Bool) : Bool → List Char → Option Nat
  | _, [] => some 0
  | after, '_' :: cs =>
    match after, cs with
    | true, c :: _ => if isDigit c then (digitRun isDigit false cs).map (· + 1) else none
    | _, _ => none
  | _, c :: cs => if isDigit c then (digitRun isDigit true cs).map (· + 1) else some 0

def digitRunPos (isDigit : Char → Bool) (cs : List Char) : Option Nat := do
  let width ← digitRun isDigit false cs
  if width = 0 then none else some width

def exponentWidth : List Char → Option Nat
  | c :: cs =>
    if c = 'e' ∨ c = 'E' then
      match cs with
      | '+' :: digits => (digitRunPos Char.isDigit digits).map (· + 2)
      | '-' :: digits => (digitRunPos Char.isDigit digits).map (· + 2)
      | digits => (digitRunPos Char.isDigit digits).map (· + 1)
    else some 0
  | [] => some 0

def fractionWidth : List Char → Option Nat
  | '.' :: cs => do
    let digits ←
      match cs with
      | c :: _ => if c.isDigit then digitRun Char.isDigit false cs else some 0
      | [] => some 0
    let exponent ← exponentWidth (cs.drop digits)
    some (1 + digits + exponent)
  | cs => exponentWidth cs

def radixWidth (isDigit : Char → Bool) (cs : List Char) : Option Nat := do
  let width ← digitRunPos isDigit cs
  match cs.drop width with
  | 'n' :: _ => some (width + 3)
  | _ => some (width + 2)

/-- A leading zero before digits makes the literal octal if it can be; only one that
cannot be has a fraction or an exponent. -/
def leadingZeroWidth (cs : List Char) : Option Nat := do
  let digits := cs.takeWhile Char.isDigit
  if digits.all fun c => c < '8' then some digits.length
  else
    let fraction ← fractionWidth (cs.drop digits.length)
    some (digits.length + fraction)

def decimalWidth (cs : List Char) : Option Nat := do
  let width ← digitRun Char.isDigit false cs
  match cs.drop width with
  | 'n' :: _ => some (width + 1)
  | rest => do
    let fraction ← fractionWidth rest
    some (width + fraction)

def numberWidth (cs : List Char) : Option Nat := do
  let width ←
    match cs with
    | '0' :: c :: rest =>
      if c = 'x' ∨ c = 'X' then radixWidth (fun d => (hexValue d).isSome) rest
      else if c = 'o' ∨ c = 'O' then radixWidth (fun d => '0' ≤ d && d ≤ '7') rest
      else if c = 'b' ∨ c = 'B' then radixWidth (fun d => d = '0' || d = '1') rest
      else if c.isDigit then leadingZeroWidth cs
      else if c = '_' then none
      else decimalWidth cs
    | '.' :: _ => fractionWidth cs
    | _ => decimalWidth cs
  match cs.drop width with
  | c :: _ => if c.isDigit ∨ isIdentifierStart c then none else some width
  | [] => some width

inductive Gap where
  | space | line | block
  deriving DecidableEq

structure Trivia where
  newline : Bool
  offset : Nat
  rest : List Char
  /-- No comment is left open. -/
  closed : Bool

/-- Skips blanks and comments. With `html` set, `<!--` starts a line comment, and so
does `-->` where only blanks and comments stand before it on its line. -/
def Trivia.skip (html : Bool) : Gap → Bool → Nat → List Char → Trivia
  | .block, newline, offset, [] => ⟨newline, offset, [], false⟩
  | _, newline, offset, [] => ⟨newline, offset, [], true⟩
  | .line, newline, offset, c :: cs =>
    if isLineTerminator c then skip html .space true (offset + 1) cs
    else skip html .line newline (offset + 1) cs
  | .block, newline, offset, '*' :: '/' :: cs => skip html .space newline (offset + 2) cs
  | .block, newline, offset, c :: cs =>
    skip html .block (newline || isLineTerminator c) (offset + 1) cs
  | .space, newline, offset, '/' :: '/' :: cs => skip html .line newline (offset + 2) cs
  | .space, newline, offset, '/' :: '*' :: cs => skip html .block newline (offset + 2) cs
  | .space, newline, offset, '<' :: '!' :: '-' :: '-' :: cs =>
    if html then skip html .line newline (offset + 4) cs
    else ⟨newline, offset, '<' :: '!' :: '-' :: '-' :: cs, true⟩
  | .space, newline, offset, '-' :: '-' :: '>' :: cs =>
    if html && newline then skip html .line newline (offset + 3) cs
    else ⟨newline, offset, '-' :: '-' :: '>' :: cs, true⟩
  | .space, newline, offset, c :: cs =>
    if isLineTerminator c then skip html .space true (offset + 1) cs
    else if isBlank c then skip html .space newline (offset + 1) cs
    else ⟨newline, offset, c :: cs, true⟩

/-- The token at the front of `cs`: what it is, its width and the text after it. -/
def Tag.scan (cs : List Char) : Tag × Nat × List Char :=
  match cs with
  | [] => (.finish, 0, [])
  | c :: rest =>
    if c = '"' ∨ c = '\'' then
      match stringTail c 0 [] 1 rest with
      | some (value, width, after) =>
        (.string (Letter.textOf value.reverse) (value.any Letter.isHalf), width, after)
      | none => (.invalid, 0, cs)
    else if c = '#' then
      match Word.scan? rest with
      | some found => (.privateName (String.ofList found.text), found.width + 1, found.rest)
      | none => (.invalid, 0, cs)
    else if c.isDigit ∨ (c = '.' ∧ (rest.head?.map Char.isDigit).getD false) then
      match numberWidth cs with
      | some width => (.number, width, cs.drop width)
      | none => (.invalid, 0, cs)
    else if c = '\\' ∨ isIdentifierStart c then
      match Word.scan? cs with
      | some found => (.word (String.ofList found.text) found.escaped, found.width, found.rest)
      | none => (.invalid, 0, cs)
    else
      match Mark.scan? cs with
      | some (value, width) => (.mark value, width, cs.drop width)
      | none => (.invalid, 0, cs)

def Token.scan (html newline : Bool) (offset : Nat) (cs : List Char) : Token :=
  let gap := Trivia.skip html .space newline offset cs
  let (tag, width, rest) := Tag.scan gap.rest
  let tag := if gap.closed then tag else .invalid
  ⟨tag, gap.offset, gap.offset + width, gap.newline, gap.rest, rest⟩

end ModuleBundle.Script
