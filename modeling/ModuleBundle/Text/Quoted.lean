/-!
Quoted strings: the one notation that script literals and JSON share. Quotes,
backslashes and control characters are escaped, all else stands for itself.
-/

set_option autoImplicit false

namespace ModuleBundle.Quoted

def hexDigit (n : Nat) : Char :=
  if n < 10 then Char.ofNat ('0'.toNat + n) else Char.ofNat ('a'.toNat + (n - 10))

def escape (c : Char) : List Char :=
  if c = '"' then ['\\', '"']
  else if c = '\\' then ['\\', '\\']
  else if c = '\x08' then ['\\', 'b']
  else if c = '\x0c' then ['\\', 'f']
  else if c = '\n' then ['\\', 'n']
  else if c = '\r' then ['\\', 'r']
  else if c = '\t' then ['\\', 't']
  else if c.toNat < 0x20 then
    ['\\', 'u', '0', '0', hexDigit (c.toNat / 16), hexDigit (c.toNat % 16)]
  else [c]

def encode (cs : List Char) : List Char := '"' :: (cs.flatMap escape ++ ['"'])

end ModuleBundle.Quoted

namespace ModuleBundle

def quoted (text : String) : String := String.ofList (Quoted.encode text.toList)

end ModuleBundle
