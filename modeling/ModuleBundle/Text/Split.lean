/-!
Texts cut at a separator.
-/

set_option autoImplicit false

namespace ModuleBundle

def stretches (separator : Char) : List Char → List (List Char)
  | [] => [[]]
  | c :: cs =>
    if c = separator then [] :: stretches separator cs
    else
      match stretches separator cs with
      | [] => [[c]]
      | stretch :: rest => (c :: stretch) :: rest

def splitText (separator : Char) (text : String) : List String :=
  (stretches separator text.toList).map String.ofList

end ModuleBundle
