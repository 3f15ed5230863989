import ModuleBundle.Text.Quoted

/-!
JSON documents of what a graph holds, and their text over several lines: every item and
every field has a line of its own, indented by two spaces more than what it is in.
-/

set_option autoImplicit false

namespace ModuleBundle

mutual

inductive Json where
  | number (value : Nat)
  | text (value : String)
  | list (items : List Json)
  | record (fields : List Field)

inductive Field where
  | mk (name : String) (value : Json)

end

def Json.newLine (depth : Nat) : String :=
  String.ofList ('\n' :: List.replicate (2 * depth) ' ')

mutual

def Json.pretty (depth : Nat) : Json → String
  | .number value => toString value
  | .text value => quoted value
  | .list [] => "[]"
  | .list (first :: rest) =>
    "[" ++ Json.newLine (depth + 1) ++ first.pretty (depth + 1) ++ Json.prettyItems depth rest ++
      Json.newLine depth ++ "]"
  | .record [] => "\x7b\x7d"
  | .record (first :: rest) =>
    "\x7b" ++ Json.newLine (depth + 1) ++ first.pretty (depth + 1) ++
      Json.prettyFields depth rest ++ Json.newLine depth ++ "\x7d"

def Json.prettyItems (depth : Nat) : List Json → String
  | [] => ""
  | item :: rest =>
    "," ++ Json.newLine (depth + 1) ++ item.pretty (depth + 1) ++ Json.prettyItems depth rest

def Json.prettyFields (depth : Nat) : List Field → String
  | [] => ""
  | field :: rest =>
    "," ++ Json.newLine (depth + 1) ++ field.pretty (depth + 1) ++ Json.prettyFields depth rest

def Field.pretty (depth : Nat) : Field → String
  | .mk name value => quoted name ++ ": " ++ value.pretty depth

end

end ModuleBundle
