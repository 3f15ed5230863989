import ModuleBundle.Graph

/-!
What is said about a finished build: how many modules there are, which of them could not
be loaded and why, and how long it took.
-/

set_option autoImplicit false

namespace ModuleBundle

inductive Style where
  | success | warning | count | place | doubt | broken | faint | mark
  deriving DecidableEq, Repr

namespace Style

def code : Style → String
  | success => "1;32"
  | warning => "1;33"
  | count => "36"
  | place => "34"
  | doubt => "33"
  | broken => "31"
  | faint => "2"
  | mark => "94"

/-- Switches the style on again wherever `text` switches all styles off. -/
def resume (start : List Char) : List Char → List Char
  | '\x1b' :: '[' :: '0' :: 'm' :: rest =>
    '\x1b' :: '[' :: '0' :: 'm' :: (start ++ resume start rest)
  | c :: rest => c :: resume start rest
  | [] => []

def paint (style : Style) (colors : Bool) (text : String) : String :=
  if colors then
    let start := "\x1b[" ++ style.code ++ "m"
    start ++ String.ofList (resume start.toList text.toList) ++ "\x1b[0m"
  else text

end Style

/-- Whether to use colors on a terminal or elsewhere, given the environment's `CLICOLOR`,
`NO_COLOR` and `CLICOLOR_FORCE`. -/
def Style.wanted (onTerminal : Bool) (clicolor noColor force : Option String) : Bool :=
  if force.any (· ≠ "0") then true
  else if noColor.isSome then false
  else clicolor.all (· ≠ "0") && onTerminal

structure Report where
  colors : Bool
  /-- Paths below it are shown from here on. -/
  workingDirectory : Option Path

namespace Report

def place (r : Report) (path : Path) : String :=
  match r.workingDirectory.bind path.strip with
  | some inner => inner.text
  | none => path.text

def listLine (r : Report) (branch : String) (a : Asset) : String :=
  Style.faint.paint r.colors branch ++ "  " ++
    Style.broken.paint r.colors (r.place a.path) ++ " " ++
    Style.faint.paint r.colors (a.failure?.getD "") ++ "\n"

def listText (r : Report) : List Asset → String
  | [] => ""
  | [a] => r.listLine "└──" a
  | a :: rest => r.listLine "├──" a ++ r.listText rest

def headline (r : Report) (g : Graph) : String :=
  " Bundled " ++ Style.count.paint r.colors (toString g.size) ++ " modules from " ++
    Style.place.paint r.colors (r.place g.entry.path)

def summary (r : Report) (g : Graph) (milliseconds : Nat) : String :=
  (match g.placeholders with
    | [] => Style.success.paint r.colors "✓" ++ r.headline g ++ "\n"
    | placeholders =>
      Style.warning.paint r.colors "⚠" ++ r.headline g ++ " (" ++
        Style.doubt.paint r.colors (toString placeholders.length) ++
        " could not be loaded)\n\n" ++ r.listText placeholders ++ "\n") ++
    Style.mark.paint r.colors "●" ++ " Finished in " ++
    Style.count.paint r.colors (toString milliseconds) ++ "ms.\n"

def destination (r : Report) (path : Path) : String :=
  Style.mark.paint r.colors "→" ++ " " ++ path.text ++ "\n"

end Report

end ModuleBundle
