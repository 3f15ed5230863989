import ModuleBundle.Lowering.Reading

/-!
The lines that a lowered module begins with. First come the definitions of its exports,
so that a module that requires this one in turn sees all of them; then every request, in
the order of the declarations that make it.
-/

set_option autoImplicit false

namespace ModuleBundle

inductive Origin where
  /-- A name as the module's own code reads it, which may be an imported one. -/
  | name (text : String)
  | reading (value : Reading)
  deriving DecidableEq, Repr

/-- A name that a module exports. Its value is read again at every use. -/
structure Export where
  exported : String
  origin : Origin
  deriving DecidableEq, Repr

namespace Export

def value (readings : String → Option Reading) (e : Export) : String :=
  match e.origin with
  | .name text => ((readings text).map Reading.text).getD text
  | .reading value => value.text

def text (readings : String → Option Reading) (e : Export) : String :=
  "Object.defineProperty(exports, " ++ quoted e.exported ++
    ", \x7b enumerable: true, get: function () \x7b return " ++ e.value readings ++ "; \x7d \x7d);"

end Export

/-- A line that requires a module, or that prepares what a `require` gave. -/
inductive RequireLine where
  | run (specifier : String)
  | bind (record : Nat) (specifier : String)
  /-- Names the record to read a default export from; a module that exports no names on
  its own account is its own default export. -/
  | hold (record : Nat)
  /-- Exports the other module's names, but for its default export and the names that this
  module has already. -/
  | copy (record : Nat)
  deriving DecidableEq, Repr

namespace RequireLine

def specifier? : RequireLine → Option String
  | run specifier => some specifier
  | bind _ specifier => some specifier
  | hold _ => none
  | copy _ => none

def text : RequireLine → String
  | run specifier => "require(" ++ quoted specifier ++ ");"
  | bind record specifier =>
    "var " ++ recordName record ++ " = require(" ++ quoted specifier ++ ");"
  | hold record =>
    let name := recordName record
    "var " ++ holderName record ++ " = " ++ name ++ " && " ++ name ++ ".__esModule ? " ++ name ++
      " : \x7b default: " ++ name ++ " \x7d;"
  | copy record =>
    let name := recordName record
    "Object.keys(" ++ name ++ ").forEach(function (k) \x7b " ++
      "if (k !== \"default\" && k !== \"__esModule\" && " ++
      "!Object.prototype.hasOwnProperty.call(exports, k)) " ++
      "Object.defineProperty(exports, k, \x7b enumerable: true, " ++
      "get: function () \x7b return " ++ name ++ "[k]; \x7d \x7d); \x7d);"

end RequireLine

namespace Prologue

/-- What makes code strict and marks its exports as those of a module. -/
def opening : List String :=
  ["\"use strict\";", "Object.defineProperty(exports, \"__esModule\", \x7b value: true \x7d);"]

def lines (isModule : Bool) (readings : String → Option Reading) (exports : List Export)
    (requires : List RequireLine) : List String :=
  (if isModule then opening else []) ++ exports.map (Export.text readings) ++
    requires.map RequireLine.text

/-- The text to insert at `offset`, which is not at the start of a line unless it is the
start of the text. -/
def text (offset : Nat) (lines : List String) : String :=
  (if offset = 0 then "" else "\n") ++ String.join (lines.map (· ++ "\n"))

end Prologue

end ModuleBundle
