import ModuleBundle.Graph
import ModuleBundle.Text.Json

/-!
A graph as a JSON document: everything about its modules but their bodies.
-/

set_option autoImplicit false

namespace ModuleBundle

def Mapping.json (mapping : Mapping) : Json :=
  .record (mapping.map fun entry => .mk entry.1 (.number entry.2))

/-- A module has a failure if and only if it is a placeholder. -/
def Asset.json (a : Asset) : Json :=
  .record <|
    [.mk "id" (.number a.id),
     .mk "resolved_path" (.text a.path.text),
     .mk "specifiers" (.list (a.specifiers.map .text)),
     .mk "mapping" a.mapping.json] ++
    match a.failure? with
    | none => []
    | some reason => [.mk "failure" (.text reason)]

def Graph.json (g : Graph) : Json := .list (g.assets.map Asset.json)

def Graph.dump (g : Graph) : String := g.json.pretty 0

end ModuleBundle
