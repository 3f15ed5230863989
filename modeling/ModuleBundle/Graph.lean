import ModuleBundle.Asset

/-!
Finished module graphs. The entry comes first, so a graph is never empty.
-/

set_option autoImplicit false

namespace ModuleBundle

structure Graph where
  entry : Asset
  others : List Asset
  deriving DecidableEq, Repr

namespace Graph

def ofAssets? : List Asset → Option Graph
  | [] => none
  | entry :: others => some ⟨entry, others⟩

def assets (g : Graph) : List Asset := g.entry :: g.others

def size (g : Graph) : Nat := g.assets.length

def get? (g : Graph) (id : Nat) : Option Asset := g.assets[id]?

def placeholders (g : Graph) : List Asset := g.assets.filter Asset.isPlaceholder

end Graph

end ModuleBundle
