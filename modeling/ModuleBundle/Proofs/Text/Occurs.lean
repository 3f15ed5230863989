import Mathlib.Data.List.Infix

/-!
Where a text stands in another. Whatever occurs in a part of a text occurs in the text, and
whether it does can be tested.
-/

set_option autoImplicit false

namespace ModuleBundle

def Occurs (part text : String) : Prop := part.toList <:+: text.toList

instance (part text : String) : Decidable (Occurs part text) :=
  inferInstanceAs (Decidable (part.toList <:+: text.toList))

namespace Occurs

variable {part text : String}

theorem refl (text : String) : Occurs text text := List.infix_rfl

theorem append_right (occurs : Occurs part text) (rest : String) : Occurs part (text ++ rest) := by
  unfold Occurs
  rw [String.toList_append]
  exact occurs.trans (List.infix_append [] _ _)

theorem append_left (occurs : Occurs part text) (rest : String) : Occurs part (rest ++ text) := by
  unfold Occurs
  rw [String.toList_append]
  exact occurs.trans (List.suffix_append _ _).isInfix

theorem trans {middle : String} (occurs : Occurs part middle) (inText : Occurs middle text) :
    Occurs part text :=
  List.IsInfix.trans occurs inText

end Occurs

end ModuleBundle
