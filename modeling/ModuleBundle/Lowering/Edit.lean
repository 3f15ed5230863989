import ModuleBundle.Script.Tree

/-!
Changes to a source text. An edit puts a text in the place of a span; applying a list of
edits replaces the outermost spans, each once and in their order in the text, and keeps
every character outside of them.
-/

set_option autoImplicit false

namespace ModuleBundle

open Script (Span)

structure Edit where
  span : Span
  text : String
  deriving DecidableEq, Repr

namespace Edit

def remove (span : Span) : Edit := ⟨span, ""⟩

def insert (offset : Nat) (text : String) : Edit := ⟨⟨offset, offset⟩, text⟩

/-- An edit applies before those that start later, and before those that start with it but
stop later: an insertion stands before what is replaced at its place. -/
def before (first second : Edit) : Bool :=
  first.span.start < second.span.start ||
    (first.span.start = second.span.start && first.span.stop ≤ second.span.stop)

def insertSorted (edit : Edit) : List Edit → List Edit
  | [] => [edit]
  | first :: rest =>
    if edit.before first then edit :: first :: rest else first :: insertSorted edit rest

def sort (edits : List Edit) : List Edit := edits.foldr insertSorted []

/-- The text from `cursor` on after sorted edits. An edit that starts inside one already
applied is dropped. -/
def splice (text : List Char) (cursor : Nat) : List Edit → List Char
  | [] => text
  | edit :: rest =>
    if edit.span.start < cursor then splice text cursor rest
    else
      text.take (edit.span.start - cursor) ++
        (edit.text.toList ++
          splice (text.drop (edit.span.stop - cursor)) edit.span.stop rest)

def apply (edits : List Edit) (text : List Char) : List Char := splice text 0 (sort edits)

end Edit

end ModuleBundle
