import Mathlib.Data.List.Forall2
import ModuleBundle.Emission
import ModuleBundle.Proofs.Text.Quoted

/-!
The table of an emitted bundle. Each row is a comment, a line that opens the module's function,
the body on lines of its own, and a line that closes the function and gives the mapping. Of
these only the body may break into lines, so whoever knows the bodies reads the numbers and the
mappings back from the text.
-/

set_option autoImplicit false

namespace ModuleBundle.Emission

variable {a b : Asset} {mapping other : Mapping} {c : Char} {x y : List Char}

/-- What a row must be: a comment that ends with its line, the line that opens the function, the
body, and a line that closes it. -/
def IsRow (a : Asset) (row : String) : Prop :=
  ∃ comment closing : String,
    row = "//" ++ comment ++ "\n" ++
      toString a.id ++ ": [function (require, module, exports) \x7b\n" ++
      a.body ++ "\n" ++
      closing ++ "\n" ∧
    (∀ c ∈ comment.toList, endsLine c = false) ∧ ∀ c ∈ closing.toList, c ≠ '\n' ∧ c ≠ '\r'

/-! Lines. -/

def commentText (a : Asset) : String := " " ++ toString a.id ++ ": " ++ oneLine (label a)

def closingLine (mapping : Mapping) : String := "\x7d, \x7b" ++ mappingText mapping ++ "\x7d],"

theorem row_eq (a : Asset) :
    row a = "//" ++ commentText a ++ "\n" ++
      toString a.id ++ ": [function (require, module, exports) \x7b\n" ++
      a.body ++ "\n" ++
      closingLine a.mapping ++ "\n" := by
  have comment : "// " = "//" ++ " " := rfl
  have closing : "\n\x7d, \x7b" = "\n" ++ "\x7d, \x7b" := rfl
  have last : "\x7d],\n" = "\x7d]," ++ "\n" := rfl
  simp only [row, commentText, closingLine, comment, closing, last, String.append_assoc]

theorem endsLine_of_isDigit (digit : c.isDigit = true) : endsLine c = false := by
  refine Bool.eq_false_iff.mpr fun ends => ?_
  simp only [endsLine, Bool.or_eq_true, decide_eq_true_eq] at ends
  rcases ends with ((rfl | rfl) | rfl) | rfl <;> revert digit <;> decide

theorem endsLine_of_mem_oneLine {text : String} (member : c ∈ (oneLine text).toList) :
    endsLine c = false := by
  rw [oneLine, String.toList_ofList] at member
  obtain ⟨d, _, rfl⟩ := List.mem_map.mp member
  cases ends : endsLine d with
  | true => rfl
  | false => simpa using ends

theorem endsLine_of_mem_commentText (member : c ∈ (commentText a).toList) : endsLine c = false := by
  simp only [commentText, String.toList_append, List.mem_append] at member
  rcases member with ((space | digit) | colon) | label
  · revert c
    simp [endsLine]
  · exact endsLine_of_isDigit (isDigit_of_mem_toString digit)
  · revert c
    simp [endsLine]
  · exact endsLine_of_mem_oneLine label

/-! Mappings. -/

def laterEntries : Mapping → List Char
  | [] => []
  | entry :: rest => ',' :: ' ' :: (mappingText (entry :: rest)).toList

theorem toList_mappingText_cons (entry : String × Nat) (rest : Mapping) :
    (mappingText (entry :: rest)).toList =
      (quoted entry.1).toList ++
        (':' :: ' ' :: ((toString entry.2).toList ++ laterEntries rest)) := by
  have colon : ": ".toList = [':', ' '] := rfl
  have comma : ", ".toList = [',', ' '] := rfl
  cases rest with
  | nil =>
    simp only [mappingText, List.map_cons, List.map_nil, String.intercalate_singleton, laterEntries,
      String.toList_append, colon, List.append_assoc, List.append_nil, List.cons_append,
      List.nil_append]
  | cons next rest =>
    simp only [mappingText, List.map_cons, String.intercalate_cons_cons, laterEntries,
      String.toList_append, colon, comma, List.append_assoc, List.cons_append, List.nil_append]

theorem not_isDigit_of_head?_laterEntries (rest : Mapping) :
    ∀ c ∈ (laterEntries rest).head?, ¬ c.isDigit = true := by
  cases rest with
  | nil => nofun
  | cons entry rest =>
    rintro _ ⟨⟩
    decide

theorem le_of_mem_mappingText (mapping : Mapping) :
    ∀ c ∈ (mappingText mapping).toList, 0x20 ≤ c.toNat := by
  induction mapping with
  | nil => nofun
  | cons entry rest ih =>
    have later : ∀ c ∈ laterEntries rest, 0x20 ≤ c.toNat := by
      cases rest with
      | nil => nofun
      | cons => exact List.forall_mem_cons.mpr ⟨by decide, List.forall_mem_cons.mpr ⟨by decide, ih⟩⟩
    intro c member
    rw [toList_mappingText_cons, quoted, String.toList_ofList] at member
    simp only [List.mem_append, List.mem_cons] at member
    rcases member with key | rfl | rfl | digit | member
    · exact Quoted.le_of_mem_encode key
    · decide
    · decide
    · have above := (Char.isDigit_iff_toNat.mp (isDigit_of_mem_toString digit)).1
      exact Nat.le_trans (by decide) above
    · exact later c member

theorem toList_mappingText_ne_nil (entry : String × Nat) (rest : Mapping) :
    (mappingText (entry :: rest)).toList ≠ [] := by
  rw [toList_mappingText_cons, quoted, String.toList_ofList, Quoted.encode]
  exact List.cons_ne_nil _ _

theorem toList_mappingText_of_laterEntries (same : laterEntries mapping = laterEntries other) :
    (mappingText mapping).toList = (mappingText other).toList := by
  cases mapping with
  | nil =>
    cases other with
    | nil => rfl
    | cons => cases same
  | cons entry rest =>
    cases other with
    | nil => cases same
    | cons => exact (List.cons.inj (List.cons.inj same).2).2

theorem mappingText_inj (same : (mappingText mapping).toList = (mappingText other).toList) :
    mapping = other := by
  induction mapping generalizing other with
  | nil =>
    cases other with
    | nil => rfl
    | cons next others => exact absurd same.symm (toList_mappingText_ne_nil next others)
  | cons entry rest ih =>
    cases other with
    | nil => exact absurd same (toList_mappingText_ne_nil entry rest)
    | cons next others =>
      rw [toList_mappingText_cons, toList_mappingText_cons, quoted, quoted, String.toList_ofList,
        String.toList_ofList] at same
      obtain ⟨keys, values⟩ := Quoted.encode_append_inj same
      obtain ⟨numbers, later⟩ := toString_append_inj (not_isDigit_of_head?_laterEntries rest)
        (not_isDigit_of_head?_laterEntries others) (List.cons.inj (List.cons.inj values).2).2
      have entries : entry = next := Prod.ext (String.toList_inj.mp keys) numbers
      rw [entries, ih (toList_mappingText_of_laterEntries later)]

/-! Rows. -/

theorem toList_row (a : Asset) :
    (row a).toList = ("//" ++ commentText a).toList ++ '\n' ::
      ((toString a.id).toList ++
        (": [function (require, module, exports) \x7b\n".toList ++
          (a.body.toList ++ '\n' :: ((closingLine a.mapping).toList ++ ['\n'])))) := by
  have newline : "\n".toList = ['\n'] := rfl
  rw [row_eq]
  simp only [String.toList_append, newline, List.append_assoc, List.cons_append, List.nil_append]

theorem not_newline_of_mem_comment (member : c ∈ ("//" ++ commentText a).toList) : c ≠ '\n' := by
  rw [String.toList_append] at member
  rcases List.mem_append.mp member with slash | inside
  · clear member
    revert c
    simp
  · rintro rfl
    cases endsLine_of_mem_commentText inside

theorem le_of_mem_closingLine (member : c ∈ (closingLine mapping).toList) : 0x20 ≤ c.toNat := by
  simp only [closingLine, String.toList_append, List.mem_append] at member
  rcases member with (opening | inside) | closing
  · revert c
    simp
  · exact le_of_mem_mappingText mapping c inside
  · revert c
    simp

theorem isRow_row (a : Asset) : IsRow a (row a) := by
  refine ⟨commentText a, closingLine a.mapping, row_eq a, fun c => endsLine_of_mem_commentText, ?_⟩
  intro c member
  have visible := le_of_mem_closingLine member
  constructor <;> rintro rfl <;> revert visible <;> decide

/-- Rows with the same body give away their numbers and mappings, whatever follows them. -/
theorem row_append_inj (bodies : a.body = b.body)
    (same : (row a).toList ++ x = (row b).toList ++ y) :
    a.id = b.id ∧ a.mapping = b.mapping ∧ x = y := by
  have stop (rest : List Char) : ∀ c ∈ ('\n' :: rest).head?, ¬ c ≠ '\n' := by
    rintro _ ⟨⟩
    exact fun other => other rfl
  have colon (rest : List Char) :
      ∀ c ∈ (": [function (require, module, exports) \x7b\n".toList ++ rest).head?,
        ¬ c.isDigit = true := by
    rintro _ ⟨⟩
    decide
  have inClosing {mapping : Mapping} : ∀ c ∈ (closingLine mapping).toList, c ≠ '\n' := by
    rintro _ member rfl
    exact absurd (le_of_mem_closingLine member) (by decide)
  simp only [toList_row, bodies, List.append_assoc, List.cons_append, List.nil_append] at same
  -- the comments may differ, but they end where their lines do
  obtain ⟨_, afterComment⟩ := append_inj_of_stops (fun _ => not_newline_of_mem_comment)
    (fun _ => not_newline_of_mem_comment) (stop _) (stop _) same
  obtain ⟨ids, afterId⟩ := toString_append_inj (colon _) (colon _) (List.cons.inj afterComment).2
  have afterBody := List.append_cancel_left (List.append_cancel_left afterId)
  obtain ⟨closings, afterClosing⟩ :=
    append_inj_of_stops inClosing inClosing (stop _) (stop _) (List.cons.inj afterBody).2
  refine ⟨ids, mappingText_inj ?_, (List.cons.inj afterClosing).2⟩
  simp only [closingLine, String.toList_append] at closings
  exact List.append_cancel_left (List.append_cancel_right closings)

theorem rows_append_inj {assets others : List Asset}
    (bodies : assets.map Asset.body = others.map Asset.body)
    (same : (String.join (assets.map row)).toList ++ x =
      (String.join (others.map row)).toList ++ y) :
    assets.map Asset.id = others.map Asset.id ∧
      assets.map Asset.mapping = others.map Asset.mapping := by
  induction assets generalizing others with
  | nil =>
    obtain rfl := List.map_eq_nil_iff.mp bodies.symm
    exact ⟨rfl, rfl⟩
  | cons a rest ih =>
    cases others with
    | nil => cases bodies
    | cons b others =>
      obtain ⟨body, bodies⟩ := List.cons.inj bodies
      simp only [List.map_cons, String.join_cons, String.toList_append, List.append_assoc] at same
      obtain ⟨id, mapping, later⟩ := row_append_inj body same
      obtain ⟨ids, mappings⟩ := ih bodies later
      simp only [List.map_cons, id, mapping, ids, mappings, and_self]

theorem text_append_cons (before after : List Asset) (a : Asset) :
    text (before ++ a :: after) =
      (headText ++ String.join (before.map row)) ++ row a ++
        (String.join (after.map row) ++ tailText) := by
  simp only [text, List.map_append, List.map_cons, String.join_append, String.join_cons,
    String.append_assoc]

/-- The table has a row for every module, in their order, between the head and the tail; and
from the bodies and the text of a bundle its numbers and mappings can be told. -/
theorem table_unambiguous (assets : List Asset) :
    (∃ rows, text assets = headText ++ String.join rows ++ tailText ∧
      List.Forall₂ IsRow assets rows) ∧
    ∀ others : List Asset, assets.map Asset.body = others.map Asset.body →
      text assets = text others →
        assets.map Asset.id = others.map Asset.id ∧
          assets.map Asset.mapping = others.map Asset.mapping := by
  refine ⟨⟨assets.map row, rfl, ?_⟩, fun others bodies same => ?_⟩
  · rw [List.forall₂_map_right_iff]
    exact List.forall₂_same.mpr fun a _ => isRow_row a
  · have texts := congrArg String.toList same
    simp only [text, String.toList_append, List.append_assoc] at texts
    exact rows_append_inj bodies (List.append_cancel_left texts)

def brokenPath : Asset :=
  ⟨3, ⟨"/a\nb.js"⟩, .script ⟨["./\"c", "d"], "// end"⟩, [("./\"c", 12), ("d", 1)]⟩

def spacedPath : Asset := { brokenPath with path := ⟨"/a b.js"⟩ }

theorem brokenPath_table :
    [brokenPath].map Asset.body = [spacedPath].map Asset.body ∧
      text [brokenPath] = text [spacedPath] ∧
      [brokenPath].map Asset.id = [spacedPath].map Asset.id ∧
      [brokenPath].map Asset.mapping = [spacedPath].map Asset.mapping :=
  have bodies : [brokenPath].map Asset.body = [spacedPath].map Asset.body := rfl
  have same : text [brokenPath] = text [spacedPath] := by decide +kernel
  ⟨bodies, same, (table_unambiguous [brokenPath]).2 [spacedPath] bodies same⟩

end ModuleBundle.Emission
