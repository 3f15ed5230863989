import ModuleBundle.Graph.Dump
import ModuleBundle.Proofs.Text.Json

/-!
What the dump of a graph tells. Read as a JSON document, it gives for every module in its order
the number, the text of the path, the specifiers, the mapping, and the failure of a placeholder;
so graphs of the same dump differ in nothing but the bodies of their modules.
-/

set_option autoImplicit false

namespace ModuleBundle

theorem mapM_map_eq_some {α β : Type} {write : α → β} {read : β → Option α}
    (reads : ∀ a, read (write a) = some a) (items : List α) :
    (items.map write).mapM read = some items := by
  induction items with
  | nil => rfl
  | cons item rest ih =>
    rw [List.map_cons, List.mapM_cons, reads, ih]
    rfl

/-! Reading values. -/

namespace Json

def asNumber? : Json → Option Nat
  | .number value => some value
  | _ => none

def asText? : Json → Option String
  | .text value => some value
  | _ => none

def asList? : Json → Option (List Json)
  | .list items => some items
  | _ => none

def asTexts? (json : Json) : Option (List String) := do (← json.asList?).mapM asText?

def entries? : Json → Option (List (String × Json))
  | .record fields => some (fields.map fun (.mk name value) => (name, value))
  | _ => none

def entry? (entry : String × Json) : Option (String × Nat) := entry.2.asNumber?.map (entry.1, ·)

def asMapping? (json : Json) : Option Mapping := do (← json.entries?).mapM entry?

def names (json : Json) : List String := (json.entries?.getD []).map Prod.fst

def get? (json : Json) (name : String) : Option Json := (json.entries?.getD []).lookup name

theorem asTexts?_list (texts : List String) : (list (texts.map text)).asTexts? = some texts := by
  have reads : ∀ value, (text value).asText? = some value := fun _ => rfl
  exact mapM_map_eq_some reads texts

theorem asMapping?_json (mapping : Mapping) : mapping.json.asMapping? = some mapping := by
  have reads : ∀ entry : String × Nat, entry? (entry.1, number entry.2) = some entry := fun _ => rfl
  have entries : mapping.json.entries? =
      some (mapping.map fun entry => (entry.1, number entry.2)) := by
    rw [Mapping.json, entries?, List.map_map]
    rfl
  rw [asMapping?, entries]
  exact mapM_map_eq_some reads mapping

end Json

/-- All about a module but its body. -/
structure Listing where
  id : Nat
  path : String
  specifiers : List String
  mapping : Mapping
  failure? : Option String
  deriving DecidableEq, Repr

def Asset.listing (a : Asset) : Listing :=
  ⟨a.id, a.path.text, a.specifiers, a.mapping, a.failure?⟩

namespace Listing

def json (listing : Listing) : Json :=
  .record <|
    [.mk "id" (.number listing.id),
     .mk "resolved_path" (.text listing.path),
     .mk "specifiers" (.list (listing.specifiers.map .text)),
     .mk "mapping" listing.mapping.json] ++
    match listing.failure? with
    | none => []
    | some reason => [.mk "failure" (.text reason)]

/-- A failure may be missing, as nothing else may. -/
def ofJson? (json : Json) : Option Listing := do
  let id ← (← json.get? "id").asNumber?
  let path ← (← json.get? "resolved_path").asText?
  let specifiers ← (← json.get? "specifiers").asTexts?
  let mapping ← (← json.get? "mapping").asMapping?
  match json.get? "failure" with
  | none => return ⟨id, path, specifiers, mapping, none⟩
  | some value => return ⟨id, path, specifiers, mapping, some (← value.asText?)⟩

def readAll? (text : String) : Option (List Listing) := do
  (← (← Json.parse? text).asList?).mapM ofJson?

variable (listing : Listing)

theorem get?_failure : listing.json.get? "failure" = listing.failure?.map .text := by
  obtain ⟨id, path, specifiers, mapping, failure?⟩ := listing
  cases failure? <;> rfl

theorem ofJson?_json : ofJson? listing.json = some listing := by
  -- these four stand in front of the failure, whether there is one or not
  have id : listing.json.get? "id" = some (.number listing.id) := rfl
  have path : listing.json.get? "resolved_path" = some (.text listing.path) := rfl
  have specifiers : listing.json.get? "specifiers" =
      some (.list (listing.specifiers.map .text)) := rfl
  have mapping : listing.json.get? "mapping" = some listing.mapping.json := rfl
  simp only [ofJson?, id, path, specifiers, mapping, get?_failure, Json.asNumber?, Json.asText?,
    Json.asTexts?_list, Json.asMapping?_json, Option.bind_eq_bind, Option.bind_some]
  cases listing with
  | mk _ _ _ _ failure? =>
    cases failure? with
    | none => rfl
    | some reason => rfl

theorem names_json :
    listing.json.names = ["id", "resolved_path", "specifiers", "mapping"] ++
      (listing.failure?.map fun _ => "failure").toList := by
  obtain ⟨id, path, specifiers, mapping, failure?⟩ := listing
  cases failure? with
  | none => rfl
  | some reason => rfl

theorem readAll?_pretty (listings : List Listing) :
    readAll? ((Json.list (listings.map json)).pretty 0) = some listings := by
  rw [readAll?, Json.parse?_pretty]
  exact mapM_map_eq_some ofJson?_json listings

end Listing

namespace Asset

variable (a : Asset)

theorem json_listing : a.listing.json = a.json := by
  unfold Listing.json Asset.json listing
  rfl

theorem names_json : a.json.names = ["id", "resolved_path", "specifiers", "mapping"] ++
    if a.isPlaceholder then ["failure"] else [] := by
  rw [← json_listing, Listing.names_json]
  cases failure : a.failure? with
  | none => simp only [listing, isPlaceholder, failure]; rfl
  | some reason => simp only [listing, isPlaceholder, failure]; rfl

theorem failure?_eq_none_iff : a.failure? = none ↔ ∃ analysis, a.content = .script analysis := by
  unfold failure?
  cases a.content with
  | script analysis => simp
  | placeholder failure => simp

end Asset

namespace Graph

variable (g : Graph)

theorem readAll?_dump : Listing.readAll? g.dump = some (g.assets.map Asset.listing) := by
  have records : g.assets.map Asset.json = (g.assets.map Asset.listing).map Listing.json := by
    rw [List.map_map]
    exact List.map_congr_left fun a _ => a.json_listing.symm
  rw [dump, Graph.json, records]
  exact Listing.readAll?_pretty _

/-- A dump is a JSON document that has a record for every module, and from which the listings are
read. A failure stands in it exactly where a module is a placeholder. Graphs of the same dump have
as many modules, and module by module the same numbers, paths, specifiers, mappings and failures. -/
theorem dump_tells_listings :
    (∀ listings : List Listing,
      Listing.readAll? ((Json.list (listings.map Listing.json)).pretty 0) = some listings) ∧
    Json.parse? g.dump = some (.list (g.assets.map Asset.json)) ∧
    Listing.readAll? g.dump = some (g.assets.map Asset.listing) ∧
    (∀ a : Asset, a.json.names = ["id", "resolved_path", "specifiers", "mapping"] ++
      if a.isPlaceholder then ["failure"] else []) ∧
    (∀ a : Asset, a.failure? = none ↔ ∃ analysis, a.content = .script analysis) ∧
    ∀ h : Graph, g.dump = h.dump → g.size = h.size ∧
      ∀ i a b, g.get? i = some a → h.get? i = some b →
        a.id = b.id ∧ a.path.text = b.path.text ∧ a.specifiers = b.specifiers ∧
          a.mapping = b.mapping ∧ a.failure? = b.failure? := by
  refine ⟨Listing.readAll?_pretty, Json.parse?_pretty g.json 0, g.readAll?_dump, Asset.names_json,
    Asset.failure?_eq_none_iff, fun h same => ?_⟩
  have listings : g.assets.map Asset.listing = h.assets.map Asset.listing := by
    apply Option.some.inj
    rw [← readAll?_dump, ← readAll?_dump, same]
  constructor
  · have lengths := congrArg List.length listings
    rwa [List.length_map, List.length_map] at lengths
  · intro i a b inFirst inSecond
    have here := congrArg (fun all => all[i]?) listings
    simp only [List.getElem?_map] at here
    unfold get? at inFirst inSecond
    rw [inFirst, inSecond] at here
    simpa only [Option.map_some, Option.some.injEq, Asset.listing, Listing.mk.injEq] using here

def askingGraph (body : String) : Graph :=
  ⟨⟨0, ⟨"/é\n.js"⟩, .script ⟨["./b", "\"", "./b"], body⟩, [("\"", 1), ("./b", 2)]⟩,
    [⟨1, ⟨"\""⟩, .placeholder (.refused ""), []⟩, ⟨2, ⟨"/b.js"⟩, .script ⟨[], body⟩, []⟩]⟩

theorem askingGraph_tells_listings :
    (askingGraph "x").dump = (askingGraph "").dump ∧
      (askingGraph "x").size = (askingGraph "").size ∧
      (askingGraph "x").entry.mapping = (askingGraph "").entry.mapping :=
  have same : (askingGraph "x").dump = (askingGraph "").dump := by decide +kernel
  have told := (dump_tells_listings (askingGraph "x")).2.2.2.2.2 (askingGraph "") same
  ⟨same, told.1, (told.2 0 _ _ rfl rfl).2.2.2.1⟩

end Graph

end ModuleBundle
