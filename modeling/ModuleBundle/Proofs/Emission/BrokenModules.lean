import ModuleBundle.Proofs.Graph.Broken
import ModuleBundle.Proofs.Graph.LoadedOnce

/-!
A broken module behaves like an empty one. Two lenient builds that differ only in whether a module
is refused, or cannot be read, or else is empty, end alike, and their bundles differ in no more than
the comment that tells of the failure.
-/

set_option autoImplicit false

namespace ModuleBundle

namespace Emission

def functionText (a : Asset) : String :=
  toString a.id ++ ": [function (require, module, exports) \x7b\n" ++ a.body ++ "\n" ++
    closingLine a.mapping ++ "\n"

theorem row_eq_comment (a : Asset) : row a = "//" ++ commentText a ++ "\n" ++ functionText a := by
  simp only [row_eq, functionText, String.append_assoc]

theorem functionText_congr {a b : Asset} (id : a.id = b.id) (body : a.body = b.body)
    (mapping : a.mapping = b.mapping) : functionText a = functionText b := by
  simp only [functionText, id, body, mapping]

theorem text_differ {a b : Asset} (before after : List Asset) (id : a.id = b.id)
    (body : a.body = b.body) (mapping : a.mapping = b.mapping) :
    ∃ front back, text (before ++ a :: after) = front ++ ("//" ++ commentText a ++ "\n") ++ back ∧
      text (before ++ b :: after) = front ++ ("//" ++ commentText b ++ "\n") ++ back := by
  refine ⟨headText ++ String.join (before.map row),
    functionText a ++ (String.join (after.map row) ++ tailText), ?_, ?_⟩
  · simp only [text_append_cons, row_eq_comment, String.append_assoc]
  · simp only [text_append_cons, row_eq_comment, functionText_congr id body mapping,
      String.append_assoc]

end Emission

/-- The graphs are equal, or they differ in the module at `p` alone: it is empty in the second, and
has the failure `reason` in the first. Of the bundles, that concerns the comment of its row. -/
def Graph.AlikeBut (p : Path) (reason : String) (g h : Graph) : Prop :=
  (g = h ∧ ∀ b ∈ h.assets, b.path.same p = true → b.failure? ≠ none) ∨
  ∃ before a b after,
    g.assets = before ++ a :: after ∧ h.assets = before ++ b :: after ∧ b.path.same p = true ∧
    (a.id = b.id ∧ a.path = b.path ∧ a.specifiers = b.specifiers ∧ a.body = b.body ∧
      a.mapping = b.mapping) ∧
    a.failure? = some reason ∧ b.failure? = none ∧
    ∃ front back, g.emit = front ++ ("//" ++ Emission.commentText a ++ "\n") ++ back ∧
      h.emit = front ++ ("//" ++ Emission.commentText b ++ "\n") ++ back

/-- Both builds finish, with such graphs, or neither does. -/
inductive Outcome.AlikeBut (p : Path) (reason : String) : Outcome → Outcome → Prop where
  | finished {g h : Graph} (alike : g.AlikeBut p reason h) : AlikeBut p reason (.finished g) (.finished h)
  | failed (e : BundleError) : AlikeBut p reason (.failed e) (.failed e)
  | unfinished : AlikeBut p reason .unfinished .unfinished

namespace Graph

variable {p : Path} {failure : Failure} {g : Graph}

theorem breakAt_eq_self (without : ∀ b ∈ g.assets, ¬ (b.path.same p = true ∧ b.content = .empty)) :
    g.breakAt p failure = g := by
  have same : g.others.map (.breakAt p failure) = g.others := by
    refine (List.map_congr_left fun b member => ?_).trans (List.map_id _)
    exact Asset.breakAt_of_not (without b (List.mem_cons_of_mem _ member))
  rw [breakAt, Asset.breakAt_of_not (without g.entry List.mem_cons_self), same]

theorem components_ne {before after : List Asset} {b c : Asset}
    (distinct : Seen.Distinct ⟨(before ++ b :: after).map Asset.path⟩) (listed : c ∈ before ++ after) :
    c.path.components ≠ b.path.components := by
  have paths : ((before ++ b :: after).map Asset.path).Pairwise fun p q =>
    p.components ≠ q.components := distinct
  obtain ⟨_, behind, across⟩ := List.pairwise_append.mp (List.pairwise_map.mp paths)
  rcases List.mem_append.mp listed with front | back
  · exact across c front b List.mem_cons_self
  · exact ((List.pairwise_cons.mp behind).1 c back).symm

theorem breakAt_alikeBut (distinct : Seen.Distinct ⟨g.assets.map Asset.path⟩)
    (empty : ∀ b ∈ g.assets, b.path.same p = true → b.failure? = none → b.content = .empty) :
    (g.breakAt p failure).AlikeBut p failure.message g := by
  by_cases present : ∃ b ∈ g.assets, b.path.same p = true ∧ b.content = .empty
  · right
    obtain ⟨b, member, place, content⟩ := present
    obtain ⟨before, after, cut⟩ := List.append_of_mem member
    -- paths are distinct, so no other module has the path of the broken one
    have others : ∀ c ∈ before ++ after, c.breakAt p failure = c := by
      intro c listed
      refine Asset.breakAt_of_not fun ⟨also, _⟩ => ?_
      rw [cut] at distinct
      exact components_ne distinct listed
        (((Path.same_iff _ _).mp also).trans ((Path.same_iff _ _).mp place).symm)
    have kept (part : List Asset) (inside : part ⊆ before ++ after) :
        part.map (.breakAt p failure) = part :=
      (List.map_congr_left fun c listed => others c (inside listed)).trans (List.map_id _)
    have broken : (g.breakAt p failure).assets = before ++ b.breakAt p failure :: after := by
      rw [assets_breakAt, cut, List.map_append, List.map_cons,
        kept before (List.subset_append_left _ _), kept after (List.subset_append_right _ _)]
    have reason : (b.breakAt p failure).failure? = some failure.message := by
      simp only [Asset.breakAt, Asset.failure?, if_pos (And.intro place content)]
    have none : b.failure? = none := by
      simp only [Asset.failure?, content, Content.empty]
    have specifiers : (b.breakAt p failure).specifiers = b.specifiers := Asset.specifiers_breakAt b
    have body : (b.breakAt p failure).body = b.body := Asset.body_breakAt b
    refine ⟨before, _, b, after, broken, cut, place, ⟨rfl, rfl, specifiers, body, rfl⟩, reason, none, ?_⟩
    rw [emit, emit, broken, cut]
    exact Emission.text_differ before after rfl body rfl
  · left
    have without : ∀ b ∈ g.assets, ¬ (b.path.same p = true ∧ b.content = .empty) :=
      fun b member both => present ⟨b, member, both⟩
    refine ⟨breakAt_eq_self without, fun b member place none => ?_⟩
    exact without b member ⟨place, empty b member place none⟩

end Graph

/-- The analyzers agree but on `p`, where the first refuses every text and the second finds nothing
in any. -/
structure Analyzer.Refuses (broken whole : Analyzer) (p : Path) (message : String) : Prop where
  elsewhere : ∀ q, q.same p = false → broken q = whole q
  there : ∀ q text, q.same p = true → broken q text = .error message ∧ whole q text = .ok ⟨[], ""⟩

/-- The file systems have the same files. They differ in `p`, which cannot be read in the first and
is empty in the second. -/
structure FileSystem.Locks (locked fs : FileSystem) (analyzer : Analyzer) (p : Path)
    (error : FileError) : Prop where
  isFile : locked.isFile = fs.isFile
  isDirectory : locked.isDirectory = fs.isDirectory
  canonical : locked.canonical = fs.canonical
  elsewhere : ∀ q, (fs.canonical q).same p = false →
    locked.read (fs.canonical q) = fs.read (fs.canonical q)
  there : ∀ q, (fs.canonical q).same p = true → locked.read (fs.canonical q) = .error error ∧
    ∃ text, fs.read (fs.canonical q) = .ok text ∧ analyzer (fs.canonical q) text = .ok ⟨[], ""⟩

namespace Workspace

variable {broken whole : Workspace} {p : Path} {failure : Failure} {reference : Path}

theorem settle_lenient (w : Workspace) (id : Nat) (path : Path) (error : Failure → BundleError)
    (content : Content) : (w.under .lenient).settle id path error content = .ok ⟨id, path, content, []⟩ := by
  cases content <;> rfl

theorem Breaks.entry_eq (breaks : broken.Breaks whole p failure)
    (read : ∀ path, resolve whole.fileSystem whole.extensions reference = .ok path →
      broken.fileSystem.read path = whole.fileSystem.read path) :
    ((broken.under .lenient).loadEntry 0 reference).outcome =
      (.breakAt p failure) <$> ((whole.under .lenient).loadEntry 0 reference).outcome := by
  rw [loadEntry_under, loadEntry_under, breaks.resolve_eq]
  cases resolved : resolve whole.fileSystem whole.extensions reference with
  | error e => rfl
  | ok path =>
    simp only [read path resolved]
    cases whole.fileSystem.read path with
    | error e => rfl
    | ok text =>
      simp only [settle_lenient, breaks.content_eq resolved]
      rfl

theorem Breaks.alikeBut (breaks : broken.Breaks whole p failure)
    (read : ∀ path, resolve whole.fileSystem whole.extensions reference = .ok path →
      broken.fileSystem.read path = whole.fileSystem.read path)
    (schedule other : Schedule) (limit : Nat) :
    (Build.run (broken.under .lenient) schedule limit reference).outcome.AlikeBut p failure.message
      (Build.run (whole.under .lenient) other limit reference).outcome := by
  rw [breaks.run_eq (breaks.entry_eq read) schedule other limit]
  cases ended : (Build.run (whole.under .lenient) other limit reference).outcome with
  | unfinished => exact .unfinished
  | failed e => exact .failed e
  | finished g =>
    have closed := (Build.completes_of_finished ended).closed
    refine .finished <| Graph.breakAt_alikeBut closed.distinct fun b member place none => ?_
    have solid : b.isPlaceholder = false := by rw [Asset.isPlaceholder, none]; rfl
    have file := (closed.exists_call member solid).1
    have content : b.content = whole.contentOf b.path := (closed.content_of_file? member file).2
    obtain ⟨found, resolved⟩ := Build.exists_reference ended member file
    rcases breaks.there found b.path resolved place with ⟨_, empty⟩ | ⟨_, _, failed⟩
    · exact content.trans empty
    · simp [Asset.failure?, content.trans failed] at none

theorem breaks_of_refuses (fs : FileSystem) (extensions : Extensions) (mode : Mode)
    {refusing accepting : Analyzer} {message : String}
    (refuses : refusing.Refuses accepting p message) :
    Breaks ⟨fs, extensions, refusing, mode⟩ ⟨fs, extensions, accepting, mode⟩ p (.refused message) where
  resolve_eq _ := rfl
  elsewhere _ path _ other := by simp only [contentOf, refuses.elsewhere path other]
  there _ path _ place := by
    unfold contentOf
    cases fs.read path with
    | error e => exact .inr ⟨.unreadable e, rfl, rfl⟩
    | ok text =>
      obtain ⟨refused, accepted⟩ := refuses.there path text place
      refine .inl ⟨by simp only [refused], ?_⟩
      simp only [accepted]
      rfl

theorem breaks_of_locks (extensions : Extensions) (mode : Mode) {locked fs : FileSystem}
    {analyzer : Analyzer} {error : FileError} (locks : locked.Locks fs analyzer p error) :
    Breaks ⟨locked, extensions, analyzer, mode⟩ ⟨fs, extensions, analyzer, mode⟩ p
      (.unreadable error) where
  resolve_eq reference := by
    simp only [resolve, candidates, locks.isFile, locks.isDirectory, locks.canonical]
  elsewhere reference path resolved other := by
    obtain ⟨candidate, _, _, rfl⟩ := resolve_eq_ok resolved
    simp only [contentOf, locks.elsewhere candidate other]
  there reference path resolved place := by
    obtain ⟨candidate, _, _, rfl⟩ := resolve_eq_ok resolved
    obtain ⟨lost, text, read, empty⟩ := locks.there candidate place
    refine .inl ⟨by simp only [contentOf, lost], ?_⟩
    simp only [contentOf, read, empty]
    rfl

end Workspace

namespace Build

/-- Builds that differ in whether the module at `p` is refused or empty, or cannot be read or is
empty, are alike but for its failure, whatever their schedules. A file that cannot be read is refused
by neither analyzer, and an entry must be read. -/
theorem broken_alike_empty (fs : FileSystem) (extensions : Extensions) (schedule other : Schedule)
    (limit : Nat) (reference p : Path) :
    (∀ (message : String) (refusing accepting : Analyzer), refusing.Refuses accepting p message →
      (run ⟨fs, extensions, refusing, .lenient⟩ schedule limit reference).outcome.AlikeBut p message
        (run ⟨fs, extensions, accepting, .lenient⟩ other limit reference).outcome) ∧
    ∀ (analyzer : Analyzer) (locked : FileSystem) (error : FileError),
      locked.Locks fs analyzer p error →
      (∀ path, resolve fs extensions reference = .ok path → path.same p = false) →
      (run ⟨locked, extensions, analyzer, .lenient⟩ schedule limit reference).outcome.AlikeBut p
        ("failed to read: " ++ error.message)
        (run ⟨fs, extensions, analyzer, .lenient⟩ other limit reference).outcome := by
  constructor
  · intro message refusing accepting refuses
    exact (Workspace.breaks_of_refuses fs extensions .lenient refuses).alikeBut (fun _ _ => rfl)
      schedule other limit
  · intro analyzer locked error locks dependency
    refine (Workspace.breaks_of_locks extensions .lenient locks).alikeBut (fun path resolved => ?_)
      schedule other limit
    have elsewhere := dependency path resolved
    obtain ⟨candidate, _, _, rfl⟩ := resolve_eq_ok resolved
    exact locks.elsewhere candidate elsewhere

end Build

namespace MemoryFiles

theorem locks_insertLocked {m : MemoryFiles} {p : Path} {analyzer : Analyzer} (clean : p.clean = p)
    (free : p ∉ m.locked) (empty : analyzer p "" = .ok ⟨[], ""⟩) :
    (m.insertLocked p).fileSystem.Locks (m.insert p "").fileSystem analyzer p (.locked p) where
  isFile := rfl
  isDirectory := rfl
  canonical := rfl
  elsewhere q other := by
    have apart : q.clean ≠ p := by
      rintro rfl
      exact absurd ((Path.same_iff _ _).mpr rfl) (Bool.eq_false_iff.mp other)
    have locked : ((m.insertLocked p).locked).contains q.clean = m.locked.contains q.clean := by
      simp [insertLocked, clean, apart]
    simp only [fileSystem, read, Path.clean_clean, locked]
    rfl
  there q place := by
    have here : q.clean = p := by
      have same : q.clean.components = p.components := (Path.same_iff _ _).mp place
      rw [← q.clean_clean, Path.clean_congr same, clean]
    simp only [fileSystem, here]
    refine ⟨?_, "", ?_, empty⟩
    · simp [read, insertLocked, clean]
    · have unlocked : m.locked.contains p = false := by simpa using free
      simp only [read, clean, unlocked, contents?, insert, lookup_put, if_true]
      rfl

end MemoryFiles

namespace Build

def importer : MemoryFiles := .ofList [(⟨"/main.js"⟩, "require('./a')")] []

def refusing : Analyzer := fun q text =>
  if q.same ⟨"/a.js"⟩ then .error "no" else Analysis.analyzer q text

def accepting : Analyzer := fun q text =>
  if q.same ⟨"/a.js"⟩ then .ok ⟨[], ""⟩ else Analysis.analyzer q text

theorem refusing_refuses_accepting : refusing.Refuses accepting ⟨"/a.js"⟩ "no" where
  elsewhere q other := by
    funext text
    simp [refusing, accepting, other]
  there q text place := by simp [refusing, accepting, place]

def importerGraph (content : Content) : Graph :=
  ⟨⟨0, ⟨"/main.js"⟩, .script ⟨["./a"], "require('./a')"⟩, [("./a", 1)]⟩,
    [⟨1, ⟨"/a.js"⟩, content, []⟩]⟩

theorem importer_alike :
    let fs := (importer.insert ⟨"/a.js"⟩ "").fileSystem
    let locked := (importer.insertLocked ⟨"/a.js"⟩).fileSystem
    let empty := run ⟨fs, .default, accepting, .lenient⟩ .inTurn 4 ⟨"/main"⟩
    let refused := run ⟨fs, .default, refusing, .lenient⟩ (.together .inOrder) 4 ⟨"/main"⟩
    let unread := run ⟨locked, .default, accepting, .lenient⟩ (.together .inOrder) 4 ⟨"/main"⟩
    empty.outcome = .finished (importerGraph .empty) ∧
      refusing.Refuses accepting ⟨"/a.js"⟩ "no" ∧
      refused.outcome.AlikeBut ⟨"/a.js"⟩ "no" empty.outcome ∧
      locked.Locks fs accepting ⟨"/a.js"⟩ (.locked ⟨"/a.js"⟩) ∧
      (∀ path, resolve fs .default ⟨"/main"⟩ = .ok path → path.same ⟨"/a.js"⟩ = false) ∧
      unread.outcome.AlikeBut ⟨"/a.js"⟩ "failed to read: /a.js is not readable" empty.outcome := by
  have locks : (importer.insertLocked ⟨"/a.js"⟩).fileSystem.Locks
      (importer.insert ⟨"/a.js"⟩ "").fileSystem accepting ⟨"/a.js"⟩ (.locked ⟨"/a.js"⟩) :=
    MemoryFiles.locks_insertLocked (by decide) (by decide) rfl
  have entry : resolve (importer.insert ⟨"/a.js"⟩ "").fileSystem .default ⟨"/main"⟩ =
      .ok ⟨"/main.js"⟩ := by decide +kernel
  have dependency (path : Path)
      (resolved : resolve (importer.insert ⟨"/a.js"⟩ "").fileSystem .default ⟨"/main"⟩ = .ok path) :
      path.same ⟨"/a.js"⟩ = false := by
    obtain rfl := Except.ok.inj (entry.symm.trans resolved)
    decide
  have reason : "failed to read: " ++ (FileError.locked ⟨"/a.js"⟩).message =
      "failed to read: /a.js is not readable" := by decide +kernel
  obtain ⟨refused, unread⟩ := broken_alike_empty (importer.insert ⟨"/a.js"⟩ "").fileSystem .default
    (.together .inOrder) .inTurn 4 ⟨"/main"⟩ ⟨"/a.js"⟩
  have alike := unread accepting _ _ locks dependency
  rw [reason] at alike
  exact ⟨by decide +kernel, refusing_refuses_accepting,
    refused "no" refusing accepting refusing_refuses_accepting, locks, dependency, alike⟩

/-- What cannot be read is not refused: its failure is the same, whichever analyzer there is. -/
theorem locked_not_refused :
    let fs := (importer.insertLocked ⟨"/a.js"⟩).fileSystem
    let g := importerGraph (.placeholder (.unreadable (.locked ⟨"/a.js"⟩)))
    refusing.Refuses accepting ⟨"/a.js"⟩ "no" ∧
      (run ⟨fs, .default, refusing, .lenient⟩ .inTurn 4 ⟨"/main"⟩).outcome = .finished g ∧
      (run ⟨fs, .default, accepting, .lenient⟩ .inTurn 4 ⟨"/main"⟩).outcome = .finished g ∧
      ∃ a ∈ g.assets, a.path.same ⟨"/a.js"⟩ = true ∧
        a.failure? = some "failed to read: /a.js is not readable" ∧ a.failure? ≠ some "no" := by
  refine ⟨refusing_refuses_accepting, by decide +kernel, by decide +kernel, ?_⟩
  refine ⟨⟨1, ⟨"/a.js"⟩, .placeholder (.unreadable (.locked ⟨"/a.js"⟩)), []⟩, ?_⟩
  decide +kernel

end Build

end ModuleBundle
