import ModuleBundle.Proofs.Graph.Faithfulness

/-!
Strict and lenient builds of one entry. Both go through the same generations until something
cannot be loaded; there the strict build ends, and the lenient one goes on with a placeholder.
So the strict build tells of the first placeholder of the lenient one, and without placeholders
they end alike.
-/

set_option autoImplicit false

namespace ModuleBundle

open Session

/-- The error tells why the module is a placeholder. -/
def BundleError.Describes (a : Asset) : BundleError → Prop
  | .unresolvedDependency _ _ source =>
    a.content = .placeholder (.unresolved source) ∧ source.reference = a.path ∧
      a.failure? = some source.message
  | .dependencyUnreadable path source =>
    a.content = .placeholder (.unreadable source) ∧ path = a.path ∧
      a.failure? = some ("failed to read: " ++ source.message)
  | .analysisFailed path source =>
    a.content = .placeholder (.refused source) ∧ path = a.path ∧ a.failure? = some source
  | .entryNotFound _ => False
  | .entryUnreadable _ _ => False

theorem BundleError.describes_congr {a b : Asset} (path : a.path = b.path)
    (content : a.content = b.content) (e : BundleError) : e.Describes a ↔ e.Describes b := by
  have failure : a.failure? = b.failure? := by simp only [Asset.failure?, content]
  cases e <;> simp only [Describes, path, content, failure]

theorem BundleError.describes_ofFailure {a : Asset} {failure : Failure}
    (placed : a.content = .placeholder failure)
    (named : ∀ e, failure = .unresolved e → e.reference = a.path)
    (specifier : String) (importer : Path) :
    (ofFailure specifier importer a.path failure).Describes a := by
  have text : a.failure? = some failure.message := by simp only [Asset.failure?, placed]
  cases failure with
  | unresolved e => exact ⟨placed, named e rfl, text⟩
  | unreadable e => exact ⟨placed, rfl, text⟩
  | refused message => exact ⟨placed, rfl, text⟩

namespace Workspace

def under (w : Workspace) (mode : Mode) : Workspace := { w with mode }

def EntryFails (w : Workspace) (reference : Path) : BundleError → Prop
  | .entryNotFound e => resolve w.fileSystem w.extensions reference = .error e
  | .entryUnreadable path e =>
    resolve w.fileSystem w.extensions reference = .ok path ∧ w.fileSystem.read path = .error e
  | _ => False

/-- How a build in turn goes on from a stage. -/
def complete (w : Workspace) : Nat → Stage → Except BundleError (Option (List Asset))
  | 0, s => .ok (if s.waiting = [] then some s.visited else none)
  | limit + 1, s => if s.waiting = [] then .ok (some s.visited) else w.next s >>= w.complete limit

variable {w : Workspace}

theorem traverse_inTurn_outcome (limit : Nat) {p : Progress}
    (sound : p.known.cache.Sound w.fileSystem w.extensions) :
    (w.traverse .inTurn limit p).outcome = w.complete limit p.stage := by
  induction limit generalizing p with
  | zero => rfl
  | succ limit ih =>
    by_cases empty : p.waiting = []
    · rw [traverse_of_empty .inTurn _ empty]
      exact (if_pos empty).symm
    · obtain ⟨cache, settled, advanced⟩ := advance_inTurn sound
      rw [traverse_succ_outcome .inTurn empty, advanced]
      refine Eq.trans ?_ (if_neg empty).symm
      cases w.next p.stage with
      | error e => rfl
      | ok later => exact ih (p := later.progress cache) settled

theorem discover_under (mode : Mode) (importer : Path) (seen : Seen) (mapping : Mapping)
    (specifiers : List String) :
    (w.under mode).discover importer seen mapping specifiers =
      w.discover importer seen mapping specifiers := by
  induction specifiers generalizing seen mapping with
  | nil => rfl
  | cons specifier rest ih =>
    simp only [discover, ih]
    rfl

theorem survey_under (mode : Mode) (seen : Seen) (assets : List Asset) :
    (w.under mode).survey seen assets = w.survey seen assets := by
  induction assets generalizing seen with
  | nil => rfl
  | cons asset rest ih => simp only [survey, discover_under, ih]

end Workspace

namespace Pending

variable (w : Workspace)

def asset (p : Pending) : Asset := ⟨p.id, p.resolution.key, w.contentFor p.resolution, []⟩

theorem outcome_lenient (p : Pending) : p.outcome (w.under .lenient) = .ok (p.asset w) := by
  have same : (w.under .lenient).contentFor p.resolution = w.contentFor p.resolution := rfl
  rw [outcome, load, Workspace.loadDependency_outcome, same, asset]
  cases w.contentFor p.resolution <;> rfl

variable {w} in
/-- A strict build fails exactly where a lenient one takes a placeholder. -/
theorem outcome_strict {p : Pending}
    (named : ∀ e, p.resolution.resolved = .error e → e.reference = p.resolution.candidate) :
    p.outcome (w.under .strict) = .ok (p.asset w) ∧ (p.asset w).isPlaceholder = false ∨
      ∃ e, p.outcome (w.under .strict) = .error e ∧ (p.asset w).isPlaceholder = true ∧
        e.Describes (p.asset w) := by
  have same : (w.under .strict).contentFor p.resolution = w.contentFor p.resolution := rfl
  rw [outcome, load, Workspace.loadDependency_outcome, same]
  cases content : w.contentFor p.resolution with
  | script analysis =>
    left
    simp only [asset, content, Asset.isPlaceholder, Asset.failure?]
    exact ⟨rfl, rfl⟩
  | placeholder failure =>
    right
    refine ⟨.ofFailure p.specifier p.importer p.resolution.key failure, rfl, ?_, ?_⟩
    · simp only [asset, content, Asset.isPlaceholder, Asset.failure?, Option.isSome_some]
    · apply BundleError.describes_ofFailure (a := p.asset w) content
      intro e missing
      -- only a reference without a file is told as unresolved, under its candidate
      cases resolved : p.resolution.resolved with
      | ok path =>
        rw [Workspace.contentFor_ok resolved, missing] at content
        exact absurd content (w.contentOf_ne_unresolved path e)
      | error other =>
        rw [Workspace.contentFor_error resolved, missing] at content
        have same : other = e := by simpa using content
        have candidate : p.resolution.key = p.resolution.candidate := by
          rw [Resolution.key, resolved]
        subst same
        exact (named other resolved).trans candidate.symm

end Pending

namespace Workspace

variable {w : Workspace} {reference : Path} {s : Stage} {limit : Nat}

theorem reference_of_resolution {importer : Path} {specifier : String} {e : Unresolved}
    (missing : (w.resolution importer specifier).resolved = .error e) :
    e.reference = (w.resolution importer specifier).candidate := by
  simp only [resolution, Resolution.ofSpecifier] at missing ⊢
  split_ifs at missing ⊢
  · simp only [resolve] at missing
    cases found : (candidates w.fileSystem w.extensions
        (Resolution.candidateOf importer specifier)).find? w.fileSystem.isFile with
    | some path => simp [found] at missing
    | none =>
      simp only [found, Except.error.injEq] at missing
      rw [← missing]
  · rw [← Except.error.inj missing]

theorem discovered_under (mode : Mode) (s : Stage) : (w.under mode).discovered s = w.discovered s := by
  simp only [discovered, survey_under]

theorem next_under (mode : Mode) (s : Stage) :
    (w.under mode).next s = (⟨(w.survey s.seen s.waiting).seen,
      s.visited ++ (w.survey s.seen s.waiting).visited, ·⟩) <$>
        (w.discovered s).mapM (Pending.outcome (w.under mode)) := by
  simp only [next, discovered_under, survey_under]

theorem next_lenient (w : Workspace) (s : Stage) :
    (w.under .lenient).next s = .ok ⟨(w.survey s.seen s.waiting).seen,
      s.visited ++ (w.survey s.seen s.waiting).visited, (w.discovered s).map (Pending.asset w)⟩ := by
  have borne : (w.discovered s).mapM (Pending.outcome (w.under .lenient)) =
      .ok ((w.discovered s).map (Pending.asset w)) := by
    rw [mapM_eq_ok_iff, List.map_map]
    exact List.map_congr_left fun p _ => p.outcome_lenient w
  rw [next_under, borne]
  rfl

theorem next_strict (holds : (w.under .lenient).Consistent reference s) :
    ∃ t, (w.under .lenient).next s = .ok t ∧
      ((w.under .strict).next s = .ok t ∧ t.waiting.find? Asset.isPlaceholder = none ∨
        ∃ e a, (w.under .strict).next s = .error e ∧
          t.waiting.find? Asset.isPlaceholder = some a ∧ e.Describes a) := by
  have ends : ∀ p ∈ w.discovered s, _ := fun p listed => p.outcome_strict (w := w) <| by
    rw [← discovered_under .lenient] at listed
    obtain ⟨a, _, _, _, resolved⟩ := holds.surveys.named p listed
    intro e missing
    rw [resolved] at missing ⊢
    exact reference_of_resolution missing
  -- the lenient build takes whatever each load gives, the strict one all but placeholders
  refine ⟨_, next_lenient w s, ?_⟩
  rw [next_under]
  rcases mapM_ok_or_first_bad (Pending.asset w) Asset.isPlaceholder
    (fun (e : BundleError) a => e.Describes a) ends with ⟨each, none⟩ | ⟨e, a, failed, first, describes⟩
  · left
    rw [each]
    exact ⟨rfl, none⟩
  · right
    rw [failed]
    exact ⟨e, a, rfl, first, describes⟩

theorem complete_of_empty (limit : Nat) (empty : s.waiting = []) :
    w.complete limit s = .ok (some s.visited) := by
  cases limit <;> simp only [complete, if_pos empty]

theorem modules_of_empty (empty : s.waiting = []) : s.modules = s.visited.map Asset.loaded := by
  rw [Stage.modules, empty, List.append_nil]

theorem complete_lenient (limit : Nat) (holds : (w.under .lenient).Consistent reference s) :
    ∃ result, (w.under .lenient).complete limit s = .ok result ∧
      ∀ assets, result = some assets → s.modules <+: assets.map Asset.loaded := by
  induction limit generalizing s with
  | zero =>
    refine ⟨_, rfl, fun assets finished => ?_⟩
    split_ifs at finished with empty
    obtain rfl := Option.some.inj finished
    exact modules_of_empty empty ▸ List.prefix_rfl
  | succ limit ih =>
    by_cases empty : s.waiting = []
    · refine ⟨_, complete_of_empty _ empty, fun assets finished => ?_⟩
      obtain rfl := Option.some.inj finished
      exact modules_of_empty empty ▸ List.prefix_rfl
    · obtain ⟨t, advanced, _⟩ := next_strict holds
      obtain ⟨result, completed, kept⟩ := ih (holds.next advanced)
      refine ⟨result, ?_, fun assets finished => ?_⟩
      · rw [complete, if_neg empty, advanced]
        exact completed
      · have longer := holds.modules_next advanced
        exact (List.prefix_append _ _).trans (longer ▸ kept assets finished)

/-- The strict build ends as the lenient one does, without placeholders, or else fails for the
first of its placeholders. -/
def Mirrors (lenient strict : Except BundleError (Option (List Asset))) : Prop :=
  ∃ result, lenient = .ok result ∧
    (strict = .ok result ∧
        (∀ assets, result = some assets → assets.find? Asset.isPlaceholder = none) ∨
      ∃ e, strict = .error e ∧ ∀ assets, result = some assets →
        ∃ a, assets.find? Asset.isPlaceholder = some a ∧ e.Describes a)

theorem find?_map_loaded (assets : List Asset) :
    (assets.map Asset.loaded).find? Asset.isPlaceholder =
      (assets.find? Asset.isPlaceholder).map Asset.loaded :=
  List.find?_map

theorem mirrors_of_error (holds : (w.under .lenient).Consistent reference s) {e : BundleError}
    {a : Asset} (first : s.modules.find? Asset.isPlaceholder = some a) (describes : e.Describes a)
    {strict : Except BundleError (Option (List Asset))} (failed : strict = .error e) :
    Mirrors ((w.under .lenient).complete limit s) strict := by
  obtain ⟨result, completed, kept⟩ := complete_lenient limit holds
  refine ⟨result, completed, .inr ⟨e, failed, fun assets finished => ?_⟩⟩
  obtain ⟨more, whole⟩ := kept assets finished
  have found := find?_map_loaded assets
  rw [← whole, List.find?_append, first, Option.some_or] at found
  obtain ⟨b, here, same⟩ := Option.map_eq_some_iff.mp found.symm
  subst same
  exact ⟨b, here, (BundleError.describes_congr rfl rfl e).mp describes⟩

/-- From a stage without placeholders, both builds keep step until the strict one fails. -/
theorem complete_mirrors (limit : Nat) (holds : (w.under .lenient).Consistent reference s)
    (clean : s.modules.find? Asset.isPlaceholder = none) :
    Mirrors ((w.under .lenient).complete limit s) ((w.under .strict).complete limit s) := by
  have visited (empty : s.waiting = []) : s.visited.find? Asset.isPlaceholder = none := by
    rwa [modules_of_empty empty, find?_map_loaded, Option.map_eq_none_iff] at clean
  induction limit generalizing s with
  | zero =>
    refine ⟨_, rfl, .inl ⟨rfl, fun assets finished => ?_⟩⟩
    split_ifs at finished with empty
    exact Option.some.inj finished ▸ visited empty
  | succ limit ih =>
    by_cases empty : s.waiting = []
    · refine ⟨_, complete_of_empty _ empty, .inl ⟨complete_of_empty _ empty, fun assets finished => ?_⟩⟩
      exact Option.some.inj finished ▸ visited empty
    · obtain ⟨t, advanced, step⟩ := next_strict holds
      have later := holds.next advanced
      have modules := holds.modules_next advanced
      rcases step with ⟨same, without⟩ | ⟨e, a, failed, first, describes⟩
      · have still : t.modules.find? Asset.isPlaceholder = none := by
          rw [modules, List.find?_append, clean, without, Option.or_none]
        have rest := ih later still fun empty => by
          rwa [modules_of_empty empty, find?_map_loaded, Option.map_eq_none_iff] at still
        simp only [complete, if_neg empty, advanced, same]
        exact rest
      · have found : t.modules.find? Asset.isPlaceholder = some a := by
          rw [modules, List.find?_append, clean, first, Option.none_or]
        have lenient : (w.under .lenient).complete (limit + 1) s =
            (w.under .lenient).complete limit t := by
          rw [complete, if_neg empty, advanced]
          rfl
        have strict : (w.under .strict).complete (limit + 1) s = .error e := by
          rw [complete, if_neg empty, failed]
          rfl
        -- here the strict build ends; the lenient one goes on and loses nothing it has
        rw [lenient]
        exact mirrors_of_error later found describes strict

/-- What a build comes to whose entry is loaded and whose traversal ends with `result`. -/
def ended (result : Except BundleError (Option (List Asset))) : Outcome :=
  .of ((·.bind Graph.ofAssets?) <$> result)

theorem assets_of_ended {result : Option (List Asset)} {g : Graph}
    (finished : ended (.ok result) = .finished g) : result = some g.assets := by
  have made := Except.ok.inj (Outcome.of_eq_finished_iff.mp finished)
  obtain ⟨assets, same, made⟩ := Option.bind_eq_some_iff.mp made
  rw [same, Graph.assets_of_ofAssets? made]

theorem ended_ok_ne_failed (result : Option (List Asset)) (e : BundleError) :
    ended (.ok result) ≠ .failed e := by
  cases result with
  | none => exact nofun
  | some assets => cases assets <;> exact nofun

theorem run_inTurn_ok {entry : Asset} (loaded : (w.loadEntry 0 reference).outcome = .ok entry)
    (limit : Nat) :
    (Build.run w .inTurn limit reference).outcome =
      ended (w.complete limit (Progress.start entry).stage) := by
  have sound : (Progress.start entry).known.cache.Sound w.fileSystem w.extensions :=
    ResolutionCache.empty_sound
  rw [Build.run_outcome, graph_outcome, loaded]
  exact congrArg ended (traverse_inTurn_outcome limit sound)

theorem run_inTurn_error {e : BundleError} (failed : (w.loadEntry 0 reference).outcome = .error e)
    (limit : Nat) : (Build.run w .inTurn limit reference).outcome = .failed e := by
  rw [Build.run_outcome, graph_outcome, failed]
  rfl

theorem loadEntry_under (mode : Mode) (reference : Path) :
    ((w.under mode).loadEntry 0 reference).outcome =
      match resolve w.fileSystem w.extensions reference with
      | .error e => .error (.entryNotFound e)
      | .ok path =>
        match w.fileSystem.read path with
        | .error e => .error (.entryUnreadable path e)
        | .ok _ => (w.under mode).settle 0 path (.ofFailure "" ⟨""⟩ path) (w.contentOf path) :=
  loadEntry_outcome reference

theorem EntryFails.outcome {e : BundleError} (fails : w.EntryFails reference e) (mode : Mode) :
    ((w.under mode).loadEntry 0 reference).outcome = .error e := by
  rw [loadEntry_under]
  cases e with
  | entryNotFound u =>
    simp only [EntryFails] at fails
    simp only [fails]
  | entryUnreadable path u =>
    obtain ⟨resolved, lost⟩ := fails
    simp only [resolved, lost]
  | _ => exact absurd fails id

/-- An entry that is found and read is loaded; if it is refused, it is a placeholder of the
lenient build, and the strict one fails for it. -/
theorem loadEntry_cases (w : Workspace) (reference : Path) :
    (∃ e, w.EntryFails reference e) ∨
      ∃ entry, ((w.under .lenient).loadEntry 0 reference).outcome = .ok entry ∧
        (((w.under .strict).loadEntry 0 reference).outcome = .ok entry ∧
            entry.isPlaceholder = false ∨
          ∃ e, ((w.under .strict).loadEntry 0 reference).outcome = .error e ∧
            entry.isPlaceholder = true ∧ e.Describes entry) := by
  cases resolved : resolve w.fileSystem w.extensions reference with
  | error e => exact .inl ⟨.entryNotFound e, resolved⟩
  | ok path =>
    cases read : w.fileSystem.read path with
    | error e => exact .inl ⟨.entryUnreadable path e, resolved, read⟩
    | ok text =>
      refine .inr ⟨⟨0, path, w.contentOf path, []⟩, ?_⟩
      simp only [loadEntry_under, resolved, read]
      cases content : w.contentOf path with
      | script analysis => exact ⟨rfl, .inl ⟨rfl, rfl⟩⟩
      | placeholder failure =>
        refine ⟨rfl, .inr ⟨.ofFailure "" ⟨""⟩ path failure, rfl, rfl, ?_⟩⟩
        apply BundleError.describes_ofFailure (a := ⟨0, path, .placeholder failure, []⟩) rfl
        intro e missing
        rw [missing] at content
        exact absurd content (w.contentOf_ne_unresolved path e)

theorem run_mirrors (w : Workspace) (limit : Nat) (reference : Path) :
    (∃ e, w.EntryFails reference e) ∨ ∃ lenient strict, Mirrors lenient strict ∧
      (Build.run (w.under .lenient) .inTurn limit reference).outcome = ended lenient ∧
      (Build.run (w.under .strict) .inTurn limit reference).outcome = ended strict := by
  rcases loadEntry_cases w reference with fails | ⟨entry, loaded, step⟩
  · exact .inl fails
  · right
    have holds := consistent_entry loaded
    have first : (Progress.start entry).stage.modules = [entry.loaded] := rfl
    refine ⟨(w.under .lenient).complete limit (Progress.start entry).stage, ?_⟩
    -- the entry itself may be the first placeholder
    rcases step with ⟨same, solid⟩ | ⟨e, failed, placeholder, describes⟩
    · refine ⟨(w.under .strict).complete limit (Progress.start entry).stage,
        complete_mirrors limit holds ?_, run_inTurn_ok loaded limit, run_inTurn_ok same limit⟩
      rw [first, List.find?_singleton, if_neg]
      exact fun placeholder => Bool.false_ne_true (solid.symm.trans placeholder)
    · refine ⟨.error e, mirrors_of_error holds (a := entry.loaded) ?_ ?_ rfl,
        run_inTurn_ok loaded limit, run_inTurn_error failed limit⟩
      · rw [first, List.find?_singleton, if_pos]
        exact placeholder
      · exact (BundleError.describes_congr rfl rfl e).mp describes

end Workspace

namespace Graph

variable {w : Workspace} {reference : Path} {g : Graph}

theorem placeholders_eq_nil_iff :
    g.placeholders = [] ↔ g.assets.find? Asset.isPlaceholder = none := by
  rw [placeholders, List.filter_eq_nil_iff, List.find?_eq_none]

theorem id_le_of_find? (closed : w.Closed reference g.assets) {a : Asset}
    (first : g.assets.find? Asset.isPlaceholder = some a) {b : Asset} (listed : b ∈ g.placeholders) :
    a.id ≤ b.id := by
  obtain ⟨present, placeholder⟩ := List.mem_filter.mp listed
  obtain ⟨_, front, back, cut, solid⟩ := List.find?_eq_some_iff_append.mp first
  have here : g.assets[front.length]? = some a := by
    rw [cut, List.getElem?_append_right le_rfl, Nat.sub_self]
    rfl
  have there := closed.getElem?_id present
  rw [closed.id_eq here]
  -- a module with a smaller number stands in front of the first placeholder
  by_contra before
  rw [cut, List.getElem?_append_left (by omega)] at there
  have kept := solid b (List.mem_of_getElem? there)
  simp [placeholder] at kept

end Graph

namespace Build

/-- Strict and lenient builds in turn. A lenient build fails only for an entry that is not found
or cannot be read, and then the strict one fails alike. The strict build finishes exactly with
the graphs without placeholders that the lenient one finishes with; where that has placeholders,
the strict build fails, and its error describes the one with the smallest number. -/
theorem strict_agrees_with_lenient (w : Workspace) (limit : Nat) (reference : Path) :
    let lenient := (run (w.under .lenient) .inTurn limit reference).outcome
    let strict := (run (w.under .strict) .inTurn limit reference).outcome
    (∀ e, lenient = .failed e ↔ w.EntryFails reference e) ∧
    (∀ e, lenient = .failed e → strict = .failed e) ∧
    (∀ g, strict = .finished g ↔ lenient = .finished g ∧ g.placeholders = []) ∧
    (∀ g, lenient = .finished g → g.placeholders ≠ [] →
      ∃ e, strict = .failed e ∧ ∃ a ∈ g.placeholders,
        (∀ b ∈ g.placeholders, a.id ≤ b.id) ∧ e.Describes a) := by
  intro lenient strict
  have entry {e : BundleError} (fails : w.EntryFails reference e) (mode : Mode) :
      (run (w.under mode) .inTurn limit reference).outcome = .failed e :=
    Workspace.run_inTurn_error (fails.outcome mode) limit
  have closed {g : Graph} (finished : lenient = .finished g) :=
    (completes_of_finished finished).closed
  rcases w.run_mirrors limit reference with ⟨e, fails⟩ | ⟨_, _, mirrors, one, other⟩
  · have failed : lenient = .failed e := entry fails .lenient
    have alike : strict = .failed e := entry fails .strict
    rw [failed, alike]
    refine ⟨fun e' => ⟨fun same => ?_, fun fails' => ?_⟩, fun e' same => same, ?_, nofun⟩
    · exact Outcome.failed.inj same ▸ fails
    · exact failed.symm.trans (entry fails' .lenient)
    · exact fun g => ⟨nofun, fun finished => nomatch finished.1⟩
  -- the entry is loaded, so that the lenient build fails no more
  · obtain ⟨result, rfl, step⟩ := mirrors
    have never (e : BundleError) (failed : lenient = .failed e) : False :=
      Workspace.ended_ok_ne_failed result e (one.symm.trans failed)
    refine ⟨fun e => ⟨fun failed => (never e failed).elim, fun fails => entry fails .lenient⟩,
      fun e failed => (never e failed).elim, ?_⟩
    -- the strict build ends as the lenient one, or at the first placeholder of the latter
    rcases step with ⟨rfl, solid⟩ | ⟨e, rfl, found⟩
    · have alike : strict = lenient := other.trans one.symm
      have without (g : Graph) (finished : lenient = .finished g) : g.placeholders = [] :=
        Graph.placeholders_eq_nil_iff.mpr
          (solid _ (Workspace.assets_of_ended (one.symm.trans finished)))
      rw [alike]
      exact ⟨fun g => ⟨fun finished => ⟨finished, without g finished⟩, And.left⟩,
        fun g finished some => absurd (without g finished) some⟩
    · have failed : strict = .failed e := other
      have first (g : Graph) (finished : lenient = .finished g) :
          ∃ a, g.assets.find? Asset.isPlaceholder = some a ∧ e.Describes a :=
        found _ (Workspace.assets_of_ended (one.symm.trans finished))
      rw [failed]
      constructor
      · intro g
        refine ⟨nofun, fun ⟨finished, without⟩ => ?_⟩
        obtain ⟨a, here, _⟩ := first g finished
        rw [Graph.placeholders_eq_nil_iff.mp without] at here
        cases here
      · intro g finished _
        obtain ⟨a, here, describes⟩ := first g finished
        refine ⟨e, rfl, a, ?_, fun b listed => ?_, describes⟩
        · exact List.mem_filter.mpr ⟨List.mem_of_find?_eq_some here, List.find?_some here⟩
        · exact Graph.id_le_of_find? (closed finished) here listed

example :
    (run (Graph.sample.under .strict) .inTurn 3 ⟨"/main"⟩).outcome =
      .failed (.unresolvedDependency "b" ⟨"/"⟩ ⟨⟨"b"⟩, []⟩) := by
  decide +kernel

end Build

end ModuleBundle
