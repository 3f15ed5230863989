import ModuleBundle.Proofs.Graph.Modes
import ModuleBundle.Proofs.Loading.Opened

/-!
What a build opens. A module gets its key before it is loaded and no key is given twice, so the
files that a stage opens are new to the build and differ from each other. This holds for every
schedule and wherever a build fails; a build that finishes has opened the file of every module.
-/

set_option autoImplicit false

namespace ModuleBundle

open Session

/-- The file that a module was made from, readable or not. -/
def Asset.file? (a : Asset) : Option Path :=
  match a.content with
  | .placeholder (.unresolved _) => none
  | _ => some a.path

def Stage.files (s : Stage) : List Path := s.modules.filterMap Asset.file?

namespace Asset

variable {a : Asset}

theorem file?_eq_none_iff : a.file? = none ↔ ∃ e, a.content = .placeholder (.unresolved e) := by
  unfold file?
  split
  · rename_i e missing
    exact ⟨fun _ => ⟨e, missing⟩, fun _ => rfl⟩
  · rename_i other
    exact ⟨nofun, fun ⟨e, missing⟩ => absurd missing (other e)⟩

theorem file?_eq_some_iff {path : Path} :
    a.file? = some path ↔ a.path = path ∧ ∀ e, a.content ≠ .placeholder (.unresolved e) := by
  unfold file?
  split
  · rename_i e missing
    exact ⟨nofun, fun ⟨_, other⟩ => absurd missing (other e)⟩
  · rename_i other
    exact ⟨fun same => ⟨Option.some.inj same, other⟩, fun ⟨same, _⟩ => congrArg some same⟩

theorem file?_of_contentOf {w : Workspace} {path : Path} (made : a.content = w.contentOf path) :
    a.file? = some a.path :=
  file?_eq_some_iff.mpr ⟨rfl, fun e => made ▸ w.contentOf_ne_unresolved path e⟩

theorem files_sublist_paths (assets : List Asset) :
    (assets.filterMap file?).Sublist (assets.map path) := by
  induction assets with
  | nil => exact .slnil
  | cons a rest ih =>
    cases file : a.file? with
    | none =>
      rw [List.filterMap_cons_none file]
      exact ih.cons _
    | some path =>
      rw [List.filterMap_cons_some file, ← (file?_eq_some_iff.mp file).1]
      exact ih.cons_cons _

end Asset

namespace Workspace

section

variable {w : Workspace} {α : Type} {take : Pending → Session α} {files : Pending → List Path}

theorem resolutionEvents_openings (cache : ResolutionCache) (importer : Path) (specifier : String) :
    Journal.openings (resolutionEvents cache importer specifier) = [] := by
  unfold resolutionEvents
  split <;> rfl

/-- Following opens what is opened for the modules discovered, and nothing by itself. -/
theorem follow_opens (appends : ∀ pending, (take pending).Appends)
    (opens : ∀ pending, w.Opens (take pending) (files pending)) {known : Knowledge}
    (sound : known.cache.Sound w.fileSystem w.extensions) (importer : Path) (mapping : Mapping)
    (specifiers : List String) :
    w.Opens (w.follow take importer known mapping specifiers)
      ((w.discover importer known.seen mapping specifiers).pending.flatMap files) := by
  -- on the specifiers: a known key opens nothing, a new one the file that it leads to
  induction specifiers generalizing known mapping with
  | nil => exact .pure _
  | cons specifier rest ih =>
    have same := ResolutionCache.resolveFrom_fst sound importer specifier
    have still := ResolutionCache.resolveFrom_snd sound importer specifier
    have silent := resolutionEvents_openings known.cache importer specifier
    simp only [follow, resolveFrom, bind_assoc, pure_bind, discover]
    generalize known.cache.resolveFrom w.fileSystem w.extensions importer specifier = answer
      at same still
    obtain ⟨resolution, cache⟩ := answer
    obtain rfl : resolution = w.resolution importer specifier := same
    dsimp only
    cases known.seen.id? (w.resolution importer specifier).key with
    | some id =>
      have others := @ih ⟨known.seen, cache⟩ still (mapping.insert specifier id)
      exact .record_bind silent (follow_appends appends _ _ _ _) others
    | none =>
      have others := @ih ⟨known.seen.push (w.resolution importer specifier).key, cache⟩ still
        (mapping.insert specifier known.seen.size)
      refine .record_bind silent
        (.bind (appends _) fun _ => .bind (follow_appends appends _ _ _ _) fun _ => .pure _) ?_
      exact .bind (appends _) (fun _ => .bind (follow_appends appends _ _ _ _) fun _ => .pure _)
        (opens _) fun first _ => .bind_pure (follow_appends appends _ _ _ _) others _

theorem visit_opens (appends : ∀ pending, (take pending).Appends)
    (opens : ∀ pending, w.Opens (take pending) (files pending)) {known : Knowledge}
    (sound : known.cache.Sound w.fileSystem w.extensions) (assets : List Asset) :
    w.Opens (w.visit take known assets) ((w.survey known.seen assets).pending.flatMap files) := by
  induction assets generalizing known with
  | nil => exact .pure _
  | cons asset rest ih =>
    obtain ⟨cache, kept, followed⟩ :=
      follow_outcome appends sound asset.path.parent asset.mapping asset.specifiers
    simp only [visit, survey, List.flatMap_append]
    refine .bind (follow_appends appends _ _ _ _)
      (fun _ => .bind (visit_appends appends _ _) fun _ => .pure _)
      (follow_opens appends opens sound _ _ _) fun first ended => ?_
    -- the others are visited with what is known then, which is settled by what was discovered
    have known : first.known =
        ⟨(w.discover asset.path.parent known.seen asset.mapping asset.specifiers).seen, cache⟩ := by
      rw [ended] at followed
      obtain ⟨found, _, rfl⟩ := exists_of_map_eq_ok followed.symm
      rfl
    rw [known]
    exact .bind_pure (visit_appends appends _ _) (@ih ⟨_, cache⟩ kept) _

end

section

variable {w : Workspace}

theorem turn_opens {known : Knowledge} (sound : known.cache.Sound w.fileSystem w.extensions)
    (asset : Asset) (visited waiting : List Asset) :
    w.Opens (w.turn ⟨known, visited, asset :: waiting⟩)
      ((w.survey known.seen [asset]).pending.flatMap Pending.files) :=
  .bind_pure (visit_appends (Pending.load_appends w) _ _)
    (visit_opens (Pending.load_appends w) (fun p => .exact (p.load_openings w)) sound _) _

theorem turns_opens {known : Knowledge} (sound : known.cache.Sound w.fileSystem w.extensions)
    (front visited back : List Asset) :
    w.Opens (w.turns front.length ⟨known, visited, front ++ back⟩)
      ((w.survey known.seen front).pending.flatMap Pending.files) := by
  induction front generalizing known visited back with
  | nil => exact .pure _
  | cons asset rest ih =>
    obtain ⟨cache, kept, turned⟩ := turn_outcome sound asset
    have along : w.survey known.seen (asset :: rest) = _ := survey_append known.seen [asset] rest
    rw [along, List.flatMap_append]
    refine .bind (turn_appends _) (turns_appends _) (turn_opens sound asset visited _)
      fun later ended => ?_
    obtain ⟨found, _, rfl⟩ := exists_of_map_eq_ok ((turned visited (rest ++ back)).symm.trans ended)
    rw [List.append_assoc]
    exact @ih ⟨_, cache⟩ kept _ _

theorem attempt_openings (loads : List (Pending × Nat)) :
    Journal.openings (w.attempt loads []).2 =
      (loads.flatMap fun load => load.1.files).flatMap w.opening := by
  induction loads with
  | nil => rfl
  | cons load rest ih =>
    obtain ⟨events, run⟩ := attempt_run (w := w) rest
    have here : w.attempt (load :: rest) [] =
        ((load.2, load.1.outcome w) :: (w.attempt rest (load.1.load w).events).1,
          (w.attempt rest (load.1.load w).events).2) := rfl
    rw [run, List.nil_append] at ih
    rw [here, run]
    change Journal.openings ((load.1.load w).events ++ events) = _
    rw [Journal.openings, List.filter_append, List.flatMap_cons, List.flatMap_append]
    exact congrArg₂ _ (load.1.load_openings w) ih

theorem loadTogether_opens (completion : Completion) (pending : List Pending) :
    w.Opens (w.loadTogether completion pending) (pending.flatMap Pending.files) := by
  have listed : (pending.zipIdx.flatMap fun load => load.1.files) = pending.flatMap Pending.files := by
    rw [← List.flatMap_map Prod.fst, List.zipIdx_map_fst]
  -- the loads end in an order of their own, and open the same files
  have perm : ((completion.order pending).flatMap fun load => load.1.files).Perm
      (pending.flatMap Pending.files) := listed ▸ (completion.perm pending).flatMap_right _
  have told : (w.loadTogether completion pending).events =
      (w.attempt (completion.order pending) []).2 := by
    change ((ofExcept (gather (w.attempt (completion.order pending) []).1) :
      Session (List Asset)).run.run (w.attempt (completion.order pending) []).2).2 = _
    cases gather _ <;> rfl
  exact ⟨_, perm.subperm, .of_eq (told ▸ attempt_openings _), fun _ _ => perm⟩

theorem round_opens (completion : Completion) {p : Progress}
    (sound : p.known.cache.Sound w.fileSystem w.extensions) :
    w.Opens (w.round completion p) ((w.discovered p.stage).flatMap Pending.files) := by
  obtain ⟨cache, _, surveyed⟩ := visit_pure_outcome sound p.waiting
  have silent : w.Opens (w.visit (fun pending => pure pending) p.known p.waiting) [] := by
    have nothing (pending : List Pending) : (pending.flatMap fun _ => ([] : List Path)) = [] :=
      List.flatMap_eq_nil_iff.mpr fun _ _ => rfl
    have opens := visit_opens Appends.pure (fun _ => .pure _) sound p.waiting
    rwa [nothing] at opens
  refine .bind (visit_appends .pure _ _)
    (fun _ => .bind (loadTogether_appends _ _) fun _ => .pure _) silent fun visit ended => ?_
  obtain rfl := Except.ok.inj (surveyed.symm.trans ended)
  exact .bind_pure (loadTogether_appends _ _) (loadTogether_opens completion _) _

theorem advance_opens (schedule : Schedule) {p : Progress}
    (sound : p.known.cache.Sound w.fileSystem w.extensions) :
    w.Opens (w.advance schedule p) ((w.discovered p.stage).flatMap Pending.files) := by
  cases schedule with
  | inTurn =>
    have opens := turns_opens sound p.waiting p.visited []
    rwa [List.append_nil] at opens
  | together completion => exact round_opens completion sound

end

/-- Files that a build may open that has seen some modules: each was found, and none is the key
of one of these modules or of another file. -/
structure Unseen (w : Workspace) (seen : Seen) (files : List Path) : Prop where
  apart : Seen.Distinct ⟨seen.keys ++ files⟩
  found : ∀ file ∈ files, ∃ reference, resolve w.fileSystem w.extensions reference = .ok file

section

variable {w : Workspace} {reference : Path} {s : Stage} {seen : Seen} {files more : List Path}

theorem Unseen.nil (distinct : seen.Distinct) : w.Unseen seen [] :=
  ⟨(List.append_nil seen.keys).symm ▸ distinct, nofun⟩

theorem Unseen.subperm (unseen : w.Unseen ⟨[]⟩ files) (within : more.Subperm files) :
    w.Unseen ⟨[]⟩ more := by
  refine ⟨?_, fun file member => unseen.found file (within.subset member)⟩
  obtain ⟨same, perm, sub⟩ := within
  have apart : same.Pairwise fun p q => p.components ≠ q.components := unseen.apart.sublist sub
  exact apart.perm perm Ne.symm

theorem files_sublist_keys (pending : List Pending) :
    (pending.flatMap Pending.files).Sublist (pending.map (·.resolution.key)) := by
  induction pending with
  | nil => exact .slnil
  | cons p rest ih =>
    have here : p.files.Sublist [p.resolution.key] := by
      unfold Pending.files Resolution.file? Resolution.key
      cases p.resolution.resolved with
      | error e => exact List.nil_sublist _
      | ok path => exact .refl _
    exact here.append ih

theorem found_of_file? {importer : Path} {specifier : String} {file : Path}
    (leads : (w.resolution importer specifier).file? = some file) :
    ∃ reference, resolve w.fileSystem w.extensions reference = .ok file := by
  unfold resolution Resolution.ofSpecifier Resolution.file? at leads
  split_ifs at leads
  · refine ⟨Resolution.candidateOf importer specifier, ?_⟩
    cases resolved : resolve w.fileSystem w.extensions (Resolution.candidateOf importer specifier) with
    | error e => simp [resolved, Except.toOption] at leads
    | ok path =>
      simp only [resolved, Except.toOption, Option.some.injEq] at leads
      rw [leads]
  · cases leads

theorem Consistent.unseen (holds : w.Consistent reference s)
    (later : w.Unseen (w.survey s.seen s.waiting).seen more) :
    w.Unseen s.seen ((w.discovered s).flatMap Pending.files ++ more) where
  apart := by
    have keys := later.apart
    rw [Seen.Distinct, holds.surveys.keys] at keys
    refine keys.sublist ?_
    rw [← List.append_assoc]
    exact (List.Sublist.append_left (files_sublist_keys _) _).append_right _
  found file member := by
    rcases List.mem_append.mp member with member | member
    · obtain ⟨p, listed, leads⟩ := List.mem_flatMap.mp member
      obtain ⟨a, _, _, _, resolved⟩ := holds.surveys.named p listed
      rw [Pending.files, resolved] at leads
      exact found_of_file? (Option.mem_toList.mp leads)
    · exact later.found file member

end

end Workspace

namespace Pending

variable {w : Workspace}

theorem file?_of_outcome {p : Pending} {b : Asset} (loaded : p.outcome w = .ok b) :
    b.file? = p.resolution.file? := by
  rw [(outcome_ok loaded).1, Resolution.file?]
  cases resolved : p.resolution.resolved with
  | error e =>
    rw [Workspace.contentFor_error resolved]
    rfl
  | ok path =>
    rw [Workspace.contentFor_ok resolved, Resolution.key_of_ok resolved]
    exact Asset.file?_of_contentOf rfl

theorem filterMap_file? {pending : List Pending} {found : List Asset}
    (loaded : pending.map (outcome w) = found.map .ok) :
    found.filterMap Asset.file? = pending.flatMap files := by
  have each : found.map Asset.file? = pending.map (·.resolution.file?) :=
    map_outputs loaded fun _ _ => file?_of_outcome
  have reduced : (found.map Asset.file?).filterMap (fun file => file) = found.filterMap Asset.file? :=
    List.filterMap_map
  rw [← reduced, each, List.filterMap_map]
  exact List.filterMap_eq_flatMap_toList _ _

end Pending

namespace Workspace

variable {w : Workspace} {reference : Path}

/-- What a traversal opens was not seen when it began. If it ends, it has opened the file of
every module that was not loaded before. -/
def Extends (w : Workspace) (s : Stage) (traversal : Session (Option (List Asset)))
    (files : List Path) : Prop :=
  w.Opens traversal files ∧ w.Unseen s.seen files ∧
    ∀ assets, traversal.outcome = .ok (some assets) →
      assets.filterMap Asset.file? = s.files ++ files

theorem extends_of_empty (schedule : Schedule) (limit : Nat) {p : Progress}
    (distinct : p.stage.seen.Distinct) (empty : p.waiting = []) :
    w.Extends p.stage (w.traverse schedule limit p) [] := by
  rw [traverse_of_empty schedule limit empty]
  refine ⟨.pure _, .nil distinct, fun assets ended => ?_⟩
  obtain rfl := Option.some.inj (Except.ok.inj ended)
  rw [Stage.files, modules_of_empty empty, List.filterMap_map, List.append_nil]
  rfl

theorem traverse_opens (schedule : Schedule) (limit : Nat) {p : Progress}
    (holds : w.Consistent reference p.stage)
    (sound : p.known.cache.Sound w.fileSystem w.extensions) :
    ∃ files, w.Extends p.stage (w.traverse schedule limit p) files := by
  induction limit generalizing p with
  | zero =>
    refine ⟨[], .pure _, .nil holds.distinct, fun assets ended => ?_⟩
    by_cases empty : p.waiting = []
    · exact (extends_of_empty schedule 0 holds.distinct empty).2.2 assets ended
    · simp [traverse, empty, outcome_pure] at ended
  | succ limit ih =>
    by_cases empty : p.waiting = []
    · exact ⟨[], extends_of_empty schedule _ holds.distinct empty⟩
    obtain ⟨cache, kept, came⟩ := advance_outcome schedule sound
    have opens := advance_opens schedule sound
    cases advanced : w.next p.stage with
    | error e =>
      simp only [advanced] at came
      obtain ⟨e, _, failed⟩ := came
      -- some files of this generation may have been opened, and none of a later one
      refine ⟨_, ?_, holds.unseen (.nil holds.surveys.distinct), fun assets ended => ?_⟩
      · rw [traverse_succ schedule limit empty, List.append_nil]
        exact .bind_error (advance_appends schedule p) (traverse_appends schedule limit) opens failed
      · rw [traverse_succ_outcome schedule empty, failed] at ended
        cases ended
    | ok later =>
      simp only [advanced] at came
      obtain ⟨found, loaded, same⟩ := next_eq_ok advanced
      have seen : later.seen = (w.survey p.stage.seen p.stage.waiting).seen := by rw [same]
      have waiting : later.waiting = found := by rw [same]
      obtain ⟨more, opensMore, unseen, finished⟩ :=
        ih (p := later.progress cache) (holds.next advanced) kept
      refine ⟨_, ?_, holds.unseen (seen ▸ unseen), fun assets ended => ?_⟩
      · rw [traverse_succ schedule limit empty]
        refine .bind (advance_appends schedule p) (traverse_appends schedule limit) opens
          fun value ended => ?_
        obtain rfl := Except.ok.inj (came.symm.trans ended)
        exact opensMore
      · rw [traverse_succ_outcome schedule empty, came] at ended
        rw [finished assets ended]
        change later.files ++ _ = _
        rw [Stage.files, holds.modules_next advanced, List.filterMap_append, waiting,
          Pending.filterMap_file? loaded, List.append_assoc]
        rfl

theorem unseen_of_resolve (reference : Path) :
    w.Unseen ⟨[]⟩ (resolve w.fileSystem w.extensions reference).toOption.toList := by
  cases resolved : resolve w.fileSystem w.extensions reference with
  | error e => exact .nil .nil
  | ok path =>
    refine ⟨List.pairwise_singleton _ _, fun file member => ⟨reference, ?_⟩⟩
    rw [List.mem_singleton.mp member]
    exact resolved

theorem graph_opens (schedule : Schedule) (limit : Nat) (reference : Path) :
    ∃ files, w.Opens (w.graph schedule limit reference) files ∧ w.Unseen ⟨[]⟩ files ∧
      ∀ g, (w.graph schedule limit reference).outcome = .ok (some g) →
        g.assets.filterMap Asset.file? = files := by
  have entryOpens : w.Opens (w.loadEntry 0 reference)
      (resolve w.fileSystem w.extensions reference).toOption.toList :=
    .exact (w.loadEntry_openings reference)
  have rest (entry : Asset) : (w.traverse schedule limit (.start entry) >>= fun assets? =>
      (pure (assets?.bind Graph.ofAssets?) : Session (Option Graph))).Appends :=
    .bind (traverse_appends schedule limit _) fun _ => .pure _
  cases loaded : (w.loadEntry 0 reference).outcome with
  | error e =>
    -- the entry may have been read and still not be loaded
    refine ⟨_, .bind_error (loadEntry_appends reference) rest entryOpens loaded,
      unseen_of_resolve reference, fun g ended => ?_⟩
    rw [graph_outcome, loaded] at ended
    cases ended
  | ok entry =>
    obtain ⟨path, resolved, made, _⟩ := loadEntry_ok loaded
    have file : entry.loaded.file? = some path := by
      rw [made]
      exact Asset.file?_of_contentOf rfl
    rw [resolved] at entryOpens
    obtain ⟨files, opens, unseen, finished⟩ :=
      traverse_opens schedule limit (consistent_entry loaded) ResolutionCache.empty_sound
    have first : (Progress.start entry).stage.seen.keys = [path] := by rw [made]; rfl
    refine ⟨[path] ++ files, .bind (loadEntry_appends reference) rest entryOpens
      fun value ended => ?_, ⟨?_, ?_⟩, fun g ended => ?_⟩
    · obtain rfl := Except.ok.inj (loaded.symm.trans ended)
      exact .bind_pure (traverse_appends schedule limit _) opens _
    · exact first ▸ unseen.apart
    · intro other member
      rcases List.mem_append.mp member with member | member
      · exact ⟨reference, List.mem_singleton.mp member ▸ resolved⟩
      · exact unseen.found other member
    · rw [graph_outcome, loaded] at ended
      obtain ⟨assets?, traversed, made⟩ := exists_of_map_eq_ok ended
      obtain ⟨assets, rfl, whole⟩ := Option.bind_eq_some_iff.mp made.symm
      rw [Graph.assets_of_ofAssets? whole, finished assets traversed]
      change [entry.loaded].filterMap _ ++ _ = _
      rw [List.filterMap_cons_some file]
      rfl

end Workspace

/-- The files that a build opened: each was found, no two are the same, and those of a build that
finished are the files of its modules. -/
theorem Build.exists_opened (w : Workspace) (schedule : Schedule) (limit : Nat) (reference : Path) :
    ∃ opened, (run w schedule limit reference).journal.openings.Perm (opened.flatMap w.opening) ∧
      w.Unseen ⟨[]⟩ opened ∧ ∀ g, (run w schedule limit reference).outcome = .finished g →
        opened.Perm (g.assets.filterMap Asset.file?) := by
  obtain ⟨files, ⟨opened, within, told, complete⟩, unseen, finished⟩ :=
    w.graph_opens schedule limit reference
  refine ⟨opened, told, unseen.subperm within, fun g ended => ?_⟩
  have made := Outcome.of_eq_finished_iff.mp ended
  rw [finished g made]
  exact complete _ made

theorem Build.exists_reference {w : Workspace} {schedule : Schedule} {limit : Nat} {reference : Path}
    {g : Graph} (finished : (run w schedule limit reference).outcome = .finished g) {a : Asset}
    (member : a ∈ g.assets) {path : Path} (file : a.file? = some path) :
    ∃ reference, resolve w.fileSystem w.extensions reference = .ok path := by
  obtain ⟨opened, _, unseen, files⟩ := exists_opened w schedule limit reference
  exact unseen.found path ((files g finished).mem_iff.mpr (List.mem_filterMap.mpr ⟨a, member, file⟩))

end ModuleBundle
