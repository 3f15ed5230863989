import ModuleBundle.Proofs.Loading.Loaded
import ModuleBundle.Proofs.Resolution.Remembered
import ModuleBundle.Proofs.Results

/-!
What following specifiers discovers. It depends on the modules seen before and on the file
system, but neither on what is done with the modules discovered nor on the resolutions that
are remembered; so it is told apart from both here, and following is shown to do no more than
to discover and to do, in the same order, what there is to do with each module.
-/

set_option autoImplicit false

namespace ModuleBundle

open Session

structure Discovery where
  seen : Seen
  mapping : Mapping
  pending : List Pending

structure Survey where
  visited : List Asset
  seen : Seen
  pending : List Pending

namespace Workspace

def resolution (w : Workspace) (importer : Path) (specifier : String) : Resolution :=
  .ofSpecifier w.fileSystem w.extensions importer specifier

def discover (w : Workspace) (importer : Path) : Seen → Mapping → List String → Discovery
  | seen, mapping, [] => ⟨seen, mapping, []⟩
  | seen, mapping, specifier :: rest =>
    let resolution := w.resolution importer specifier
    match seen.id? resolution.key with
    | some id => w.discover importer seen (mapping.insert specifier id) rest
    | none =>
      let others := w.discover importer (seen.push resolution.key)
        (mapping.insert specifier seen.size) rest
      { others with pending := ⟨seen.size, specifier, importer, resolution⟩ :: others.pending }

def survey (w : Workspace) : Seen → List Asset → Survey
  | seen, [] => ⟨[], seen, []⟩
  | seen, asset :: rest =>
    let first := w.discover asset.path.parent seen asset.mapping asset.specifiers
    let others := w.survey first.seen rest
    ⟨{ asset with mapping := first.mapping } :: others.visited, others.seen,
      first.pending ++ others.pending⟩

variable {w : Workspace} {α : Type} {take : Pending → Session α}

theorem resolveFrom_appends (cache : ResolutionCache) (importer : Path) (specifier : String) :
    (w.resolveFrom cache importer specifier).Appends :=
  .bind (.record _) fun _ => .pure _

theorem follow_appends (appends : ∀ pending, (take pending).Appends) (importer : Path)
    (known : Knowledge) (mapping : Mapping) (specifiers : List String) :
    (w.follow take importer known mapping specifiers).Appends := by
  induction specifiers generalizing known mapping with
  | nil => exact .pure _
  | cons specifier rest ih =>
    refine .bind (resolveFrom_appends _ _ _) fun ⟨resolution, cache⟩ => ?_
    dsimp only
    split
    · exact ih _ _
    · exact .bind (appends _) fun _ => .bind (ih _ _) fun _ => .pure _

theorem visit_appends (appends : ∀ pending, (take pending).Appends) (known : Knowledge)
    (assets : List Asset) : (w.visit take known assets).Appends := by
  induction assets generalizing known with
  | nil => exact .pure _
  | cons asset rest ih =>
    exact .bind (follow_appends appends _ _ _ _) fun _ => .bind (ih _) fun _ => .pure _

/-- Following is discovering, and doing with each module discovered what there is to do. -/
theorem follow_outcome (appends : ∀ pending, (take pending).Appends) {known : Knowledge}
    (sound : known.cache.Sound w.fileSystem w.extensions) (importer : Path) (mapping : Mapping)
    (specifiers : List String) :
    ∃ cache : ResolutionCache, cache.Sound w.fileSystem w.extensions ∧
      (w.follow take importer known mapping specifiers).outcome =
        let found := w.discover importer known.seen mapping specifiers
        (⟨⟨found.seen, cache⟩, found.mapping, ·⟩) <$>
          found.pending.mapM fun pending => (take pending).outcome := by
  induction specifiers generalizing known mapping with
  | nil => exact ⟨known.cache, sound, rfl⟩
  | cons specifier rest ih =>
    have same := ResolutionCache.resolveFrom_fst sound importer specifier
    have still := ResolutionCache.resolveFrom_snd sound importer specifier
    simp only [follow, resolveFrom, bind_assoc, pure_bind, discover]
    -- Remembered or not, the answer is what resolving anew gives; only that matters from here on.
    generalize known.cache.resolveFrom w.fileSystem w.extensions importer specifier = answer
      at same still
    obtain ⟨resolution, cache⟩ := answer
    obtain rfl : resolution = w.resolution importer specifier := same
    dsimp only
    cases known.seen.id? (w.resolution importer specifier).key with
    | some id =>
      dsimp only
      rw [outcome_record_bind _ (follow_appends appends _ _ _ _)]
      exact ih still _
    | none =>
      let pending : Pending := ⟨known.seen.size, specifier, importer, w.resolution importer specifier⟩
      obtain ⟨last, settled, ended⟩ := @ih
        ⟨known.seen.push (w.resolution importer specifier).key, cache⟩ still
        (mapping.insert specifier known.seen.size)
      refine ⟨last, settled, ?_⟩
      dsimp only at ended ⊢
      rw [outcome_record_bind _
          (.bind (appends _) fun _ => .bind (follow_appends appends _ _ _ _) fun _ => .pure _),
        outcome_bind (appends _) fun _ => .bind (follow_appends appends _ _ _ _) fun _ => .pure _,
        List.mapM_cons]
      simp only [outcome_bind_pure (follow_appends appends _ _ _ _), ended]
      cases (take pending).outcome with
      | error e => rfl
      | ok first =>
        cases List.mapM (fun pending => (take pending).outcome) (w.discover importer _ _ rest).pending <;>
          rfl

theorem visit_outcome (appends : ∀ pending, (take pending).Appends) {known : Knowledge}
    (sound : known.cache.Sound w.fileSystem w.extensions) (assets : List Asset) :
    ∃ cache : ResolutionCache, cache.Sound w.fileSystem w.extensions ∧
      (w.visit take known assets).outcome =
        let found := w.survey known.seen assets
        (⟨found.visited, ⟨found.seen, cache⟩, ·⟩) <$>
          found.pending.mapM fun pending => (take pending).outcome := by
  -- on the modules visited: each hands a sound cache on to the next
  induction assets generalizing known with
  | nil => exact ⟨known.cache, sound, rfl⟩
  | cons asset rest ih =>
    obtain ⟨between, kept, first⟩ :=
      follow_outcome appends sound asset.path.parent asset.mapping asset.specifiers
    obtain ⟨cache, settled, others⟩ :=
      @ih ⟨(w.discover asset.path.parent known.seen asset.mapping asset.specifiers).seen, between⟩ kept
    refine ⟨cache, settled, ?_⟩
    simp only [visit, survey]
    rw [outcome_bind (follow_appends appends _ _ _ _)
      fun _ => .bind (visit_appends appends _ _) fun _ => .pure _, first]
    refine map_mapM_bind fun found => ?_
    rw [outcome_bind_pure (visit_appends appends _ _), others]
    exact Functor.map_map _ _ _

end Workspace

end ModuleBundle
