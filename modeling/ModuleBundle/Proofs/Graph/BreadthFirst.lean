import Mathlib.Data.Nat.Find
import Mathlib.Order.Bounds.Basic
import ModuleBundle.Proofs.Graph.Closure

/-!
The order of modules. A build writes down the keys that it meets, each the first time, so the
paths of a finished graph are the first occurrences among the entry's path and the keys of all
specifiers, in the order of the modules they are written in. No module stands in front of one
that fewer imports lead to.
-/

set_option autoImplicit false

namespace ModuleBundle

theorem Path.same_comm (p q : Path) : p.same q = q.same p := by
  rw [Bool.eq_iff_iff, same_iff, same_iff, eq_comm]

namespace Seen

variable {s t : Seen} {key other : Path} {keys : List Path}

/-- Meets keys one after the other, and writes down those not seen before. -/
def meet (s : Seen) : List Path → Seen
  | [] => s
  | key :: rest =>
    match s.id? key with
    | some _ => s.meet rest
    | none => (s.push key).meet rest

theorem meet_append (s : Seen) (front back : List Path) :
    s.meet (front ++ back) = (s.meet front).meet back := by
  induction front generalizing s with
  | nil => rfl
  | cons key rest ih =>
    simp only [List.cons_append, meet]
    cases s.id? key with
    | some id => exact ih s
    | none => exact ih (s.push key)

def fresh (s : Seen) (key : Path) : Bool := s.keys.all fun known => !known.same key

theorem fresh_iff : s.fresh key = true ↔ s.id? key = none := by
  simp [id?, fresh, List.findIdx?_eq_none_iff]

theorem fresh_push (s : Seen) (key other : Path) :
    (s.push key).fresh other = (s.fresh other && decide (other.same key = false)) := by
  simp [fresh, push, List.all_append, Path.same_comm key other]

theorem keys_meet (s : Seen) (keys : List Path) :
    (s.meet keys).keys = s.keys ++ (keys.filter s.fresh).eraseDupsBy Path.same := by
  induction keys generalizing s with
  | nil => exact (List.append_nil _).symm
  | cons key rest ih =>
    cases known : s.id? key with
    | some id =>
      have stale : ¬ s.fresh key = true := fun fresh => by
        rw [fresh_iff.mp fresh] at known
        cases known
      rw [List.filter_cons_of_neg stale, meet, known]
      exact ih s
    | none =>
      -- what is fresh behind the key is fresh in front of it and differs from it
      have later : rest.filter (s.push key).fresh =
          (rest.filter s.fresh).filter fun other => decide (other.same key = false) := by
        rw [List.filter_filter]
        refine List.filter_congr fun other _ => ?_
        rw [fresh_push, Bool.and_comm]
      rw [List.filter_cons_of_pos (fresh_iff.mpr known), List.eraseDupsBy_cons, meet, known]
      dsimp only
      rw [ih, later, push, List.append_assoc, List.singleton_append]

theorem keys_meet_singleton (first : Path) (keys : List Path) :
    (meet ⟨[first]⟩ keys).keys = (first :: keys).eraseDupsBy Path.same := by
  have others : keys.filter (fresh ⟨[first]⟩) =
      keys.filter fun other => decide (other.same first = false) := by
    refine List.filter_congr fun other _ => ?_
    simp [fresh, Path.same_comm first other]
  rw [keys_meet, List.eraseDupsBy_cons, others, List.singleton_append]

theorem before_meet (s : Seen) (keys : List Path) : s.Before (s.meet keys) := ⟨_, keys_meet s keys⟩

theorem exists_of_mem_meet (member : other ∈ (s.meet keys).keys) :
    other ∈ s.keys ∨ other ∈ keys := by
  induction keys generalizing s with
  | nil => exact .inl member
  | cons key rest ih =>
    rw [meet] at member
    cases known : s.id? key with
    | some id =>
      rw [known] at member
      exact (ih member).imp_right (List.mem_cons_of_mem key)
    | none =>
      rw [known] at member
      rcases ih member with early | late
      · rcases List.mem_append.mp early with early | here
        · exact .inl early
        · exact .inr (List.mem_singleton.mp here ▸ List.mem_cons_self)
      · exact .inr (List.mem_cons_of_mem key late)

theorem exists_id?_meet (member : key ∈ keys) : ∃ id, (s.meet keys).id? key = some id := by
  induction keys generalizing s with
  | nil => cases member
  | cons first rest ih =>
    rw [meet]
    rcases List.mem_cons.mp member with rfl | member
    · cases known : s.id? key with
      | some id => exact ⟨id, id?_before (before_meet s rest) known⟩
      | none => exact ⟨s.size, id?_before (before_meet _ rest) (id?_push_self known)⟩
    · cases s.id? first with
      | some id => exact ih member
      | none => exact ih member

theorem id?_lt {id : Nat} (found : s.id? key = some id) : id < s.size := by
  obtain ⟨bound, _⟩ := List.findIdx?_eq_some_iff_getElem.mp found
  exact bound

end Seen

namespace Workspace

variable {w : Workspace}

def keysOf (w : Workspace) (a : Asset) : List Path :=
  a.specifiers.map fun specifier => (w.resolution a.path.parent specifier).key

theorem discover_seen (importer : Path) (seen : Seen) (mapping : Mapping)
    (specifiers : List String) :
    (w.discover importer seen mapping specifiers).seen =
      seen.meet (specifiers.map fun specifier => (w.resolution importer specifier).key) := by
  induction specifiers generalizing seen mapping with
  | nil => rfl
  | cons specifier rest ih =>
    rw [discover, List.map_cons, Seen.meet]
    dsimp only
    cases seen.id? (w.resolution importer specifier).key with
    | some id => exact ih _ _
    | none => exact ih _ _

theorem survey_seen (seen : Seen) (assets : List Asset) :
    (w.survey seen assets).seen = seen.meet (assets.flatMap w.keysOf) := by
  induction assets generalizing seen with
  | nil => rfl
  | cons asset rest ih =>
    rw [survey, List.flatMap_cons, Seen.meet_append]
    dsimp only
    rw [ih, discover_seen]
    rfl

theorem Surveys.flatMap_keysOf {seen : Seen} {assets : List Asset} {s : Survey}
    (surveys : w.Surveys seen assets s) :
    s.visited.flatMap w.keysOf = assets.flatMap w.keysOf := by
  rw [← surveys.loaded, List.flatMap_map]
  rfl

variable {reference : Path} {assets : List Asset} {a b c : Asset} {i j k : Nat}

/-- At every stage, what was seen are the keys met by the modules visited. -/
theorem Generation.seen_eq {depth : Nat} {s : Stage} {entry : Asset}
    (loaded : (w.loadEntry 0 reference).outcome = .ok entry)
    (reached : w.Generation reference depth s) :
    s.seen = Seen.meet ⟨[entry.path]⟩ (s.visited.flatMap w.keysOf) := by
  induction reached with
  | entry again =>
    cases loaded.symm.trans again
    rfl
  | later before _ advanced ih =>
    obtain ⟨found, _, rfl⟩ := next_eq_ok advanced
    dsimp only
    rw [List.flatMap_append, Seen.meet_append, ← ih, survey_seen,
      before.consistent.surveys.flatMap_keysOf]

theorem Completes.paths (complete : w.Completes reference assets) {entry : Asset}
    (loaded : (w.loadEntry 0 reference).outcome = .ok entry) :
    Seen.mk (assets.map Asset.path) = Seen.meet ⟨[entry.path]⟩ (assets.flatMap w.keysOf) := by
  obtain ⟨depth, s, reached, empty, rfl⟩ := complete
  have keys := reached.consistent.keys
  rw [Stage.modules, empty, List.append_nil, List.map_map] at keys
  rw [← reached.seen_eq loaded]
  exact congrArg Seen.mk keys.symm

end Workspace

namespace Graph

/-- A chain of imports: from the entry, by a specifier of a module at each step, to a key. -/
inductive Chain (w : Workspace) (g : Graph) : Nat → Path → Prop where
  | entry {key : Path} (same : key.same g.entry.path = true) : g.Chain w 0 key
  | step {length : Nat} {a : Asset} {specifier : String} {key : Path} (listed : a ∈ g.assets)
      (before : g.Chain w length a.path) (specified : specifier ∈ a.specifiers)
      (leads : key.same (w.resolution a.path.parent specifier).key = true) :
      g.Chain w (length + 1) key

/-- How many imports lead from the entry to a key on the shortest way. -/
def Distance (w : Workspace) (g : Graph) (key : Path) (length : Nat) : Prop :=
  IsLeast {length | g.Chain w length key} length

/-- Modules stand in the order in which their keys occur first, they are the ones that imports
lead to from the entry, and none stands in front of one that fewer imports lead to. -/
structure BreadthFirst (w : Workspace) (g : Graph) : Prop where
  order : g.assets.map Asset.path =
    (g.entry.path :: g.assets.flatMap w.keysOf).eraseDupsBy Path.same
  reached : ∀ key : Path,
    (∃ a ∈ g.assets, a.path.same key = true) ↔ ∃ length, g.Chain w length key
  nearer : ∀ i j a b, i ≤ j → g.get? i = some a → g.get? j = some b →
    ∃ m n, g.Distance w a.path m ∧ g.Distance w b.path n ∧ m ≤ n

variable {w : Workspace} {reference : Path} {g : Graph} {key : Path} {i j k length : Nat}
  {a b c : Asset}

theorem Chain.congr (chain : g.Chain w length key) {other : Path} (same : other.same key = true) :
    g.Chain w length other := by
  have trans {third : Path} (leads : key.same third = true) : other.same third = true := by
    rw [Path.same_iff] at *
    exact same.trans leads
  cases chain with
  | entry here => exact .entry (trans here)
  | step listed before specified leads => exact .step listed before specified (trans leads)

section
variable (closed : w.Closed reference g.assets)
include closed

/-- If the specifiers of a module lead to another, then those of a module no further behind
lead to any that stands in front of it. -/
theorem exists_importer_in_front
    (paths : Seen.mk (g.assets.map Asset.path) =
      Seen.meet ⟨[g.entry.path]⟩ (g.assets.flatMap w.keysOf))
    (ahead : i ≤ j) (first : g.get? i = some b) (second : g.get? j = some c)
    (importer : g.get? k = some a) (leads : key ∈ w.keysOf a)
    (same : c.path.components = key.components) :
    b = g.entry ∨ ∃ l ≤ k, ∃ d, g.get? l = some d ∧ b.path ∈ w.keysOf d := by
  let front := g.assets.take (k + 1)
  let met := Seen.meet ⟨[g.entry.path]⟩ (front.flatMap w.keysOf)
  have before : met.Before ⟨g.assets.map Asset.path⟩ := by
    rw [paths, ← List.take_append_drop (k + 1) g.assets, List.flatMap_append, Seen.meet_append]
    exact Seen.before_meet _ _
  -- the key has the number of its module as soon as the modules in front have met it
  have number : met.id? key = some j := by
    have inFront : a ∈ front := by
      refine List.mem_of_getElem? (i := k) ?_
      rw [List.getElem?_take_of_lt (Nat.lt_succ_self k)]
      exact importer
    obtain ⟨id, found⟩ := Seen.exists_id?_meet (s := ⟨[g.entry.path]⟩)
      (List.mem_flatMap.mpr ⟨a, inFront, leads⟩)
    have whole := (closed.id?_eq_some_iff key j).mpr ⟨c, second, same⟩
    rw [Seen.id?_before before found] at whole
    rw [← Option.some.inj whole]
    exact found
  have listed : b.path ∈ met.keys := by
    obtain ⟨more, keys⟩ := before
    have short : i < met.keys.length := ahead.trans_lt (Seen.id?_lt number)
    have here : (met.keys ++ more)[i]? = some b.path := by
      rw [← keys, List.getElem?_map]
      exact congrArg (Option.map Asset.path) first
    rw [List.getElem?_append_left short] at here
    exact List.mem_of_getElem? here
  rcases Seen.exists_of_mem_meet listed with entry | later
  · left
    refine closed.eq_of_path (List.mem_of_getElem? first) List.mem_cons_self ?_
    rw [List.mem_singleton.mp entry]
  · right
    obtain ⟨d, inFront, leads⟩ := List.mem_flatMap.mp later
    obtain ⟨l, found⟩ := List.mem_iff_getElem?.mp inFront
    rw [List.getElem?_take] at found
    split at found
    next short => exact ⟨l, Nat.le_of_lt_succ short, d, found, leads⟩
    next => cases found

theorem Chain.exists_le (chain : g.Chain w length key)
    (paths : Seen.mk (g.assets.map Asset.path) =
      Seen.meet ⟨[g.entry.path]⟩ (g.assets.flatMap w.keysOf))
    (ahead : i ≤ j) (first : g.get? i = some b) (second : g.get? j = some c)
    (same : c.path.components = key.components) :
    ∃ shorter ≤ length, g.Chain w shorter b.path := by
  -- on the chain: an importer in front of the first module has a chain that is no longer
  induction chain generalizing i j b c with
  | entry here =>
    have last : c = g.entry := closed.eq_of_path (List.mem_of_getElem? second) List.mem_cons_self
      (same.trans ((Path.same_iff _ _).mp here))
    have zero : j = 0 := by
      rw [← closed.id_eq second, last]
      exact closed.id_eq (rfl : g.assets[0]? = some g.entry)
    obtain rfl : i = 0 := Nat.eq_zero_of_le_zero (zero ▸ ahead)
    obtain rfl : g.entry = b := Option.some.inj first
    exact ⟨0, Nat.le_refl 0, .entry ((Path.same_iff _ _).mpr rfl)⟩
  | @step length a specifier key listed before specified leads ih =>
    obtain ⟨k, importer⟩ := List.mem_iff_getElem?.mp listed
    have meets : (w.resolution a.path.parent specifier).key ∈ w.keysOf a :=
      List.mem_map_of_mem specified
    have leads := same.trans ((Path.same_iff _ _).mp leads)
    rcases exists_importer_in_front closed paths ahead first second importer meets leads with
      rfl | ⟨l, early, d, found, meets⟩
    · exact ⟨0, Nat.zero_le _, .entry ((Path.same_iff _ _).mpr rfl)⟩
    · obtain ⟨shorter, below, chain⟩ := ih early found importer rfl
      obtain ⟨other, specified, key⟩ := List.mem_map.mp meets
      refine ⟨shorter + 1, Nat.succ_le_succ below, ?_⟩
      exact .step (List.mem_of_getElem? found) chain specified ((Path.same_iff _ _).mpr (key ▸ rfl))

theorem exists_of_chain (chain : g.Chain w length key) :
    ∃ a ∈ g.assets, a.path.same key = true := by
  induction chain with
  | entry here => exact ⟨g.entry, List.mem_cons_self, Path.same_comm _ _ ▸ here⟩
  | step listed _ specified leads _ =>
    obtain ⟨b, present, _, same⟩ := closed.exists_of_specifier listed specified
    refine ⟨b, present, (Path.same_iff _ _).mpr (same.trans ?_)⟩
    exact ((Path.same_iff _ _).mp leads).symm

theorem exists_chain (listed : b ∈ g.assets) : ∃ length, g.Chain w length b.path := by
  -- a module but the entry has its chain from one that stands in front of it
  induction number : b.id using Nat.strongRecOn generalizing b with
  | ind id ih =>
    rcases closed.entry_or_stems listed with ⟨zero, _⟩ | stems
    · have first : g.entry = b := closed.eq_of_id List.mem_cons_self listed
        ((closed.id_eq (rfl : g.assets[0]? = some g.entry)).trans zero.symm)
      exact ⟨0, .entry ((Path.same_iff _ _).mpr (first ▸ rfl))⟩
    · obtain ⟨a, present, before, specifier, specified, loaded⟩ := stems
      obtain ⟨length, chain⟩ := ih a.id (number ▸ before) present rfl
      have key : b.path = (w.resolution a.path.parent specifier).key :=
        congrArg Asset.path (Pending.outcome_ok loaded).1
      exact ⟨length + 1, .step present chain specified ((Path.same_iff _ _).mpr (key ▸ rfl))⟩

end

theorem exists_distance (reached : ∃ length, g.Chain w length key) :
    ∃ least, g.Distance w key least := by
  classical
  exact ⟨Nat.find reached, Nat.find_spec reached, fun _ chain => Nat.find_min' reached chain⟩

theorem breadthFirst_of_finished {schedule : Schedule} {limit : Nat}
    (finished : (Build.run w schedule limit reference).outcome = .finished g) :
    g.BreadthFirst w := by
  have complete := Build.completes_of_finished finished
  have closed := complete.closed
  have paths := complete.paths (entry_loaded closed)
  refine ⟨?_, fun key => ⟨?_, ?_⟩, ?_⟩
  · exact (congrArg Seen.keys paths).trans (Seen.keys_meet_singleton _ _)
  · rintro ⟨a, listed, same⟩
    obtain ⟨length, chain⟩ := exists_chain closed listed
    exact ⟨length, chain.congr (Path.same_comm _ _ ▸ same)⟩
  · rintro ⟨length, chain⟩
    exact exists_of_chain closed chain
  · intro i j a b ahead first second
    obtain ⟨m, near⟩ := exists_distance (exists_chain closed (List.mem_of_getElem? first))
    obtain ⟨n, far⟩ := exists_distance (exists_chain closed (List.mem_of_getElem? second))
    obtain ⟨shorter, below, chain⟩ := Chain.exists_le closed far.1 paths ahead first second rfl
    exact ⟨m, n, near, far, (near.2 chain).trans below⟩

theorem sampleGraph_breadthFirst :
    (Build.run sample .inTurn 3 ⟨"/main"⟩).outcome = .finished sampleGraph ∧
      sampleGraph.BreadthFirst sample :=
  ⟨sample_finished, breadthFirst_of_finished sample_finished⟩

end Graph

end ModuleBundle
