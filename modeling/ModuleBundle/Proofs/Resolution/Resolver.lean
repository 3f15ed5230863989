import Mathlib.Data.List.TakeWhile
import ModuleBundle.Proofs.FileSystem.Memory
import ModuleBundle.Proofs.Resolution.Remembered

/-!
A resolver that is asked one thing after the other while files are added. What a specifier leads to
from a directory is settled by the files that were there when this was asked first, in whatever
spelling of the directory; what a reference leads to is settled by the files that are there now, and
leaves nothing behind.
-/

set_option autoImplicit false

namespace ModuleBundle

/-- A resolver with the files that it looks into. -/
structure Resolver where
  files : MemoryFiles
  cache : ResolutionCache

namespace Resolver

inductive Request where
  | add (change : MemoryFiles.Change)
  | resolve (reference : Path)
  | resolveFrom (directory : Path) (specifier : String)
  deriving DecidableEq, Repr

inductive Answer where
  | added
  | file (found : Except Unresolved Path)
  | resolution (found : Resolution)

def answer (extensions : Extensions) (r : Resolver) : Request → Answer × Resolver
  | .add change => (.added, { r with files := change.apply r.files })
  | .resolve reference => (.file (ModuleBundle.resolve r.files.fileSystem extensions reference), r)
  | .resolveFrom directory specifier =>
    let (found, cache) := r.cache.resolveFrom r.files.fileSystem extensions directory specifier
    (.resolution found, { r with cache })

def answers (extensions : Extensions) : Resolver → List Request → List Answer
  | _, [] => []
  | r, request :: rest =>
    (r.answer extensions request).1 :: answers extensions (r.answer extensions request).2 rest

def after (extensions : Extensions) : Resolver → List Request → Resolver
  | r, [] => r
  | r, request :: rest => after extensions (r.answer extensions request).2 rest

namespace Request

def applyTo (m : MemoryFiles) : Request → MemoryFiles
  | .add change => change.apply m
  | .resolve _ => m
  | .resolveFrom _ _ => m

/-- Whether a request is for what a specifier leads to from a directory, in whatever spelling. -/
def asksFor (directory : Path) (specifier : String) : Request → Bool
  | .add _ => false
  | .resolve _ => false
  | .resolveFrom other name => other.same directory && name = specifier

theorem asksFor_resolveFrom {directory other : Path} {specifier name : String} :
    (resolveFrom other name).asksFor directory specifier = true ↔
      CacheKey.of other name = CacheKey.of directory specifier := by
  simp [asksFor, Path.same, CacheKey.of]

end Request

def filesAfter (m : MemoryFiles) (requests : List Request) : MemoryFiles :=
  requests.foldl Request.applyTo m

/-- The files that were there when it was first asked what a specifier leads to from a directory: at
the first such request among those before, or now if there is none. -/
def filesWhenAsked (m : MemoryFiles) (before : List Request) (directory : Path)
    (specifier : String) : MemoryFiles :=
  filesAfter m (before.takeWhile fun request => !request.asksFor directory specifier)

variable {extensions : Extensions}

theorem files_answer (r : Resolver) (request : Request) :
    (r.answer extensions request).2.files = request.applyTo r.files := by
  cases request <;> rfl

theorem files_after (r : Resolver) (requests : List Request) :
    (r.after extensions requests).files = filesAfter r.files requests := by
  induction requests generalizing r with
  | nil => rfl
  | cons request rest ih => rw [after, ih, files_answer, filesAfter, filesAfter, List.foldl_cons]

theorem filesAfter_of_nothing_added (m : MemoryFiles) {requests : List Request}
    (nothing : ∀ change, .add change ∉ requests) : filesAfter m requests = m := by
  induction requests with
  | nil => rfl
  | cons request rest ih =>
    have later : filesAfter m rest = m :=
      ih fun change member => nothing change (List.mem_cons_of_mem request member)
    cases request with
    | add change => exact absurd List.mem_cons_self (nothing change)
    | resolve reference => exact later
    | resolveFrom directory specifier => exact later

theorem answer_resolveFrom (r : Resolver) (directory : Path) (specifier : String) :
    r.answer extensions (.resolveFrom directory specifier) =
      (.resolution (r.cache.resolveFrom r.files.fileSystem extensions directory specifier).1,
        ⟨r.files, (r.cache.resolveFrom r.files.fileSystem extensions directory specifier).2⟩) := rfl

theorem lookup_answer (r : Resolver) (request : Request) (directory : Path) (specifier : String) :
    (r.answer extensions request).2.cache.entries.lookup (.of directory specifier) =
      (r.cache.entries.lookup (.of directory specifier)).or
        (if request.asksFor directory specifier then
          some (.ofSpecifier r.files.fileSystem extensions directory specifier) else none) := by
  cases request with
  | add change => exact Option.or_none.symm
  | resolve reference => exact Option.or_none.symm
  | resolveFrom other name =>
    rw [answer_resolveFrom, ResolutionCache.lookup_resolveFrom]
    refine congrArg _ (ite_congr (propext Request.asksFor_resolveFrom.symm) (fun asked => ?_) fun _ => rfl)
    have same := Request.asksFor_resolveFrom.mp asked
    have directories : other.components = directory.components := congrArg CacheKey.directory same
    have specifiers : name = specifier := congrArg CacheKey.specifier same
    rw [specifiers, Resolution.ofSpecifier_congr _ _ directories]

theorem lookup_after (r : Resolver) (requests : List Request) (directory : Path)
    (specifier : String) :
    (r.after extensions requests).cache.entries.lookup (.of directory specifier) =
      (r.cache.entries.lookup (.of directory specifier)).or
        (if requests.any (Request.asksFor directory specifier) then
          some (.ofSpecifier (filesWhenAsked r.files requests directory specifier).fileSystem
            extensions directory specifier) else none) := by
  induction requests generalizing r with
  | nil => exact Option.or_none.symm
  | cons request rest ih =>
    rw [after, ih, lookup_answer, Option.or_assoc, List.any_cons, files_answer]
    -- Either the first request asks for it, and no later one counts, or it is passed over.
    cases asked : request.asksFor directory specifier with
    | true => simp [asked, filesWhenAsked, filesAfter]
    | false =>
      rw [filesWhenAsked, filesWhenAsked, List.takeWhile_cons_of_pos (by simp [asked])]
      simp only [Bool.false_eq_true, if_false, Option.none_or, Bool.false_or, filesAfter,
        List.foldl_cons]

theorem length_answers (r : Resolver) (requests : List Request) :
    (r.answers extensions requests).length = requests.length := by
  induction requests generalizing r with
  | nil => rfl
  | cons request rest ih => rw [answers, List.length_cons, List.length_cons, ih]

theorem answers_append (r : Resolver) (before later : List Request) :
    r.answers extensions (before ++ later) =
      r.answers extensions before ++ (r.after extensions before).answers extensions later := by
  induction before generalizing r with
  | nil => rfl
  | cons request rest ih => rw [List.cons_append, answers, answers, after, ih, List.cons_append]

theorem getElem?_answers (r : Resolver) (before : List Request) (request : Request)
    (later : List Request) :
    (r.answers extensions (before ++ request :: later))[before.length]? =
      some ((r.after extensions before).answer extensions request).1 := by
  rw [answers_append, List.getElem?_append_right (Nat.le_of_eq (length_answers r before)),
    length_answers, Nat.sub_self, answers, List.getElem?_cons_zero]

theorem getElem?_answers_resolveFrom (m : MemoryFiles) (before later : List Request)
    (directory : Path) (specifier : String) :
    (answers extensions ⟨m, .empty⟩
        (before ++ .resolveFrom directory specifier :: later))[before.length]? =
      some (.resolution (.ofSpecifier (filesWhenAsked m before directory specifier).fileSystem
        extensions directory specifier)) := by
  rw [getElem?_answers, answer_resolveFrom, ResolutionCache.resolveFrom_fst_eq_getD, lookup_after,
    files_after]
  have fresh : ResolutionCache.empty.entries.lookup (.of directory specifier) = none := rfl
  rw [fresh, Option.none_or]
  split_ifs with asked
  · rfl
  · have all : (before.takeWhile fun request => !request.asksFor directory specifier) = before := by
      refine List.takeWhile_eq_self_iff.mpr fun request member => ?_
      have unasked := List.any_eq_false.mp (eq_false_of_ne_true asked) request member
      simpa using unasked
    rw [filesWhenAsked, all]
    rfl

/-- After some requests a resolver answers the next one without a trace of its memory, but that it
keeps to the files that were there when it was first asked. -/
structure Transparent (extensions : Extensions) (m : MemoryFiles) (before later : List Request) :
    Prop where
  resolveFrom : ∀ directory specifier,
    (answers extensions ⟨m, .empty⟩
        (before ++ .resolveFrom directory specifier :: later))[before.length]? =
      some (.resolution (.ofSpecifier (filesWhenAsked m before directory specifier).fileSystem
        extensions directory specifier))
  resolve : ∀ reference,
    (answers extensions ⟨m, .empty⟩ (before ++ .resolve reference :: later))[before.length]? =
      some (.file (ModuleBundle.resolve (filesAfter m before).fileSystem extensions reference))
  traceless : ∀ reference,
    (answers extensions ⟨m, .empty⟩ (before ++ .resolve reference :: later)).eraseIdx before.length =
      answers extensions ⟨m, .empty⟩ (before ++ later)
  unchanged : (∀ change, .add change ∉ before) → ∀ directory specifier,
    (answers extensions ⟨m, .empty⟩
        (before ++ .resolveFrom directory specifier :: later))[before.length]? =
      some (.resolution (.ofSpecifier m.fileSystem extensions directory specifier))

theorem transparent (extensions : Extensions) (m : MemoryFiles) (before later : List Request) :
    Transparent extensions m before later where
  resolveFrom := getElem?_answers_resolveFrom m before later
  resolve reference := by
    rw [getElem?_answers, answer, files_after]
  traceless reference := by
    rw [answers_append, answers_append, answers, answer,
      List.eraseIdx_append_of_length_le (Nat.le_of_eq (length_answers _ before)), length_answers,
      Nat.sub_self, List.eraseIdx_cons_zero]
  unchanged nothing directory specifier := by
    rw [getElem?_answers_resolveFrom, filesWhenAsked,
      filesAfter_of_nothing_added m fun change member =>
        nothing change (List.takeWhile_subset _ member)]

/-- A file that comes late is found by its reference, but not by a specifier that was asked for
before it was there, in another spelling of the directory. -/
theorem lateFile_remembered :
    let requests : List Request :=
      [.resolveFrom ⟨"/app"⟩ "./b", .add (.insert ⟨"/app/b.js"⟩ ""), .resolve ⟨"/app/b"⟩]
    let given := answers .default ⟨.empty, .empty⟩ (requests ++ [.resolveFrom ⟨"/app/./"⟩ "./b"])
    given[2]? = some (.file (.ok ⟨"/app/b.js"⟩)) ∧
      ∃ found, given[3]? = some (.resolution found) ∧ found.key = ⟨"/app/b"⟩ ∧
        found.resolved = .error ⟨⟨"/app/b"⟩,
          [⟨"/app/b.js"⟩, ⟨"/app/b.jsx"⟩, ⟨"/app/b.mjs"⟩, ⟨"/app/b.cjs"⟩]⟩ := by
  have before := transparent .default .empty
    [.resolveFrom ⟨"/app"⟩ "./b", .add (.insert ⟨"/app/b.js"⟩ "")] [.resolveFrom ⟨"/app/./"⟩ "./b"]
  have behind := transparent .default .empty
    [.resolveFrom ⟨"/app"⟩ "./b", .add (.insert ⟨"/app/b.js"⟩ ""), .resolve ⟨"/app/b"⟩] []
  have late : resolve (filesAfter .empty [.resolveFrom ⟨"/app"⟩ "./b",
      .add (.insert ⟨"/app/b.js"⟩ "")]).fileSystem .default ⟨"/app/b"⟩ = .ok ⟨"/app/b.js"⟩ := by
    decide +kernel
  refine ⟨(before.resolve ⟨"/app/b"⟩).trans (by rw [late]), _, behind.resolveFrom _ _, ?_, ?_⟩
  · decide +kernel
  · decide +kernel

end Resolver

end ModuleBundle
