import ModuleBundle.Loading
import ModuleBundle.Text.Split

/-!
The options of a build, and how they are read from arguments. An option that takes a value
has it behind an equals sign or in the next argument; its value counts as soon as something
else follows, so that what is wrong with it is reported before what is wrong there.
-/

set_option autoImplicit false

namespace ModuleBundle

structure Options where
  entry : Path
  /-- Where the bundle is written; without it, the bundle is printed. -/
  out : Option Path
  strict : Bool
  parallel : Bool
  extensions : List String
  /-- Where the graph is written. -/
  graph : Option Path
  deriving DecidableEq, Repr

inductive UsageError where
  | unknownArgument
  /-- A value is missing, or empty where it names a path. -/
  | invalidValue
  /-- What may be given once is given again. -/
  | argumentConflict
  /-- A value where none is taken. -/
  | tooManyValues
  | missingRequiredArgument
  | displayHelp
  deriving DecidableEq, Repr

namespace Options

def default (entry : Path) : Options :=
  ⟨entry, none, false, false, Extensions.default.list, none⟩

def mode (o : Options) : Mode := if o.strict then .strict else .lenient

inductive Slot where
  | entry | out | extensions | graph
  deriving DecidableEq, Repr

structure Given where
  entry : Option String
  out : Option String
  strict : Bool
  parallel : Bool
  extensions : Option (List String)
  graph : Option String
  /-- The last thing that takes a value, and the value if it has come. -/
  pending : Option (Slot × Option String)

namespace Given

def none : Given := ⟨.none, .none, false, false, .none, .none, .none⟩

def path (old : Option String) (value : String) : Except UsageError (Option String) :=
  if old.isSome then .error .argumentConflict
  else if value = "" then .error .invalidValue
  else .ok (some value)

/-- Counts a value. Extensions may be given several times, and several at a time. -/
def store (g : Given) (value : String) : Slot → Except UsageError Given
  | .entry => return { g with entry := ← path g.entry value }
  | .out => return { g with out := ← path g.out value }
  | .graph => return { g with graph := ← path g.graph value }
  | .extensions =>
    return { g with extensions := some (g.extensions.getD [] ++ splitText ',' value) }

def settle (g : Given) : Except UsageError Given :=
  match g.pending with
  | .none => .ok g
  | some (_, .none) => .error .invalidValue
  | some (slot, some value) => { g with pending := .none }.store value slot

def openSlot (g : Given) (slot : Slot) : Option String → Except UsageError Given
  | some value => do (← g.settle).store value slot
  | .none => return { ← g.settle with pending := some (slot, .none) }

def long (g : Given) (name : String) (value : Option String) : Except UsageError Given :=
  match name, value with
  | "out", value => g.openSlot .out value
  | "extensions", value => g.openSlot .extensions value
  | "graph", value => g.openSlot .graph value
  | "strict", .none => do
    let g ← g.settle
    if g.strict then throw .argumentConflict
    return { g with strict := true }
  | "parallel", .none => do
    let g ← g.settle
    if g.parallel then throw .argumentConflict
    return { g with parallel := true }
  | "help", .none => do
    let _ ← g.settle
    throw .displayHelp
  | "strict", some _ => .error .tooManyValues
  | "parallel", some _ => .error .tooManyValues
  | "help", some _ => .error .tooManyValues
  | _, _ => .error .unknownArgument

/-- The options of one dash; what follows a letter that takes a value is its value. -/
def short (g : Given) : List Char → Except UsageError Given
  | 'h' :: _ => do
    let _ ← g.settle
    throw .displayHelp
  | ['o'] => g.openSlot .out .none
  | 'o' :: '=' :: value => g.openSlot .out (some (String.ofList value))
  | 'o' :: value => g.openSlot .out (some (String.ofList value))
  | _ => .error .unknownArgument

def hasEntry (g : Given) : Bool :=
  g.entry.isSome || g.pending.any fun pending => pending.1 = .entry

def positional (g : Given) (text : String) : Except UsageError Given :=
  if g.hasEntry then .error .unknownArgument
  else return { ← g.settle with pending := some (.entry, some text) }

def splitValue (text : List Char) : String × Option String :=
  match text.dropWhile (· ≠ '=') with
  | [] => (String.ofList text, .none)
  | _ :: value => (String.ofList (text.takeWhile (· ≠ '=')), some (String.ofList value))

def argument (g : Given) (text : String) : Except UsageError Given :=
  match text.toList with
  | '-' :: '-' :: rest =>
    let (name, value) := splitValue rest
    g.long name value
  | '-' :: c :: rest => g.short (c :: rest)
  | _ =>
    match g.pending with
    | some (slot, .none) => .ok { g with pending := some (slot, some text) }
    | _ => g.positional text

def arguments (g : Given) : List String → Except UsageError Given
  | [] => g.settle
  | "--" :: rest => do (← rest.foldlM positional g).settle
  | text :: rest => do (← g.argument text).arguments rest

end Given

def parse (arguments : List String) : Except UsageError Options := do
  let given ← Given.none.arguments arguments
  match given.entry with
  | none => throw .missingRequiredArgument
  | some entry =>
    return {
      entry := ⟨entry⟩
      out := given.out.map Path.mk
      strict := given.strict
      parallel := given.parallel
      extensions := given.extensions.getD Extensions.default.list
      graph := given.graph.map Path.mk }

end Options

end ModuleBundle
