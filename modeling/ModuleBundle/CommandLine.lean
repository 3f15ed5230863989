import ModuleBundle.Emission
import ModuleBundle.Graph.Build
import ModuleBundle.Graph.Dump
import ModuleBundle.Options
import ModuleBundle.Report
import ModuleBundle.Text.Split

/-!
The command line: what its arguments ask for, what there is to do once a build is finished,
and how it is said that something failed.
-/

set_option autoImplicit false

namespace ModuleBundle

/-- An error with what caused it, the outermost first. -/
structure Complaint where
  message : String
  causes : List String
  deriving DecidableEq, Repr

namespace Complaint

def ofBuild (entry : Path) (e : BundleError) : Complaint :=
  ⟨"Failed to bundle " ++ entry.text, [e.message, e.cause]⟩

def ofWrite (path : Path) (e : FileError) : Complaint :=
  ⟨"Failed to write " ++ path.text, [e.message]⟩

def indent (width : Nat) (message : String) : String :=
  ("\n" ++ String.ofList (List.replicate width ' ')).intercalate (splitText '\n' message)

def numbered (n : Nat) : List String → String
  | [] => ""
  | cause :: rest =>
    let number := toString n
    "\n" ++ String.ofList (List.replicate (5 - number.length) ' ') ++ number ++ ": " ++
      indent 7 cause ++ numbered (n + 1) rest

/-- Causes are numbered if there are several. -/
def text (c : Complaint) : String :=
  "Error: " ++ c.message ++
    (match c.causes with
      | [] => ""
      | [cause] => "\n\nCaused by:\n    " ++ indent 4 cause
      | causes => "\n\nCaused by:" ++ numbered 0 causes) ++ "\n"

end Complaint

inductive Action where
  | print (text : String)
  | write (path : Path) (text : String)
  /-- What is said at the end, given the milliseconds that it took. -/
  | report (text : Nat → String)

inductive Command where
  | bundle (options : Options)
  | help
  | misuse
  deriving DecidableEq, Repr

namespace Command

def ofTopic : List String → Command
  | [] => help
  | ["bundle"] => help
  | ["help"] => help
  | _ => misuse

def parse : List String → Command
  | "bundle" :: arguments =>
    match Options.parse arguments with
    | .ok options => bundle options
    | .error .displayHelp => help
    | .error _ => misuse
  | "help" :: topic => ofTopic topic
  | "--help" :: _ => help
  | argument :: _ => if "-h".toList.isPrefixOf argument.toList then help else misuse
  | [] => misuse

end Command

namespace Options

def workspace (o : Options) (fs : FileSystem) (analyzer : Analyzer) : Workspace :=
  { fileSystem := fs, extensions := .ofList o.extensions, analyzer, mode := o.mode }

/-- Of several failures, the first one in the order of discovery is reported. -/
def schedule (o : Options) : Schedule := if o.parallel then .together .inOrder else .inTurn

def build (o : Options) (fs : FileSystem) (analyzer : Analyzer) (limit : Nat) : Build :=
  .run (o.workspace fs analyzer) o.schedule limit o.entry

def actions (o : Options) (report : Report) (graph : Graph) : List Action :=
  (match o.out with
    | some path => .write path graph.emit
    | none => .print graph.emit) ::
  (o.graph.toList.map fun path => .write path graph.dump) ++
  [.report fun milliseconds =>
    report.summary graph milliseconds ++ ((o.out.map report.destination).getD "")]

end Options

end ModuleBundle
