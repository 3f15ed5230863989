import ModuleBundle.CommandLine
import ModuleBundle.FileSystem.Disk

/-!
Runs of the program on a disk held as a value. What there is to print and to write is done
step by step, and the first file that cannot be written ends the run.
-/

set_option autoImplicit false

namespace ModuleBundle

structure Console where
  status : Nat
  printed : String
  reported : String
  disk : Disk
  deriving DecidableEq, Repr

namespace Disk

def perform (console : Console) : List Action → Console
  | [] => console
  | .print text :: rest => perform { console with printed := console.printed ++ text } rest
  | .report text :: rest => perform { console with reported := console.reported ++ text 0 } rest
  | .write path text :: rest =>
    match console.disk.write path text with
    | .ok disk => perform { console with disk } rest
    | .error e =>
      { console with status := 1, reported := console.reported ++ (Complaint.ofWrite path e).text }

/-- A run of the program on a disk. Usage errors and help are left to the terminal. -/
def run (d : Disk) (arguments : List String) : Console :=
  match Command.parse arguments with
  | .misuse => ⟨2, "", "", d⟩
  | .help => ⟨0, "", "", d⟩
  | .bundle options =>
    match (options.build d.fileSystem Analysis.analyzer d.generationLimit).outcome with
    | .finished graph =>
      perform ⟨0, "", "", d⟩ (options.actions ⟨false, some d.pathOfWorkingDirectory⟩ graph)
    | .failed e => ⟨1, "", (Complaint.ofBuild options.entry e).text, d⟩
    | .unfinished => ⟨1, "", "", d⟩

end Disk

end ModuleBundle
