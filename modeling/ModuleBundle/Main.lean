import ModuleBundle.CommandLine
import ModuleBundle.FileSystem.Observed

/-!
The program. A build is a function of what was observed of the disk; as long as one asks
about paths that nobody has looked at, these are looked at and the build is run again.
-/

set_option autoImplicit false

namespace ModuleBundle

def FileError.ofIO : IO.Error → FileError
  | .noFileOrDirectory .. => .noSuchFile
  | .inappropriateType _ 21 _ => .isDirectory
  | .inappropriateType .. => .notDirectory
  | .permissionDenied .. => .notPermitted
  | .otherError 40 _ => .tooManyLinks
  | .invalidArgument _ 36 _ => .nameTooLong
  | .userError _ => .notText
  | _ => .noSuchFile

namespace Observation

def ofDisk (path : Path) : IO Observation := do
  if path.text.contains '\x00' then return .missing path .nameWithEnd
  try
    let place ← IO.FS.realPath path.text
    match (← place.metadata).type with
    | .dir => return ⟨false, true, .error .isDirectory, ⟨place.toString⟩⟩
    | .file =>
      let contents ←
        try pure (Except.ok (← IO.FS.readFile place))
        catch e => pure (Except.error (FileError.ofIO e))
      return ⟨true, false, contents, ⟨place.toString⟩⟩
    | _ => return .missing path .noSuchFile
  catch e => return .missing path (.ofIO e)

end Observation

def Event.paths (extensions : Extensions) : Event → List Path
  | .resolve reference =>
    reference :: extensions.list.flatMap fun extension =>
      [reference.join ⟨indexStem ++ "." ++ extension⟩, reference.appendExtension extension]
  | .read path => [path]
  | .analyze _ _ => []

namespace Options

/-- Builds until everything that the build asks about has been observed. -/
partial def buildOnDisk (o : Options) (known : Observations) : IO Build := do
  let build := o.build known.fileSystem Analysis.analyzer known.generationLimit
  let asked := build.journal.flatMap (Event.paths (.ofList o.extensions))
  let found ← asked.foldlM (fun now path => do
    if now.knows path then return now else return now.insert path (← Observation.ofDisk path)) known
  if found.list.length = known.list.length then return build else o.buildOnDisk found

end Options

def perform (start : Nat) : List Action → IO UInt32
  | [] => return 0
  | .print text :: rest => do
    (← IO.getStdout).putStr text
    perform start rest
  | .report text :: rest => do
    (← IO.getStderr).putStr (text ((← IO.monoMsNow) - start))
    perform start rest
  | .write path text :: rest => do
    let failure ←
      try
        IO.FS.writeFile path.text text
        pure none
      catch e => pure (some (FileError.ofIO e))
    match failure with
    | none => perform start rest
    | some e => do
      (← IO.getStderr).putStr (Complaint.ofWrite path e).text
      return 1

def usage : String := "\n".intercalate
  ["Usage: bundle [OPTIONS] <ENTRY>",
   "",
   "  <ENTRY>                    A file, a path without extension, or a directory with an index",
   "  -o, --out <OUT>            Write the bundle to this file instead of printing it",
   "      --strict               Fail when a dependency cannot be resolved, read or parsed",
   "      --parallel             Load each generation of modules together",
   "      --extensions <LIST>    Extensions to try, in this order, separated by commas",
   "      --graph <GRAPH>        Also write the module graph as JSON to this file",
   "  -h, --help                 Show this text",
   ""]

def run (arguments : List String) : IO UInt32 := do
  let start ← IO.monoMsNow
  match Command.parse arguments with
  | .help => do
    (← IO.getStdout).putStr usage
    return 0
  | .misuse => do
    (← IO.getStderr).putStr usage
    return 2
  | .bundle options => do
    let stdout ← IO.getStdout
    let colors := Style.wanted (← stdout.isTty) (← IO.getEnv "CLICOLOR") (← IO.getEnv "NO_COLOR")
      (← IO.getEnv "CLICOLOR_FORCE")
    match (← options.buildOnDisk .empty).outcome with
    | .finished graph =>
      let here ← IO.currentDir
      perform start (options.actions ⟨colors, some ⟨here.toString⟩⟩ graph)
    | .failed e => do
      (← IO.getStderr).putStr (Complaint.ofBuild options.entry e).text
      return 1
    | .unfinished => return 1

end ModuleBundle

def main (arguments : List String) : IO UInt32 := ModuleBundle.run arguments
